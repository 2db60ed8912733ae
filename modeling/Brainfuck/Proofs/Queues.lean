import Brainfuck.Channel
import Brainfuck.Proofs.Sequences

/-!
Channels as queues. As long as a channel is not cleared, what stood in it and what is written
to it come out again in the same order, each character once: at any time the characters that
were read, followed by those that are still there, are the ones that were put in. How the
characters are cut into reads makes no difference to this.
-/
namespace Brainfuck.Channel

/-- The characters that an operation puts into a channel. -/
def Op.appended : Op → Text
  | .write (some data) => data
  | .write none | .read _ | .clear | .size | .describe => []

/-- The characters that an operation returns. -/
def Reply.returned : Reply → Text
  | .data letters => letters
  | .done | .count _ | .description _ => []

/-- The characters that some operations return, one after the other. -/
def returned (channel : Channel) (ops : List Op) : Text :=
  (channel.performAll ops).flatMap fun answer => answer.1.returned

/-- An operation that does not clear the channel neither loses nor invents a character. -/
theorem perform_conserves (channel : Channel) {op : Op} (hop : op ≠ .clear) :
    channel.buffer ++ op.appended =
      (channel.perform op).1.returned ++ (channel.perform op).2.buffer := by
  cases op with
  | read count =>
    rw [Op.appended, List.append_nil]
    exact (channel.read_append count).symm
  | write data =>
    cases data with
    | none => exact List.append_nil _
    | some data => rfl
  | clear => exact absurd rfl hop
  | size => exact List.append_nil _
  | describe => exact List.append_nil _

theorem performAll_conserves (channel : Channel) {ops : List Op}
    (hops : ∀ op ∈ ops, op ≠ .clear) :
    channel.buffer ++ ops.flatMap Op.appended =
      channel.returned ops ++ (channel.carryOut ops).buffer := by
  induction ops generalizing channel with
  | nil => exact List.append_nil _
  | cons op ops ih =>
    have hop := channel.perform_conserves (hops op List.mem_cons_self)
    have hrest := ih (channel.perform op).2 fun other h => hops other (List.mem_cons_of_mem _ h)
    calc channel.buffer ++ (op.appended ++ ops.flatMap Op.appended)
        = (channel.perform op).1.returned ++
            ((channel.perform op).2.buffer ++ ops.flatMap Op.appended) := by
          rw [← List.append_assoc, hop, List.append_assoc]
      _ = (channel.perform op).1.returned ++ ((channel.perform op).2.returned ops ++
            ((channel.perform op).2.carryOut ops).buffer) := by
          rw [hrest]
      _ = channel.returned (op :: ops) ++ (channel.carryOut (op :: ops)).buffer :=
          (List.append_assoc ..).symm

/-- Two reads in a row are one read of as many characters. -/
theorem read_read (channel : Channel) (m n : Int) :
    ((channel.read m).1 ++ ((channel.read m).2.read n).1, ((channel.read m).2.read n).2) =
      channel.read (max m 0 + max n 0) := by
  have hcount : (max m 0 + max n 0).toNat = m.toNat + n.toNat := by omega
  simp only [read, hcount, List.take_add, List.drop_drop]

/-- A channel is a lossless queue. After any operations, what stands in it and what is
written from then on is, as long as it is not cleared, what the reads from then on return
and what is left. Each read takes as many characters as it is asked for and as there are,
none if the count is negative, and two reads take together and leave what one read of both
counts does. -/
theorem channel_is_lossless_queue (channel : Channel) (earlier : List Op) :
    let start := channel.carryOut earlier
    (∀ later : List Op, (∀ op ∈ later, op ≠ .clear) →
      channel.performAll (earlier ++ later) =
          channel.performAll earlier ++ start.performAll later ∧
        start.buffer ++ later.flatMap Op.appended =
          start.returned later ++ (start.carryOut later).buffer) ∧
    (∀ count : Int, ((start.read count).1.length : Int) = min (max count 0) start.size) ∧
    ∀ m n : Int,
      ((start.read m).1 ++ ((start.read m).2.read n).1, ((start.read m).2.read n).2) =
        start.read (max m 0 + max n 0) := by
  intro start
  refine ⟨?_, ?_, start.read_read⟩
  · intro later hlater
    exact ⟨Sequence.answers_append channel earlier later, start.performAll_conserves hlater⟩
  · intro count
    have hlength := start.length_read count
    omega

/-- A stretch behind a clear, with a read from the wrong end, one of too many characters, and
one in two parts. -/
theorem channel_is_lossless_queue_after_clear :
    let start := carryOut ⟨['x', 'y']⟩ [.read 1, .clear, .write (some ['a', 'b'])]
    let later : List Op :=
      [.read (-1), .write none, .read 1, .write (some ['c', 'd']), .size, .read 2, .read 9]
    start.buffer = ['a', 'b'] ∧ start.returned later = ['a', 'b', 'c', 'd'] ∧
      start.buffer ++ later.flatMap Op.appended =
        start.returned later ++ (start.carryOut later).buffer ∧
      ((start.read (-3)).1.length : Int) = 0 ∧
      ((start.read (-3)).1 ++ ((start.read (-3)).2.read 7).1, ((start.read (-3)).2.read 7).2) =
        start.read 7 := by
  intro start later
  obtain ⟨hconserved, hlength, hreads⟩ := channel_is_lossless_queue ⟨['x', 'y']⟩
    [.read 1, .clear, .write (some ['a', 'b'])]
  exact ⟨by decide, by decide, (hconserved later (by decide)).2, hlength (-3), hreads (-3) 7⟩

end Brainfuck.Channel
