import Brainfuck.Session
import Brainfuck.Proofs.Sequences
import Brainfuck.Proofs.Streams

/-!
A client that takes turns with the machine: it makes a step, writes to the input or reads
from the output, in any order. As long as the input never runs dry, the order in which it
feeds and drains between the steps leaves no trace in the data or in the characters that
come out.
-/
namespace Brainfuck

theorem Machine.advance_one (m : Machine) : (m.advance 1).state = m.step.state := by
  simp only [advance, advanceFrom]
  split <;> rfl

namespace Session

/-- What a client does with a machine in its turn. -/
inductive Turn where
  | step
  | feed (piece : Text)
  | drain (count : Int)
deriving DecidableEq

namespace Turn

def request : Turn → Request
  | .step => .step 1
  | .feed piece => .input (.write (some piece))
  | .drain count => .output (.read count)

def isStep : Turn → Bool
  | .step => true
  | _ => false

def isFeed : Turn → Bool
  | .feed _ => true
  | _ => false

/-- What a turn adds to the input. -/
def piece : Turn → Text
  | .feed piece => piece
  | _ => []

end Turn

/-- The session after some turns. -/
def play (s : Session) (turns : List Turn) : Session := s.carryOut (turns.map Turn.request)

/-- The characters that a channel gave. -/
def Reply.letters : Reply → Text
  | .channel (.data letters) => letters
  | _ => []

/-- Everything that was drained in some turns. -/
def drained (s : Session) (turns : List Turn) : Text :=
  (s.handleAll (turns.map Turn.request)).flatMap (·.reply.letters)

/-- No turn is a step that asks for a character when there is none. -/
def alwaysFed (s : Session) : List Turn → Bool
  | [] => true
  | turn :: turns =>
      !(turn.isStep && s.machine.starved) && (s.handle turn.request).session.alwaysFed turns

theorem machine_handle_step (s : Session) :
    (s.handle Turn.step.request).session.machine = s.machine.step.state :=
  s.machine.advance_one

theorem letters_handle_step (s : Session) : (s.handle Turn.step.request).reply.letters = [] := by
  simp only [Turn.request, handle, ofMachine]
  split <;> rfl

theorem drained_cons (s : Session) (turn : Turn) (turns : List Turn) :
    s.drained (turn :: turns) = (s.handle turn.request).reply.letters ++
      (s.handle turn.request).session.drained turns := rfl

theorem isSeparate_handle (s : Session) (turn : Turn) :
    (s.handle turn.request).session.machine.channels.isSeparate =
      s.machine.channels.isSeparate := by
  cases turn with
  | step =>
    rw [s.machine_handle_step]
    exact s.machine.isSeparate_step
  | feed piece => exact s.machine.channels.isSeparate_withInput _
  | drain count => exact s.machine.channels.isSeparate_withOutput _

theorem isSeparate_play (s : Session) (turns : List Turn) :
    (s.play turns).machine.channels.isSeparate = s.machine.channels.isSeparate := by
  refine Sequence.final_keeps (·.machine.channels.isSeparate) (fun t r hr => ?_) s
  obtain ⟨turn, -, rfl⟩ := List.mem_map.mp hr
  exact t.isSeparate_handle turn

/-- Whatever has been fed and drained, the machine has come as far as one that had all the
input from the beginning and has kept all its output. -/
theorem extended_play {s : Session} (hs : s.machine.channels.isSeparate = true)
    {turns : List Turn} (hfed : s.alwaysFed turns = true) (written : Text) :
    (s.machine.extended (turns.flatMap Turn.piece) written).after (turns.countP Turn.isStep) =
      (s.play turns).machine.extended [] (written ++ s.drained turns) := by
  induction turns generalizing s written with
  | nil =>
    have hempty : written ++ s.drained [] = written := List.append_nil _
    rw [hempty]
    rfl
  | cons turn turns ih =>
    simp only [alwaysFed, Bool.and_eq_true] at hfed
    obtain ⟨hfirst, hrest⟩ := hfed
    have ih := ih ((s.isSeparate_handle turn).trans hs) hrest
    cases turn with
    | step =>
      have hstarved : s.machine.starved = false := by simpa [Turn.isStep] using hfirst
      rw [List.countP_cons_of_pos rfl, Machine.after_succ,
        Machine.step_extended (by simp [hstarved]), drained_cons, letters_handle_step,
        List.nil_append]
      rw [machine_handle_step] at ih
      exact ih written
    | feed piece =>
      rw [List.countP_cons_of_neg (by simp [Turn.isStep]), List.flatMap_cons,
        show (Turn.feed piece).piece = piece from rfl, ← Machine.extended_fed hs]
      exact ih written
    | drain count =>
      rw [List.countP_cons_of_neg (by simp [Turn.isStep]), ← Machine.extended_relieved hs count]
      have hdrained := ih (written ++ (s.machine.channels.output.read count).1)
      rw [List.append_assoc] at hdrained
      exact hdrained

theorem machine_play_feeds {s : Session} (hs : s.machine.channels.isSeparate = true)
    (turns : List Turn) :
    (s.play (turns.filter Turn.isFeed)).machine =
      s.machine.extended (turns.flatMap Turn.piece) [] := by
  induction turns generalizing s with
  | nil => exact (Machine.extended_nil hs).symm
  | cons turn turns ih =>
    cases turn with
    | feed piece =>
      rw [List.filter_cons_of_pos rfl, List.flatMap_cons,
        show (Turn.feed piece).piece = piece from rfl, ← Machine.extended_fed hs]
      exact ih ((s.isSeparate_handle (.feed piece)).trans hs)
    | step => exact ih hs
    | drain count => exact ih hs

theorem machine_play_steps (s : Session) (turns : List Turn) :
    (s.play (turns.filter Turn.isStep)).machine =
      s.machine.after (turns.countP Turn.isStep) := by
  induction turns generalizing s with
  | nil => rfl
  | cons turn turns ih =>
    cases turn with
    | step =>
      rw [List.filter_cons_of_pos rfl, List.countP_cons_of_pos rfl, Machine.after_succ,
        ← s.machine_handle_step]
      exact ih _
    | feed piece => exact ih s
    | drain count => exact ih s

/-- Feeding and draining commute with stepping. As long as no step asks for a character
when there is none, any turns lead to the same data and the same place in the script as
feeding all pieces first and then making the steps, and what was drained, followed by what
is left of the output, is the output of those steps. -/
theorem feeding_and_draining_commute {s : Session} {input output : Channel}
    (hchannels : s.machine.channels = .separate input output) {turns : List Turn}
    (hfed : s.alwaysFed turns = true) :
    let final := (s.play turns).machine
    let plain := (s.play (turns.filter Turn.isFeed ++ turns.filter Turn.isStep)).machine
    final.script = plain.script ∧ final.iptr = plain.iptr ∧ final.dptr = plain.dptr ∧
      final.tape = plain.tape ∧ final.cycles = plain.cycles ∧ final.blocks = plain.blocks ∧
      final.channels.input = plain.channels.input ∧
      s.drained turns ++ final.channels.output.buffer = plain.channels.output.buffer := by
  intro final plain
  have hs : s.machine.channels.isSeparate = true := by rw [hchannels]; rfl
  have hplain : plain = final.extended [] (s.drained turns) := by
    have hplay : plain = ((s.play (turns.filter Turn.isFeed)).play
        (turns.filter Turn.isStep)).machine := by
      simp only [plain, play, carryOut, Sequence.final, List.map_append, List.foldl_append]
    rw [hplay, machine_play_steps, machine_play_feeds hs]
    exact extended_play hs hfed []
  obtain ⟨_, _, hfinal⟩ := Channels.exists_separate ((s.isSeparate_play turns).trans hs)
  change final.channels = _ at hfinal
  rw [hplain]
  refine ⟨rfl, rfl, rfl, rfl, rfl, rfl, ?_, ?_⟩
  · rw [Machine.extended, hfinal, Channels.extended, List.append_nil]
    rfl
  · rw [Machine.extended, hfinal]
    rfl

/-- Characters that arrive one by one and are drained in between come out as if they had
all been there from the beginning. -/
theorem feeding_and_draining_in_echo :
    let m : Machine :=
      { settings := {}, memoryLength := ⟨1, by decide⟩, channels := .separate {} ⟨['x']⟩ }
    let s : Session := { machine := (m.loadScript ",.,[.,]").state }
    let turns : List Turn := [.drain 0, .feed ['a'], .step, .step, .drain 5, .feed ['b', 'c'],
      .step, .step, .step, .drain (-1), .step]
    s.alwaysFed turns = true ∧ s.drained turns = Text.ofString "xa" ∧
      (s.play turns).machine.channels.output.buffer = Text.ofString "b" ∧
      (s.play (turns.filter Turn.isFeed ++
        turns.filter Turn.isStep)).machine.channels.output.buffer = Text.ofString "xab" := by
  intro m s turns
  have hfed : s.alwaysFed turns = true := by decide
  have houtput := (feeding_and_draining_commute (s := s) rfl hfed).2.2.2.2.2.2.2
  exact ⟨hfed, by decide, by decide, houtput.symm.trans (by decide)⟩

end Session

end Brainfuck
