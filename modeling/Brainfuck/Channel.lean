import Brainfuck.Sequence
import Brainfuck.Text.Quoted

/-!
Character buffers between the machine and the outside world. Characters leave at
the head in the order in which they were appended at the tail, so nothing is lost
between a write and the reads after it.
-/
namespace Brainfuck

structure Channel where
  buffer : Text := []
deriving DecidableEq

namespace Channel

def defaultCount : Int := 1

/-- Takes up to `count` characters from the head; a negative count takes none. -/
def read (channel : Channel) (count : Int) : Text × Channel :=
  (channel.buffer.take count.toNat, ⟨channel.buffer.drop count.toNat⟩)

def write (channel : Channel) : Option Text → Channel
  | none => channel
  | some data => ⟨channel.buffer ++ data⟩

def clear (_ : Channel) : Channel := {}

def size (channel : Channel) : Nat := channel.buffer.length

theorem read_append (channel : Channel) (count : Int) :
    (channel.read count).1 ++ (channel.read count).2.buffer = channel.buffer :=
  List.take_append_drop ..

theorem length_read (channel : Channel) (count : Int) :
    (channel.read count).1.length = min count.toNat channel.size := by
  simp [read, size]

theorem read_size (channel : Channel) : channel.read channel.size = (channel.buffer, {}) := by
  simp [read, size]

@[simp]
theorem buffer_write_none (channel : Channel) : (channel.write none).buffer = channel.buffer := rfl

@[simp]
theorem buffer_write_some (channel : Channel) (data : Text) :
    (channel.write (some data)).buffer = channel.buffer ++ data := rfl

@[simp]
theorem buffer_clear (channel : Channel) : channel.clear.buffer = [] := rfl

def describe (channel : Channel) : String :=
  "IOChannel(" ++ Text.quote channel.buffer ++ ")"

inductive Op where
  | read (count : Int)
  | write (data : Option Text)
  | clear
  | size
  | describe
deriving DecidableEq

inductive Reply where
  | done
  | data (letters : Text)
  | count (n : Nat)
  | description (text : String)
deriving DecidableEq

def perform (channel : Channel) : Op → Reply × Channel
  | .read count => let (letters, rest) := channel.read count; (.data letters, rest)
  | .write data => (.done, channel.write data)
  | .clear => (.done, channel.clear)
  | .size => (.count channel.size, channel)
  | .describe => (.description channel.describe, channel)

/-- The replies to operations in order, each with the channel after it. -/
def performAll (channel : Channel) (ops : List Op) : List (Reply × Channel) :=
  Sequence.answers perform Prod.snd channel ops

def carryOut (channel : Channel) (ops : List Op) : Channel :=
  Sequence.final perform Prod.snd channel ops

end Channel

inductive Channels where
  | separate (input output : Channel)
  | shared (channel : Channel)
deriving DecidableEq

namespace Channels

def input : Channels → Channel
  | .separate input _ => input
  | .shared channel => channel

def output : Channels → Channel
  | .separate _ output => output
  | .shared channel => channel

def withInput : Channels → Channel → Channels
  | .separate _ output, input => .separate input output
  | .shared _, channel => .shared channel

def withOutput : Channels → Channel → Channels
  | .separate input _, output => .separate input output
  | .shared _, channel => .shared channel

end Channels

end Brainfuck
