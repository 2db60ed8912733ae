/-!
Texts. What a script, a channel, a variable or a scalar of a document holds may have any
code point in it, also a surrogate, which is no character by itself. So a text is a list
of letters, each a character or a surrogate.
-/
namespace Brainfuck

/-- One code point of a text. A surrogate is told by its place among the surrogates. -/
inductive Letter where
  | char (c : Char)
  | surrogate (offset : Fin 0x800)
deriving DecidableEq

instance : Coe Char Letter := ⟨.char⟩

namespace Letter

def firstSurrogate : Nat := 0xd800

def code : Letter → Nat
  | .char c => c.toNat
  | .surrogate offset => firstSurrogate + offset

/-- The letter of a code point below `0x110000`. -/
def ofCode (code : Nat) : Letter :=
  if h : firstSurrogate ≤ code ∧ code - firstSurrogate < 0x800 then
    .surrogate ⟨code - firstSurrogate, h.2⟩
  else .char (Char.ofNat code)

def char? : Letter → Option Char
  | .char c => some c
  | .surrogate _ => none

end Letter

abbrev Text := List Letter

namespace Text

def ofChars (chars : List Char) : Text := chars.map .char

def ofString (s : String) : Text := ofChars s.toList

instance : Coe String Text := ⟨ofString⟩

def chars? (text : Text) : Option (List Char) := text.mapM Letter.char?

/-- Texts are ordered by their code points. -/
def precedes : Text → Text → Bool
  | [], _ => true
  | _ :: _, [] => false
  | a :: s, b :: t => a.code < b.code || (a.code == b.code && precedes s t)

end Text

end Brainfuck
