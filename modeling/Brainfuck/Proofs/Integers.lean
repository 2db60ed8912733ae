import Brainfuck.Numeral.Integer
import Mathlib.Data.List.DropRight
import Mathlib.Data.Nat.Digits.Lemmas

/-!
The grammar of integer texts. An integer is written with digits of any script, between which
single underscores may stand, behind at most one sign and between blanks. The reader accepts
exactly these texts, as long as they do not have too many digits, and returns the integer that
the digits denote.
-/
namespace Brainfuck.Numeral

/-- The value of a letter that is a decimal digit of any script. -/
def digitOf? (letter : Letter) : Option Nat := letter.char?.bind Text.digitValue?

/-- The blanks that may stand around an integer: of plain text not all controls are. -/
def isSpace : Letter → Bool
  | .char c => if c.toNat < 127 then Text.isPlainBlank c else Text.isBlank c
  | .surrogate _ => false

/-- Digits with at most one underscore between neighbours. -/
inductive Grouped : Text → List Nat → Prop
  | one {l : Letter} {d : Nat} (h : digitOf? l = some d) : Grouped [l] [d]
  | next {l : Letter} {d : Nat} {text : Text} {digits : List Nat} (h : digitOf? l = some d)
      (hrest : Grouped text digits) : Grouped (l :: text) (d :: digits)
  | mark {l : Letter} {d : Nat} {text : Text} {digits : List Nat} (h : digitOf? l = some d)
      (hrest : Grouped text digits) : Grouped (l :: .char '_' :: text) (d :: digits)

/-- A sign and what it multiplies by. -/
inductive Sign : Text → Int → Prop
  | absent : Sign [] 1
  | plus : Sign [.char '+'] 1
  | minus : Sign [.char '-'] (-1)

/-- An integer text and the integer that it denotes; one of too many digits denotes none. -/
inductive Denotes : Text → Int → Prop
  | intro {left sign body right : Text} {factor : Int} {digits : List Nat}
      (hleft : ∀ l ∈ left, isSpace l = true) (hsign : Sign sign factor)
      (hbody : Grouped body digits) (hright : ∀ l ∈ right, isSpace l = true)
      (hlength : digits.length ≤ maxDigits) :
      Denotes (left ++ (sign ++ body) ++ right) (factor * (Nat.ofDigits 10 digits.reverse : Nat))

theorem ofDigits_eq (base : Nat) (digits : List Nat) :
    ofDigits base digits = Nat.ofDigits base digits.reverse := by
  unfold ofDigits
  rw [Nat.ofDigits_eq_foldr, List.foldr_reverse]
  congr 1
  funext value d
  rw [Nat.mul_comm, Nat.add_comm]
  rfl

theorem digitValue?_lt {c : Char} {d : Nat} (h : Text.digitValue? c = some d) : d < 10 := by
  obtain ⟨first, hfirst, rfl⟩ := Option.map_eq_some_iff.mp h
  have hrange := List.find?_some hfirst
  simp only [Bool.and_eq_true, decide_eq_true_eq] at hrange
  omega

theorem isDigit_iff (c : Char) : c.isDigit = true ↔ 48 ≤ c.toNat ∧ c.toNat < 58 :=
  Char.isDigit_iff_toNat.trans (and_congr_right fun _ => Nat.lt_succ_iff.symm)

theorem isPlainBlank_of_isDigit {c : Char} (h : c.isDigit = true) :
    Text.isPlainBlank c = false := by
  have hrange := (isDigit_iff c).mp h
  rw [Bool.eq_false_iff]
  simp only [Text.isPlainBlank, ne_eq, Bool.or_eq_true, Bool.and_eq_true, decide_eq_true_eq,
    beq_iff_eq]
  omega

theorem isDigit_digitChar {d : Nat} (h : d < 10) : d.digitChar.isDigit = true := by
  rw [Nat.isDigit_digitChar]
  exact decide_eq_true h

theorem digitIn?_ten (c : Char) :
    digitIn? 10 c = if c.isDigit then some (c.toNat - 48) else none := by
  by_cases hdigit : c.isDigit
  · have hvalue : c.toNat - 48 < 10 := by
      have hrange := (isDigit_iff c).mp hdigit
      omega
    simp only [digitIn?, hdigit, if_true]
    exact if_pos hvalue
  · -- a letter stands for ten at least
    have hletter (n : Nat) : ¬ n + 10 < 10 := by omega
    simp only [digitIn?, hdigit, Bool.false_eq_true, if_false]
    split_ifs <;> simp_all

/-- Of plain characters only those of the first row are digits. -/
theorem digitValue?_of_plain {c : Char} (h : c.toNat < 127) :
    Text.digitValue? c = if c.isDigit then some (c.toNat - 48) else none := by
  have hrows : Text.digitZeros = 48 :: Text.digitZeros.tail := rfl
  have hothers : ∀ first ∈ Text.digitZeros.tail, 127 ≤ first := by decide
  have hrest : Text.digitZeros.tail.find?
      (fun first => first ≤ c.toNat && c.toNat < first + 10) = none := by
    rw [List.find?_eq_none]
    intro first hfirst hrange
    have hwide := hothers first hfirst
    simp only [Bool.and_eq_true, decide_eq_true_eq] at hrange
    omega
  have hdigit : (decide (48 ≤ c.toNat) && decide (c.toNat < 58)) = c.isDigit := by
    rw [Bool.eq_iff_iff, Bool.and_eq_true, decide_eq_true_iff, decide_eq_true_iff, isDigit_iff]
  unfold Text.digitValue?
  rw [hrows, List.find?_cons, hrest, hdigit]
  cases c.isDigit <;> rfl

/-- No blank stands in a row of digits. -/
theorem digitValue?_of_isBlank {c : Char} (hplain : ¬ c.toNat < 127) (h : Text.isBlank c = true) :
    Text.digitValue? c = none := by
  have hrows : ∀ first ∈ Text.digitZeros, first < 0x31 ∨ 0xa0 < first ∧ first + 10 ≤ 0x1680 ∨
      0x1680 < first ∧ first + 10 ≤ 0x2000 ∨ 0x3000 < first := by decide
  unfold Text.digitValue?
  rw [Option.map_eq_none_iff, List.find?_eq_none]
  intro first hfirst hrange
  have hrow := hrows first hfirst
  simp only [Text.isBlank, Bool.or_eq_true, Bool.and_eq_true, decide_eq_true_eq, beq_iff_eq]
    at h hrange
  omega

/-- What the plain form of a letter can be. -/
inductive FormCase : Letter → Char → Prop
  | plain {c : Char} (h : c.toNat < 127) : FormCase (.char c) c
  | blank {c : Char} (h : ¬ c.toNat < 127) (hblank : Text.isBlank c = true) : FormCase (.char c) ' '
  | digit {c : Char} {d : Nat} (h : ¬ c.toNat < 127) (hblank : Text.isBlank c = false)
      (hdigit : Text.digitValue? c = some d) : FormCase (.char c) d.digitChar
  | other {l : Letter} (hspace : isSpace l = false) (hdigit : digitOf? l = none) : FormCase l '?'

theorem formCase (l : Letter) : FormCase l (plainForm l) := by
  cases l with
  | surrogate offset => exact .other rfl rfl
  | char c =>
    simp only [plainForm]
    by_cases hplain : c.toNat < 127
    · rw [if_pos hplain]
      exact .plain hplain
    rw [if_neg hplain]
    cases hblank : Text.isBlank c with
    | true => exact .blank hplain hblank
    | false =>
      cases hdigit : Text.digitValue? c with
      | some d => exact .digit hplain hblank hdigit
      | none =>
        have hspace : isSpace (.char c) = false := by rw [isSpace, if_neg hplain, hblank]
        exact .other hspace hdigit

theorem FormCase.digitIn?_eq {l : Letter} {c : Char} (h : FormCase l c) :
    digitIn? 10 c = digitOf? l := by
  cases h with
  | plain h => rw [digitIn?_ten, ← digitValue?_of_plain h]; rfl
  | blank h hblank => exact (digitValue?_of_isBlank h hblank).symm
  | @digit c d h hblank hdigit =>
    have hlt := digitValue?_lt hdigit
    rw [digitIn?_ten, if_pos (isDigit_digitChar hlt), Nat.toNat_digitChar_of_lt_ten hlt,
      Nat.add_sub_cancel_left]
    exact hdigit.symm
  | other hspace hdigit => exact hdigit.symm

theorem FormCase.isPlainBlank_eq {l : Letter} {c : Char} (h : FormCase l c) :
    Text.isPlainBlank c = isSpace l := by
  cases h with
  | plain h => exact (if_pos h).symm
  | blank h hblank =>
    rw [isSpace, if_neg h, hblank]
    rfl
  | @digit c d h hblank hdigit =>
    have hdecimal := isDigit_digitChar (digitValue?_lt hdigit)
    rw [isSpace, if_neg h, hblank, isPlainBlank_of_isDigit hdecimal]
  | other hspace hdigit => exact hspace.symm

/-- The characters of integer texts that are neither digits nor blanks. -/
def isMark (c : Char) : Bool := c == '_' || c == '+' || c == '-'

theorem isDigit_of_isMark {c : Char} (h : isMark c = true) : c.isDigit = false := by
  simp only [isMark, Bool.or_eq_true, beq_iff_eq] at h
  rcases h with (rfl | rfl) | rfl <;> decide

/-- Only a mark itself has the form of a mark. -/
theorem FormCase.eq_of_isMark {l : Letter} {c : Char} (h : FormCase l c) (hmark : isMark c = true) :
    l = .char c := by
  cases h with
  | plain h => rfl
  | blank h hblank => exact absurd hmark (by decide)
  | @digit c d h hblank hdigit =>
    have hdecimal := isDigit_digitChar (digitValue?_lt hdigit)
    rw [isDigit_of_isMark hmark] at hdecimal
    cases hdecimal
  | other hspace hdigit => exact absurd hmark (by decide)

theorem digitIn?_plainForm (l : Letter) : digitIn? 10 (plainForm l) = digitOf? l :=
  (formCase l).digitIn?_eq

theorem plainForm_eq_iff {mark : Char} (h : isMark mark = true) (l : Letter) :
    plainForm l = mark ↔ l = .char mark := by
  constructor
  · rintro rfl
    exact (formCase l).eq_of_isMark h
  · rintro rfl
    simp only [isMark, Bool.or_eq_true, beq_iff_eq] at h
    rcases h with (rfl | rfl) | rfl <;> rfl

theorem plainForm_ne_of_digit {l : Letter} {d : Nat} (hdigit : digitOf? l = some d) {mark : Char}
    (h : isMark mark = true) : plainForm l ≠ mark := by
  rintro rfl
  rw [← digitIn?_plainForm, digitIn?_ten, isDigit_of_isMark h] at hdigit
  cases hdigit

section Digits

theorem Grouped.exists_cons {text : Text} {digits : List Nat} (h : Grouped text digits) :
    ∃ l d rest, text = l :: rest ∧ digitOf? l = some d := by
  cases h with
  | one h => exact ⟨_, _, _, rfl, h⟩
  | next h hrest => exact ⟨_, _, _, rfl, h⟩
  | mark h hrest => exact ⟨_, _, _, rfl, h⟩

theorem grouped?_of_grouped {text : Text} {digits : List Nat} (h : Grouped text digits) :
    grouped? 10 (text.map plainForm) = some digits := by
  induction h with
  | one h =>
    simp only [List.map_cons, List.map_nil, grouped?, digitIn?_plainForm, h, Option.map_some]
  | @next l d text digits h hrest ih =>
    -- the next letter is a digit, so it is no underscore
    obtain ⟨second, e, rest, rfl, hsecond⟩ := hrest.exists_cons
    have hmark : plainForm second ≠ '_' := plainForm_ne_of_digit hsecond (by decide)
    rw [List.map_cons, grouped?, digitIn?_plainForm, h, ih]
    · rfl
    · simp
    · simp [hmark]
  | mark h hrest ih =>
    rw [List.map_cons, List.map_cons, (plainForm_eq_iff (by decide) _).mpr rfl, grouped?,
      digitIn?_plainForm, h, ih]
    rfl

theorem exists_first_digit {l : Letter} {chars : List Char} {digits : List Nat}
    (h : (do
      let d ← digitIn? 10 (plainForm l)
      let ds ← grouped? 10 chars
      return d :: ds) = some digits) :
    ∃ d ds, digitOf? l = some d ∧ grouped? 10 chars = some ds ∧ digits = d :: ds := by
  simp only [Option.bind_eq_bind, Option.bind_eq_some_iff, digitIn?_plainForm] at h
  obtain ⟨d, hd, ds, hds, hdigits⟩ := h
  exact ⟨d, ds, hd, hds, (Option.some.inj hdigits).symm⟩

theorem grouped_of_grouped? {text : Text} {digits : List Nat}
    (h : grouped? 10 (text.map plainForm) = some digits) : Grouped text digits := by
  generalize hchars : text.map plainForm = chars at h
  fun_induction grouped? 10 chars generalizing text digits with
  | case1 => cases h
  | case2 c =>
    obtain ⟨l, rfl, rfl⟩ := List.map_eq_singleton_iff.mp hchars
    obtain ⟨d, hd, rfl⟩ := Option.map_eq_some_iff.mp h
    rw [digitIn?_plainForm] at hd
    exact .one hd
  | case3 c rest ih =>
    obtain ⟨l, text, rfl, rfl, hrest⟩ := List.map_eq_cons_iff.mp hchars
    obtain ⟨mark, text, rfl, hmark, rfl⟩ := List.map_eq_cons_iff.mp hrest
    rw [plainForm_eq_iff (by decide)] at hmark
    subst hmark
    obtain ⟨d, ds, hd, hds, rfl⟩ := exists_first_digit h
    exact .mark hd (ih rfl hds)
  | case4 c rest hempty hmark ih =>
    obtain ⟨l, text, rfl, rfl, rfl⟩ := List.map_eq_cons_iff.mp hchars
    obtain ⟨d, ds, hd, hds, rfl⟩ := exists_first_digit h
    exact .next hd (ih rfl hds)

/-- Digits and their groups hold nothing but digits and underscores. -/
theorem Grouped.isDigitOrMark {text : Text} {digits : List Nat} (h : Grouped text digits) :
    ∀ l ∈ text, Numeral.isDigitOrMark 10 (plainForm l) = true := by
  have hdigit {l : Letter} {d : Nat} (hd : digitOf? l = some d) :
      Numeral.isDigitOrMark 10 (plainForm l) = true := by
    rw [Numeral.isDigitOrMark, digitIn?_plainForm, hd]
    rfl
  induction h with
  | one h => simpa using hdigit h
  | next h hrest ih => simpa using ⟨hdigit h, ih⟩
  | mark h hrest ih => simpa using ⟨hdigit h, by decide, ih⟩

end Digits

section Trimming

/-- A text without the blanks at its ends. -/
def stripped (text : Text) : Text := (text.dropWhile isSpace).rdropWhile isSpace

theorem trimLeft_map (text : Text) :
    trimLeft (text.map plainForm) = (text.dropWhile isSpace).map plainForm := by
  have hspace : Text.isPlainBlank ∘ plainForm = isSpace :=
    funext fun l => (formCase l).isPlainBlank_eq
  rw [trimLeft, List.dropWhile_map, hspace]

theorem trimmed_eq (text : Text) : trimmed text = (stripped text).map plainForm := by
  rw [trimmed, trimLeft_map, trimRight, ← List.map_reverse, trimLeft_map, ← List.map_reverse]
  rfl

theorem exists_stripped (text : Text) : ∃ left right, text = left ++ stripped text ++ right ∧
    (∀ l ∈ left, isSpace l = true) ∧ ∀ l ∈ right, isSpace l = true := by
  refine ⟨text.takeWhile isSpace, (text.dropWhile isSpace).rtakeWhile isSpace, ?_,
    fun _ => List.mem_takeWhile_imp, fun _ => List.mem_rtakeWhile_imp⟩
  rw [List.append_assoc, stripped, List.rdropWhile_append_rtakeWhile,
    List.takeWhile_append_dropWhile]

/-- Blanks are stripped up to the first letter from either side that is none. -/
theorem dropWhile_spaces {left inner : Text} (hleft : ∀ l ∈ left, isSpace l = true)
    (hinner : ∀ l ∈ inner, isSpace l = false) (hne : inner ≠ []) (right : Text) :
    (left ++ (inner ++ right)).dropWhile isSpace = inner ++ right := by
  obtain ⟨first, rest, rfl⟩ := List.exists_cons_of_ne_nil hne
  have hfirst := hinner first List.mem_cons_self
  rw [List.dropWhile_append_of_pos hleft, List.cons_append, List.dropWhile_cons_of_neg]
  simp [hfirst]

theorem stripped_eq {left inner right : Text} (hleft : ∀ l ∈ left, isSpace l = true)
    (hinner : ∀ l ∈ inner, isSpace l = false) (hne : inner ≠ [])
    (hright : ∀ l ∈ right, isSpace l = true) : stripped (left ++ inner ++ right) = inner := by
  have hreverse : (right.reverse ++ (inner.reverse ++ [])).dropWhile isSpace =
      inner.reverse ++ [] :=
    dropWhile_spaces (by simpa using hright) (by simpa using hinner) (by simpa using hne) []
  rw [stripped, List.append_assoc, dropWhile_spaces hleft hinner hne, List.rdropWhile,
    List.reverse_append, ← List.append_nil inner.reverse, hreverse, List.append_nil,
    List.reverse_reverse]

end Trimming

section Reading

/-- What stands in front of the digits. -/
theorem exists_splitSign (text : Text) : ∃ sign body factor, text = sign ++ body ∧
    Sign sign factor ∧
    splitSign (text.map plainForm) = (decide (factor = -1), body.map plainForm) := by
  cases text with
  | nil => exact ⟨[], [], 1, rfl, .absent, rfl⟩
  | cons l rest =>
    by_cases hminus : plainForm l = '-'
    · obtain rfl := (plainForm_eq_iff (by decide) l).mp hminus
      exact ⟨[.char '-'], rest, -1, rfl, .minus, rfl⟩
    by_cases hplus : plainForm l = '+'
    · obtain rfl := (plainForm_eq_iff (by decide) l).mp hplus
      exact ⟨[.char '+'], rest, 1, rfl, .plus, rfl⟩
    refine ⟨[], l :: rest, 1, rfl, .absent, ?_⟩
    rw [List.map_cons, splitSign]
    · rfl
    · exact fun _ h => hminus (List.cons.inj h).1
    · exact fun _ h => hplus (List.cons.inj h).1

theorem splitSign_of_sign {sign body : Text} {factor : Int} {digits : List Nat}
    (hsign : Sign sign factor) (hbody : Grouped body digits) :
    splitSign ((sign ++ body).map plainForm) = (decide (factor = -1), body.map plainForm) := by
  cases hsign with
  | plus => rfl
  | minus => rfl
  | absent =>
    obtain ⟨l, d, rest, rfl, hdigit⟩ := hbody.exists_cons
    rw [List.nil_append, List.map_cons, splitSign]
    · rfl
    · exact fun _ h => plainForm_ne_of_digit hdigit (by decide) (List.cons.inj h).1
    · exact fun _ h => plainForm_ne_of_digit hdigit (by decide) (List.cons.inj h).1

theorem dropBaseMark_ten (text : List Char) : dropBaseMark 10 text = text := by
  unfold dropBaseMark
  split
  · simp
  · rfl

theorem isSpace_of_isDigitOrMark {l : Letter} (h : isDigitOrMark 10 (plainForm l) = true) :
    isSpace l = false := by
  rw [← (formCase l).isPlainBlank_eq]
  rw [isDigitOrMark, digitIn?_ten] at h
  cases hdigit : (plainForm l).isDigit with
  | true => exact isPlainBlank_of_isDigit hdigit
  | false =>
    rw [hdigit] at h
    have hmark : plainForm l = '_' := by simpa using h
    rw [hmark]
    decide

theorem Sign.isSpace {sign : Text} {factor : Int} (h : Sign sign factor) :
    ∀ l ∈ sign, Numeral.isSpace l = false := by
  cases h <;> decide

theorem Sign.signed_eq {sign : Text} {factor : Int} (h : Sign sign factor) (n : Nat) :
    (if decide (factor = -1) then -Int.ofNat n else (n : Int)) = factor * n := by
  cases h with
  | absent => exact (Int.one_mul _).symm
  | plus => exact (Int.one_mul _).symm
  | minus => exact (Int.neg_one_mul _).symm

theorem overlong_ten (digits : List Nat) :
    overlong 10 digits = true ↔ maxDigits < digits.length := by
  simp [overlong]

theorem denotes_of_readInteger {text : Text} {n : Int} (h : readInteger 10 text = .ok n) :
    Denotes text n := by
  obtain ⟨left, right, htext, hleft, hright⟩ := exists_stripped text
  obtain ⟨sign, body, factor, hstripped, hsign, hsplit⟩ := exists_splitSign (stripped text)
  simp only [readInteger, trimmed_eq, hsplit, dropBaseMark_ten] at h
  split at h
  · cases h
  rename_i digits hdigits
  by_cases hlong : overlong 10 digits
  · rw [if_pos hlong] at h
    cases h
  rw [if_neg hlong, hsign.signed_eq] at h
  by_cases hrest : (body.map plainForm).dropWhile (isDigitOrMark 10) = []
  · -- nothing follows the digits, so they are the whole body
    have hwhole := List.takeWhile_eq_self_iff.mpr (List.dropWhile_eq_nil_iff.mp hrest)
    rw [hwhole] at hdigits
    rw [hrest] at h
    cases h
    rw [htext, hstripped, ofDigits_eq]
    rw [overlong_ten, Nat.not_lt] at hlong
    exact .intro hleft hsign (grouped_of_grouped? hdigits) hright hlong
  · simp [hrest] at h

theorem Denotes.readInteger_eq {text : Text} {n : Int} (h : Denotes text n) :
    readInteger 10 text = .ok n := by
  obtain @⟨left, sign, body, right, factor, digits, hleft, hsign, hbody, hright, hlength⟩ := h
  have hinner : ∀ l ∈ sign ++ body, isSpace l = false := by
    intro l hl
    rcases List.mem_append.mp hl with hl | hl
    · exact hsign.isSpace l hl
    · exact isSpace_of_isDigitOrMark (hbody.isDigitOrMark l hl)
  have hne : sign ++ body ≠ [] := by
    obtain ⟨l, d, rest, rfl, -⟩ := hbody.exists_cons
    simp
  have hmarks : ∀ c ∈ body.map plainForm, isDigitOrMark 10 c = true := by
    simpa using hbody.isDigitOrMark
  have hlong : ¬ overlong 10 digits = true := by
    rw [overlong_ten, Nat.not_lt]
    exact hlength
  simp only [readInteger, trimmed_eq, stripped_eq hleft hinner hne hright,
    splitSign_of_sign hsign hbody, dropBaseMark_ten, List.takeWhile_eq_self_iff.mpr hmarks,
    List.dropWhile_eq_nil_iff.mpr hmarks, grouped?_of_grouped hbody]
  rw [if_neg hlong, hsign.signed_eq, ofDigits_eq]
  rfl

/-- A text is read as an integer exactly if it denotes one, which is then the result. -/
theorem readInteger_eq_ok_iff (text : Text) (n : Int) :
    readInteger 10 text = .ok n ↔ Denotes text n :=
  ⟨denotes_of_readInteger, Denotes.readInteger_eq⟩

theorem Denotes.unique {text : Text} {m n : Int} (hm : Denotes text m) (hn : Denotes text n) :
    m = n := by
  have hread := hm.readInteger_eq
  rw [hn.readInteger_eq] at hread
  exact (Except.ok.inj hread).symm

theorem Grouped.digits_lt {text : Text} {digits : List Nat} (h : Grouped text digits) :
    ∀ d ∈ digits, d < 10 := by
  have hlt {l : Letter} {d : Nat} (hd : digitOf? l = some d) : d < 10 := by
    obtain ⟨c, -, hc⟩ := Option.bind_eq_some_iff.mp hd
    exact digitValue?_lt hc
  induction h with
  | one h => simpa using hlt h
  | next h hrest ih => simpa using ⟨hlt h, ih⟩
  | mark h hrest ih => simpa using ⟨hlt h, ih⟩

/-- What can be read can be written. -/
theorem Denotes.isWritable {text : Text} {n : Int} (h : Denotes text n) :
    Numeral.isWritable n = true := by
  obtain @⟨left, sign, body, right, factor, digits, hleft, hsign, hbody, hright, hlength⟩ := h
  have hsize : (factor * (Nat.ofDigits 10 digits.reverse : Nat)).natAbs =
      Nat.ofDigits 10 digits.reverse := by
    cases hsign <;> simp
  have hdigits : ∀ d ∈ digits.reverse, d < 10 := by simpa using hbody.digits_lt
  have hbound := calc
    Nat.ofDigits 10 digits.reverse < 10 ^ digits.reverse.length :=
      Nat.ofDigits_lt_base_pow_length (by decide) hdigits
    _ = 10 ^ digits.length := by rw [List.length_reverse]
    _ ≤ 10 ^ maxDigits := Nat.pow_le_pow_right (by decide) hlength
  rw [Numeral.isWritable, hsize, natChars, decide_eq_true_iff]
  exact (Nat.length_toDigits_le_iff (by decide) (by decide)).mpr hbound

end Reading

section Renderings

/-- A text with an underscore between some neighbours. -/
inductive Spread : List Char → List Char → Prop
  | one (c : Char) : Spread [c] [c]
  | next (c : Char) {chars text : List Char} (h : Spread chars text) :
      Spread (c :: chars) (c :: text)
  | mark (c : Char) {chars text : List Char} (h : Spread chars text) :
      Spread (c :: chars) (c :: '_' :: text)

/-- The texts of a natural number: its digits behind zeros, with underscores between some of
them, behind a plus or not, and between plain blanks. -/
inductive Renders (n : Nat) : Text → Prop
  | intro {left plus body right : List Char} {zeros : Nat}
      (hleft : ∀ c ∈ left, Text.isPlainBlank c = true) (hplus : plus = [] ∨ plus = ['+'])
      (hbody : Spread (List.replicate zeros '0' ++ natChars n) body)
      (hright : ∀ c ∈ right, Text.isPlainBlank c = true)
      (hlength : zeros + (natChars n).length ≤ maxDigits) :
      Renders n (Text.ofChars (left ++ (plus ++ body) ++ right))

theorem isSpace_of_isPlainBlank {c : Char} (h : Text.isPlainBlank c = true) :
    isSpace (.char c) = true := by
  have hplain : c.toNat < 127 := by
    simp only [Text.isPlainBlank, Bool.or_eq_true, Bool.and_eq_true, decide_eq_true_eq,
      beq_iff_eq] at h
    omega
  rw [isSpace, if_pos hplain, h]

theorem digitOf?_of_isDigit {c : Char} (h : c.isDigit = true) :
    digitOf? (.char c) = some (c.toNat - 48) := by
  have hrange := (isDigit_iff c).mp h
  change Text.digitValue? c = _
  rw [digitValue?_of_plain (by omega), if_pos h]

theorem Spread.grouped {chars text : List Char} (h : Spread chars text)
    (hdigits : ∀ c ∈ chars, c.isDigit = true) :
    Grouped (Text.ofChars text) (chars.map fun c => c.toNat - 48) := by
  induction h with
  | one c => exact .one (digitOf?_of_isDigit (hdigits c List.mem_cons_self))
  | next c h ih =>
    obtain ⟨hc, hrest⟩ := List.forall_mem_cons.mp hdigits
    exact .next (digitOf?_of_isDigit hc) (ih hrest)
  | mark c h ih =>
    obtain ⟨hc, hrest⟩ := List.forall_mem_cons.mp hdigits
    exact .mark (digitOf?_of_isDigit hc) (ih hrest)

/-- Zeros in front of the digits of a number do not change it. -/
theorem ofDigits_padded (zeros n : Nat) :
    ofDigits 10 ((List.replicate zeros '0' ++ natChars n).map fun c => c.toNat - 48) = n := by
  have hvalue (chars : List Char) :
      ofDigits 10 (chars.map fun c => c.toNat - 48) = Nat.ofDigitChars 10 chars 0 := by
    rw [ofDigits, List.foldl_map, Nat.ofDigitChars_eq_foldl]
    congr 1
    funext value c
    rw [Nat.mul_comm]
    rfl
  rw [hvalue, Nat.ofDigitChars_append, Nat.ofDigitChars_replicate_zero, Nat.mul_zero, natChars,
    Nat.ofDigitChars_ten_toDigits]

theorem Renders.denotes {n : Nat} {text : Text} (h : Renders n text) : Denotes text n := by
  obtain @⟨left, plus, body, right, zeros, hleft, hplus, hbody, hright, hlength⟩ := h
  have hspaces {blanks : List Char} (h : ∀ c ∈ blanks, Text.isPlainBlank c = true) :
      ∀ l ∈ Text.ofChars blanks, isSpace l = true := by
    simpa [Text.ofChars] using fun c hc => isSpace_of_isPlainBlank (h c hc)
  have hsign : Sign (Text.ofChars plus) 1 := by
    rcases hplus with rfl | rfl
    · exact .absent
    · exact .plus
  have hdigits : ∀ c ∈ List.replicate zeros '0' ++ natChars n, c.isDigit = true := by
    intro c hc
    rcases List.mem_append.mp hc with hc | hc
    · rw [List.eq_of_mem_replicate hc]
      rfl
    · exact Nat.isDigit_of_mem_toDigits (by decide) (by decide) hc
  have hdenotes := Denotes.intro (hspaces hleft) hsign (hbody.grouped hdigits) (hspaces hright)
    (by simpa using hlength)
  rw [← ofDigits_eq, ofDigits_padded, Int.one_mul] at hdenotes
  simpa [Text.ofChars] using hdenotes

end Renderings

end Brainfuck.Numeral
