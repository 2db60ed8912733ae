import Brainfuck.Proofs.Integers
import Brainfuck.Proofs.Verdicts
import Brainfuck.Settings.Environment

/-!
Settings told by environment variables. The variables are decoded exactly if each that is set
tells a positive integer, or the name of a policy, and then to the settings that they tell.
Texts that are no integers come before all other faults, that of the step limit first.
-/
namespace Brainfuck.Settings

open Numeral (Denotes Renders readInteger)

/-- What a variable makes of a setting: it keeps the default if the variable is not set. -/
def Told {α : Type} (tells : α → Text → Prop) (fallback value : α) : Option Text → Prop
  | none => value = fallback
  | some text => tells value text

/-- A length is told by a text of its number. -/
def ToldLength (tells : Nat → Text → Prop) : Positive → Positive → Option Text → Prop :=
  Told fun length => tells length.val

/-- A policy is told by its name. -/
def ToldPolicy : EofPolicy → EofPolicy → Option Text → Prop :=
  Told fun policy text => text = Text.ofString policy.name

/-- The settings that an environment tells if numbers are told by texts in the given way. There
is no variable for the range that is shown. -/
structure Tells (tells : Nat → Text → Prop) (environment : Environment) (s : Settings) :
    Prop where
  stepLimit : ToldLength tells defaults.stepLimit s.stepLimit (environment stepLimitVariable)
  memoryLength : ToldLength tells defaults.memoryLength s.memoryLength
    (environment memoryLengthVariable)
  eof : ToldPolicy defaults.eof s.eof (environment eofVariable)
  showRange : s.showRange = defaults.showRange

/-- A number told by any text that denotes it. -/
def Denoted (n : Nat) (text : Text) : Prop := Denotes text n

theorem Told.mono {α : Type} {tells more : α → Text → Prop}
    (hmore : ∀ value text, tells value text → more value text) {fallback value : α}
    {text? : Option Text} (h : Told tells fallback value text?) :
    Told more fallback value text? := by
  cases text? with
  | none => exact h
  | some text => exact hmore value text h

theorem Tells.mono {tells more : Nat → Text → Prop}
    (hmore : ∀ n text, tells n text → more n text) {environment : Environment} {s : Settings}
    (h : Tells tells environment s) : Tells more environment s where
  stepLimit := Told.mono (fun length : Positive => hmore length.val) h.stepLimit
  memoryLength := Told.mono (fun length : Positive => hmore length.val) h.memoryLength
  eof := h.eof
  showRange := h.showRange

section Faults

variable (environment : Environment)

/-- The variable is set to a text that is no integer. -/
def HoldsNoInteger (name : String) : Prop :=
  ∃ text, environment name = some text ∧ ∀ n, ¬ Denotes text n

/-- The variable is set to an integer that is not positive. -/
def HoldsNoLength (name : String) : Prop :=
  ∃ text n, environment name = some text ∧ Denotes text n ∧ n ≤ 0

/-- The variable for the policy is set to the name of none. -/
def HoldsNoPolicy : Prop :=
  ∃ text, environment eofVariable = some text ∧ ∀ policy : EofPolicy,
    text ≠ Text.ofString policy.name

/-- An error about the integer in a variable. -/
def BlamesInteger (name : String) (e : EnvironmentError) : Prop :=
  ∃ text cause, environment name = some text ∧
    readInteger 10 text = .error cause ∧ e = .integer cause

end Faults

variable {environment : Environment}

theorem ToldLength.not_holdsNoInteger {name : String} {fallback length : Positive}
    (h : ToldLength Denoted fallback length (environment name)) :
    ¬ HoldsNoInteger environment name := by
  rintro ⟨text, htext, hnone⟩
  rw [htext] at h
  exact hnone _ h

theorem ToldLength.not_holdsNoLength {name : String} {fallback length : Positive}
    (h : ToldLength Denoted fallback length (environment name)) :
    ¬ HoldsNoLength environment name := by
  rintro ⟨text, n, htext, hn, hle⟩
  rw [htext] at h
  have hsame : n = length.val := hn.unique h
  have hpos := length.pos
  omega

theorem ToldPolicy.not_holdsNoPolicy {fallback policy : EofPolicy}
    (h : ToldPolicy fallback policy (environment eofVariable)) :
    ¬ HoldsNoPolicy environment := by
  rintro ⟨text, htext, hnone⟩
  rw [htext] at h
  exact hnone policy h

theorem Told.unique {α : Type} {tells : α → Text → Prop}
    (hunique : ∀ text a b, tells a text → tells b text → a = b) {fallback a b : α}
    {text? : Option Text} (ha : Told tells fallback a text?) (hb : Told tells fallback b text?) :
    a = b := by
  cases text? with
  | none => exact ha.trans hb.symm
  | some text => exact hunique text a b ha hb

/-- An environment tells one choice of settings at most. -/
theorem Tells.unique {s t : Settings} (hs : Tells Denoted environment s)
    (ht : Tells Denoted environment t) : s = t := by
  have hlength (text : Text) (a b : Positive) (ha : Denoted a.val text)
      (hb : Denoted b.val text) : a = b :=
    Positive.val_injective (Int.ofNat.inj (ha.unique hb))
  have hpolicy (text : Text) (a b : EofPolicy) (ha : text = Text.ofString a.name)
      (hb : text = Text.ofString b.name) : a = b :=
    EofPolicy.name_injective (Text.ofString_injective (ha.symm.trans hb))
  have hstep := Told.unique hlength hs.stepLimit ht.stepLimit
  have hmemory := Told.unique hlength hs.memoryLength ht.memoryLength
  have heof := Told.unique hpolicy hs.eof ht.eof
  have hrange := hs.showRange.trans ht.showRange.symm
  cases s
  cases t
  cases hstep
  cases hmemory
  cases heof
  cases hrange
  rfl

/-- What reading a variable comes to. -/
inductive VariableCase (environment : Environment) (name : String) :
    Except EnvironmentError (Option Value) → Prop
  | unset (h : environment name = none) : VariableCase environment name (.ok none)
  | integer {text : Text} {n : Int} (h : environment name = some text)
      (hn : Denotes text n) : VariableCase environment name (.ok (some (.int n)))
  | unreadable {text : Text} {cause : Numeral.IntegerError} (h : environment name = some text)
      (hcause : readInteger 10 text = .error cause) :
      VariableCase environment name (.error (.integer cause))

theorem variableCase (environment : Environment) (name : String) :
    VariableCase environment name (readVariable environment name) := by
  cases hname : environment name with
  | none =>
    simp only [readVariable, hname]
    exact .unset hname
  | some text =>
    simp only [readVariable, hname]
    cases hread : readInteger 10 text with
    | ok n => exact .integer hname ((Numeral.readInteger_eq_ok_iff _ n).mp hread)
    | error cause => exact .unreadable hname hread

theorem eq_of_int_val {a b : Positive} (h : Value.int a.val = .int b.val) : a = b :=
  Positive.val_injective (Int.ofNat.inj (Value.int.inj h))

/-- A length is told if it is what the variable was read as. -/
theorem VariableCase.toldLength {name : String} {value? : Option Value} {fallback length : Positive}
    (hcase : VariableCase environment name (.ok value?))
    (h : Value.int length.val = value?.getD (.int fallback.val)) :
    ToldLength Denoted fallback length (environment name) := by
  cases hcase with
  | unset hname =>
    rw [hname]
    exact eq_of_int_val h
  | integer hname hn =>
    rw [hname]
    obtain rfl : (length.val : Int) = _ := Value.int.inj h
    exact hn

theorem toldPolicy {fallback policy : EofPolicy}
    (h : Value.ofString policy.name =
      ((environment eofVariable).map Value.text).getD (.ofString fallback.name)) :
    ToldPolicy fallback policy (environment eofVariable) := by
  cases henv : environment eofVariable with
  | none =>
    rw [henv] at h
    exact EofPolicy.name_injective (Value.ofString_injective h)
  | some text =>
    rw [henv] at h
    exact (Value.text.inj h).symm

/-- A variable that was read as no length holds none. -/
theorem VariableCase.holdsNoLength {name : String} {value : Value}
    (hcase : VariableCase environment name (.ok (some value))) (h : ¬ IsLength value) :
    HoldsNoLength environment name := by
  cases hcase with
  | @integer text n hname hn =>
    have hpos : ¬ 0 < n := fun hpos => h ⟨n, hpos, rfl⟩
    exact ⟨text, n, hname, hn, by omega⟩

theorem VariableCase.not_holdsNoInteger {name : String} {value? : Option Value}
    (hcase : VariableCase environment name (.ok value?)) : ¬ HoldsNoInteger environment name := by
  rintro ⟨text, htext, hnone⟩
  cases hcase with
  | unset hname =>
    rw [hname] at htext
    cases htext
  | integer hname hn =>
    rw [hname] at htext
    cases htext
    exact hnone _ hn

/-- After both integers are read the settings are made from what is given by the variables. -/
theorem exists_given {step memory : Option Value}
    (hstep : readVariable environment stepLimitVariable = .ok step)
    (hmemory : readVariable environment memoryLengthVariable = .ok memory) :
    ∃ given : String → Option Value, given stepLimitName = step ∧ given memoryLengthName = memory ∧
      given eofName = (environment eofVariable).map Value.text ∧ given showRangeName = none ∧
      ofEnvironment environment = (ofGiven given).mapError .rejected := by
  refine ⟨fun name => if name == stepLimitName then step
    else if name == memoryLengthName then memory
    else if name == eofName then (environment eofVariable).map Value.text
    else none, rfl, rfl, rfl, rfl, ?_⟩
  simp only [ofEnvironment, hstep, hmemory, bind, Except.bind]
  split
  · rename_i s hs
    rw [hs]
    rfl
  · rename_i cause hcause
    rw [hcause]
    rfl

/-- An error about the settings, which is also told as one. -/
def EnvironmentError.concernsSettings : EnvironmentError → Bool
  | .integer _ => true
  | .rejected cause => cause.concernsSettings && cause.isWritable

/-- What an environment comes to. -/
inductive EnvironmentCase (environment : Environment) : Except EnvironmentError Settings → Prop
  | stepLimit {e : EnvironmentError} (h : BlamesInteger environment stepLimitVariable e) :
      EnvironmentCase environment (.error e)
  | memoryLength {e : EnvironmentError} (hstep : ¬ HoldsNoInteger environment stepLimitVariable)
      (h : BlamesInteger environment memoryLengthVariable e) :
      EnvironmentCase environment (.error e)
  | rejected {cause : Rejection} (hstep : ¬ HoldsNoInteger environment stepLimitVariable)
      (hmemory : ¬ HoldsNoInteger environment memoryLengthVariable)
      (hfault : HoldsNoLength environment stepLimitVariable ∨
        HoldsNoLength environment memoryLengthVariable ∨ HoldsNoPolicy environment)
      (hcause : (EnvironmentError.rejected cause).concernsSettings = true) :
      EnvironmentCase environment (.error (.rejected cause))
  | accepted {s : Settings} (h : Tells Denoted environment s) : EnvironmentCase environment (.ok s)

/-- A length that is none is told with what was read. -/
theorem VariableCase.concernsSettings {name source : String} {value : Value}
    (hcase : VariableCase environment source (.ok (some value))) :
    (EnvironmentError.rejected (.notPositive name value)).concernsSettings = true := by
  cases hcase with
  | integer hname hn =>
    have hwritable := hn.isWritable
    simpa [EnvironmentError.concernsSettings, Rejection.concernsSettings, Rejection.isWritable,
      Rejection.quoted, Value.areWritable, Value.isWritable] using hwritable

theorem holdsNoPolicy_of_map {value : Value}
    (h : (environment eofVariable).map Value.text = some value) (hvalue : ¬ NamesPolicy value) :
    HoldsNoPolicy environment := by
  obtain ⟨text, htext, rfl⟩ := Option.map_eq_some_iff.mp h
  exact ⟨text, htext, fun policy hpolicy => hvalue ⟨policy, congrArg _ hpolicy⟩⟩

theorem environmentCase_of_read {step memory : Option Value}
    (hstep : readVariable environment stepLimitVariable = .ok step)
    (hmemory : readVariable environment memoryLengthVariable = .ok memory) :
    EnvironmentCase environment (ofEnvironment environment) := by
  obtain ⟨given, hgivenStep, hgivenMemory, hgivenEof, hgivenRange, henv⟩ :=
    exists_given hstep hmemory
  have hstepCase := variableCase environment stepLimitVariable
  have hmemoryCase := variableCase environment memoryLengthVariable
  rw [hstep] at hstepCase
  rw [hmemory] at hmemoryCase
  have hstepInteger := hstepCase.not_holdsNoInteger
  have hmemoryInteger := hmemoryCase.not_holdsNoInteger
  have hcase := givenCase given
  rw [henv]
  generalize ofGiven given = result at hcase
  cases hcase with
  | @notPositive before after name value hnames hbefore hname hvalue =>
    have hmem : name ∈ lengthNames := by simp [hnames]
    simp only [lengthNames, List.mem_cons, List.not_mem_nil, or_false] at hmem
    rcases hmem with rfl | rfl | rfl
    · obtain rfl := hgivenMemory.symm.trans hname
      exact .rejected hstepInteger hmemoryInteger (.inr (.inl (hmemoryCase.holdsNoLength hvalue)))
        hmemoryCase.concernsSettings
    · obtain rfl := hgivenStep.symm.trans hname
      exact .rejected hstepInteger hmemoryInteger (.inl (hstepCase.holdsNoLength hvalue))
        hstepCase.concernsSettings
    · -- no variable gives the range
      cases hgivenRange.symm.trans hname
  | unknownPolicy hlengths hname hvalue =>
    rw [hgivenEof] at hname
    have hpolicy := holdsNoPolicy_of_map hname hvalue
    refine .rejected hstepInteger hmemoryInteger (.inr (.inr hpolicy)) ?_
    obtain ⟨text, -, rfl⟩ := Option.map_eq_some_iff.mp hname
    rfl
  | @accepted s hlengths hpolicy hvalues =>
    simp only [toArguments, Value.overridden, List.map_cons, List.map_nil, List.cons.injEq,
      Prod.mk.injEq, true_and, and_true, hgivenStep, hgivenMemory, hgivenEof, hgivenRange]
      at hvalues
    obtain ⟨hmemoryValue, hstepValue, heofValue, hrangeValue⟩ := hvalues
    exact .accepted ⟨hstepCase.toldLength hstepValue, hmemoryCase.toldLength hmemoryValue,
      toldPolicy heofValue, eq_of_int_val hrangeValue⟩

theorem environmentCase (environment : Environment) :
    EnvironmentCase environment (ofEnvironment environment) := by
  have hstepCase := variableCase environment stepLimitVariable
  have hmemoryCase := variableCase environment memoryLengthVariable
  cases hstep : readVariable environment stepLimitVariable with
  | error e =>
    rw [hstep] at hstepCase
    have henv : ofEnvironment environment = .error e := by
      simp only [ofEnvironment, hstep, bind, Except.bind]
    rw [henv]
    cases hstepCase with
    | unreadable hname hcause => exact .stepLimit ⟨_, _, hname, hcause, rfl⟩
  | ok step =>
    rw [hstep] at hstepCase
    cases hmemory : readVariable environment memoryLengthVariable with
    | error e =>
      rw [hmemory] at hmemoryCase
      have henv : ofEnvironment environment = .error e := by
        simp only [ofEnvironment, hstep, hmemory, bind, Except.bind]
      rw [henv]
      cases hmemoryCase with
      | unreadable hname hcause =>
        exact .memoryLength hstepCase.not_holdsNoInteger ⟨_, _, hname, hcause, rfl⟩
    | ok memory => exact environmentCase_of_read hstep hmemory

theorem BlamesInteger.holdsNoInteger {name : String} {e : EnvironmentError}
    (h : BlamesInteger environment name e) : HoldsNoInteger environment name := by
  obtain ⟨text, cause, htext, hcause, -⟩ := h
  refine ⟨text, htext, fun n hn => ?_⟩
  rw [hn.readInteger_eq] at hcause
  cases hcause

theorem BlamesInteger.concernsSettings {name : String} {e : EnvironmentError}
    (h : BlamesInteger environment name e) : e.concernsSettings = true := by
  obtain ⟨text, cause, -, -, rfl⟩ := h
  rfl

/-- An environment is decoded to the settings that it tells. -/
theorem ofEnvironment_eq_ok_iff (environment : Environment) (s : Settings) :
    ofEnvironment environment = .ok s ↔ Tells Denoted environment s := by
  have hcase := environmentCase environment
  constructor
  · intro h
    rw [h] at hcase
    cases hcase with
    | accepted hs => exact hs
  · intro h
    generalize ofEnvironment environment = result at hcase ⊢
    cases hcase with
    | stepLimit hblame => exact absurd hblame.holdsNoInteger h.stepLimit.not_holdsNoInteger
    | memoryLength _ hblame => exact absurd hblame.holdsNoInteger h.memoryLength.not_holdsNoInteger
    | rejected _ _ hfault _ =>
      rcases hfault with hstep | hmemory | heof
      · exact absurd hstep h.stepLimit.not_holdsNoLength
      · exact absurd hmemory h.memoryLength.not_holdsNoLength
      · exact absurd heof h.eof.not_holdsNoPolicy
    | accepted ht => exact congrArg _ (ht.unique h)

/-- An environment is refused exactly for a length that is no positive integer or a policy that
is none. -/
theorem exists_error_iff (environment : Environment) :
    (∃ e, ofEnvironment environment = .error e) ↔
      (∃ name ∈ [stepLimitVariable, memoryLengthVariable],
        HoldsNoInteger environment name ∨ HoldsNoLength environment name) ∨
      HoldsNoPolicy environment := by
  have hcase := environmentCase environment
  generalize ofEnvironment environment = result at hcase ⊢
  cases hcase with
  | stepLimit hblame => simp [hblame.holdsNoInteger]
  | memoryLength _ hblame => simp [hblame.holdsNoInteger]
  | rejected _ _ hfault _ =>
    rcases hfault with hstep | hmemory | heof
    · simp [hstep]
    · simp [hmemory]
    · simp [heof]
  | accepted h =>
    simp [h.stepLimit.not_holdsNoInteger, h.stepLimit.not_holdsNoLength,
      h.memoryLength.not_holdsNoInteger, h.memoryLength.not_holdsNoLength,
      h.eof.not_holdsNoPolicy]

theorem exists_blame_stepLimit (h : HoldsNoInteger environment stepLimitVariable) :
    ∃ e, ofEnvironment environment = .error e ∧ BlamesInteger environment stepLimitVariable e := by
  have hcase := environmentCase environment
  generalize ofEnvironment environment = result at hcase ⊢
  cases hcase with
  | stepLimit hblame => exact ⟨_, rfl, hblame⟩
  | memoryLength hstep _ => exact absurd h hstep
  | rejected hstep _ _ _ => exact absurd h hstep
  | accepted hs => exact absurd h hs.stepLimit.not_holdsNoInteger

theorem exists_blame_memoryLength (hstep : ¬ HoldsNoInteger environment stepLimitVariable)
    (h : HoldsNoInteger environment memoryLengthVariable) :
    ∃ e, ofEnvironment environment = .error e ∧
      BlamesInteger environment memoryLengthVariable e := by
  have hcase := environmentCase environment
  generalize ofEnvironment environment = result at hcase ⊢
  cases hcase with
  | stepLimit hblame => exact absurd hblame.holdsNoInteger hstep
  | memoryLength _ hblame => exact ⟨_, rfl, hblame⟩
  | rejected _ hmemory _ _ => exact absurd h hmemory
  | accepted hs => exact absurd h hs.memoryLength.not_holdsNoInteger

theorem concernsSettings_ofEnvironment {e : EnvironmentError}
    (h : ofEnvironment environment = .error e) : e.concernsSettings = true := by
  have hcase := environmentCase environment
  rw [h] at hcase
  cases hcase with
  | stepLimit hblame => exact hblame.concernsSettings
  | memoryLength _ hblame => exact hblame.concernsSettings
  | rejected _ _ _ hcause => exact hcause

/-- A value is refused only after both integers are read. -/
theorem not_holdsNoInteger_of_rejected {cause : Rejection}
    (h : ofEnvironment environment = .error (.rejected cause)) :
    ¬ HoldsNoInteger environment stepLimitVariable ∧
      ¬ HoldsNoInteger environment memoryLengthVariable := by
  have hcase := environmentCase environment
  rw [h] at hcase
  generalize he : EnvironmentError.rejected cause = e at hcase
  cases hcase with
  | stepLimit hblame =>
    obtain ⟨text, integer, -, -, rfl⟩ := hblame
    cases he
  | memoryLength _ hblame =>
    obtain ⟨text, integer, -, -, rfl⟩ := hblame
    cases he
  | rejected hstep hmemory _ _ => exact ⟨hstep, hmemory⟩

/-- Settings that are spelled out are decoded, whatever else the environment holds. An
environment is refused exactly for a length that is no positive integer or a policy that is none,
with an error about the settings, and a text that is no integer is told first, that of the step
limit before that of the memory length. -/
theorem variables_are_decoded (environment : Environment) :
    (∀ s, Tells Renders environment s → ofEnvironment environment = .ok s) ∧
    (∀ s, ofEnvironment environment = .ok s ↔ Tells Denoted environment s) ∧
    ((∃ e, ofEnvironment environment = .error e) ↔
      (∃ name ∈ [stepLimitVariable, memoryLengthVariable],
        HoldsNoInteger environment name ∨ HoldsNoLength environment name) ∨
      HoldsNoPolicy environment) ∧
    (∀ e, ofEnvironment environment = .error e → e.concernsSettings = true) ∧
    (HoldsNoInteger environment stepLimitVariable →
      ∃ e, ofEnvironment environment = .error e ∧ BlamesInteger environment stepLimitVariable e) ∧
    (¬ HoldsNoInteger environment stepLimitVariable →
      HoldsNoInteger environment memoryLengthVariable →
      ∃ e, ofEnvironment environment = .error e ∧
        BlamesInteger environment memoryLengthVariable e) ∧
    ∀ cause, ofEnvironment environment = .error (.rejected cause) →
      ¬ HoldsNoInteger environment stepLimitVariable ∧
      ¬ HoldsNoInteger environment memoryLengthVariable := by
  refine ⟨?_, ofEnvironment_eq_ok_iff environment, exists_error_iff environment,
    fun _ => concernsSettings_ofEnvironment, exists_blame_stepLimit, exists_blame_memoryLength,
    fun _ => not_holdsNoInteger_of_rejected⟩
  intro s h
  exact (ofEnvironment_eq_ok_iff environment s).mpr (h.mono fun _ _ => Renders.denotes)

/-- Spellings with blanks, zeros, underscores and a plus beside a variable of another use; and
two texts that are no integers beside the name of no policy. -/
theorem variables_are_decoded_beside_others :
    let spelled : Environment := fun name => ([(stepLimitVariable, " \t+00_12_3\n"),
      (memoryLengthVariable, "1_6"), ("BF_SHOW", "off")].lookup name).map Text.ofString
    let misspelled : Environment := fun name => ([(stepLimitVariable, "1__0"),
      (memoryLengthVariable, "_10"), (eofVariable, "explode")].lookup name).map Text.ofString
    ofEnvironment spelled = .ok { stepLimit := ⟨123, by decide⟩, memoryLength := ⟨16, by decide⟩ } ∧
      ofEnvironment misspelled = .error (.integer (.malformed 10 (Text.ofString "1__0"))) := by
  intro spelled misspelled
  have hstep : Renders 123 (Text.ofString " \t+00_12_3\n") := by
    have hleft : ∀ c ∈ [' ', '\t'], Text.isPlainBlank c = true := by simp [Text.isPlainBlank]
    have hplus : ['+'] = [] ∨ ['+'] = ['+'] := .inr rfl
    have hbody : Numeral.Spread (List.replicate 2 '0' ++ Numeral.natChars 123)
        ['0', '0', '_', '1', '2', '_', '3'] :=
      .next '0' (.mark '0' (.next '1' (.mark '2' (.one '3'))))
    have hright : ∀ c ∈ ['\n'], Text.isPlainBlank c = true := by simp [Text.isPlainBlank]
    exact .intro hleft hplus hbody hright (by decide)
  have hmemory : Renders 16 (Text.ofString "1_6") := by
    have hbody : Numeral.Spread (List.replicate 0 '0' ++ Numeral.natChars 16) ['1', '_', '6'] :=
      .mark '1' (.one '6')
    exact .intro (List.forall_mem_nil _) (.inl rfl) hbody (List.forall_mem_nil _) (by decide)
  have hread : readInteger 10 (Text.ofString "1__0") =
      .error (.malformed 10 (Text.ofString "1__0")) := by decide
  have hnone : HoldsNoInteger misspelled stepLimitVariable := by
    refine ⟨Text.ofString "1__0", rfl, fun n hn => ?_⟩
    cases hn.readInteger_eq.symm.trans hread
  obtain ⟨hspelled, -⟩ := variables_are_decoded spelled
  obtain ⟨-, -, -, -, hfirst, -⟩ := variables_are_decoded misspelled
  obtain ⟨e, herror, text, cause, htext, hcause, rfl⟩ := hfirst hnone
  refine ⟨hspelled _ ⟨hstep, hmemory, rfl, rfl⟩, ?_⟩
  obtain rfl := Option.some.inj htext
  rw [herror, Except.error.inj (hcause.symm.trans hread)]

end Brainfuck.Settings
