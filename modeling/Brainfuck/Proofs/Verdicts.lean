import Brainfuck.Proofs.Dictionaries
import Brainfuck.Settings.Basic

/-!
Verdicts on settings. The values that are given for settings are judged in a fixed order, so
that of several faults always the same one is told: keys that are no texts, then keys that
name no setting, then the three lengths, and last the policy. If there is no fault the
settings are the defaults with the given values in their places. Nothing of this depends on
the order of the entries, and all settings come back from their own entries.
-/
namespace Brainfuck

theorem EofPolicy.ofText?_name (policy : EofPolicy) :
    ofText? (Text.ofString policy.name) = some policy := by
  cases policy <;> decide

theorem EofPolicy.eq_of_ofText? {text : Text} {policy : EofPolicy}
    (h : ofText? text = some policy) : text = Text.ofString policy.name := by
  unfold ofText? at h
  have hsame := List.find?_some h
  exact (eq_of_beq hsame).symm

theorem EofPolicy.name_injective : Function.Injective EofPolicy.name := by
  intro a b h
  have hpolicy := ofText?_name a
  rw [h, ofText?_name] at hpolicy
  exact (Option.some.inj hpolicy).symm

theorem Positive.val_injective : Function.Injective Positive.val := by
  rintro ⟨m, hm⟩ ⟨n, hn⟩ rfl
  rfl

namespace Settings

/-- A positive integer that is no truth value. -/
def IsLength (value : Value) : Prop := ∃ n : Int, 0 < n ∧ value = .int n

/-- The name of a policy. -/
def NamesPolicy (value : Value) : Prop := ∃ policy : EofPolicy, value = .ofString policy.name

theorem checkPositive_val (name : String) (length : Positive) :
    checkPositive name (.int length.val) = .ok length :=
  dif_pos (Int.natCast_pos.mpr length.pos)

theorem exists_checkPositive {value : Value} (h : IsLength value) (name : String) :
    ∃ length : Positive, checkPositive name value = .ok length ∧ value = .int length.val := by
  obtain ⟨n, hpos, rfl⟩ := h
  have hcast : n = ((n.toNat : Nat) : Int) := by omega
  exact ⟨⟨n.toNat, by omega⟩, dif_pos hpos, congrArg Value.int hcast⟩

theorem checkPositive_of_not {value : Value} (h : ¬ IsLength value) (name : String) :
    checkPositive name value = .error (.notPositive name value) := by
  cases value with
  | int n =>
    have hpos : ¬ 0 < n := fun hpos => h ⟨n, hpos, rfl⟩
    exact dif_neg hpos
  | _ => rfl

theorem checkPolicy_name (policy : EofPolicy) :
    checkPolicy (.ofString policy.name) = .ok policy := by
  simp only [Value.ofString, checkPolicy, EofPolicy.ofText?_name]

theorem checkPolicy_of_not {value : Value} (h : ¬ NamesPolicy value) :
    checkPolicy value = .error (.unknownPolicy value) := by
  cases value with
  | text name =>
    cases hpolicy : EofPolicy.ofText? name with
    | none => simp only [checkPolicy, hpolicy]
    | some policy => exact absurd ⟨policy, congrArg _ (EofPolicy.eq_of_ofText? hpolicy)⟩ h
  | _ => rfl

/-- The settings that are lengths, in the order in which they are checked. -/
def lengthNames : List String := [memoryLengthName, stepLimitName, showRangeName]

/-- All settings by their names. -/
def toArguments (s : Settings) : List (String × Value) := [
  (memoryLengthName, .int s.memoryLength.val),
  (stepLimitName, .int s.stepLimit.val),
  (eofName, .ofString s.eof.name),
  (showRangeName, .int s.showRange.val)]

theorem toEntries_eq (s : Settings) : s.toEntries = Value.ofNamed s.toArguments := rfl

theorem names_toArguments_nodup (s : Settings) : (s.toArguments.map Prod.fst).Nodup := by
  have hnames : names.Nodup := by decide
  exact hnames

theorem toArguments_injective : Function.Injective toArguments := by
  intro s t h
  simp only [toArguments, List.cons.injEq, Prod.mk.injEq, true_and, and_true, Value.int.injEq,
    Int.natCast_inj] at h
  obtain ⟨hmemory, hstep, heof, hshow⟩ := h
  obtain ⟨memoryLength, stepLimit, eof, showRange⟩ := s
  congr 1
  · exact Positive.val_injective hmemory
  · exact Positive.val_injective hstep
  · exact EofPolicy.name_injective (Value.ofString_injective heof)
  · exact Positive.val_injective hshow

theorem toEntries_injective : Function.Injective toEntries := by
  intro s t h
  exact toArguments_injective (Value.ofNamed_injective h)

section Given

variable {given : String → Option Value}

/-- A length is a positive integer if it is given. -/
def LengthFits (given : String → Option Value) (name : String) : Prop :=
  ∀ value, given name = some value → IsLength value

/-- The policy has the name of one if it is given. -/
def PolicyFits (given : String → Option Value) : Prop :=
  ∀ value, given eofName = some value → NamesPolicy value

theorem exists_checkOr_length {name : String} (h : LengthFits given name) (fallback : Positive) :
    ∃ length : Positive, checkOr fallback (checkPositive name) (given name) = .ok length ∧
      Value.int length.val = (given name).getD (.int fallback.val) := by
  cases hgiven : given name with
  | none => exact ⟨fallback, rfl, rfl⟩
  | some value =>
    obtain ⟨length, hcheck, hvalue⟩ := exists_checkPositive (h value hgiven) name
    exact ⟨length, hcheck, hvalue.symm⟩

theorem exists_checkOr_policy (h : PolicyFits given) (fallback : EofPolicy) :
    ∃ policy : EofPolicy, checkOr fallback checkPolicy (given eofName) = .ok policy ∧
      Value.ofString policy.name = (given eofName).getD (.ofString fallback.name) := by
  cases hgiven : given eofName with
  | none => exact ⟨fallback, rfl, rfl⟩
  | some value =>
    obtain ⟨policy, rfl⟩ := h value hgiven
    exact ⟨policy, checkPolicy_name policy, rfl⟩

/-- If not all names have a property there is a first one without it. -/
theorem exists_first {all : List String} {P : String → Prop} (h : ¬ ∀ name ∈ all, P name) :
    ∃ before name after, all = before ++ name :: after ∧ (∀ other ∈ before, P other) ∧
      ¬ P name := by
  induction all with
  | nil => simp at h
  | cons first rest ih =>
    by_cases hfirst : P first
    · have hrest : ¬ ∀ name ∈ rest, P name := fun hrest =>
        h (List.forall_mem_cons.mpr ⟨hfirst, hrest⟩)
      obtain ⟨before, name, after, rfl, hbefore, hname⟩ := ih hrest
      exact ⟨first :: before, name, after, rfl, List.forall_mem_cons.mpr ⟨hfirst, hbefore⟩, hname⟩
    · exact ⟨[], first, rest, rfl, by simp, hfirst⟩

/-- The first length that is not one is told. -/
theorem ofGiven_notPositive {before after : List String} {name : String} {value : Value}
    (hnames : lengthNames = before ++ name :: after)
    (hbefore : ∀ other ∈ before, LengthFits given other) (hgiven : given name = some value)
    (hvalue : ¬ IsLength value) : ofGiven given = .error (.notPositive name value) := by
  have hcheck (fallback : Positive) : checkOr fallback (checkPositive name) (given name) =
      .error (.notPositive name value) := by
    rw [hgiven]
    exact checkPositive_of_not hvalue name
  rcases before with _ | ⟨first, _ | ⟨second, _ | ⟨third, before⟩⟩⟩
  · obtain ⟨rfl, -⟩ := List.cons.inj hnames
    simp only [ofGiven, bind, Except.bind, hcheck]
  · obtain ⟨rfl, hrest⟩ := List.cons.inj hnames
    obtain ⟨rfl, -⟩ := List.cons.inj hrest
    obtain ⟨memory, hmemory, -⟩ := exists_checkOr_length
      (hbefore memoryLengthName List.mem_cons_self) defaults.memoryLength
    simp only [ofGiven, bind, Except.bind, hmemory, hcheck]
  · obtain ⟨rfl, hrest⟩ := List.cons.inj hnames
    obtain ⟨rfl, hlast⟩ := List.cons.inj hrest
    obtain ⟨rfl, -⟩ := List.cons.inj hlast
    obtain ⟨memory, hmemory, -⟩ := exists_checkOr_length
      (hbefore memoryLengthName List.mem_cons_self) defaults.memoryLength
    obtain ⟨step, hstep, -⟩ := exists_checkOr_length
      (hbefore stepLimitName (List.mem_cons_of_mem _ List.mem_cons_self)) defaults.stepLimit
    simp only [ofGiven, bind, Except.bind, hmemory, hstep, hcheck]
  · have hlength := congrArg List.length hnames
    simp only [lengthNames, List.cons_append, List.length_cons, List.length_append,
      List.length_nil] at hlength
    omega

/-- If the lengths fit only the policy is left to be checked. -/
theorem exists_ofGiven_eq (h : ∀ name ∈ lengthNames, LengthFits given name) :
    ∃ memory step range : Positive,
      Value.int memory.val = (given memoryLengthName).getD (.int defaults.memoryLength.val) ∧
      Value.int step.val = (given stepLimitName).getD (.int defaults.stepLimit.val) ∧
      Value.int range.val = (given showRangeName).getD (.int defaults.showRange.val) ∧
      ofGiven given = (checkOr defaults.eof checkPolicy (given eofName)).map fun eof =>
        ⟨memory, step, eof, range⟩ := by
  obtain ⟨hmemory, hstep, hrange⟩ : LengthFits given memoryLengthName ∧
      LengthFits given stepLimitName ∧ LengthFits given showRangeName := by
    simpa [lengthNames] using h
  obtain ⟨memory, hmemory, hmemoryValue⟩ := exists_checkOr_length hmemory defaults.memoryLength
  obtain ⟨step, hstep, hstepValue⟩ := exists_checkOr_length hstep defaults.stepLimit
  obtain ⟨range, hrange, hrangeValue⟩ := exists_checkOr_length hrange defaults.showRange
  refine ⟨memory, step, range, hmemoryValue, hstepValue, hrangeValue, ?_⟩
  simp only [ofGiven, bind, Except.bind, hmemory, hstep, hrange]
  cases checkOr defaults.eof checkPolicy (given eofName) <;> rfl

/-- A policy that is none is told if the lengths fit. -/
theorem ofGiven_unknownPolicy {value : Value}
    (hlengths : ∀ name ∈ lengthNames, LengthFits given name) (hgiven : given eofName = some value)
    (hvalue : ¬ NamesPolicy value) : ofGiven given = .error (.unknownPolicy value) := by
  obtain ⟨memory, step, range, -, -, -, hgivenEq⟩ := exists_ofGiven_eq hlengths
  rw [hgivenEq, hgiven, checkOr, checkPolicy_of_not hvalue]
  rfl

/-- If everything fits the settings are what is given, and the defaults where nothing is. -/
theorem exists_ofGiven (hlengths : ∀ name ∈ lengthNames, LengthFits given name)
    (hpolicy : PolicyFits given) : ∃ s, ofGiven given = .ok s ∧
      s.toArguments = Value.overridden defaults.toArguments given := by
  obtain ⟨memory, step, range, hmemory, hstep, hrange, hgivenEq⟩ := exists_ofGiven_eq hlengths
  obtain ⟨policy, hcheck, hname⟩ := exists_checkOr_policy hpolicy defaults.eof
  refine ⟨⟨memory, step, policy, range⟩, ?_, ?_⟩
  · rw [hgivenEq, hcheck]
    rfl
  · simp only [toArguments, Value.overridden, List.map_cons, List.map_nil, hmemory, hstep, hrange,
      hname]

/-- What values that are given by name come to. -/
inductive GivenCase (given : String → Option Value) : Except Rejection Settings → Prop
  | notPositive {before after : List String} {name : String} {value : Value}
      (hnames : lengthNames = before ++ name :: after)
      (hbefore : ∀ other ∈ before, LengthFits given other) (hgiven : given name = some value)
      (hvalue : ¬ IsLength value) : GivenCase given (.error (.notPositive name value))
  | unknownPolicy {value : Value} (hlengths : ∀ name ∈ lengthNames, LengthFits given name)
      (hgiven : given eofName = some value) (hvalue : ¬ NamesPolicy value) :
      GivenCase given (.error (.unknownPolicy value))
  | accepted {s : Settings} (hlengths : ∀ name ∈ lengthNames, LengthFits given name)
      (hpolicy : PolicyFits given)
      (hvalues : s.toArguments = Value.overridden defaults.toArguments given) :
      GivenCase given (.ok s)

theorem givenCase (given : String → Option Value) : GivenCase given (ofGiven given) := by
  by_cases hlengths : ∀ name ∈ lengthNames, LengthFits given name
  · by_cases hpolicy : PolicyFits given
    · obtain ⟨s, hs, hvalues⟩ := exists_ofGiven hlengths hpolicy
      rw [hs]
      exact .accepted hlengths hpolicy hvalues
    · obtain ⟨value, hvalue⟩ := not_forall.mp hpolicy
      obtain ⟨hgiven, hvalue⟩ := Classical.not_imp.mp hvalue
      rw [ofGiven_unknownPolicy hlengths hgiven hvalue]
      exact .unknownPolicy hlengths hgiven hvalue
  · obtain ⟨before, name, after, hnames, hbefore, hname⟩ := exists_first hlengths
    obtain ⟨value, hvalue⟩ := not_forall.mp hname
    obtain ⟨hgiven, hvalue⟩ := Classical.not_imp.mp hvalue
    rw [ofGiven_notPositive hnames hbefore hgiven hvalue]
    exact .notPositive hnames hbefore hgiven hvalue

/-- A fault of the settings themselves, not one of how they are passed. -/
def Rejection.concernsSettings : Rejection → Bool
  | .notPositive .. | .unknownPolicy _ | .keysNotText _ | .unknownKeys _ => true
  | .unexpectedArgument _ | .reservedArgument _ => false

theorem concernsSettings_ofGiven {cause : Rejection} (h : ofGiven given = .error cause) :
    cause.concernsSettings = true := by
  have hcase := givenCase given
  rw [h] at hcase
  cases hcase <;> rfl

/-- Settings come back from their own values. -/
theorem ofGiven_toArguments {s : Settings}
    (h : ∀ pair ∈ s.toArguments, given pair.1 = some pair.2) : ofGiven given = .ok s := by
  obtain ⟨hmemory, hstep, heof, hrange⟩ : given memoryLengthName = some (.int s.memoryLength.val) ∧
      given stepLimitName = some (.int s.stepLimit.val) ∧
      given eofName = some (.ofString s.eof.name) ∧
      given showRangeName = some (.int s.showRange.val) := by
    simpa [toArguments] using h
  simp only [ofGiven, bind, Except.bind, hmemory, hstep, heof, hrange, checkOr, checkPositive_val,
    checkPolicy_name]
  rfl

end Given

/-- A key that is the name of a setting. -/
def NamesSetting (key : Value) : Prop := ∃ name ∈ names, key = .ofString name

theorem isSettingName_iff (name : Text) :
    isSettingName name = true ↔ NamesSetting (.text name) := by
  unfold isSettingName NamesSetting
  rw [List.any_eq_true]
  constructor
  · rintro ⟨known, hmem, hsame⟩
    exact ⟨known, hmem, congrArg Value.text (eq_of_beq hsame).symm⟩
  · rintro ⟨known, hmem, hsame⟩
    exact ⟨known, hmem, beq_iff_eq.mpr (Value.text.inj hsame).symm⟩

theorem isText_of_namesSetting {key : Value} (h : NamesSetting key) : isText key = true := by
  obtain ⟨name, -, rfl⟩ := h
  rfl

theorem exists_text {key : Value} (h : isText key = true) : ∃ name, key = .text name := by
  cases key with
  | text name => exact ⟨name, rfl⟩
  | _ => cases h

theorem textOf?_eq_some_iff {key : Value} {name : Text} :
    textOf? key = some name ↔ key = .text name := by
  cases key <;> simp [textOf?]

theorem mem_unknownNames_iff {keys : List Value} {name : Text} :
    name ∈ unknownNames keys ↔ .text name ∈ keys ∧ ¬ NamesSetting (.text name) := by
  unfold unknownNames
  rw [List.mem_mergeSort, List.mem_filter, List.mem_filterMap, ← isSettingName_iff]
  simp only [textOf?_eq_some_iff, exists_eq_right, Bool.not_eq_true, Bool.not_eq_eq_eq_not,
    Bool.not_true]

theorem unknownNames_sorted (keys : List Value) :
    (unknownNames keys).Pairwise fun s t => ¬ t.codes < s.codes := by
  unfold unknownNames
  apply List.Pairwise.imp _ (List.pairwise_mergeSort _ _ _)
  · intro s t hst
    exact (Text.precedes_iff s t).mp hst
  · intro s t u hst htu
    rw [Text.precedes_iff, List.not_lt] at *
    exact List.le_trans hst htu
  · intro s t
    rw [Bool.or_eq_true, Text.precedes_iff, Text.precedes_iff, List.not_lt, List.not_lt]
    exact List.le_total _ _

theorem nodup_texts {ν : Type} {entries : List (Value × ν)} (h : Value.Distinct entries) :
    ((entries.map Prod.fst).filterMap textOf?).Nodup := by
  unfold List.Nodup
  rw [List.pairwise_filterMap, List.pairwise_map]
  apply List.Pairwise.imp _ h
  intro a b hab s hs t ht hst
  rw [textOf?_eq_some_iff.mp hs, textOf?_eq_some_iff.mp ht, hst] at hab
  have hsame : (Value.text t).sameKey (.text t) = true := beq_self_eq_true t
  rw [hab] at hsame
  cases hsame

theorem unknownNames_ascending {ν : Type} {entries : List (Value × ν)}
    (h : Value.Distinct entries) :
    (unknownNames (entries.map Prod.fst)).Pairwise fun s t => s.codes < t.codes := by
  have hnodup : (unknownNames (entries.map Prod.fst)).Nodup := by
    unfold unknownNames
    rw [(List.mergeSort_perm _ _).nodup_iff]
    exact (nodup_texts h).filter _
  apply List.Pairwise.imp _ ((unknownNames_sorted _).and hnodup)
  rintro s t ⟨hle, hne⟩
  by_contra hlt
  rw [List.not_lt] at hle hlt
  exact hne (Text.codes_injective (List.le_antisymm hle hlt))

theorem unknownNames_perm {keys others : List Value} (h : keys.Perm others) :
    unknownNames others = unknownNames keys := by
  apply List.Perm.eq_of_pairwise _ (unknownNames_sorted others) (unknownNames_sorted keys)
  · unfold unknownNames
    have hfiltered := (h.filterMap textOf?).filter fun name => !isSettingName name
    exact ((List.mergeSort_perm _ _).trans hfiltered.symm).trans (List.mergeSort_perm _ _).symm
  · intro s t _ _ hst hts
    rw [List.not_lt] at hst hts
    exact Text.codes_injective (List.le_antisymm hst hts)

section Entries

variable {entries : Value.Entries}

/-- Values that are looked at only when they are needed might as well be there. -/
theorem ofKeyed_eq_ofEntries {α : Type} (reveal : α → Value) (entries : List (Value × α)) :
    ofKeyed reveal entries = ofEntries (entries.map fun entry => (entry.1, reveal entry.2)) := by
  unfold ofEntries ofKeyed
  rw [List.map_map]
  simp only [Value.lookup?_map, Function.comp_def, Option.map_id_fun, id_eq]

/-- The keys that are no texts, in the order of the entries. -/
def strays (entries : Value.Entries) : List Value :=
  (entries.map Prod.fst).filter fun key => !isText key

theorem strays_eq_nil (h : ∀ entry ∈ entries, isText entry.1 = true) : strays entries = [] := by
  unfold strays
  rw [List.filter_eq_nil_iff, List.forall_mem_map]
  intro entry hentry
  rw [h entry hentry]
  decide

theorem ofEntries_eq (entries : Value.Entries) :
    ofEntries entries =
      if (strays entries).isEmpty then
        if (unknownNames (entries.map Prod.fst)).isEmpty then
          ofGiven fun name => Value.lookup? name entries
        else .error (.unknownKeys (unknownNames (entries.map Prod.fst)))
      else .error (.keysNotText (strays entries)) := by
  simp only [ofEntries, ofKeyed, Option.map_id_fun, id_eq]
  change (if !(strays entries).isEmpty then _ else _) = _
  cases (strays entries).isEmpty with
  | false => rfl
  | true => cases (unknownNames (entries.map Prod.fst)).isEmpty <;> rfl

theorem ofEntries_keysNotText (h : ∃ entry ∈ entries, isText entry.1 = false) :
    ofEntries entries = .error (.keysNotText (strays entries)) := by
  obtain ⟨entry, hentry, hstray⟩ := h
  have hmem : entry.1 ∈ strays entries :=
    List.mem_filter.mpr ⟨List.mem_map_of_mem hentry, by rw [hstray]; rfl⟩
  rw [ofEntries_eq, if_neg]
  rw [List.isEmpty_iff]
  exact List.ne_nil_of_mem hmem

theorem ofEntries_unknownKeys (htext : ∀ entry ∈ entries, isText entry.1 = true)
    (h : ∃ entry ∈ entries, ¬ NamesSetting entry.1) :
    ofEntries entries = .error (.unknownKeys (unknownNames (entries.map Prod.fst))) := by
  obtain ⟨entry, hentry, hname⟩ := h
  obtain ⟨name, hkey⟩ := exists_text (htext entry hentry)
  rw [hkey] at hname
  have hmem : name ∈ unknownNames (entries.map Prod.fst) :=
    mem_unknownNames_iff.mpr ⟨hkey ▸ List.mem_map_of_mem hentry, hname⟩
  rw [ofEntries_eq, strays_eq_nil htext, if_pos List.isEmpty_nil, if_neg]
  rw [List.isEmpty_iff]
  exact List.ne_nil_of_mem hmem

theorem ofEntries_eq_ofGiven (h : ∀ entry ∈ entries, NamesSetting entry.1) :
    ofEntries entries = ofGiven fun name => Value.lookup? name entries := by
  have htext : ∀ entry ∈ entries, isText entry.1 = true := fun entry hentry =>
    isText_of_namesSetting (h entry hentry)
  have hknown : unknownNames (entries.map Prod.fst) = [] := by
    rw [List.eq_nil_iff_forall_not_mem]
    intro name hname
    obtain ⟨hkey, hunknown⟩ := mem_unknownNames_iff.mp hname
    obtain ⟨entry, hentry, hsame⟩ := List.mem_map.mp hkey
    exact hunknown (hsame ▸ h entry hentry)
  rw [ofEntries_eq, strays_eq_nil htext, hknown]
  rfl

theorem concernsSettings_ofEntries {cause : Rejection} (h : ofEntries entries = .error cause) :
    cause.concernsSettings = true := by
  rw [ofEntries_eq] at h
  split at h
  · split at h
    · exact concernsSettings_ofGiven h
    · cases h
      rfl
  · cases h
    rfl

/-- What a dictionary of settings comes to. Each case but the first presupposes that the
faults before it are absent. -/
inductive Verdict (entries : Value.Entries) : Except Rejection Settings → Prop
  | keysNotText (hstray : ∃ entry ∈ entries, isText entry.1 = false) :
      Verdict entries (.error (.keysNotText (strays entries)))
  | unknownKeys {unknown : List Text} (htext : ∀ entry ∈ entries, isText entry.1 = true)
      (hunknown : ∃ entry ∈ entries, ¬ NamesSetting entry.1)
      (hexactly : ∀ name, name ∈ unknown ↔
        .text name ∈ entries.map Prod.fst ∧ ¬ NamesSetting (.text name))
      (hascending : unknown.Pairwise fun s t => s.codes < t.codes) :
      Verdict entries (.error (.unknownKeys unknown))
  | notPositive {before after : List String} {name : String} {value : Value}
      (hknown : ∀ entry ∈ entries, NamesSetting entry.1)
      (hnames : lengthNames = before ++ name :: after)
      (hbefore : ∀ other ∈ before, ∀ v, (.ofString other, v) ∈ entries → IsLength v)
      (hentry : (.ofString name, value) ∈ entries) (hvalue : ¬ IsLength value) :
      Verdict entries (.error (.notPositive name value))
  | unknownPolicy {value : Value} (hknown : ∀ entry ∈ entries, NamesSetting entry.1)
      (hlengths : ∀ name ∈ lengthNames, ∀ v, (.ofString name, v) ∈ entries → IsLength v)
      (hentry : (.ofString eofName, value) ∈ entries) (hvalue : ¬ NamesPolicy value) :
      Verdict entries (.error (.unknownPolicy value))
  | accepted {s : Settings} (hknown : ∀ entry ∈ entries, NamesSetting entry.1)
      (hlengths : ∀ name ∈ lengthNames, ∀ v, (.ofString name, v) ∈ entries → IsLength v)
      (hpolicy : ∀ v, (.ofString eofName, v) ∈ entries → NamesPolicy v)
      (hvalues : s.toEntries = Value.ofPairs (defaults.toEntries ++ entries)) :
      Verdict entries (.ok s)

/-- With known keys the values that are given are put over the defaults. -/
theorem toEntries_of_overridden (hdistinct : Value.Distinct entries)
    (hknown : ∀ entry ∈ entries, NamesSetting entry.1) {s : Settings}
    (h : s.toArguments = Value.overridden defaults.toArguments (Value.lookup? · entries)) :
    s.toEntries = Value.ofPairs (defaults.toEntries ++ entries) := by
  rw [toEntries_eq, toEntries_eq, h,
    Value.ofPairs_ofNamed_append (names_toArguments_nodup defaults) hdistinct hknown]

theorem verdict_ofEntries (hdistinct : Value.Distinct entries) :
    Verdict entries (ofEntries entries) := by
  by_cases hstray : ∃ entry ∈ entries, isText entry.1 = false
  · rw [ofEntries_keysNotText hstray]
    exact .keysNotText hstray
  have htext : ∀ entry ∈ entries, isText entry.1 = true := by
    simpa using hstray
  by_cases hunknown : ∃ entry ∈ entries, ¬ NamesSetting entry.1
  · rw [ofEntries_unknownKeys htext hunknown]
    exact .unknownKeys htext hunknown (fun _ => mem_unknownNames_iff)
      (unknownNames_ascending hdistinct)
  have hknown : ∀ entry ∈ entries, NamesSetting entry.1 := by
    simpa using hunknown
  have hlookup {name : String} {value : Value} :
      (.ofString name, value) ∈ entries ↔ Value.lookup? name entries = some value :=
    hdistinct.lookup?_eq_some_iff.symm
  have hcase := givenCase (Value.lookup? · entries)
  rw [ofEntries_eq_ofGiven hknown]
  generalize ofGiven (Value.lookup? · entries) = result at hcase ⊢
  cases hcase with
  | notPositive hnames hbefore hgiven hvalue =>
    refine .notPositive hknown hnames ?_ (hlookup.mpr hgiven) hvalue
    intro other hother v hv
    exact hbefore other hother v (hlookup.mp hv)
  | unknownPolicy hlengths hgiven hvalue =>
    refine .unknownPolicy hknown ?_ (hlookup.mpr hgiven) hvalue
    intro name hname v hv
    exact hlengths name hname v (hlookup.mp hv)
  | accepted hlengths hpolicy hvalues =>
    refine .accepted hknown ?_ ?_ (toEntries_of_overridden hdistinct hknown hvalues)
    · intro name hname v hv
      exact hlengths name hname v (hlookup.mp hv)
    · intro v hv
      exact hpolicy v (hlookup.mp hv)

/-- The verdict leaves no choice. -/
theorem ofEntries_of_verdict (hdistinct : Value.Distinct entries)
    {result : Except Rejection Settings} (h : Verdict entries result) :
    ofEntries entries = result := by
  cases h with
  | keysNotText hstray => exact ofEntries_keysNotText hstray
  | unknownKeys htext hunknown hexactly hascending =>
    have hnames := Text.eq_of_ascending (unknownNames_ascending hdistinct) hascending fun name =>
      mem_unknownNames_iff.trans (hexactly name).symm
    rw [ofEntries_unknownKeys htext hunknown, hnames]
  | notPositive hknown hnames hbefore hentry hvalue =>
    rw [ofEntries_eq_ofGiven hknown]
    apply ofGiven_notPositive hnames _ (hdistinct.lookup?_eq_some_iff.mpr hentry) hvalue
    intro other hother v hv
    exact hbefore other hother v (Value.mem_of_lookup? hv)
  | unknownPolicy hknown hlengths hentry hvalue =>
    rw [ofEntries_eq_ofGiven hknown]
    apply ofGiven_unknownPolicy _ (hdistinct.lookup?_eq_some_iff.mpr hentry) hvalue
    intro name hname v hv
    exact hlengths name hname v (Value.mem_of_lookup? hv)
  | accepted hknown hlengths hpolicy hvalues =>
    obtain ⟨t, ht, htvalues⟩ := exists_ofGiven
      (fun name hname v hv => hlengths name hname v (Value.mem_of_lookup? hv))
      (fun v hv => hpolicy v (Value.mem_of_lookup? hv))
    have hsame := (toEntries_of_overridden hdistinct hknown htvalues).trans hvalues.symm
    rw [ofEntries_eq_ofGiven hknown, ht, toEntries_injective hsame]

theorem ofEntries_perm (hdistinct : Value.Distinct entries)
    (htext : ∀ entry ∈ entries, isText entry.1 = true) {others : Value.Entries}
    (hperm : entries.Perm others) : ofEntries others = ofEntries entries := by
  have hothers : ∀ entry ∈ others, isText entry.1 = true := fun entry hentry =>
    htext entry (hperm.mem_iff.mpr hentry)
  rw [ofEntries_eq, ofEntries_eq, strays_eq_nil htext, strays_eq_nil hothers,
    unknownNames_perm (hperm.map Prod.fst)]
  simp only [hdistinct.lookup?_perm hperm]

theorem ofEntries_toEntries (s : Settings) : ofEntries s.toEntries = .ok s := by
  have hknown : ∀ entry ∈ s.toEntries, NamesSetting entry.1 := by
    rw [toEntries_eq]
    intro entry hentry
    obtain ⟨pair, hpair, rfl⟩ := List.mem_map.mp hentry
    exact ⟨pair.1, List.mem_map_of_mem hpair, rfl⟩
  rw [ofEntries_eq_ofGiven hknown]
  apply ofGiven_toArguments
  intro pair hpair
  exact Value.lookup?_ofNamed s.names_toArguments_nodup hpair

end Entries

theorem name_prefix_notPositive (name : String) (value : Value) :
    Text.ofString name <+: (Rejection.notPositive name value).explanation := by
  simp only [Rejection.explanation, Text.ofString_append, List.append_assoc]
  exact List.prefix_append ..

theorem name_prefix_unknownPolicy (value : Value) :
    Text.ofString eofName <+: (Rejection.unknownPolicy value).explanation := by
  have hname : "eof_behaviour must be one of " = eofName ++ " must be one of " := by decide
  simp only [Rejection.explanation, hname, Text.ofString_append, List.append_assoc]
  exact List.prefix_append ..

/-- A dictionary is accepted exactly if it holds valid settings. It comes to what the verdict
says: the keys that are no texts are refused before those that name no setting, which are
told in ascending order, then the first length that is no positive integer, then the policy;
and without a fault the settings have the values of the defaults with the entries put over
them. A fault of a value is told with the name of the setting in front. If all keys are texts
the order of the entries makes no difference, not even to the fault that is told. All
settings, wherever they come from, are what their own entries say. -/
theorem entries_are_judged (entries : Value.Entries) (hdistinct : Value.Distinct entries) :
    (∀ result, ofEntries entries = result ↔ Verdict entries result) ∧
    (∀ unknown : List Text, (Rejection.unknownKeys unknown).message =
      Text.ofString "Unknown config keys: " ++ (Text.ofString ", ").intercalate unknown) ∧
    (∀ name value, Text.ofString name <+: (Rejection.notPositive name value).explanation) ∧
    (∀ value, Text.ofString eofName <+: (Rejection.unknownPolicy value).explanation) ∧
    ((∀ entry ∈ entries, isText entry.1 = true) →
      ∀ others : Value.Entries, entries.Perm others → ofEntries others = ofEntries entries) ∧
    ∀ s : Settings, ofEntries s.toEntries = .ok s := by
  refine ⟨?_, fun _ => rfl, name_prefix_notPositive, name_prefix_unknownPolicy, ?_,
    ofEntries_toEntries⟩
  · intro result
    constructor
    · rintro rfl
      exact verdict_ofEntries hdistinct
    · exact ofEntries_of_verdict hdistinct
  · intro htext others hperm
    exact ofEntries_perm hdistinct htext hperm

/-- Three faults at once, of which the one of the length that is checked first is told,
wherever it stands. -/
theorem entries_are_judged_with_three_faults :
    let entries := Value.ofNamed [(eofName, .ofString "explode"), (stepLimitName, .bool true),
      (memoryLengthName, .int 0)]
    Value.Distinct entries ∧
      ofEntries entries = .error (.notPositive memoryLengthName (.int 0)) ∧
      ofEntries entries.reverse = .error (.notPositive memoryLengthName (.int 0)) ∧
      ofEntries (toEntries {}) = .ok {} := by
  intro entries
  have hdistinct : Value.Distinct entries := Value.distinct_ofNamed (by decide)
  obtain ⟨hverdict, -, -, -, hperm, hround⟩ := entries_are_judged entries hdistinct
  have hknown : ∀ entry ∈ entries, NamesSetting entry.1 := by
    simp [entries, Value.ofNamed, NamesSetting, names]
  have hvalue : ¬ IsLength (.int 0) := by
    rintro ⟨n, hpos, hn⟩
    cases hn
    omega
  have hfault : ofEntries entries = .error (.notPositive memoryLengthName (.int 0)) := by
    apply (hverdict _).mpr
    have hnames : lengthNames = [] ++ memoryLengthName :: [stepLimitName, showRangeName] := rfl
    exact .notPositive hknown hnames (by simp) (by simp [entries, Value.ofNamed]) hvalue
  have hreversed := hperm (fun entry hentry => isText_of_namesSetting (hknown entry hentry))
    entries.reverse entries.reverse_perm.symm
  exact ⟨hdistinct, hfault, hreversed.trans hfault, hround {}⟩

end Settings

end Brainfuck
