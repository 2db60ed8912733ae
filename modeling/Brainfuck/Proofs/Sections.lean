import Brainfuck.Proofs.Verdicts
import Brainfuck.Settings.File

/-!
Sections of settings files. A file gives its settings at the top or in a section for the
interpreter, and it makes no difference which: the same mapping gives the same settings and
the same faults in both places, whatever stands beside the section. Everything here is said
of the settings of any source, so it holds of those of a value, which are the settings of
`Source.values`, and of those of a document, where a collection may lie inside itself and
which are the settings of `Source.nodes`.
-/
namespace Brainfuck.Settings

theorem misnamed?_toArguments (s : Settings) :
    (s.toArguments.findSome? fun argument => misnamed? argument.1) = none := by
  have hnames : ∀ name ∈ names, misnamed? name = none := by decide
  rw [List.findSome?_eq_none_iff]
  intro argument hargument
  exact hnames argument.1 (List.mem_map_of_mem hargument)

/-- Settings pass the checks of their own arguments. -/
theorem ofArguments_toArguments (s : Settings) : ofArguments s.toArguments = .ok s := by
  unfold ofArguments
  rw [s.misnamed?_toArguments]
  apply ofGiven_toArguments
  simp only [toArguments, List.forall_mem_cons]
  exact ⟨rfl, rfl, rfl, rfl, List.forall_mem_nil _⟩

/-- An error about what a file holds, not about getting at it. -/
def FileError.concernsSettings : FileError → Bool
  | .notMapping | .sectionNotMapping => true
  | .rejected cause => cause.concernsSettings
  | .missing | .undecodable | .document _ => false

/-- Whether what is seen counts as not given: nothing, false, zero or empty. -/
def Outline.isVacant {α : Type} : Outline α → Bool
  | .null => true
  | .mapping entries => entries.isEmpty
  | .other vacant => vacant

theorem isVacant_valueOutline (value : Value) :
    (valueOutline value).isVacant = value.isVacant := by
  cases value <;> rfl

namespace Source

variable {α β : Type} {source : Source α} {other : Source β}

/-- What is seen of an item is a mapping, and its entries are these. -/
def Holds (source : Source α) (item : α) (entries : Value.Entries) : Prop :=
  ∃ parts : List (Value × α), source.outline item = .mapping parts ∧
    parts.map (fun part => (part.1, source.reveal part.2)) = entries

/-- What is seen of the root is a dictionary that has the item as its section. -/
def Nests (source : Source α) (root item : α) : Prop :=
  ∃ parts : List (Value × α), source.outline root = .mapping parts ∧ Value.Distinct parts ∧
    (.ofString sectionName, item) ∈ parts

/-- The verdict on the entries, as that on a file. -/
def judged (entries : Value.Entries) : Except FileError Settings :=
  (ofEntries entries).mapError .rejected

theorem ofMapping_eq (source : Source α) (parts : List (Value × α)) :
    source.ofMapping parts =
      judged (parts.map fun part => (part.1, source.reveal part.2)) := by
  unfold ofMapping judged
  rw [ofKeyed_eq_ofEntries]
  cases ofEntries (parts.map fun part => (part.1, source.reveal part.2)) <;> rfl

theorem Nests.settings_eq {root item : α} (h : source.Nests root item) :
    source.settings root = source.ofSection item := by
  obtain ⟨parts, houtline, hdistinct, hitem⟩ := h
  unfold settings
  rw [houtline]
  simp only [hdistinct.lookup?_eq_some_iff.mpr hitem]

theorem Holds.ofSection_eq {item : α} {entries : Value.Entries} (h : source.Holds item entries) :
    source.ofSection item = judged entries := by
  obtain ⟨parts, houtline, rfl⟩ := h
  unfold ofSection
  rw [houtline]
  exact source.ofMapping_eq parts

theorem Holds.settings_eq {root : α} {entries : Value.Entries} (h : source.Holds root entries)
    (hflat : ∀ entry ∈ entries, entry.1 ≠ .ofString sectionName) :
    source.settings root = judged entries := by
  obtain ⟨parts, houtline, rfl⟩ := h
  have hnone : Value.lookup? sectionName parts = none := by
    rw [Value.lookup?_eq_none_iff]
    intro part hpart
    exact hflat _ (List.mem_map_of_mem hpart)
  unfold settings
  rw [houtline]
  simp only [hnone]
  exact source.ofMapping_eq parts

theorem judged_nil : judged [] = .ok defaults := by
  unfold judged
  rw [ofEntries_eq_ofGiven (List.forall_mem_nil _)]
  rfl

theorem concernsSettings_judged {entries : Value.Entries} {cause : FileError}
    (h : judged entries = .error cause) : cause.concernsSettings = true := by
  unfold judged at h
  cases hentries : ofEntries entries with
  | ok s =>
    rw [hentries] at h
    cases h
  | error rejection =>
    rw [hentries] at h
    cases h
    exact concernsSettings_ofEntries hentries

/-- A mapping with a section in it is no mapping of settings. -/
theorem exists_judged_error {entries : Value.Entries}
    (h : ∃ entry ∈ entries, entry.1 = .ofString sectionName) :
    ∃ cause, judged entries = .error (.rejected cause) := by
  obtain ⟨entry, hentry, hkey⟩ := h
  unfold judged
  by_cases hstray : ∃ other ∈ entries, isText other.1 = false
  · rw [ofEntries_keysNotText hstray]
    exact ⟨_, rfl⟩
  · have htext : ∀ other ∈ entries, isText other.1 = true := by
      simpa using hstray
    have hunknown : ¬ NamesSetting entry.1 := by
      rintro ⟨name, hname, hsame⟩
      have hsection : sectionName ∉ names := by decide
      rw [hkey] at hsame
      exact hsection (Value.ofString_injective hsame ▸ hname)
    rw [ofEntries_unknownKeys htext ⟨entry, hentry, hunknown⟩]
    exact ⟨_, rfl⟩

/-- What the settings of a file come to. -/
inductive FileCase : Except FileError Settings → Prop
  | empty : FileCase (.ok defaults)
  | judged (entries : Value.Entries) : FileCase (judged entries)
  | notMapping : FileCase (.error .notMapping)
  | sectionNotMapping : FileCase (.error .sectionNotMapping)

theorem fileCase_ofMapping (source : Source α) (parts : List (Value × α)) :
    FileCase (source.ofMapping parts) := by
  rw [ofMapping_eq]
  exact .judged _

theorem fileCase_ofSection (source : Source α) (item : α) : FileCase (source.ofSection item) := by
  unfold ofSection
  split
  · exact source.fileCase_ofMapping _
  · exact source.fileCase_ofMapping _
  · exact source.fileCase_ofMapping _
  · exact .sectionNotMapping

theorem fileCase_settings (source : Source α) (root : α) : FileCase (source.settings root) := by
  unfold settings
  split
  · exact .empty
  · split
    · exact source.fileCase_ofSection _
    · exact source.fileCase_ofMapping _
  · exact .notMapping

theorem FileCase.concernsSettings {cause : FileError} (h : FileCase (.error cause)) :
    cause.concernsSettings = true := by
  generalize hresult : (Except.error cause : Except FileError Settings) = result at h
  cases h with
  | empty => cases hresult
  | judged entries => exact concernsSettings_judged hresult.symm
  | notMapping =>
    cases hresult
    rfl
  | sectionNotMapping =>
    cases hresult
    rfl

theorem ofSection_of_vacant {item : α} (h : (source.outline item).isVacant = true) :
    source.ofSection item = .ok defaults := by
  have hempty : source.ofMapping [] = .ok defaults := (source.ofMapping_eq []).trans judged_nil
  unfold ofSection
  cases houtline : source.outline item with
  | null => exact hempty
  | mapping parts =>
    rw [houtline] at h
    obtain rfl : parts = [] := List.isEmpty_iff.mp h
    exact hempty
  | other vacant =>
    rw [houtline] at h
    obtain rfl : vacant = true := h
    exact hempty

end Source

/-- Flat and nested settings agree. A mapping without a section gives the same at the top of
one file as in the section of another, where anything may stand beside it, and the two files
may be seen through different sources. Every file gives settings that pass the checks of
their own arguments, or an error about what it holds. Nothing, an empty mapping, and a
section that is vacant, as of values all that counts as false, give the defaults, and a
section inside the section is refused. -/
theorem flat_and_nested_agree {α β : Type} (source : Source α) (other : Source β) :
    (∀ (nested item : α) (flat : β) (entries : Value.Entries),
      source.Nests nested item → source.Holds item entries → other.Holds flat entries →
      (∀ entry ∈ entries, entry.1 ≠ .ofString sectionName) →
        source.settings nested = other.settings flat) ∧
    (∀ root, (∃ s, source.settings root = .ok s ∧ ofArguments s.toArguments = .ok s) ∨
      ∃ cause, source.settings root = .error cause ∧ cause.concernsSettings = true) ∧
    (∀ root, source.outline root = .null ∨ source.Holds root [] ∨
      (∃ item, source.Nests root item ∧ (source.outline item).isVacant = true) →
        source.settings root = .ok defaults) ∧
    (∀ value : Value, (valueOutline value).isVacant = value.isVacant) ∧
    ∀ (root item : α) (entries : Value.Entries), source.Nests root item →
      source.Holds item entries → (∃ entry ∈ entries, entry.1 = .ofString sectionName) →
        ∃ cause, source.settings root = .error (.rejected cause) := by
  refine ⟨?_, ?_, ?_, isVacant_valueOutline, ?_⟩
  · intro nested item flat entries hnests hitem hflat hentries
    rw [hnests.settings_eq, hitem.ofSection_eq, hflat.settings_eq hentries]
  · intro root
    have hcase := source.fileCase_settings root
    cases hsettings : source.settings root with
    | ok s => exact Or.inl ⟨s, rfl, s.ofArguments_toArguments⟩
    | error cause =>
      rw [hsettings] at hcase
      exact Or.inr ⟨cause, rfl, hcase.concernsSettings⟩
  · rintro root (hnull | hempty | ⟨item, hnests, hvacant⟩)
    · unfold Source.settings
      rw [hnull]
    · exact (hempty.settings_eq (List.forall_mem_nil _)).trans Source.judged_nil
    · exact hnests.settings_eq.trans (Source.ofSection_of_vacant hvacant)
  · intro root item entries hnests hitem hentries
    rw [hnests.settings_eq, hitem.ofSection_eq]
    exact Source.exists_judged_error hentries

/-- A document with a faulty section beside a key that is no text, and its section alone as a
value; a section that is false; and a section in itself, which no tree of values shows. -/
theorem flat_and_nested_agree_in_document :
    let file : Document.Built := {
      objects := #[some (.mapping [(1, 2), (3, 4)]), some (.scalar (.int 7)), some (.list []),
        some (.scalar (.ofString sectionName)), some (.mapping [(5, 1), (6, 2)]),
        some (.scalar (.ofString stepLimitName)), some (.scalar (.ofString eofName))]
      root := 0 }
    let loop : Document.Built := {
      objects := #[some (.mapping [(1, 0)]), some (.scalar (.ofString sectionName))], root := 0 }
    ofDocument file =
        ofValue (.mapping [(.ofString stepLimitName, .int 7), (.ofString eofName, .list [])]) ∧
      ofValue (.mapping [(.ofString sectionName, .bool false)]) = .ok defaults ∧
      ∃ cause, ofDocument loop = .error (.rejected cause) := by
  intro file loop
  have hfile := (flat_and_nested_agree (.nodes file) .values).1 0 4
    (.mapping [(.ofString stepLimitName, .int 7), (.ofString eofName, .list [])])
    [(.ofString stepLimitName, .int 7), (.ofString eofName, .list [])]
  have hvalue := (flat_and_nested_agree .values .values).2.2.1
    (.mapping [(.ofString sectionName, .bool false)])
  have hloop := (flat_and_nested_agree (.nodes loop) .values).2.2.2.2 0 0
    [(.ofString sectionName, loop.value 0)]
  refine ⟨hfile ?_ ⟨_, rfl, rfl⟩ ⟨_, rfl, rfl⟩ ?_, hvalue ?_, hloop ?_ ⟨_, rfl, rfl⟩ ?_⟩
  · refine ⟨[(.int 7, 2), (.ofString sectionName, 4)], rfl, ?_, by simp⟩
    unfold Value.Distinct
    decide
  · have hnames : stepLimitName ≠ sectionName ∧ eofName ≠ sectionName := by decide
    simpa [Value.ofString_injective.eq_iff] using hnames
  · refine Or.inr (Or.inr ⟨.bool false, ⟨_, rfl, ?_, List.mem_singleton_self _⟩, rfl⟩)
    exact List.pairwise_singleton ..
  · exact ⟨_, rfl, List.pairwise_singleton .., List.mem_singleton_self _⟩
  · exact ⟨_, List.mem_singleton_self _, rfl⟩

end Brainfuck.Settings
