import Brainfuck.Value
import Mathlib.Data.List.Perm.Basic

/-!
Dictionaries. The entries of a mapping are a dictionary if no two keys are the same, and
entries that are put one after the other always are one. In a dictionary a text has a value
exactly if there is an entry for it, so the order of the entries does not matter to a lookup.
Putting the entries of a dictionary whose keys are all known replaces the known values, each
where it stands.
-/
namespace Brainfuck

theorem Letter.code_injective : Function.Injective Letter.code := by
  intro a b h
  cases a with
  | char c =>
    cases b with
    | char d => exact congrArg char (Char.toNat_inj.mp h)
    | surrogate offset =>
      have hvalid : c.toNat < 0xd800 ∨ 0xdfff < c.toNat ∧ c.toNat < 0x110000 := c.valid
      have hcode : c.toNat = 0xd800 + offset.val := h
      omega
  | surrogate offset =>
    cases b with
    | char d =>
      have hvalid : d.toNat < 0xd800 ∨ 0xdfff < d.toNat ∧ d.toNat < 0x110000 := d.valid
      have hcode : 0xd800 + offset.val = d.toNat := h
      omega
    | surrogate other =>
      have hcode : 0xd800 + offset.val = 0xd800 + other.val := h
      exact congrArg surrogate (Fin.ext (by omega))

namespace Text

/-- The code points of a text. -/
def codes (text : Text) : List Nat := text.map Letter.code

theorem codes_injective : Function.Injective codes :=
  List.map_injective_iff.mpr Letter.code_injective

theorem ofString_injective : Function.Injective ofString := by
  intro s t h
  apply String.toList_injective
  exact List.map_injective_iff.mpr (fun _ _ hchar => Letter.char.inj hchar) h

theorem ofString_append (s t : String) : ofString (s ++ t) = ofString s ++ ofString t := by
  unfold ofString ofChars
  rw [String.toList_append, List.map_append]

/-- Ascending texts are told by which texts they are. -/
theorem eq_of_ascending {names others : List Text}
    (hnames : names.Pairwise fun s t => s.codes < t.codes)
    (hothers : others.Pairwise fun s t => s.codes < t.codes)
    (h : ∀ name, name ∈ names ↔ name ∈ others) : names = others := by
  have hne {s t : Text} (hlt : s.codes < t.codes) : s ≠ t := by
    rintro rfl
    exact List.lt_irrefl _ hlt
  have hperm : names.Perm others :=
    (List.perm_ext_iff_of_nodup (hnames.imp hne) (hothers.imp hne)).mpr h
  apply hperm.eq_of_pairwise _ hnames hothers
  intro s t _ _ hst hts
  exact absurd hts (List.not_lt.mpr (List.le_of_lt hst))

theorem precedes_iff (s t : Text) : precedes s t = true ↔ ¬ t.codes < s.codes := by
  rw [List.not_lt]
  induction s generalizing t with
  | nil => simp [precedes, codes]
  | cons a s ih =>
    cases t with
    | nil => simp [precedes, codes]
    | cons b t =>
      have hrest := ih t
      simp only [codes] at hrest
      simp only [precedes, codes, List.map_cons, List.cons_le_cons_iff, Bool.or_eq_true,
        Bool.and_eq_true, decide_eq_true_eq, beq_iff_eq, hrest]

end Text

namespace Value

variable {ν : Type}

/-- No two keys are the same. -/
def Distinct (entries : List (Value × ν)) : Prop :=
  entries.Pairwise fun a b => a.1.sameKey b.1 = false

theorem put_cons (key value : Value) (first : Value × Value) (rest : Entries) :
    put key value (first :: rest) =
      if first.1.sameKey key then (first.1, value) :: rest else first :: put key value rest := rfl

theorem put_of_new {key : Value} {entries : Entries}
    (h : ∀ entry ∈ entries, entry.1.sameKey key = false) (value : Value) :
    put key value entries = entries ++ [(key, value)] := by
  induction entries with
  | nil => rfl
  | cons first rest ih =>
    obtain ⟨hfirst, hrest⟩ := List.forall_mem_cons.mp h
    rw [put_cons, if_neg (Bool.eq_false_iff.mp hfirst), ih hrest, List.cons_append]

theorem foldl_put_of_distinct {entries more : Entries} (h : Distinct (entries ++ more)) :
    more.foldl (fun entries pair => put pair.1 pair.2 entries) entries = entries ++ more := by
  induction more generalizing entries with
  | nil => exact (List.append_nil _).symm
  | cons pair more ih =>
    have hnew : ∀ entry ∈ entries, entry.1.sameKey pair.1 = false := by
      intro entry hentry
      exact (List.pairwise_append.mp h).2.2 entry hentry pair List.mem_cons_self
    have hrest : Distinct (entries ++ [pair] ++ more) := by
      rwa [List.append_assoc]
    rw [List.foldl_cons, put_of_new hnew, ih hrest, List.append_assoc]
    rfl

/-- Behind the entries of a dictionary more entries are put one by one. -/
theorem ofPairs_append {entries : Entries} (h : Distinct entries) (more : Entries) :
    ofPairs (entries ++ more) =
      more.foldl (fun entries pair => put pair.1 pair.2 entries) entries := by
  unfold ofPairs
  rw [List.foldl_append]
  exact congrArg (more.foldl _) (foldl_put_of_distinct h)

theorem ofString_injective : Function.Injective ofString := by
  intro s t h
  exact Text.ofString_injective (text.inj h)

theorem sameKey_ofString (s t : String) : (ofString s).sameKey (ofString t) = decide (s = t) := by
  rw [Bool.eq_iff_iff, decide_eq_true_eq]
  constructor
  · intro h
    exact Text.ofString_injective (eq_of_beq h)
  · rintro rfl
    exact beq_self_eq_true (Text.ofString s)

/-- At most one entry has a text as its key. -/
def Once (name : String) (entries : List (Value × ν)) : Prop :=
  entries.Pairwise fun a b => ¬ (a.1 = ofString name ∧ b.1 = ofString name)

theorem Distinct.once {entries : List (Value × ν)} (h : Distinct entries) (name : String) :
    Once name entries := by
  apply List.Pairwise.imp _ h
  rintro a b hab ⟨ha, hb⟩
  rw [ha, hb, sameKey_ofString] at hab
  simp at hab

theorem Once.perm {name : String} {entries others : List (Value × ν)} (h : Once name entries)
    (hperm : entries.Perm others) : Once name others :=
  List.Pairwise.perm h hperm fun hab hba => hab hba.symm

theorem lookup?_cons_self (name : String) (value : ν) (rest : List (Value × ν)) :
    lookup? name ((ofString name, value) :: rest) = some value :=
  if_pos (beq_self_eq_true (Text.ofString name))

theorem lookup?_cons_ne {name : String} {key : Value} (h : key ≠ ofString name) (value : ν)
    (rest : List (Value × ν)) : lookup? name ((key, value) :: rest) = lookup? name rest := by
  cases key with
  | text s =>
    have hne : s ≠ Text.ofString name := fun heq => h (congrArg text heq)
    exact if_neg (by simpa using hne)
  | _ => rfl

theorem lookup?_cons_ofString (name other : String) (value : ν) (rest : List (Value × ν)) :
    lookup? name ((ofString other, value) :: rest) =
      if other = name then some value else lookup? name rest := by
  by_cases h : other = name
  · subst h
    rw [if_pos rfl, lookup?_cons_self]
  · have hne : ofString other ≠ ofString name := fun heq => h (ofString_injective heq)
    rw [if_neg h, lookup?_cons_ne hne]

theorem lookup?_eq_none_iff {name : String} {entries : List (Value × ν)} :
    lookup? name entries = none ↔ ∀ entry ∈ entries, entry.1 ≠ ofString name := by
  induction entries with
  | nil => simp [lookup?]
  | cons first rest ih =>
    obtain ⟨key, value⟩ := first
    rw [List.forall_mem_cons]
    by_cases hkey : key = ofString name
    · subst hkey
      simp [lookup?_cons_self]
    · simp [lookup?_cons_ne hkey, hkey, ih]

theorem mem_of_lookup? {name : String} {entries : List (Value × ν)} {value : ν}
    (h : lookup? name entries = some value) : (ofString name, value) ∈ entries := by
  induction entries with
  | nil => cases h
  | cons first rest ih =>
    obtain ⟨key, other⟩ := first
    by_cases hkey : key = ofString name
    · subst hkey
      rw [lookup?_cons_self, Option.some.injEq] at h
      exact h ▸ List.mem_cons_self
    · rw [lookup?_cons_ne hkey] at h
      exact List.mem_cons_of_mem _ (ih h)

theorem Once.lookup?_of_mem {name : String} {entries : List (Value × ν)} (h : Once name entries)
    {value : ν} (hmem : (ofString name, value) ∈ entries) : lookup? name entries = some value := by
  induction entries with
  | nil => cases hmem
  | cons first rest ih =>
    obtain ⟨hfirst, hrest⟩ := List.pairwise_cons.mp h
    rcases List.mem_cons.mp hmem with rfl | hlater
    · exact lookup?_cons_self ..
    · have hkey : first.1 ≠ ofString name := fun hkey => hfirst _ hlater ⟨hkey, rfl⟩
      rw [← Prod.eta first, lookup?_cons_ne hkey]
      exact ih hrest hlater

theorem Distinct.lookup?_eq_some_iff {entries : List (Value × ν)} (h : Distinct entries)
    {name : String} {value : ν} :
    lookup? name entries = some value ↔ (ofString name, value) ∈ entries :=
  ⟨mem_of_lookup?, (h.once name).lookup?_of_mem⟩

/-- The order of the entries of a dictionary does not matter to a lookup. -/
theorem Distinct.lookup?_perm {entries others : List (Value × ν)} (h : Distinct entries)
    (hperm : entries.Perm others) (name : String) : lookup? name others = lookup? name entries := by
  apply Option.ext
  intro value
  constructor
  · intro hothers
    exact h.lookup?_eq_some_iff.mpr (hperm.mem_iff.mpr (mem_of_lookup? hothers))
  · intro hentries
    exact ((h.once name).perm hperm).lookup?_of_mem (hperm.mem_iff.mp (mem_of_lookup? hentries))

theorem lookup?_map {ω : Type} (f : ν → ω) (name : String) (entries : List (Value × ν)) :
    lookup? name (entries.map fun entry => (entry.1, f entry.2)) =
      (lookup? name entries).map f := by
  induction entries with
  | nil => rfl
  | cons first rest ih =>
    obtain ⟨key, value⟩ := first
    by_cases hkey : key = ofString name
    · subst hkey
      simp only [List.map_cons, lookup?_cons_self, Option.map_some]
    · simp only [List.map_cons, lookup?_cons_ne hkey, ih]

/-- Named values as the entries of a mapping. -/
def ofNamed (named : List (String × Value)) : Entries :=
  named.map fun pair => (ofString pair.1, pair.2)

theorem ofNamed_injective : Function.Injective ofNamed := by
  apply List.map_injective_iff.mpr
  intro a b h
  obtain ⟨hname, hvalue⟩ := Prod.mk.inj h
  exact Prod.ext (ofString_injective hname) hvalue

theorem distinct_ofNamed {named : List (String × Value)} (h : (named.map Prod.fst).Nodup) :
    Distinct (ofNamed named) := by
  unfold Distinct ofNamed
  rw [List.pairwise_map]
  apply List.Pairwise.imp _ (List.pairwise_map.mp h)
  intro a b hab
  rw [sameKey_ofString, decide_eq_false_iff_not]
  exact hab

theorem lookup?_ofNamed {named : List (String × Value)} (h : (named.map Prod.fst).Nodup)
    {pair : String × Value} (hpair : pair ∈ named) :
    lookup? pair.1 (ofNamed named) = some pair.2 :=
  (distinct_ofNamed h).lookup?_eq_some_iff.mpr (List.mem_map.mpr ⟨pair, hpair, rfl⟩)

/-- Named values, those that are given replaced by what is given. -/
def overridden (named : List (String × Value)) (given : String → Option Value) :
    List (String × Value) :=
  named.map fun pair => (pair.1, (given pair.1).getD pair.2)

theorem names_overridden (named : List (String × Value)) (given : String → Option Value) :
    (overridden named given).map Prod.fst = named.map Prod.fst := by
  unfold overridden
  rw [List.map_map]
  rfl

theorem overridden_of_none {named : List (String × Value)} {given : String → Option Value}
    (h : ∀ pair ∈ named, given pair.1 = none) : overridden named given = named := by
  nth_rewrite 2 [← List.map_id named]
  apply List.map_congr_left
  intro pair hpair
  rw [h pair hpair]
  rfl

theorem put_ofNamed {name : String} {named : List (String × Value)}
    (hnodup : (named.map Prod.fst).Nodup) (hname : name ∈ named.map Prod.fst) (value : Value) :
    put (ofString name) value (ofNamed named) =
      ofNamed (overridden named (lookup? · [(ofString name, value)])) := by
  induction named with
  | nil => cases hname
  | cons first rest ih =>
    obtain ⟨other, old⟩ := first
    obtain ⟨hfirst, hrest⟩ := List.nodup_cons.mp hnodup
    change put (ofString name) value ((ofString other, old) :: ofNamed rest) =
      (ofString other, (lookup? other [(ofString name, value)]).getD old) ::
        ofNamed (overridden rest (lookup? · [(ofString name, value)]))
    rw [put_cons, sameKey_ofString, lookup?_cons_ofString]
    by_cases hother : other = name
    · subst hother
      have hkept : overridden rest (lookup? · [(ofString other, value)]) = rest := by
        apply overridden_of_none
        intro pair hpair
        have hne : other ≠ pair.1 := fun heq => hfirst (List.mem_map.mpr ⟨pair, hpair, heq.symm⟩)
        rw [lookup?_cons_ofString, if_neg hne]
        rfl
      rw [hkept, if_pos (by simp), if_pos rfl]
      rfl
    · have hlater : name ∈ rest.map Prod.fst :=
        (List.mem_cons.mp hname).resolve_left (Ne.symm hother)
      rw [if_neg (by simpa using hother), if_neg (Ne.symm hother), ih hrest hlater]
      rfl

theorem overridden_cons {named : List (String × Value)} {name : String} {value : Value}
    {entries : Entries} (h : lookup? name entries = none) :
    overridden (overridden named (lookup? · [(ofString name, value)])) (lookup? · entries) =
      overridden named (lookup? · ((ofString name, value) :: entries)) := by
  unfold overridden
  rw [List.map_map]
  apply List.map_congr_left
  intro pair _
  simp only [Function.comp_apply, lookup?_cons_ofString]
  by_cases hpair : name = pair.1
  · rw [if_pos hpair, if_pos hpair, ← hpair, h]
    rfl
  · rw [if_neg hpair, if_neg hpair]
    rfl

theorem foldl_put_ofNamed {named : List (String × Value)} (hnodup : (named.map Prod.fst).Nodup)
    {entries : Entries} (hdistinct : Distinct entries)
    (hknown : ∀ entry ∈ entries, ∃ name ∈ named.map Prod.fst, entry.1 = ofString name) :
    entries.foldl (fun entries pair => put pair.1 pair.2 entries) (ofNamed named) =
      ofNamed (overridden named (lookup? · entries)) := by
  induction entries generalizing named with
  | nil => rw [overridden_of_none fun _ _ => rfl, List.foldl_nil]
  | cons first rest ih =>
    obtain ⟨key, value⟩ := first
    obtain ⟨-, hrest⟩ := List.pairwise_cons.mp hdistinct
    obtain ⟨⟨name, hname, hkey⟩, hlater⟩ := List.forall_mem_cons.mp hknown
    obtain rfl : key = ofString name := hkey
    have hnone : lookup? name rest = none := by
      rw [lookup?_eq_none_iff]
      intro entry hentry heq
      exact (List.pairwise_cons.mp (hdistinct.once name)).1 entry hentry ⟨rfl, heq⟩
    rw [List.foldl_cons, put_ofNamed hnodup hname, ih, overridden_cons hnone]
    · rwa [names_overridden]
    · exact hrest
    · rwa [names_overridden]

/-- Entries with known keys that are put behind named values replace these. -/
theorem ofPairs_ofNamed_append {named : List (String × Value)}
    (hnodup : (named.map Prod.fst).Nodup) {entries : Entries} (hdistinct : Distinct entries)
    (hknown : ∀ entry ∈ entries, ∃ name ∈ named.map Prod.fst, entry.1 = ofString name) :
    ofPairs (ofNamed named ++ entries) = ofNamed (overridden named (lookup? · entries)) := by
  rw [ofPairs_append (distinct_ofNamed hnodup), foldl_put_ofNamed hnodup hdistinct hknown]

end Value

end Brainfuck
