import DeclaredOptions.Proofs.Collection
import DeclaredOptions.Proofs.ListSources
import DeclaredOptions.Proofs.Variables

/-!
# Values as texts

An environment is handed over as entries `NAME=value`. What is read from the entries that were
written for some pairs is what the pairs give themselves, whatever the values are, and entries
without `=` do not matter, wherever they stand (`isGivenBy_ofEntries`).

A value that holds a list is divided at each separator, and this is the only way to divide it into
parts without the separator (`isDivision_read`).
-/

namespace DeclaredOptions

/-! ### Entries -/

lemma Text.cut?_eq_none {sep : Char} {text : String} (h : sep ∉ text.toList) :
    cut? sep text = none := by
  cases hcut : cut? sep text with
  | none => rfl
  | some parts =>
    obtain ⟨_, rfl⟩ := cut?_eq_some_iff.mp hcut
    simp at h

namespace Environment

variable {pairs : List (String × String)} {entries padded : List String}

/-- The entries that are written for pairs of a name and a value. -/
def entriesOf (pairs : List (String × String)) : List String :=
  pairs.map fun pair => entry pair.1 pair.2

/-- The pairs can be read back from their entries. -/
lemma filterMap_entriesOf (hfree : ∀ pair ∈ pairs, '=' ∉ pair.1.toList) :
    (entriesOf pairs).filterMap (Text.cut? '=') = pairs := by
  induction pairs with
  | nil => rfl
  | cons pair pairs ih =>
    obtain ⟨hpair, hpairs⟩ := List.forall_mem_cons.mp hfree
    rw [entriesOf, List.map_cons, List.filterMap_cons_some (cut?_entry hpair pair.2)]
    exact congrArg (pair :: ·) (ih hpairs)

/-- One list of entries is another one with entries without `=` put in anywhere. -/
inductive Pads : List String → List String → Prop
  | nil : Pads [] []
  | keep {entries padded : List String} (text : String) :
    Pads entries padded → Pads (text :: entries) (text :: padded)
  | insert {entries padded : List String} {text : String} :
    '=' ∉ text.toList → Pads entries padded → Pads entries (text :: padded)

lemma Pads.filterMap_eq (h : Pads entries padded) :
    padded.filterMap (Text.cut? '=') = entries.filterMap (Text.cut? '=') := by
  induction h with
  | nil => rfl
  | keep text _ ih => rw [List.filterMap_cons, List.filterMap_cons, ih]
  | insert hblank _ ih => rw [List.filterMap_cons_none (Text.cut?_eq_none hblank), ih]

/-- An environment is the table of some pairs. The pairs can be filed one after the other, or be
sorted first and the last pair of each name kept; each name has its last value. -/
structure IsGivenBy (environment : Environment) (pairs : List (String × String)) : Prop where
  filed : environment = ofPairs pairs
  collected : environment.toList = SortedBy.collect Prod.fst pairs
  get?_eq : ∀ name, environment.get? name = pairs.reverse.lookup name

lemma isGivenBy_of_filterMap (h : entries.filterMap (Text.cut? '=') = pairs) :
    IsGivenBy (ofEntries entries) pairs := by
  subst h
  constructor
  case filed => rfl
  case collected => exact SortedBy.toList_ofList _
  case get?_eq => exact get?_ofEntries entries

/-- Entries written for pairs whose names are without `=` give the table of the pairs. Further
entries without `=` change nothing, in these entries or any others. -/
theorem isGivenBy_ofEntries (hfree : ∀ pair ∈ pairs, '=' ∉ pair.1.toList) :
    IsGivenBy (ofEntries (entriesOf pairs)) pairs ∧
      ∀ entries padded, Pads entries padded → ofEntries padded = ofEntries entries := by
  constructor
  · exact isGivenBy_of_filterMap (filterMap_entriesOf hfree)
  · intro entries padded hpads
    rw [ofEntries, ofEntries, hpads.filterMap_eq]

/-- A name that is given twice, a value with `=` in it, and a name without any character. -/
def samplePairs : List (String × String) := [("B", "x=y"), ("A", "1"), ("", "="), ("A", "")]

theorem isGivenBy_samplePairs :
    (∀ pair ∈ samplePairs, '=' ∉ pair.1.toList) ∧
    IsGivenBy (ofEntries ["B=x=y", "A=1", "==", "A="]) samplePairs ∧
    Pads ["B=x=y", "A=1", "==", "A="] ["", "B=x=y", "A=1", "A", "==", "A=", "B"] ∧
    ofEntries ["", "B=x=y", "A=1", "A", "==", "A=", "B"] =
      ofEntries ["B=x=y", "A=1", "==", "A="] := by
  have hfree : ∀ pair ∈ samplePairs, '=' ∉ pair.1.toList := by decide
  have hpads : Pads ["B=x=y", "A=1", "==", "A="] ["", "B=x=y", "A=1", "A", "==", "A=", "B"] :=
    .insert (by decide) (.keep _ (.keep _ (.insert (by decide)
      (.keep _ (.keep _ (.insert (by decide) .nil))))))
  obtain ⟨hgiven, hpadded⟩ := isGivenBy_ofEntries hfree
  exact ⟨hfree, hgiven, hpads, hpadded _ _ hpads⟩

end Environment

/-! ### Lists -/

namespace ListValue

/-- A value is the division of a text at a separator: its elements are the only parts without the
separator whose join is the text, and it is single if there is nothing to divide. -/
structure IsDivision (separator : Char) (text : String) (value : ListValue) : Prop where
  values_ne_nil : value.values ≠ []
  free : ∀ part ∈ value.values, separator ∉ part.toList
  join_values : Text.join separator value.values = text
  values_of_join : ∀ parts, parts ≠ [] → (∀ part ∈ parts, separator ∉ part.toList) →
    Text.join separator parts = text → value.values = parts
  single_iff : (∃ part, value = .single part) ↔ separator ∉ text.toList

lemma exists_single_iff (separator : Char) (text : String) :
    (∃ part, read separator text = .single part) ↔ separator ∉ text.toList := by
  rw [read]
  split
  case isTrue hmem => simp [hmem]
  case isFalse hmem => simp [hmem]

/-- Every text is divided exactly, into one list only. -/
theorem isDivision_read (separator : Char) (text : String) :
    IsDivision separator text (read separator text) := by
  have hvalues := values_read separator text
  constructor
  case values_ne_nil =>
    rw [hvalues]
    exact Text.split_ne_nil separator text
  case free =>
    rw [hvalues]
    exact fun part hpart => Text.not_mem_of_mem_split hpart
  case join_values =>
    rw [hvalues]
    exact Text.join_split separator text
  case values_of_join =>
    intro parts hne hfree hjoin
    rw [hvalues, ← hjoin]
    exact Text.split_join hne hfree
  case single_iff => exact exists_single_iff separator text

end ListValue

end DeclaredOptions
