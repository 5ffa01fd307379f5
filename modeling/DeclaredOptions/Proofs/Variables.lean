import DeclaredOptions.Environment
import DeclaredOptions.Proofs.Filing
import Mathlib.Tactic.Common

/-!
# Values of variables

Of the entries that name a variable the last one gives its value (`get?_ofEntries`). The name is
what stands before the first `=`, so entries give no value to a name with `=` in it
(`value?_eq_none_of_mem`).
-/

namespace DeclaredOptions.Environment

variable {name : String}

/-- The value that entries give to a variable: that of the last entry that names it. -/
def value? (entries : List String) (name : String) : Option String :=
  (entries.filterMap (Text.cut? '=')).reverse.lookup name

lemma latest?_eq_lookup (pairs : List (String × String)) :
    (SortedBy.latest? Prod.fst name pairs).map Prod.snd = pairs.reverse.lookup name := by
  rw [SortedBy.latest?]
  induction pairs.reverse with
  | nil => rfl
  | cons pair pairs ih =>
    obtain ⟨other, value⟩ := pair
    by_cases h : other = name
    · subst h
      simp
    · have hne : (name == other) = false := by simpa using Ne.symm h
      rw [List.find?_cons_of_neg (by simpa using h), ih, List.lookup_cons, hne]

/-- What is looked up in an environment is what its entries give. -/
lemma get?_ofEntries (entries : List String) (name : String) :
    (ofEntries entries).get? name = value? entries name := by
  rw [SortedMap.get?, ofEntries, ofPairs, SortedBy.ofList, SortedBy.find?_insertAll,
    SortedBy.find?_empty, Option.or_none, latest?_eq_lookup]
  rfl

/-! ### Entries one after the other -/

/-- Later entries count before earlier ones. -/
lemma value?_append (first second : List String) :
    value? (first ++ second) name = (value? second name).or (value? first name) := by
  simp [value?, List.lookup_append]

/-- A name without `=` ends where its entry is cut, whatever the value is. -/
lemma cut?_entry (h : '=' ∉ name.toList) (value : String) :
    Text.cut? '=' (entry name value) = some (name, value) := Text.cut?_eq_some_iff.mpr ⟨h, rfl⟩

lemma value?_entry {other value : String} (h : '=' ∉ other.toList) :
    value? [entry other value] name = if name = other then some value else none := by
  have hcut := cut?_entry h value
  by_cases hname : name = other
  · simp [value?, hcut, hname]
  · have hne : (name == other) = false := by simpa using hname
    simp [value?, hcut, hname, hne]

/-- A new entry gives its value to a variable that no other entry names. -/
lemma get?_ofEntries_insert {before after : List String} {value : String} (h : '=' ∉ name.toList)
    (hnone : value? (before ++ after) name = none) :
    (ofEntries (before ++ entry name value :: after)).get? name = some value := by
  rw [value?_append, Option.or_eq_none_iff] at hnone
  rw [get?_ofEntries, List.append_cons, value?_append, value?_append, value?_entry h, if_pos rfl,
    hnone.1]
  rfl

/-- A new entry gives nothing to the variables that it does not name. -/
lemma get?_ofEntries_insert_of_ne {before after : List String} {other value : String}
    (h : '=' ∉ other.toList) (hne : name ≠ other) :
    (ofEntries (before ++ entry other value :: after)).get? name =
      (ofEntries (before ++ after)).get? name := by
  rw [get?_ofEntries, get?_ofEntries, List.append_cons, value?_append, value?_append,
    value?_entry h, if_neg hne, Option.none_or, value?_append]

/-- No entry names a variable with `=` in it. -/
lemma value?_eq_none_of_mem (entries : List String) (h : '=' ∈ name.toList) :
    value? entries name = none := by
  rw [value?, List.lookup_eq_none_iff]
  intro pair hpair
  obtain ⟨text, _, hcut⟩ := List.mem_filterMap.mp (List.mem_reverse.mp hpair)
  obtain ⟨hfree, _⟩ := Text.cut?_eq_some_iff.mp hcut
  rw [bne_iff_ne]
  rintro rfl
  exact hfree h

end DeclaredOptions.Environment
