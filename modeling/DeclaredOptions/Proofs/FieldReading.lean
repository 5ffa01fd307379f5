import DeclaredOptions.Field
import DeclaredOptions.Proofs.Subtree
import Mathlib.Tactic.Common

/-!
# How fields read

Metadata names that begin with the same path and a slash stand together, so reading them from their
place on yields all of them (`Metadata.below_eq_filter`). Those that go on with the name of an index
are the elements of a field, and they stand in the order of their indices. What a field reads as is
thereby determined by the metadata (`Field.read_eq_iff`).
-/

namespace DeclaredOptions

open Std

/-! ### Metadata below a path -/

/-- A text that does not sort before another, but before a continuation of it, continues it too. -/
lemma Text.initial_of_between {start middle last : List Char} (hmiddle : ¬middle < start)
    (hlast : middle < last) (h : start <+: last) : start <+: middle := by
  induction start generalizing middle last with
  | nil => exact List.nil_prefix
  | cons c start ih =>
    obtain ⟨rest, rfl⟩ := h
    cases middle with
    | nil => exact absurd (List.nil_lt_cons c start) hmiddle
    | cons d middle =>
      rw [List.cons_lt_cons_iff, not_or] at hmiddle
      rw [List.cons_append, List.cons_lt_cons_iff] at hlast
      obtain ⟨rfl, hrest⟩ := hlast.resolve_left hmiddle.1
      have hstart : ¬middle < start := fun hlt => hmiddle.2 ⟨rfl, hlt⟩
      exact List.cons_prefix_cons.mpr ⟨rfl, ih hstart hrest (List.prefix_append _ _)⟩

/-- A common beginning of two texts does not matter to their order. -/
lemma Text.compare_append_iff {s t u : String} :
    compare (s ++ t) (s ++ u) = .lt ↔ compare t u = .lt := by
  simp only [Text.compare_eq_lt_iff, String.toList_append]
  induction s.toList with
  | nil => rfl
  | cons c cs ih => simp [ih]

lemma SortedMap.mem_toList_iff {κ β : Type} [Ord κ] [TransOrd κ] [LawfulEqOrd κ]
    {m : SortedMap κ β} {entry : κ × β} : entry ∈ m.toList ↔ m.get? entry.1 = some entry.2 := by
  rw [SortedBy.mem_iff_find?, get?, Option.map_eq_some_iff]
  constructor
  · intro h
    exact ⟨entry, h, rfl⟩
  · rintro ⟨other, hother, hvalue⟩
    have hname : other.1 = entry.1 := SortedBy.key_of_find?_eq_some hother
    rw [hother, Prod.ext hname hvalue]

namespace Metadata

variable {m : Metadata} {path : String} {entry : String × String}

/-- The entries below a path are all those whose name continues it after a slash. -/
lemma below_eq_filter (m : Metadata) (path : String) : m.below path =
    m.toList.filter fun entry => (path ++ "/").toList.isPrefixOf entry.1.toList := by
  rw [below, SortedBy.atLeast]
  have hbefore (name : String) : (compare name (path ++ "/") == .lt) = true ↔
      name.toList < (path ++ "/").toList := by
    rw [beq_iff_eq, Text.compare_eq_lt_iff]
  apply SortedBy.takeWhile_dropWhile_eq_filter m.increasing
  · intro entry hentry
    rw [hbefore] at hentry
    rw [← Bool.not_eq_true, List.isPrefixOf_iff_prefix]
    intro hprefix
    exact hprefix.le hentry
  · intro a b hab ha
    rw [← Bool.not_eq_true, hbefore] at ha ⊢
    rw [Text.compare_eq_lt_iff] at hab
    exact fun hb => ha (List.lt_trans hab hb)
  · intro a b hab ha hnot
    rw [← Bool.not_eq_true, hbefore] at ha
    rw [← Bool.not_eq_true, List.isPrefixOf_iff_prefix] at hnot ⊢
    rw [Text.compare_eq_lt_iff] at hab
    exact fun hprefix => hnot (Text.initial_of_between ha hab hprefix)

lemma mem_below_iff : entry ∈ m.below path ↔
    m.get? entry.1 = some entry.2 ∧ (path ++ "/").toList <+: entry.1.toList := by
  rw [below_eq_filter, List.mem_filter, SortedMap.mem_toList_iff, List.isPrefixOf_iff_prefix]

end Metadata

/-! ### Elements of a field -/

namespace Field

variable {m : Metadata} {field : String}

/-- What follows the slash of a name below a field is the name of an index just for elements. -/
lemma isSome_parse?_iff {name : String} (h : (field ++ "/").toList <+: name.toList) :
    (Index.parse? (.ofList (name.toList.drop (field.length + 1)))).isSome ↔
      ∃ i < Index.bound, name = field ++ "/" ++ Index.name i := by
  obtain ⟨rest, hrest⟩ := h
  have hdrop : name.toList.drop (field.length + 1) = rest := by
    rw [← hrest]
    exact List.drop_left' (by simp [← String.length_toList])
  have hname : name = field ++ "/" ++ String.ofList rest := by
    rw [← String.toList_inj, ← hrest]
    simp
  rw [hdrop, hname, Option.isSome_iff_exists]
  simp only [Index.parse?_eq_some_iff, String.append_right_inj]
  exact exists_congr fun i => and_comm

lemma mem_elements_iff {entry : FieldEntry} : entry ∈ elements m field ↔
    (∃ i < Index.bound, entry.base = field ++ "/" ++ Index.name i) ∧
      m.get? entry.base = some entry.value := by
  simp only [elements, List.mem_map, List.mem_filter, Metadata.mem_below_iff]
  constructor
  · rintro ⟨named, ⟨⟨hget, hprefix⟩, hindex⟩, rfl⟩
    exact ⟨(isSome_parse?_iff hprefix).mp hindex, hget⟩
  · rintro ⟨hindex, hget⟩
    have hprefix : (field ++ "/").toList <+: entry.base.toList := by
      obtain ⟨i, _, hname⟩ := hindex
      exact ⟨(Index.name i).toList, by rw [hname, ← String.toList_append]⟩
    exact ⟨(entry.base, entry.value), ⟨⟨hget, hprefix⟩, (isSome_parse?_iff hprefix).mpr hindex⟩,
      rfl⟩

/-- The names of elements sort like their indices. -/
lemma compare_element_iff {i j : Nat} :
    compare (field ++ "/" ++ Index.name i) (field ++ "/" ++ Index.name j) = .lt ↔ i < j := by
  rw [Text.compare_append_iff, Index.compare_name_iff]

lemma pairwise_elements (m : Metadata) (field : String) :
    (elements m field).Pairwise fun a b => compare a.base b.base = .lt := by
  rw [elements, List.pairwise_map, Metadata.below_eq_filter]
  exact (m.increasing.filter _).filter _

/-- Whether entries are all the elements of a field, in the order of their indices. -/
structure HasElements (m : Metadata) (field : String) (entries : List FieldEntry) : Prop where
  mem : ∀ entry, entry ∈ entries ↔
    (∃ i < 2 ^ 64, entry.base = field ++ "/" ++ Index.name i) ∧
      m.get? entry.base = some entry.value
  increasing : entries.Pairwise fun a b => ∃ i j, i < j ∧
    a.base = field ++ "/" ++ Index.name i ∧ b.base = field ++ "/" ++ Index.name j

lemma hasElements_elements (m : Metadata) (field : String) :
    HasElements m field (elements m field) := by
  refine ⟨fun _ => mem_elements_iff, ?_⟩
  refine (pairwise_elements m field).imp_of_mem ?_
  intro a b ha hb hab
  obtain ⟨⟨i, _, hi⟩, _⟩ := mem_elements_iff.mp ha
  obtain ⟨⟨j, _, hj⟩, _⟩ := mem_elements_iff.mp hb
  rw [hi, hj, compare_element_iff] at hab
  exact ⟨i, j, hab, hi, hj⟩

/-- There is only one way to list the elements of a field. -/
lemma HasElements.eq_elements {entries : List FieldEntry} (h : HasElements m field entries) :
    entries = elements m field := by
  have hsorted : entries.Pairwise fun a b => compare a.base b.base = .lt := by
    refine h.increasing.imp ?_
    rintro a b ⟨i, j, hij, hi, hj⟩
    rw [hi, hj]
    exact compare_element_iff.mpr hij
  refine SortedBy.eq_of_mem_iff hsorted (pairwise_elements m field) fun entry => ?_
  rw [h.mem]
  exact mem_elements_iff.symm

/-! ### Fields -/

/-- Whether a text of a field makes it an array: it begins with `#`, and metadata is there under its
name below the field. -/
def IsArrayText (m : Metadata) (field value : String) : Prop :=
  (∃ rest, value = "#" ++ rest) ∧ m.get? (field ++ "/" ++ value) ≠ none

/-- What a field reads as: nothing without a text, all its elements if its text makes it an array,
and its text otherwise. -/
inductive Reads (m : Metadata) (field : String) : Field → Prop
  | absent (htext : m.get? field = none) : Reads m field .absent
  | single {value : String} (htext : m.get? field = some value)
      (hsingle : ¬IsArrayText m field value) : Reads m field (.single ⟨field, value⟩)
  | array {value : String} {entries : List FieldEntry} (htext : m.get? field = some value)
      (harray : IsArrayText m field value) (helements : HasElements m field entries) :
      Reads m field (.array entries)

lemma isArrayText_iff {value : String} : IsArrayText m field value ↔
    value.toList.head? = some '#' ∧ (m.get? (field ++ "/" ++ value)).isSome := by
  rw [IsArrayText, ← Option.isSome_iff_ne_none]
  refine and_congr_left' ?_
  constructor
  · rintro ⟨rest, rfl⟩
    simp
  · intro hhead
    obtain ⟨rest, hrest⟩ := List.head?_eq_some_iff.mp hhead
    refine ⟨.ofList rest, ?_⟩
    rw [← String.toList_inj, hrest]
    simp

lemma read_of_get? {value : String} (htext : m.get? field = some value) : read m field =
    if value.toList.head? = some '#' ∧ (m.get? (field ++ "/" ++ value)).isSome then
      .array (elements m field)
    else .single ⟨field, value⟩ := by
  rw [read, htext]

/-- Fields read as their texts and the elements below them say, and only so. -/
theorem read_eq_iff (m : Metadata) (field : String) (result : Field) :
    read m field = result ↔ Reads m field result := by
  constructor
  · rintro rfl
    cases htext : m.get? field with
    | none =>
      rw [read, htext]
      exact .absent htext
    | some value =>
      rw [read_of_get? htext]
      split
      · next harray =>
        exact .array htext (isArrayText_iff.mpr harray) (hasElements_elements m field)
      · next hsingle => exact .single htext (isArrayText_iff.not.mpr hsingle)
  · intro h
    cases h with
    | absent htext => rw [read, htext]
    | single htext hsingle => rw [read_of_get? htext, if_neg (isArrayText_iff.not.mp hsingle)]
    | array htext harray helements =>
      rw [read_of_get? htext, if_pos (isArrayText_iff.mp harray), helements.eq_elements]

/-- Two elements among names that begin like theirs. -/
example : read (.ofList Prod.fst [("opt", "#_10"), ("opt/#0", "a"), ("opt/#0/long", "all"),
    ("opt/#10", "x"), ("opt/#_1", "y"), ("opt/#_10", "b"), ("option/#0", "z")]) "opt" =
      .array [⟨"opt/#0", "a"⟩, ⟨"opt/#_10", "b"⟩] := by decide

end Field

end DeclaredOptions
