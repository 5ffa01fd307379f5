import DeclaredOptions.Sorted
import Mathlib.Tactic.Common

/-!
# Filing several items

`insertAll` files the items of a list one after the other. Afterwards a look-up finds the last item
of the list with the wanted key, or what was there before if the list has none (`find?_insertAll`).
Sorted lists with the same members are equal, so filing the items of a sorted list for a second
time changes nothing (`insertAll_insertAll_toList`). Items can be replaced by items of the same keys
before or after they are filed (`map_insertAll`).
-/

namespace DeclaredOptions

open Std

namespace SortedBy

variable {α κ : Type} [Ord κ] {key : α → κ}

/-! ### Last items -/

/-- The last item of a list with the key `k`. -/
def latest? (key : α → κ) (k : κ) (items : List α) : Option α :=
  items.reverse.find? fun a => compare (key a) k == .eq

lemma latest?_append (k : κ) (xs ys : List α) :
    latest? key k (xs ++ ys) = (latest? key k ys).or (latest? key k xs) := by
  simp [latest?]

lemma mem_of_latest? {k : κ} {items : List α} {a : α} (h : latest? key k items = some a) :
    a ∈ items := List.mem_reverse.mp (List.mem_of_find?_eq_some h)

variable [LawfulEqOrd κ]

lemma key_of_latest? {k : κ} {items : List α} {a : α} (h : latest? key k items = some a) :
    key a = k := by
  simpa using List.find?_some h

lemma latest?_eq_none_iff {k : κ} {items : List α} :
    latest? key k items = none ↔ ∀ a ∈ items, key a ≠ k := by
  simp [latest?]

lemma latest?_eq_some_of_unique {k : κ} {items : List α} {x : α} (hx : x ∈ items)
    (hkey : key x = k) (unique : ∀ a ∈ items, key a = k → a = x) :
    latest? key k items = some x := by
  cases h : latest? key k items with
  | none => exact absurd hkey (latest?_eq_none_iff.mp h x hx)
  | some a => rw [unique a (mem_of_latest? h) (key_of_latest? h)]

/-! ### Look-ups -/

lemma find?_eq_some_iff {s : SortedBy key} {k : κ} {a : α} :
    s.find? k = some a ↔ a ∈ s.toList ∧ key a = k := by
  constructor
  · intro h
    exact ⟨List.mem_of_find?_eq_some h, key_of_find?_eq_some h⟩
  · rintro ⟨ha, rfl⟩
    exact mem_iff_find?.mp ha

lemma find?_eq_none_iff {s : SortedBy key} {k : κ} :
    s.find? k = none ↔ ∀ a ∈ s.toList, key a ≠ k := by
  simp [find?]

/-- In a sorted list the last item with a key is the only one. -/
lemma latest?_toList (s : SortedBy key) (k : κ) : latest? key k s.toList = s.find? k := by
  cases h : latest? key k s.toList with
  | none => exact (find?_eq_none_iff.mpr (latest?_eq_none_iff.mp h)).symm
  | some a => exact (find?_eq_some_iff.mpr ⟨mem_of_latest? h, key_of_latest? h⟩).symm

variable [TransOrd κ]

/-- A look-up finds what was filed last. -/
lemma find?_insertAll (s : SortedBy key) (items : List α) (k : κ) :
    (s.insertAll items).find? k = (latest? key k items).or (s.find? k) := by
  induction items generalizing s with
  | nil => rfl
  | cons x items ih =>
    rw [insertAll_cons, ih]
    have hcons : latest? key k (x :: items)
        = (latest? key k items).or (latest? key k [x]) := latest?_append k [x] items
    rw [hcons, Option.or_assoc]
    congr 1
    by_cases hx : key x = k
    · subst hx
      rw [find?_insert_self]
      simp [latest?]
    · rw [find?_insert_of_ne s hx]
      simp [latest?, hx]

lemma find?_insertAll_toList (s t : SortedBy key) (k : κ) :
    (s.insertAll t.toList).find? k = (t.find? k).or (s.find? k) := by
  rw [find?_insertAll, latest?_toList]

/-- The items of a sorted list make the same sorted list. -/
lemma ofList_toList (s : SortedBy key) : ofList key s.toList = s := by
  apply ext_find?
  intro k
  rw [ofList, find?_insertAll_toList, find?_empty, Option.or_none]

/-- Items that were sorted first are filed like the items themselves. -/
lemma insertAll_ofList (s : SortedBy key) (items : List α) :
    s.insertAll (ofList key items).toList = s.insertAll items := by
  apply ext_find?
  intro k
  rw [find?_insertAll_toList, ofList, find?_insertAll, find?_insertAll, find?_empty, Option.or_none]

/-- Filing the items of a sorted list twice is filing them once. -/
lemma insertAll_insertAll_toList (s t : SortedBy key) :
    (s.insertAll t.toList).insertAll t.toList = s.insertAll t.toList := by
  apply ext_find?
  intro k
  rw [find?_insertAll_toList, find?_insertAll_toList]
  cases t.find? k <;> rfl

/-! ### Members -/

/-- Two lists in strictly increasing order of key are equal if they have the same members. -/
lemma eq_of_mem_iff {l m : List α}
    (hl : l.Pairwise fun a b => compare (key a) (key b) = .lt)
    (hm : m.Pairwise fun a b => compare (key a) (key b) = .lt)
    (h : ∀ a, a ∈ l ↔ a ∈ m) : l = m := by
  have heq : (⟨l, hl⟩ : SortedBy key) = ⟨m, hm⟩ := by
    apply ext_find?
    intro k
    ext a
    simp only [find?_eq_some_iff, h]
  exact congrArg toList heq

/-! ### Items of the same keys -/

/-- The items replaced by items of the same keys. -/
def map (s : SortedBy key) (f : α → α) (hf : ∀ a, key (f a) = key a) : SortedBy key where
  toList := s.toList.map f
  increasing := List.pairwise_map.mpr (by simpa only [hf] using s.increasing)

omit [LawfulEqOrd κ] [TransOrd κ] in
lemma find?_map (s : SortedBy key) {f : α → α} (hf : ∀ a, key (f a) = key a) (k : κ) :
    (s.map f hf).find? k = (s.find? k).map f := by
  simp only [find?, map, List.find?_map, Function.comp_def, hf]

omit [LawfulEqOrd κ] [TransOrd κ] in
lemma latest?_map {f : α → α} (hf : ∀ a, key (f a) = key a) (k : κ) (items : List α) :
    latest? key k (items.map f) = (latest? key k items).map f := by
  simp only [latest?, ← List.map_reverse, List.find?_map, Function.comp_def, hf]

lemma map_insertAll (s : SortedBy key) {f : α → α} (hf : ∀ a, key (f a) = key a)
    (items : List α) : (s.insertAll items).map f hf = (s.map f hf).insertAll (items.map f) := by
  apply ext_find?
  intro k
  rw [find?_map, find?_insertAll, find?_insertAll, find?_map, latest?_map hf, Option.map_or]

end SortedBy

namespace SortedMap

variable {κ β : Type} [Ord κ] [LawfulEqOrd κ]

lemma get?_erase_self (m : SortedMap κ β) (k : κ) : SortedMap.get? (m.erase k) k = none := by
  rw [get?, SortedBy.find?_erase_self, Option.map_none]

lemma get?_erase_of_ne (m : SortedMap κ β) {j k : κ} (h : j ≠ k) :
    SortedMap.get? (m.erase j) k = m.get? k := by
  rw [get?, get?, SortedBy.find?_erase_of_ne m h]

/-- A sorted map is determined by its values. -/
lemma ext_get? [TransOrd κ] {m n : SortedMap κ β} (h : ∀ k, m.get? k = n.get? k) : m = n := by
  apply SortedBy.ext_find?
  intro k
  have hfind (m : SortedMap κ β) : m.find? k = (m.get? k).map fun value => (k, value) := by
    rw [get?, Option.map_map]
    cases hfind : m.find? k with
    | none => rfl
    | some entry =>
      obtain rfl := SortedBy.key_of_find?_eq_some hfind
      rfl
  rw [hfind, hfind, h]

end SortedMap

end DeclaredOptions
