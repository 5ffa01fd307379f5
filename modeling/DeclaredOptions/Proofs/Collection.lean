import DeclaredOptions.Proofs.Filing
import Mathlib.Tactic.Common

/-!
# Collecting items by sorting them

Instead of filing items one after the other they can be sorted first, so that items of one key stand
together in the order in which they were given, and then the last of them is kept. This comes to
the same sorted list (`toList_ofList`).
-/

namespace DeclaredOptions

open Std

namespace SortedBy

variable {α κ : Type} [Ord κ] {key : α → κ}

/-- Whether an item may stand before another one in the order of keys. -/
def precedes (key : α → κ) (a b : α) : Bool := (compare (key a) (key b)).isLE

/-- The items whose next item is of another key, and the last item. -/
def keepLast (key : α → κ) : List α → List α
  | [] => []
  | [a] => [a]
  | a :: b :: rest =>
    if compare (key a) (key b) = .eq then keepLast key (b :: rest)
    else a :: keepLast key (b :: rest)

/-- The last items of each key, in the order of keys. -/
def collect (key : α → κ) (items : List α) : List α :=
  keepLast key (items.mergeSort (precedes key))

lemma mem_of_mem_keepLast {a : α} {items : List α} (h : a ∈ keepLast key items) : a ∈ items := by
  induction items with
  | nil => exact h
  | cons b items ih =>
    cases items with
    | nil => exact h
    | cons c items =>
      rw [keepLast] at h
      split at h
      · exact List.mem_cons_of_mem _ (ih h)
      · rcases List.mem_cons.mp h with rfl | h
        · exact List.mem_cons_self
        · exact List.mem_cons_of_mem _ (ih h)

lemma latest?_eq_getLast? (k : κ) (items : List α) :
    latest? key k items = (items.filter fun a => compare (key a) k == .eq).getLast? := by
  rw [latest?, List.getLast?_eq_head?_reverse, ← List.filter_reverse, List.head?_filter]

variable [TransOrd κ]

lemma precedes_trans (a b c : α) (hab : precedes key a b) (hbc : precedes key b c) :
    precedes key a c := TransCmp.isLE_trans hab hbc

lemma precedes_total (a b : α) : precedes key a b || precedes key b a := by
  rw [Bool.or_eq_true]
  by_cases h : precedes key a b
  · exact Or.inl h
  · right
    have hgt : compare (key a) (key b) = .gt := by simpa [precedes] using h
    rw [precedes, OrientedCmp.lt_of_gt hgt]
    rfl

/-- In a sorted list, what follows an item of a greater key is of greater keys. -/
lemma lt_of_pairwise_precedes {a b c : α} {items : List α}
    (h : (a :: b :: items).Pairwise fun a b => precedes key a b)
    (hne : compare (key a) (key b) ≠ .eq) (hc : c ∈ b :: items) :
    compare (key a) (key c) = .lt := by
  obtain ⟨hle, hrest⟩ := List.pairwise_cons.mp h
  have hlt : compare (key a) (key b) = .lt := by
    have hab := hle b List.mem_cons_self
    rw [precedes, Ordering.isLE_iff_eq_lt_or_eq_eq] at hab
    exact hab.resolve_right hne
  rcases List.mem_cons.mp hc with rfl | hc
  · exact hlt
  · exact TransCmp.lt_of_lt_of_isLE hlt ((List.pairwise_cons.mp hrest).1 c hc)

lemma pairwise_keepLast {items : List α} (h : items.Pairwise fun a b => precedes key a b) :
    (keepLast key items).Pairwise fun a b => compare (key a) (key b) = .lt := by
  induction items with
  | nil => exact .nil
  | cons a items ih =>
    cases items with
    | nil => exact List.pairwise_singleton _ _
    | cons b items =>
      have hrest := ih h.of_cons
      rw [keepLast]
      split
      · exact hrest
      · rename_i hne
        refine List.pairwise_cons.mpr ⟨fun c hc => ?_, hrest⟩
        exact lt_of_pairwise_precedes h hne (mem_of_mem_keepLast hc)

variable [LawfulEqOrd κ]

/-- In a sorted list the last items of their keys are kept. -/
lemma mem_keepLast_iff {a : α} {items : List α}
    (h : items.Pairwise fun a b => precedes key a b) :
    a ∈ keepLast key items ↔ latest? key (key a) items = some a := by
  induction items with
  | nil => simp [keepLast, latest?]
  | cons x items ih =>
    cases items with
    | nil =>
      rw [keepLast, List.mem_singleton]
      constructor
      · rintro rfl
        simp [latest?]
      · intro hlatest
        exact List.mem_singleton.mp (mem_of_latest? hlatest)
    | cons b items =>
      have hcons : latest? key (key a) (x :: b :: items) =
          (latest? key (key a) (b :: items)).or (latest? key (key a) [x]) :=
        latest?_append (key a) [x] (b :: items)
      rw [keepLast, hcons]
      split
      case isTrue heq =>
        have hkey : key x = key b := LawfulEqCmp.eq_of_compare heq
        rw [ih h.of_cons]
        cases hlatest : latest? key (key a) (b :: items) with
        | some c => rfl
        | none =>
          have hne : key x ≠ key a := hkey ▸ latest?_eq_none_iff.mp hlatest b List.mem_cons_self
          simp [latest?, hne]
      case isFalse hne =>
        -- the items are sorted, so that the key of `x` does not come again behind `b`
        have hlater : ∀ c ∈ b :: items, key x ≠ key c := by
          intro c hc hkey
          have hlt := lt_of_pairwise_precedes h hne hc
          rw [hkey] at hlt
          simp at hlt
        rw [List.mem_cons, ih h.of_cons]
        by_cases hkey : key x = key a
        · have hnone : latest? key (key a) (b :: items) = none :=
            latest?_eq_none_iff.mpr fun c hc => hkey ▸ (hlater c hc).symm
          have hone : latest? key (key a) [x] = some x := by simp [latest?, hkey]
          simp [hnone, hone, eq_comm]
        · have hxa : a ≠ x := fun hax => hkey (congrArg key hax.symm)
          have hone : latest? key (key a) [x] = none := by simp [latest?, hkey]
          simp [hone, hxa]

/-! ### Sorting -/

/-- Sorting leaves the items of one key in their order. -/
lemma filter_mergeSort (k : κ) (items : List α) :
    (items.mergeSort (precedes key)).filter (fun a => compare (key a) k == .eq) =
      items.filter fun a => compare (key a) k == .eq := by
  have hsorted : (items.filter fun a => compare (key a) k == .eq).Pairwise
      fun a b => precedes key a b := by
    apply List.pairwise_of_forall_mem_list
    intro a ha b hb
    have hka : key a = k := by simpa using (List.mem_filter.mp ha).2
    have hkb : key b = k := by simpa using (List.mem_filter.mp hb).2
    simp [precedes, hka, hkb]
  have hsub := (List.sublist_mergeSort precedes_trans precedes_total hsorted
    List.filter_sublist).filter fun a => compare (key a) k == .eq
  rw [List.filter_filter] at hsub
  simp only [Bool.and_self] at hsub
  exact (hsub.eq_of_length ((List.mergeSort_perm items _).filter _).length_eq.symm).symm

lemma latest?_mergeSort (k : κ) (items : List α) :
    latest? key k (items.mergeSort (precedes key)) = latest? key k items := by
  rw [latest?_eq_getLast?, filter_mergeSort, ← latest?_eq_getLast?]

/-- Filing items one after the other comes to the same as collecting them. -/
theorem toList_ofList (items : List α) : (ofList key items).toList = collect key items := by
  have hsorted : (items.mergeSort (precedes key)).Pairwise fun a b => precedes key a b :=
    List.pairwise_mergeSort precedes_trans precedes_total items
  apply eq_of_mem_iff (ofList key items).increasing (pairwise_keepLast hsorted)
  intro a
  rw [mem_keepLast_iff hsorted, latest?_mergeSort, mem_iff_find?, ofList, find?_insertAll,
    find?_empty, Option.or_none]

end SortedBy

end DeclaredOptions
