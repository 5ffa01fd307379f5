import DeclaredOptions.Proofs.Filing
import Mathlib.Tactic.Common

/-!
# Places in a sorted list

A sorted list can be kept as a plain list of slots: a search tells the place of a key, and a change
is made there. Where the place is right (`Locates`), the slots change just as the sorted list does.
Halving the range that is left finds a right place in any sorted list (`locates_bisect`).
-/

namespace DeclaredOptions

open Std

/-- What the search for a key in a sorted list answers. -/
inductive Place
  /-- The index of an item with the key. -/
  | found (index : Nat)
  /-- Where an item with the key would have to be inserted. -/
  | missing (index : Nat)
  deriving DecidableEq, Repr

namespace SortedBy

variable {α κ : Type} [Ord κ] {key : α → κ} {before after items : List α} {a x : α} {k : κ}
  {place : Place} {i : Nat}

/-- The right answers to the search for `k`: an item with this key, or if there is none, the place
between the items below and those above. -/
inductive Locates (key : α → κ) (k : κ) : List α → Place → Prop
  | found {before after : List α} {a : α} (hkey : key a = k) :
      Locates key k (before ++ a :: after) (.found before.length)
  | missing {before after : List α} (hbefore : ∀ b ∈ before, compare (key b) k = .lt)
      (hafter : ∀ b ∈ after, compare (key b) k = .gt) :
      Locates key k (before ++ after) (.missing before.length)

/-! ### Insertion into the middle -/

lemma insertInto_append [OrientedOrd κ] (h : ∀ b ∈ before, compare (key b) (key x) = .lt) :
    insertInto key x (before ++ after) = before ++ insertInto key x after := by
  induction before with
  | nil => rfl
  | cons b before ih =>
    obtain ⟨hb, hrest⟩ := List.forall_mem_cons.mp h
    rw [List.cons_append, insertInto, OrientedCmp.gt_of_lt hb]
    simp [ih hrest]

lemma insertIdx_length (before after : List α) (a : α) :
    (before ++ after).insertIdx before.length a = before ++ a :: after := by
  induction before with
  | nil => rfl
  | cons b before ih => simp [ih]

lemma insertInto_of_gt [OrientedOrd κ] (h : ∀ b ∈ after, compare (key b) (key x) = .gt) :
    insertInto key x after = x :: after := by
  cases after with
  | nil => rfl
  | cons b after => rw [insertInto, OrientedCmp.lt_of_gt (h b List.mem_cons_self)]

/-- The neighbours of an item in a sorted list. -/
lemma neighbours
    (h : (before ++ a :: after).Pairwise fun a b => compare (key a) (key b) = .lt) :
    (∀ b ∈ before, compare (key b) (key a) = .lt) ∧ ∀ b ∈ after, compare (key a) (key b) = .lt := by
  obtain ⟨_, hrest, hcross⟩ := List.pairwise_append.mp h
  exact ⟨fun b hb => hcross b hb a List.mem_cons_self, (List.pairwise_cons.mp hrest).1⟩

namespace Locates

variable [LawfulEqOrd κ] {s : SortedBy key}

/-! ### Items that are found -/

lemma exists_of_found (h : Locates key k s.toList (.found i)) :
    ∃ a, s.find? k = some a ∧ s.toList[i]? = some a := by
  obtain ⟨items, hitems⟩ := s
  cases h with
  | @found before after a hkey =>
    refine ⟨a, find?_eq_some_iff.mpr ⟨?_, hkey⟩, ?_⟩ <;> simp

lemma toList_insert_of_found [TransOrd κ] (h : Locates key (key x) s.toList (.found i)) :
    (s.insert x).toList = s.toList.set i x := by
  obtain ⟨items, hitems⟩ := s
  cases h with
  | @found before after a hkey =>
    have hbefore := (neighbours hitems).1
    rw [hkey] at hbefore
    show insertInto key x (before ++ a :: after) = _
    rw [insertInto_append hbefore]
    simp [insertInto, hkey]

lemma toList_erase_of_found (h : Locates key k s.toList (.found i)) :
    (s.erase k).toList = s.toList.eraseIdx i := by
  obtain ⟨items, hitems⟩ := s
  cases h with
  | @found before after a hkey =>
    obtain ⟨hbefore, hafter⟩ := neighbours hitems
    subst hkey
    have hkeep : ∀ {others : List α}, (∀ b ∈ others, key b ≠ key a) →
        others.filter (fun b => compare (key b) (key a) != .eq) = others := by
      intro others hothers
      simpa [List.filter_eq_self] using hothers
    show (before ++ a :: after).filter _ = (before ++ a :: after).eraseIdx before.length
    rw [List.filter_append, List.filter_cons_of_neg (by simp), hkeep, hkeep,
      List.eraseIdx_append_of_length_le (Nat.le_refl _)]
    · simp
    · intro b hb heq
      simpa [heq] using hafter b hb
    · intro b hb heq
      simpa [heq] using hbefore b hb

/-! ### Items that are missing -/

lemma find?_of_missing (h : Locates key k s.toList (.missing i)) : s.find? k = none := by
  obtain ⟨items, hitems⟩ := s
  cases h with
  | missing hbefore hafter =>
    rw [find?_eq_none_iff]
    rintro b hb rfl
    rcases List.mem_append.mp hb with hb | hb
    · simpa using hbefore b hb
    · simpa using hafter b hb

lemma erase_of_missing (h : Locates key k s.toList (.missing i)) : s.erase k = s := by
  have hnone := find?_eq_none_iff.mp h.find?_of_missing
  ext1
  show s.toList.filter _ = _
  simpa [List.filter_eq_self] using hnone

omit [LawfulEqOrd κ] in
lemma toList_insert_of_missing [TransOrd κ] (h : Locates key (key x) s.toList (.missing i)) :
    (s.insert x).toList = s.toList.insertIdx i x := by
  obtain ⟨items, hitems⟩ := s
  cases h with
  | @missing before after hbefore hafter =>
    show insertInto key x (before ++ after) = (before ++ after).insertIdx before.length x
    rw [insertInto_append hbefore, insertInto_of_gt hafter, insertIdx_length]

end Locates

/-! ### Search by halving -/

/-- Searches the items from `low` up to `high` for `k`. -/
def bisect (key : α → κ) (k : κ) (items : List α) (low high : Nat) : Place :=
  if low < high then
    let middle := (low + high) / 2
    match items[middle]? with
    | none => .missing low
    | some a => match compare (key a) k with
      | .lt => bisect key k items (middle + 1) high
      | .eq => .found middle
      | .gt => bisect key k items low middle
  else .missing low
termination_by high - low

lemma exists_eq_append_of_getElem? (h : items[i]? = some a) :
    ∃ before after, items = before ++ a :: after ∧ before.length = i := by
  obtain ⟨hi, rfl⟩ := List.getElem?_eq_some_iff.mp h
  refine ⟨items.take i, items.drop (i + 1), ?_, List.length_take_of_le (Nat.le_of_lt hi)⟩
  rw [← List.drop_eq_getElem_cons hi, List.take_append_drop]

/-- Everything outside of the range that is left has been ruled out. -/
lemma locates_bisect_between [TransOrd κ] [LawfulEqOrd κ]
    (hitems : items.Pairwise fun a b => compare (key a) (key b) = .lt) {low high : Nat}
    (hlow : low ≤ high) (hhigh : high ≤ items.length)
    (hbefore : ∀ b ∈ items.take low, compare (key b) k = .lt)
    (hafter : ∀ b ∈ items.drop high, compare (key b) k = .gt) :
    Locates key k items (bisect key k items low high) := by
  fun_induction bisect key k items low high with
  | case1 low high hlt middle hnone =>
    have hmiddle : items.length ≤ (low + high) / 2 := List.getElem?_eq_none_iff.mp hnone
    omega
  | case2 low high hlt middle a hsome hcompare ih =>
    refine ih (by omega) hhigh ?_ hafter
    obtain ⟨before, after, rfl, hmiddle⟩ := exists_eq_append_of_getElem? hsome
    have hbelow := (neighbours hitems).1
    intro b hb
    rw [← hmiddle] at hb
    have hb : b ∈ before ∨ b = a := by
      simpa [List.take_append, List.take_of_length_le] using hb
    rcases hb with hb | rfl
    · exact TransCmp.lt_trans (hbelow b hb) hcompare
    · exact hcompare
  | case3 low high hlt middle a hsome hcompare =>
    obtain ⟨before, after, rfl, hmiddle⟩ := exists_eq_append_of_getElem? hsome
    rw [← hmiddle]
    exact .found (LawfulEqCmp.eq_of_compare hcompare)
  | case4 low high hlt middle a hsome hcompare ih =>
    refine ih (by omega) (by omega) hbefore ?_
    obtain ⟨before, after, rfl, hmiddle⟩ := exists_eq_append_of_getElem? hsome
    have habove := (neighbours hitems).2
    intro b hb
    rw [← hmiddle] at hb
    have hb : b = a ∨ b ∈ after := by simpa using hb
    rcases hb with rfl | hb
    · exact hcompare
    · exact OrientedCmp.gt_of_lt
        (TransCmp.lt_trans (OrientedCmp.lt_of_gt hcompare) (habove b hb))
  | case5 low high hge =>
    obtain rfl : low = high := by omega
    have hplace := Locates.missing hbefore hafter
    rwa [List.take_append_drop, List.length_take_of_le hhigh] at hplace

/-- Halving the whole range finds a right place in a sorted list. -/
lemma locates_bisect [TransOrd κ] [LawfulEqOrd κ]
    (hitems : items.Pairwise fun a b => compare (key a) (key b) = .lt) :
    Locates key k items (bisect key k items 0 items.length) := by
  apply locates_bisect_between hitems (Nat.zero_le _) (Nat.le_refl _) <;> simp

end SortedBy

end DeclaredOptions
