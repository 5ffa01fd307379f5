import DeclaredOptions.KeySet
import DeclaredOptions.Proofs.Filing
import DeclaredOptions.Proofs.IndexNames
import Mathlib.Tactic.Common

/-!
# Descendants and array elements

No other name sorts between a name and its descendants (`IsBelow.of_between`). So the stretch of
keys after a name that `below` reads holds all its descendants (`below_eq_filter`), and the values
of an array are those of its elements in the order of their indices (`arrayValues_eq_filterMap`).
-/

namespace DeclaredOptions

open Std

/-! ### Stretches of sorted lists -/

/-- Dropping what lies before a stretch keeps all that does not lie before it. -/
lemma SortedBy.dropWhile_eq_filter {α : Type} {R : α → α → Prop} {before : α → Bool}
    {l : List α} (hl : l.Pairwise R)
    (started : ∀ a b, R a b → before a = false → before b = false) :
    l.dropWhile before = l.filter fun a => !before a := by
  induction l with
  | nil => rfl
  | cons a l ih =>
    obtain ⟨ha, hl⟩ := List.pairwise_cons.mp hl
    cases hbefore : before a with
    | true =>
      rw [List.dropWhile_cons_of_pos hbefore, List.filter_cons_of_neg (by simp [hbefore]), ih hl]
    | false =>
      rw [List.dropWhile_cons_of_neg (by simp [hbefore])]
      symm
      rw [List.filter_eq_self]
      intro b hb
      rcases List.mem_cons.mp hb with rfl | hb
      · simp [hbefore]
      · simp [started a b (ha b hb) hbefore]

/-- Dropping what lies before a stretch and taking what lies in it keeps just the stretch. -/
lemma SortedBy.takeWhile_dropWhile_eq_filter {α : Type} {R : α → α → Prop}
    {before within : α → Bool} {l : List α} (hl : l.Pairwise R)
    (disjoint : ∀ a, before a → within a = false)
    (started : ∀ a b, R a b → before a = false → before b = false)
    (ended : ∀ a b, R a b → before a = false → within a = false → within b = false) :
    (l.dropWhile before).takeWhile within = l.filter within := by
  induction l with
  | nil => rfl
  | cons a l ih =>
    obtain ⟨ha, hl⟩ := List.pairwise_cons.mp hl
    cases hbefore : before a with
    | true =>
      rw [List.dropWhile_cons_of_pos hbefore, ih hl,
        List.filter_cons_of_neg (by simp [disjoint a hbefore])]
    | false =>
      rw [List.dropWhile_cons_of_neg (by simp [hbefore])]
      cases hwithin : within a with
      | true =>
        -- the rest starts inside or behind the stretch, so nothing of it is dropped
        have hrest : l.dropWhile before = l := by
          cases l with
          | nil => rfl
          | cons b l =>
            have hb := started a b (ha b List.mem_cons_self) hbefore
            exact List.dropWhile_cons_of_neg (by simp [hb])
        rw [List.takeWhile_cons_of_pos hwithin, List.filter_cons_of_pos hwithin, ← ih hl, hrest]
      | false =>
        rw [List.takeWhile_cons_of_neg (by simp [hwithin]),
          List.filter_cons_of_neg (by simp [hwithin])]
        refine (List.filter_eq_nil_iff.mpr fun b hb => ?_).symm
        simp [ended a b (ha b hb) hbefore hwithin]

namespace KeyName

/-! ### Descendants -/

/-- A name comes before all its descendants. -/
lemma IsBelow.lt {name top : KeyName} (h : name.IsBelow top) : compare top name = .lt := by
  obtain ⟨hspace, ⟨tail, htail⟩, hlength⟩ := h
  rw [compare_eq_compare_segments hspace.symm, ← htail]
  have happend := Text.compare_append_left top.segments [] tail
  rw [List.append_nil] at happend
  rw [happend]
  cases tail with
  | nil =>
    rw [← htail, List.append_nil] at hlength
    exact absurd hlength (Nat.lt_irrefl _)
  | cons s tail => rfl

/-- A path between a path and a continuation of it continues it too. -/
lemma initial_of_between {top middle last : List String} (hmiddle : compare top middle = .lt)
    (hlast : compare middle last = .lt) (h : top <+: last) :
    top <+: middle ∧ top.length < middle.length := by
  induction top generalizing middle last with
  | nil =>
    cases middle with
    | nil => cases hmiddle
    | cons m middle => exact ⟨List.nil_prefix, Nat.succ_pos _⟩
  | cons t top ih =>
    obtain ⟨last, rfl⟩ : ∃ rest, last = t :: rest := by
      obtain ⟨tail, rfl⟩ := h
      exact ⟨top ++ tail, rfl⟩
    cases middle with
    | nil => cases hmiddle
    | cons m middle =>
      rw [List.compare_cons_cons, Ordering.then_eq_lt] at hmiddle hlast
      have htm : t = m := by
        rcases hmiddle with hlt | ⟨heq, _⟩
        · rcases hlast with hlt' | ⟨heq', _⟩
          · exact absurd hlt' (OrientedCmp.not_lt_of_lt hlt)
          · exact (LawfulEqOrd.eq_of_compare heq').symm
        · exact LawfulEqOrd.eq_of_compare heq
      subst htm
      have hself : compare t t ≠ .lt := by simp
      obtain ⟨hinitial, hlength⟩ := ih (hmiddle.resolve_left hself).2 (hlast.resolve_left hself).2
        ((List.cons_prefix_cons.mp h).2)
      exact ⟨List.cons_prefix_cons.mpr ⟨rfl, hinitial⟩, Nat.succ_lt_succ hlength⟩

/-- A name between a name and one of its descendants is a descendant. -/
lemma IsBelow.of_between {top middle last : KeyName} (hmiddle : compare top middle = .lt)
    (hlast : compare middle last = .lt) (h : last.IsBelow top) : middle.IsBelow top := by
  have hrank : middle.space.rank = top.space.rank := by
    change (compare top.space.rank middle.space.rank).then _ = .lt at hmiddle
    change (compare middle.space.rank last.space.rank).then _ = .lt at hlast
    rw [h.1] at hlast
    rw [Ordering.then_eq_lt, Nat.compare_eq_lt, Nat.compare_eq_eq] at hmiddle hlast
    omega
  have hspace : middle.space = top.space := Namespace.rank_injective hrank
  rw [compare_eq_compare_segments hspace.symm] at hmiddle
  rw [compare_eq_compare_segments (hspace.trans h.1.symm)] at hlast
  exact ⟨hspace, initial_of_between hmiddle hlast h.2.1⟩

lemma isDirectlyBelow_iff {name top : KeyName} :
    name.IsDirectlyBelow top ↔ ∃ s, IsSegment s ∧ name = top.child s := by
  constructor
  · rintro ⟨⟨hspace, ⟨tail, htail⟩, _⟩, hlength⟩
    rw [← htail, List.length_append, Nat.add_left_cancel_iff, List.length_eq_one_iff] at hlength
    obtain ⟨s, rfl⟩ := hlength
    have hs : IsSegment s := name.valid s (by simp [← htail])
    refine ⟨s, hs, KeyName.ext hspace ?_⟩
    rw [segments_child top hs, htail]
  · rintro ⟨s, hs, rfl⟩
    have hsegments := segments_child top hs
    refine ⟨⟨rfl, ?_, ?_⟩, ?_⟩
    · exact hsegments ▸ List.prefix_append _ _
    · simp [hsegments]
    · simp [hsegments]

end KeyName

namespace KeySet

/-! ### Descendants in a key set -/

/-- The keys below a name are all its descendants. -/
lemma below_eq_filter (keys : KeySet) (top : KeyName) :
    keys.below top = keys.toList.filter fun key => key.name.IsBelow top := by
  rw [below, SortedBy.above]
  apply SortedBy.takeWhile_dropWhile_eq_filter keys.increasing
  · intro key hle
    rw [decide_eq_false_iff_not]
    intro hbelow
    rw [OrientedCmp.gt_of_lt hbelow.lt] at hle
    cases hle
  · intro a b hab ha
    rw [Ordering.isLE_eq_false, OrientedCmp.gt_iff_lt] at ha ⊢
    exact TransCmp.lt_trans ha hab
  · intro a b hab ha hnot
    rw [Ordering.isLE_eq_false, OrientedCmp.gt_iff_lt] at ha
    rw [decide_eq_false_iff_not] at hnot ⊢
    exact fun hbelow => hnot (hbelow.of_between ha hab)

/-! ### Array elements -/

/-- The elements of an array are its children that are named for an index. -/
lemma isElement_iff {name top : KeyName} :
    (name.IsDirectlyBelow top ∧ (Index.parse? name.baseName).isSome) ↔
      ∃ i < Index.bound, name = top.child (Index.name i) := by
  constructor
  · rintro ⟨hbelow, hindex⟩
    obtain ⟨s, hs, rfl⟩ := KeyName.isDirectlyBelow_iff.mp hbelow
    rw [KeyName.baseName_child top hs] at hindex
    obtain ⟨i, hi⟩ := Option.isSome_iff_exists.mp hindex
    obtain ⟨rfl, hbound⟩ := Index.parse?_eq_some_iff.mp hi
    exact ⟨i, hbound, rfl⟩
  · rintro ⟨i, hi, rfl⟩
    have hsegment := Index.isSegment_name i
    refine ⟨KeyName.isDirectlyBelow_iff.mpr ⟨_, hsegment, rfl⟩, ?_⟩
    rw [KeyName.baseName_child top hsegment, Index.parse?_name hi]
    rfl

/-- The values of an array: those of its elements that are there, by increasing index. -/
lemma arrayValues_eq_filterMap (keys : KeySet) (top : KeyName) :
    keys.arrayValues top = (List.range Index.bound).filterMap fun i =>
      (keys.find? (top.child (Index.name i))).map Key.value := by
  have hfilter : (keys.below top).filter (fun key =>
        key.name.IsDirectlyBelow top ∧ (Index.parse? key.name.baseName).isSome)
      = (List.range Index.bound).filterMap fun i => keys.find? (top.child (Index.name i)) := by
    have hfiltered : ((keys.below top).filter fun key =>
          key.name.IsDirectlyBelow top ∧ (Index.parse? key.name.baseName).isSome).Pairwise
        fun a b => compare a.name b.name = .lt := by
      rw [below_eq_filter]
      exact (keys.increasing.filter _).filter _
    have hcollected : ((List.range Index.bound).filterMap fun i =>
          keys.find? (top.child (Index.name i))).Pairwise
        fun a b => compare a.name b.name = .lt := by
      refine List.Pairwise.filterMap _ ?_ List.pairwise_lt_range
      intro i j hij a ha b hb
      rw [SortedBy.key_of_find?_eq_some ha, SortedBy.key_of_find?_eq_some hb,
        KeyName.compare_child_child top (Index.isSegment_name i) (Index.isSegment_name j)]
      exact Index.name_lt_name hij
    apply SortedBy.eq_of_mem_iff hfiltered hcollected
    intro key
    rw [below_eq_filter]
    simp only [List.mem_filter, List.mem_filterMap, List.mem_range, decide_eq_true_eq,
      SortedBy.find?_eq_some_iff, isElement_iff]
    constructor
    · rintro ⟨⟨hkey, _⟩, i, hi, hname⟩
      exact ⟨i, hi, hkey, hname⟩
    · rintro ⟨i, hi, hkey, hname⟩
      have hbelow : key.name.IsDirectlyBelow top :=
        (isElement_iff.mpr ⟨i, hi, hname⟩).1
      exact ⟨⟨hkey, hbelow.1⟩, i, hi, hname⟩
  rw [arrayValues, hfilter, List.map_filterMap]

end KeySet

end DeclaredOptions
