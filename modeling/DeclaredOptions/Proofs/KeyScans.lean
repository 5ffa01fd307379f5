import DeclaredOptions.Proofs.FiniteMap
import DeclaredOptions.Proofs.Subtree
import Mathlib.Tactic.Common

/-!
# Scans below a name

In slots that are searched for places, the keys below a name are read from its place on, for as long
as they are below it. Whatever changes made the slots, this yields the keys of the key set below the
name and no others, and of its array the elements that are there, by increasing index
(`isScanned_of_isSearch`).
-/

namespace DeclaredOptions

open Std SortedBy

/-! ### Behind a place -/

/-- The index of what follows a name that has this place. -/
def Place.behind : Place → Nat
  | found index => index + 1
  | missing index => index

namespace SortedBy

variable {α κ : Type} [Ord κ] {key : α → κ} {k : κ} {place : Place} {n : Nat} {items : List α}

lemma dropWhile_isLE_eq_drop (hbefore : ∀ b ∈ items.take n, (compare (key b) k).isLE)
    (hafter : ∀ b ∈ items.drop n, compare (key b) k = .gt) :
    items.dropWhile (fun b => (compare (key b) k).isLE) = items.drop n := by
  conv_lhs => rw [← items.take_append_drop n]
  rw [List.dropWhile_append_of_pos hbefore]
  cases hdrop : items.drop n with
  | nil => rfl
  | cons b after =>
    have hb : compare (key b) k = .gt := hafter b (by simp [hdrop])
    exact List.dropWhile_cons_of_neg (by simp [hb])

/-- The items behind the right place are those above. -/
lemma Locates.drop_behind [TransOrd κ] {s : SortedBy key} (h : Locates key k s.toList place) :
    s.toList.drop place.behind = s.above k := by
  obtain ⟨items, hitems⟩ := s
  symm
  cases h with
  | @found before after a hkey =>
    obtain ⟨hbefore, hafter⟩ := neighbours hitems
    subst hkey
    apply dropWhile_isLE_eq_drop
    · intro b hb
      have hb : b ∈ before ∨ b = a := by
        simpa [Place.behind, List.take_append, List.take_of_length_le] using hb
      rcases hb with hb | rfl
      · rw [hbefore b hb]
        rfl
      · simp
    · intro b hb
      exact OrientedCmp.gt_of_lt (hafter b (by simpa [Place.behind] using hb))
  | @missing before after hbefore hafter =>
    apply dropWhile_isLE_eq_drop
    · intro b hb
      rw [hbefore b (by simpa [Place.behind] using hb)]
      rfl
    · intro b hb
      exact hafter b (by simpa [Place.behind] using hb)

end SortedBy

/-! ### Scans of slots -/

namespace Slots

variable (search : KeyName → List Key → Place) (slots : List Key) (top : KeyName)

/-- The keys below a name: those behind its place, up to the first one that is not below it. -/
def below : List Key :=
  (slots.drop (search top slots).behind).takeWhile fun key => key.name.IsBelow top

/-- The values of the array elements directly below a name. -/
def arrayValues : List String :=
  ((below search slots top).filter fun key =>
    key.name.IsDirectlyBelow top ∧ (Index.parse? key.name.baseName).isSome).map Key.value

variable {search}

lemma below_toList (hsearch : IsSearch search) (keys : KeySet) :
    below search keys.toList top = keys.below top := by
  rw [below, (hsearch top keys.toList keys.increasing).drop_behind]
  rfl

lemma arrayValues_toList (hsearch : IsSearch search) (keys : KeySet) :
    arrayValues search keys.toList top = keys.arrayValues top := by
  rw [arrayValues, below_toList top hsearch]
  rfl

end Slots

/-! ### What scans yield -/

namespace KeySet

variable (keys : KeySet) (top : KeyName)

lemma mem_below_iff {key : Key} :
    key ∈ keys.below top ↔ key ∈ keys.toList ∧ key.name.IsBelow top := by
  rw [below_eq_filter, List.mem_filter, decide_eq_true_eq]

lemma pairwise_below : (keys.below top).Pairwise fun a b => compare a.name b.name = .lt := by
  rw [below_eq_filter]
  exact keys.increasing.filter _

/-- The array element of some index. -/
def element? (i : Nat) : Option Key := keys.find? (top.child (Index.name i))

/-- The indices of the array elements that are there, in order. -/
def indices : List Nat := (List.range Index.bound).filter fun i => (keys.element? top i).isSome

lemma mem_indices_iff {i : Nat} : i ∈ keys.indices top ↔
    i < Index.bound ∧ ∃ key ∈ keys.toList, key.name = top.child (Index.name i) := by
  simp [indices, element?, Option.isSome_iff_exists, find?_eq_some_iff]

lemma pairwise_indices : (keys.indices top).Pairwise (· < ·) := by
  rw [indices]
  exact List.pairwise_lt_range.filter _

/-- The values of an array belong to the indices of its elements, one to each. -/
lemma map_some_arrayValues : (keys.arrayValues top).map some =
    (keys.indices top).map fun i => (keys.element? top i).map Key.value := by
  have hpresent : Option.isSome ∘ (fun i => (keys.element? top i).map Key.value) =
      fun i => (keys.element? top i).isSome := by
    funext i
    exact Option.isSome_map
  rw [arrayValues_eq_filterMap, List.map_filterMap_some_eq_filter_map_isSome, List.filter_map,
    indices, ← hpresent]
  rfl

end KeySet

/-- What scans below a name yield, of slots and of a key set: the keys that are below it, each once
and in the order of names, and the values of the array elements that are there, by increasing
index. -/
structure IsScanned (search : KeyName → List Key → Place) (slots : List Key) (keys : KeySet)
    (top : KeyName) : Prop where
  below : Slots.below search slots top = keys.below top
  mem_below : ∀ key, key ∈ keys.below top ↔ key ∈ slots ∧ key.name.IsBelow top
  increasing : (keys.below top).Pairwise fun a b => compare a.name b.name = .lt
  arrayValues : Slots.arrayValues search slots top = keys.arrayValues top
  elements : ∃ indices : List Nat, indices.Pairwise (· < ·) ∧
    (∀ i, i ∈ indices ↔ i < 2 ^ 64 ∧ ∃ key ∈ slots, key.name = top.child (Index.name i)) ∧
    (keys.arrayValues top).map some =
      indices.map fun i => (keys.find? (top.child (Index.name i))).map Key.value

/-- After any changes, scans yield just the keys below a name and just the elements of its array,
in order, if the search finds the right places. -/
theorem isScanned_of_isSearch {search : KeyName → List Key → Place}
    (hsearch : Slots.IsSearch search) (changes : List Change) (top : KeyName) :
    IsScanned search (Slots.after search changes).2 (KeySet.after changes).2 top := by
  rw [Slots.after_eq hsearch]
  constructor
  case below => exact Slots.below_toList top hsearch _
  case mem_below => exact fun key => KeySet.mem_below_iff _ top
  case increasing => exact KeySet.pairwise_below _ top
  case arrayValues => exact Slots.arrayValues_toList top hsearch _
  case elements =>
    exact ⟨_, KeySet.pairwise_indices _ top, fun _ => KeySet.mem_indices_iff _ top,
      KeySet.map_some_arrayValues _ top⟩

/-- A list among names that begin like its own, with a key below an element and with children that
are no elements. -/
def crowdedChanges : List Change := [.collect [
  { name := ⟨.proc, ["list", "#_10"], by decide⟩, value := "ten" },
  { name := ⟨.proc, ["list", "#0"], by decide⟩, value := "zero" },
  { name := ⟨.proc, ["list", "#0", "#0"], by decide⟩, value := "deep" },
  { name := ⟨.proc, ["list", "#10"], by decide⟩, value := "wrong" },
  { name := ⟨.proc, ["list", "#9"], by decide⟩, value := "nine" },
  { name := ⟨.proc, ["list", "last"], by decide⟩, value := "text" },
  { name := ⟨.proc, ["list!", "#0"], by decide⟩, value := "near" },
  { name := ⟨.proc, ["lis", "#0"], by decide⟩, value := "short" },
  { name := ⟨.user, ["list", "#0"], by decide⟩, value := "far" }]]

theorem isScanned_crowdedChanges : Slots.IsSearch Slots.byHalves ∧
    IsScanned Slots.byHalves (Slots.after Slots.byHalves crowdedChanges).2
      (KeySet.after crowdedChanges).2 ⟨.proc, ["list"], by decide⟩ ∧
    (KeySet.after crowdedChanges).2.arrayValues ⟨.proc, ["list"], by decide⟩ =
      ["zero", "nine", "ten"] ∧
    ((KeySet.after crowdedChanges).2.below (.root .user)).map Key.value = ["far"] :=
  ⟨Slots.isSearch_byHalves, isScanned_of_isSearch Slots.isSearch_byHalves crowdedChanges _,
    by decide, by decide⟩

end DeclaredOptions
