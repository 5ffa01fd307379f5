import DeclaredOptions.Proofs.ReadBack
import Mathlib.Tactic.Common

/-!
# Lists are read as they were written

A list that is written where the store has no elements is read back from its elements, in order and
of any length that indices allow, and its parent holds the name of the last element
(`holdsList_of_write`). Nothing else changes in the store.
-/

namespace DeclaredOptions.Staging

variable {store staged : KeySet} {binding : Binding} {origin : String} {value : Value}
  {parent : KeyName} {texts : List String}

/-! ### The keys of a written value -/

/-- A value that is staged alone leaves in the store what filing its keys there leaves. -/
lemma commit_of_write (h : write store ∅ binding origin value = .ok staged) :
    store.insertAll staged.toList = store.insertAll (keysOf binding value) := by
  obtain ⟨_, _, rfl⟩ := write_eq_ok_iff.mp h
  exact SortedBy.insertAll_ofList store _

/-- Each key of a value is found once they are filed. -/
lemma find?_of_mem_keysOf (hkind : value.kind = binding.key.kind) {key : Key}
    (hkey : key ∈ keysOf binding value) :
    (store.insertAll (keysOf binding value)).find? key.name = some key := by
  have hlatest := SortedBy.latest?_eq_some_of_unique hkey rfl fun other hother =>
    eq_of_mem_keysOf hkind hother hkey
  rw [SortedBy.find?_insertAll, hlatest, Option.some_or]

/-- Other names keep what they had. -/
lemma find?_of_not_mem_keysOf {name : KeyName} (h : ∀ key ∈ keysOf binding value, key.name ≠ name) :
    (store.insertAll (keysOf binding value)).find? name = store.find? name := by
  rw [SortedBy.find?_insertAll, SortedBy.latest?_eq_none_iff.mpr h, Option.none_or]

/-! ### Lists -/

lemma target_eq_of_parent? (hbase : binding.key.baseName = KeyName.wildcard)
    (hparent : (target binding).parent? = some parent) :
    target binding = parent.child KeyName.wildcard := by
  have hchild := KeyName.eq_child_of_parent? hparent
  rwa [show (target binding).baseName = KeyName.wildcard from hbase] at hchild

section Lists

variable (hkind : binding.key.kind = .array)
  (hparent : target binding = parent.child KeyName.wildcard)

include hkind hparent

lemma find?_array : (store.insertAll (keysOf binding (.array texts))).find? parent =
    some { name := parent, value := lastName texts.length } :=
  find?_of_mem_keysOf (Eq.symm hkind) ((mem_keysOf_array_iff hparent).mpr (Or.inr rfl))

lemma find?_element {i : Nat} (hi : i < texts.length) :
    (store.insertAll (keysOf binding (.array texts))).find? (parent.child (Index.name i)) =
      some { name := parent.child (Index.name i), value := texts[i] } :=
  find?_of_mem_keysOf (Eq.symm hkind) ((mem_keysOf_array_iff hparent).mpr (Or.inl ⟨i, hi, rfl⟩))

omit hkind in
/-- Names that are neither the parent nor an element keep what they had. -/
lemma find?_of_ne {name : KeyName} (hne : name ≠ parent)
    (helements : ∀ i < texts.length, name ≠ parent.child (Index.name i)) :
    (store.insertAll (keysOf binding (.array texts))).find? name = store.find? name := by
  apply find?_of_not_mem_keysOf
  intro key hkey
  rcases (mem_keysOf_array_iff hparent).mp hkey with ⟨i, hi, rfl⟩ | rfl
  · exact (helements i hi).symm
  · exact hne.symm

/-- Where the store has no elements, just those of the list are read. -/
lemma arrayValues_insertAll (hlength : texts.length ≤ Index.bound)
    (hnone : ∀ i < Index.bound, store.find? (parent.child (Index.name i)) = none) :
    KeySet.arrayValues (store.insertAll (keysOf binding (.array texts))) parent = texts := by
  rw [KeySet.arrayValues_eq_filterMap, filterMap_range_eq_iff hlength]
  · intro i hi
    by_cases hlt : i < texts.length
    · rw [find?_element hkind hparent hlt, List.getElem?_eq_getElem hlt]
      rfl
    · have hother : ∀ j < texts.length,
          parent.child (Index.name i) ≠ parent.child (Index.name j) := by
        intro j hj heq
        obtain ⟨_, rfl⟩ := child_name_inj.mp heq
        exact hlt hj
      rw [find?_of_ne hparent (ne_child_name parent i) hother, hnone i hi,
        List.getElem?_eq_none (Nat.not_lt.mp hlt)]
      rfl
  · intro i hi
    rw [find?_element hkind hparent hi]
    rfl

end Lists

/-- What a key set is that differs from `store` in a list below `parent`. The parent names the last
element; `#` stands for an empty list. -/
structure HoldsList (store final : KeySet) (parent : KeyName) (texts : List String) : Prop where
  values : final.arrayValues parent = texts
  last : final.find? parent =
    some { name := parent, value := if texts = [] then "#" else Index.name (texts.length - 1) }
  others : ∀ name, name ≠ parent → (∀ i < texts.length, name ≠ parent.child (Index.name i)) →
    final.find? name = store.find? name

/-- A list that is written where there are no elements is read back as it was written, and every
other name keeps what it had. -/
theorem holdsList_of_write (hbase : binding.key.baseName = "#")
    (hparent : (target binding).parent? = some parent) (hlength : texts.length < 2 ^ 64)
    (hvacant : ∀ key ∈ store.toList,
      ¬(key.name.IsDirectlyBelow parent ∧ (Index.parse? key.name.baseName).isSome))
    (hwrite : write store ∅ binding origin (.array texts) = .ok staged) :
    HoldsList store (store.insertAll staged.toList) parent texts := by
  have hkind : binding.key.kind = .array := if_pos hbase
  have htarget := target_eq_of_parent? hbase hparent
  rw [commit_of_write hwrite]
  constructor
  case values =>
    refine arrayValues_insertAll hkind htarget (Nat.le_of_lt hlength) fun i hi => ?_
    rw [SortedBy.find?_eq_none_iff]
    intro key hkey hname
    exact hvacant key hkey (KeySet.isElement_iff.mpr ⟨i, hi, hname⟩)
  case last =>
    rw [find?_array hkind htarget]
    cases texts <;> rfl
  case others => exact fun name => find?_of_ne htarget

/-- A store with an element of another list, with a text at the parent that is empty, and with a
name that continues the name of an element. -/
def shelfStore : KeySet := .ofList Key.name [
  { name := ⟨.proc, ["shelf"], by decide⟩ },
  { name := ⟨.proc, ["shelf", "#0", "#0"], by decide⟩, value := "deep" },
  { name := ⟨.proc, ["shelf", "#00"], by decide⟩, value := "other" },
  { name := ⟨.proc, ["shelf2", "#0"], by decide⟩, value := "far" }]

/-- A binding of the list `shelf`. -/
def shelfBinding : Binding where
  key := ⟨.spec, ["shelf", "#"], by decide⟩
  options := []
  envVars := []
  remaining := true
  help := ""

/-- The name of the list. -/
def shelfName : KeyName := ⟨.proc, ["shelf"], by decide⟩

/-- A list with indices of one digit and of two. -/
def shelfTexts : List String := ["a", "b", "c", "d", "e", "f", "g", "h", "i", "j", "k", ""]

theorem holdsList_shelf : ∃ staged,
    write shelfStore ∅ shelfBinding "--" (.array shelfTexts) = .ok staged ∧
    (target shelfBinding).parent? = some shelfName ∧
    (∀ key ∈ shelfStore.toList, ¬(key.name.IsDirectlyBelow shelfName ∧
      (Index.parse? key.name.baseName).isSome)) ∧
    HoldsList shelfStore (shelfStore.insertAll staged.toList) shelfName shelfTexts := by
  have hwrite : write shelfStore ∅ shelfBinding "--" (.array shelfTexts) =
      .ok (.ofList Key.name (keysOf shelfBinding (.array shelfTexts))) := rfl
  have hparent : (target shelfBinding).parent? = some shelfName := rfl
  have hvacant : ∀ key ∈ shelfStore.toList, ¬(key.name.IsDirectlyBelow shelfName ∧
      (Index.parse? key.name.baseName).isSome) := by decide
  exact ⟨_, hwrite, hparent, hvacant,
    holdsList_of_write rfl hparent (by decide) hvacant hwrite⟩

end DeclaredOptions.Staging
