import DeclaredOptions.Proofs.StagedKeys
import DeclaredOptions.Proofs.Legality
import Mathlib.Tactic.Common

/-!
# Which value is staged last

Several bindings can receive a value under one name: an array one of whose elements has the name, a
scalar and an array of the name. Their targets come in just this order, so the last of them decides
what is staged (`latest?_written`).
-/

namespace DeclaredOptions

open Std

namespace Staging

/-! ### Names that receive values -/

/-- The names under which a binding receives a value. -/
inductive Receives (binding : Binding) : Value → KeyName → Prop
  | scalar (text : String) : Receives binding (.scalar text) (target binding)
  | array {parent : KeyName} (texts : List String)
      (hparent : target binding = parent.child KeyName.wildcard) :
      Receives binding (.array texts) parent
  | element {parent : KeyName} (texts : List String)
      (hparent : target binding = parent.child KeyName.wildcard) {i : Nat}
      (hi : i < texts.length) : Receives binding (.array texts) (parent.child (Index.name i))

lemma exists_parent {binding : Binding} (h : binding.key.kind = .array) :
    ∃ parent : KeyName, target binding = parent.child KeyName.wildcard := by
  have hwildcard : (target binding).IsWildcard := by
    rw [KeyName.kind] at h
    split at h
    · assumption
    · cases h
  exact hwildcard.exists_parent

lemma space_of_parent {binding : Binding} {parent : KeyName}
    (h : target binding = parent.child KeyName.wildcard) : parent.space = .proc := by
  rw [← KeyName.space_child parent KeyName.wildcard, ← h]
  rfl

lemma arrayName_eq {binding : Binding} {parent : KeyName}
    (h : target binding = parent.child KeyName.wildcard) : arrayName binding = parent := by
  rw [arrayName, h, KeyName.parent?_child parent KeyName.isSegment_wildcard]
  rfl

lemma parent_unique {binding : Binding} {m n : KeyName}
    (hm : target binding = m.child KeyName.wildcard)
    (hn : target binding = n.child KeyName.wildcard) : m = n :=
  ((KeyName.child_inj KeyName.isSegment_wildcard KeyName.isSegment_wildcard).mp
    (hm.symm.trans hn)).1

lemma mem_elements_iff {parent : KeyName} {start : Nat} {texts : List String} {key : Key} :
    key ∈ elements parent start texts ↔ ∃ i, ∃ hi : i < texts.length,
      key = { name := parent.child (Index.name (start + i)), value := texts[i] } := by
  induction texts generalizing start with
  | nil => simp [elements]
  | cons text texts ih =>
    rw [elements, List.mem_cons, ih]
    constructor
    · rintro (rfl | ⟨i, hi, rfl⟩)
      · exact ⟨0, Nat.succ_pos _, rfl⟩
      · refine ⟨i + 1, Nat.succ_lt_succ hi, ?_⟩
        rw [Nat.add_right_comm start 1 i]
        rfl
    · rintro ⟨i, hi, rfl⟩
      cases i with
      | zero => exact Or.inl rfl
      | succ i =>
        refine Or.inr ⟨i, Nat.lt_of_succ_lt_succ hi, ?_⟩
        rw [Nat.add_right_comm start 1 i]
        rfl

lemma mem_keysOf_array_iff {binding : Binding} {parent : KeyName} {texts : List String}
    (hparent : target binding = parent.child KeyName.wildcard) {key : Key} :
    key ∈ keysOf binding (.array texts) ↔
      (∃ i, ∃ hi : i < texts.length,
        key = { name := parent.child (Index.name i), value := texts[i] }) ∨
      key = { name := parent, value := lastName texts.length } := by
  rw [keysOf, arrayName_eq hparent, List.mem_append, mem_elements_iff, List.mem_singleton]
  simp only [Nat.zero_add]

/-- A name is no child of its own. -/
lemma ne_child_name (parent : KeyName) (i : Nat) : parent.child (Index.name i) ≠ parent := by
  intro h
  have hlt := KeyName.lt_child parent (Index.isSegment_name i)
  rw [h] at hlt
  exact absurd hlt (by simp)

lemma child_name_inj {m n : KeyName} {i j : Nat} :
    m.child (Index.name i) = n.child (Index.name j) ↔ m = n ∧ i = j := by
  rw [KeyName.child_inj (Index.isSegment_name i) (Index.isSegment_name j)]
  constructor
  · rintro ⟨hmn, hij⟩
    exact ⟨hmn, Index.name_injective hij⟩
  · rintro ⟨rfl, rfl⟩
    exact ⟨rfl, rfl⟩

lemma lastName_ne_empty (count : Nat) : lastName count ≠ "" := by
  rw [lastName]
  split
  · decide
  · intro h
    have hsegment := Index.isSegment_name (count - 1)
    rw [h] at hsegment
    exact absurd hsegment (by decide)

/-- A value becomes at most one key of each name. -/
lemma eq_of_mem_keysOf {binding : Binding} {value : Value} {a b : Key}
    (hkind : value.kind = binding.key.kind) (ha : a ∈ keysOf binding value)
    (hb : b ∈ keysOf binding value) (h : a.name = b.name) : a = b := by
  cases value with
  | scalar text => rw [List.mem_singleton.mp ha, List.mem_singleton.mp hb]
  | array texts =>
    obtain ⟨parent, hparent⟩ := exists_parent hkind.symm
    rw [mem_keysOf_array_iff hparent] at ha hb
    rcases ha with ⟨i, hi, rfl⟩ | rfl
    · rcases hb with ⟨j, hj, rfl⟩ | rfl
      · obtain ⟨_, rfl⟩ := child_name_inj.mp h
        rfl
      · exact absurd h (ne_child_name parent i)
    · rcases hb with ⟨j, hj, rfl⟩ | rfl
      · exact absurd h.symm (ne_child_name parent j)
      · rfl

/-- The names that receive a value are those of the keys that it becomes. -/
lemma receives_iff {binding : Binding} {value : Value} {name : KeyName}
    (hkind : value.kind = binding.key.kind) :
    Receives binding value name ↔ ∃ key ∈ keysOf binding value, key.name = name := by
  cases value with
  | scalar text =>
    constructor
    · intro h
      cases h
      exact ⟨_, List.mem_singleton_self _, rfl⟩
    · rintro ⟨key, hkey, rfl⟩
      rw [List.mem_singleton.mp hkey]
      exact .scalar text
  | array texts =>
    obtain ⟨parent, hparent⟩ := exists_parent hkind.symm
    simp only [mem_keysOf_array_iff hparent]
    constructor
    · intro h
      cases h with
      | array _ hparent' =>
        obtain rfl := parent_unique hparent' hparent
        exact ⟨_, Or.inr rfl, rfl⟩
      | element _ hparent' hi =>
        obtain rfl := parent_unique hparent' hparent
        exact ⟨_, Or.inl ⟨_, hi, rfl⟩, rfl⟩
    · rintro ⟨key, ⟨i, hi, rfl⟩ | rfl, rfl⟩
      · exact .element texts hparent hi
      · exact .array texts hparent

/-- A name is received as the target of a scalar, as an array or as an element of one. -/
lemma receives_cases {binding : Binding} {value : Value} {name : KeyName}
    (h : Receives binding value name) :
    (∃ text, value = .scalar text ∧ target binding = name) ∨
    (∃ texts, value = .array texts ∧ target binding = name.child KeyName.wildcard) ∨
    ∃ texts, ∃ parent : KeyName, ∃ i, i < texts.length ∧ value = .array texts ∧
      target binding = parent.child KeyName.wildcard ∧ name = parent.child (Index.name i) := by
  cases h with
  | scalar text => exact Or.inl ⟨text, rfl, rfl⟩
  | array texts hparent => exact Or.inr (Or.inl ⟨texts, rfl, hparent⟩)
  | element texts hparent hi => exact Or.inr (Or.inr ⟨texts, _, _, hi, rfl, hparent, rfl⟩)

lemma Receives.space_eq {binding : Binding} {value : Value} {name : KeyName}
    (h : Receives binding value name) : name.space = .proc := by
  rcases receives_cases h with ⟨_, _, rfl⟩ | ⟨_, _, heq⟩ | ⟨_, parent, i, _, _, heq, rfl⟩
  · rfl
  · exact space_of_parent heq
  · rw [KeyName.space_child]
    exact space_of_parent heq

/-! ### The order of targets -/

lemma wildcard_lt_element (parent : KeyName) (i : Nat) :
    compare (parent.child KeyName.wildcard) (parent.child (Index.name i)) = .lt := by
  rw [KeyName.compare_child_child parent KeyName.isSegment_wildcard (Index.isSegment_name i)]
  exact Index.wildcard_lt_name i

/-- The array of a name has the last target among the bindings that the name receives from. -/
lemma Receives.isLE {binding : Binding} {value : Value} {name : KeyName}
    (h : Receives binding value name) :
    (compare (target binding) (name.child KeyName.wildcard)).isLE := by
  have hlt := KeyName.lt_child name KeyName.isSegment_wildcard
  rcases receives_cases h with ⟨_, _, rfl⟩ | ⟨_, _, heq⟩ | ⟨_, parent, i, _, _, heq, rfl⟩
  · rw [hlt]
    rfl
  · rw [heq]
    simp
  · rw [heq, TransCmp.lt_trans (wildcard_lt_element parent i) hlt]
    rfl

/-- Bindings in the order of their targets, with values of the right kind. -/
structure Orderly (inputs : Inputs) (bindings : List Binding) : Prop where
  increasing : bindings.Pairwise fun a b => compare (target a) (target b) = .lt
  kind : ∀ binding ∈ bindings, ∀ value, inputs.finding? binding = some value →
    value.kind = binding.key.kind

lemma orderly_of_compile {keys : KeySet} {spec : Specification} (inputs : Inputs)
    (h : Specification.compile keys = .ok spec) : Orderly inputs spec.bindings := by
  constructor
  · refine (Specification.pairwise_of_compile h).imp_of_mem ?_
    intro a b ha hb hlt
    have hspace := (Specification.space_of_compile h ha).trans
      (Specification.space_of_compile h hb).symm
    rwa [target, target, KeyName.compare_inSpace hspace]
  · intro binding hbinding value hfound
    obtain ⟨resolution, hresolve, rfl⟩ := Inputs.finding?_eq_some_iff.mp hfound
    exact Inputs.kind_of_resolve (Specification.kind_of_remaining h hbinding) hresolve

variable {inputs : Inputs} {bindings : List Binding} {binding : Binding}

/-- A key is staged last under its name if no later binding receives a value there. -/
lemma latest?_written (h : Orderly inputs bindings) (hbinding : binding ∈ bindings)
    {value : Value} (hfound : inputs.finding? binding = some value) {key : Key}
    (hkey : key ∈ keysOf binding value)
    (hlast : ∀ other ∈ bindings, ∀ value', inputs.finding? other = some value' →
      Receives other value' key.name → compare (target binding) (target other) ≠ .lt) :
    SortedBy.latest? Key.name key.name (written inputs bindings) = some key := by
  have hkind := h.kind binding hbinding value hfound
  obtain ⟨before, after, rfl⟩ := List.append_of_mem hbinding
  have hafter : ∀ a ∈ written inputs after, a.name ≠ key.name := by
    intro a ha hname
    obtain ⟨other, hother, value', hfound', ha⟩ := mem_written_iff.mp ha
    have hmem : other ∈ before ++ binding :: after :=
      List.mem_append_right _ (List.mem_cons_of_mem _ hother)
    have hreceives := (receives_iff (h.kind other hmem value' hfound')).mpr ⟨a, ha, hname⟩
    have hlt := (List.pairwise_cons.mp (List.pairwise_append.mp h.increasing).2.1).1 other hother
    exact hlast other hmem value' hfound' hreceives hlt
  rw [written_append, written_cons_of_found hfound, SortedBy.latest?_append,
    SortedBy.latest?_append, SortedBy.latest?_eq_none_iff.mpr hafter, Option.none_or]
  rw [SortedBy.latest?_eq_some_of_unique hkey rfl fun a ha => eq_of_mem_keysOf hkind ha hkey]
  rfl

end Staging

end DeclaredOptions
