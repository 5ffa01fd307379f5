import DeclaredOptions.Proofs.StagingOrder
import Mathlib.Tactic.Common

/-!
# Bindings that share a name

Of the bindings that receive a value under one name, an element of an array comes first, a scalar
second and an array of the name last, and at most one binding of each sort exists. So the array
decides what is staged under the name (`latest?_of_array`), else the scalar (`latest?_of_scalar`),
else the element (`latest?_of_element`).

All but the first of them claim the name. A run in which several receive there therefore staged only
empty values before the last (`Run.eq_empty_of_overlap`), and a name holds a text in the end if any
binding puts one there (`Run.holds_iff`).
-/

namespace DeclaredOptions

open Std

namespace Staging

variable {store : KeySet} {inputs : Inputs} {bindings : List Binding} {binding : Binding}

/-! ### What is staged last -/

/-- The array of a name decides what the name holds. -/
lemma latest?_of_array (h : Orderly inputs bindings) (hbinding : binding ∈ bindings)
    {texts : List String} (hfound : inputs.finding? binding = some (.array texts))
    {name : KeyName} (hparent : target binding = name.child KeyName.wildcard) :
    SortedBy.latest? Key.name name (written inputs bindings)
      = some { name, value := lastName texts.length } := by
  have hkey : ({ name, value := lastName texts.length } : Key) ∈ keysOf binding (.array texts) :=
    (mem_keysOf_array_iff hparent).mpr (Or.inr rfl)
  refine latest?_written h hbinding hfound hkey ?_
  intro other _ value' _ hreceives hlt
  have hle := hreceives.isLE
  show False
  rw [← hparent, OrientedCmp.gt_of_lt hlt] at hle
  cases hle

/-- A scalar decides what its target holds, unless the target has an array. -/
lemma latest?_of_scalar (h : Orderly inputs bindings) (hbinding : binding ∈ bindings)
    {text : String} (hfound : inputs.finding? binding = some (.scalar text))
    (hno : ∀ other ∈ bindings, ∀ texts, inputs.finding? other = some (.array texts) →
      claimed other (.array texts) ≠ target binding) :
    SortedBy.latest? Key.name (target binding) (written inputs bindings)
      = some { name := target binding, value := text } := by
  have hkey : ({ name := target binding, value := text } : Key) ∈ keysOf binding (.scalar text) :=
    List.mem_singleton_self _
  refine latest?_written h hbinding hfound hkey ?_
  intro other hother value' hfound' hreceives hlt
  rcases receives_cases hreceives with ⟨_, _, heq⟩ | ⟨texts, rfl, heq⟩ |
    ⟨_, parent, i, _, _, heq, hname⟩
  · rw [heq] at hlt
    simp at hlt
  · exact hno other hother texts hfound' (arrayName_eq heq)
  · have helement := wildcard_lt_element parent i
    rw [← heq, ← hname, OrientedCmp.gt_of_lt hlt] at helement
    cases helement

/-- An element holds its text, unless its name also has a scalar or an array. -/
lemma latest?_of_element (h : Orderly inputs bindings) (hbinding : binding ∈ bindings)
    {texts : List String} (hfound : inputs.finding? binding = some (.array texts))
    {parent : KeyName} (hparent : target binding = parent.child KeyName.wildcard) {i : Nat}
    (hi : i < texts.length)
    (hno : ∀ other ∈ bindings, ∀ value', inputs.finding? other = some value' →
      claimed other value' ≠ parent.child (Index.name i)) :
    SortedBy.latest? Key.name (parent.child (Index.name i)) (written inputs bindings)
      = some { name := parent.child (Index.name i), value := texts[i] } := by
  have hkey : ({ name := parent.child (Index.name i), value := texts[i] } : Key) ∈
      keysOf binding (.array texts) :=
    (mem_keysOf_array_iff hparent).mpr (Or.inl ⟨i, hi, rfl⟩)
  refine latest?_written h hbinding hfound hkey ?_
  intro other hother value' hfound' hreceives hlt
  rcases receives_cases hreceives with ⟨_, rfl, heq⟩ | ⟨texts', rfl, heq⟩ |
    ⟨_, parent', j, _, _, heq, hname⟩
  · exact hno other hother _ hfound' heq
  · exact hno other hother _ hfound' (arrayName_eq heq)
  · obtain ⟨rfl, rfl⟩ := child_name_inj.mp hname
    rw [heq, hparent] at hlt
    simp at hlt

/-! ### Claims -/

/-- The array of a name comes after all that has this target. -/
lemma lt_target_of_claimed_array {later : Binding} {texts : List String}
    (hkind : later.key.kind = .array) (hclaim : claimed later (.array texts) = target binding) :
    compare (target binding) (target later) = .lt := by
  obtain ⟨parent, hparent⟩ := exists_parent hkind
  rw [claimed, arrayName_eq hparent] at hclaim
  rw [hparent, hclaim]
  exact KeyName.lt_child _ KeyName.isSegment_wildcard

/-- What claims the name of an element comes after the array of the element. -/
lemma wildcard_lt_target_of_claimed {later : Binding} {value : Value}
    (hkind : value.kind = later.key.kind) {parent : KeyName} {i : Nat}
    (hclaim : claimed later value = parent.child (Index.name i)) :
    compare (parent.child KeyName.wildcard) (target later) = .lt := by
  have helement := wildcard_lt_element parent i
  rw [← hclaim] at helement
  cases value with
  | scalar text => exact helement
  | array texts =>
    obtain ⟨name, hname⟩ := exists_parent hkind.symm
    rw [claimed, arrayName_eq hname] at helement
    rw [hname]
    exact TransCmp.lt_trans helement (KeyName.lt_child name KeyName.isSegment_wildcard)

/-- Of two bindings that receive a value under one name, the later one claims the name. -/
lemma Receives.claimed_eq {later : Binding} {value value' : Value} {name : KeyName}
    (h : Receives binding value name) (h' : Receives later value' name)
    (hlt : compare (target binding) (target later) = .lt) : claimed later value' = name := by
  rcases receives_cases h' with ⟨_, rfl, heq⟩ | ⟨_, rfl, heq⟩ | ⟨_, parent, i, _, _, heq, rfl⟩
  · exact heq
  · exact arrayName_eq heq
  · exfalso
    have helement := wildcard_lt_element parent i
    rw [← heq] at helement
    rcases receives_cases h with ⟨_, _, hname⟩ | ⟨_, _, hname⟩ | ⟨_, parent', j, _, _, hname, hij⟩
    · rw [hname, OrientedCmp.gt_of_lt helement] at hlt
      cases hlt
    · have hchild := KeyName.lt_child (parent.child (Index.name i)) KeyName.isSegment_wildcard
      rw [hname, OrientedCmp.gt_of_lt (TransCmp.lt_trans helement hchild)] at hlt
      cases hlt
    · obtain ⟨rfl, rfl⟩ := child_name_inj.mp hij
      rw [hname, heq] at hlt
      simp at hlt

/-- Once a name holds a value, a run goes on only if nothing claims the name any more. -/
lemma Run.claimed_ne {staged final : KeySet} {name : KeyName}
    (h : Run store inputs staged bindings final) (hholds : Holds staged name)
    (hkind : ∀ binding ∈ bindings, ∀ value, inputs.finding? binding = some value →
      value.kind = binding.key.kind)
    (hclaims : ∀ binding ∈ bindings, ∀ value, inputs.finding? binding = some value →
      Receives binding value name → claimed binding value = name) :
    ∀ binding ∈ bindings, ∀ value, inputs.finding? binding = some value →
      claimed binding value ≠ name := by
  induction h with
  | done staged => exact fun _ hmem => absurd hmem List.not_mem_nil
  | skip unresolved rest ih =>
    intro other hmem value hfound
    rcases List.mem_cons.mp hmem with rfl | hmem
    · rw [Inputs.finding?_eq_none unresolved] at hfound
      cases hfound
    · exact ih hholds (fun b hb => hkind b (List.mem_cons_of_mem _ hb))
        (fun b hb => hclaims b (List.mem_cons_of_mem _ hb)) other hmem value hfound
  | @write staged final binding bindings resolution resolved unstored unstaged rest ih =>
    have hfirst := Inputs.finding?_eq_some resolved
    have hne : claimed binding resolution.value ≠ name := by
      rintro rfl
      exact unstaged hholds
    -- the first binding stages nothing under the name, since it would have to claim it
    have hnone : ∀ key ∈ keysOf binding resolution.value, key.name ≠ name := by
      intro key hkey hname
      have hreceives := (receives_iff (hkind binding List.mem_cons_self _ hfirst)).mpr
        ⟨key, hkey, hname⟩
      exact hne (hclaims binding List.mem_cons_self _ hfirst hreceives)
    intro other hmem value hfound
    rcases List.mem_cons.mp hmem with rfl | hmem
    · rw [hfirst] at hfound
      cases hfound
      exact hne
    · exact ih ((holds_insertAll_iff hnone).mpr hholds)
        (fun b hb => hkind b (List.mem_cons_of_mem _ hb))
        (fun b hb => hclaims b (List.mem_cons_of_mem _ hb)) other hmem value hfound

lemma Orderly.mem_of_lt {before after : List Binding} {later : Binding}
    (h : Orderly inputs (before ++ binding :: after)) (hlater : later ∈ before ++ binding :: after)
    (hlt : compare (target binding) (target later) = .lt) : later ∈ after := by
  rcases List.mem_append.mp hlater with hmem | hmem
  · have hgt := (List.pairwise_append.mp h.increasing).2.2 later hmem binding List.mem_cons_self
    rw [OrientedCmp.gt_of_lt hlt] at hgt
    cases hgt
  · rcases List.mem_cons.mp hmem with rfl | hmem
    · simp at hlt
    · exact hmem

lemma Orderly.of_append {before after : List Binding} (h : Orderly inputs (before ++ after)) :
    Orderly inputs before where
  increasing := (List.pairwise_append.mp h.increasing).1
  kind other hother := h.kind other (List.mem_append_left _ hother)

/-- The bindings before one are those with a lesser target. -/
lemma Orderly.mem_before_iff {before after : List Binding}
    (h : Orderly inputs (before ++ binding :: after)) {other : Binding} :
    other ∈ before ↔ other ∈ before ++ binding :: after ∧
      compare (target other) (target binding) = .lt := by
  obtain ⟨_, hafter, hbefore⟩ := List.pairwise_append.mp h.increasing
  constructor
  · intro hother
    exact ⟨List.mem_append_left _ hother, hbefore other hother binding List.mem_cons_self⟩
  · rintro ⟨hother, hlt⟩
    rcases List.mem_append.mp hother with hmem | hmem
    · exact hmem
    rcases List.mem_cons.mp hmem with rfl | hmem
    · simp at hlt
    · have hgt := (List.pairwise_cons.mp hafter).1 other hmem
      rw [OrientedCmp.gt_of_lt hgt] at hlt
      cases hlt

/-- What a run staged under a name that a later binding claims is empty. -/
lemma Run.eq_empty_of_overlap {final : KeySet} (h : Run store inputs ∅ bindings final)
    (horder : Orderly inputs bindings) (hbinding : binding ∈ bindings) {value : Value}
    (hfound : inputs.finding? binding = some value) {key : Key}
    (hkey : key ∈ keysOf binding value) {later : Binding} (hlater : later ∈ bindings)
    {value' : Value} (hfound' : inputs.finding? later = some value')
    (hlt : compare (target binding) (target later) = .lt)
    (hclaim : claimed later value' = key.name) : key.value = "" := by
  by_contra hvalue
  have hkind := horder.kind binding hbinding value hfound
  have hreceives := (receives_iff hkind).mpr ⟨key, hkey, rfl⟩
  obtain ⟨before, after, rfl⟩ := List.append_of_mem hbinding
  have hafter := horder.mem_of_lt hlater hlt
  have hincreasing := List.pairwise_cons.mp (List.pairwise_append.mp horder.increasing).2.1
  cases h.of_append with
  | skip unresolved rest =>
    rw [Inputs.finding?_eq_none unresolved] at hfound
    cases hfound
  | write resolved unstored unstaged rest =>
    rw [Inputs.finding?_eq_some resolved] at hfound
    cases hfound
    -- from here on the name holds a value, and whatever receives there has to claim it
    refine rest.claimed_ne ?_ ?_ ?_ later hafter value' hfound' hclaim
    · refine ⟨key, ?_, hvalue⟩
      rw [SortedBy.find?_insertAll, SortedBy.latest?_eq_some_of_unique hkey rfl fun a ha =>
        eq_of_mem_keysOf hkind ha hkey]
      rfl
    · intro other hother
      exact horder.kind other (List.mem_append_right _ (List.mem_cons_of_mem _ hother))
    · intro other hother value'' hfound'' hreceives'
      exact hreceives.claimed_eq hreceives' (hincreasing.1 other hother)

/-! ### Names that hold a text in the end -/

/-- A value puts a text that is not empty under a name. -/
def Fills (binding : Binding) (value : Value) (name : KeyName) : Prop :=
  ∃ key ∈ keysOf binding value, key.name = name ∧ key.value ≠ ""

/-- A list or a text fills the name that it claims. -/
lemma fills_claimed {value : Value} (h : value ≠ .scalar "") :
    Fills binding value (claimed binding value) := by
  cases value with
  | scalar text =>
    refine ⟨_, List.mem_singleton_self _, rfl, ?_⟩
    rintro rfl
    exact h rfl
  | array texts =>
    exact ⟨_, List.mem_append_right _ (List.mem_singleton_self _), rfl, lastName_ne_empty _⟩

/-- What fills a name in a run is not replaced there. -/
lemma Run.holds_iff {staged : KeySet} (h : Run store inputs ∅ bindings staged)
    (horder : Orderly inputs bindings) {name : KeyName} :
    Holds staged name ↔ ∃ binding ∈ bindings, ∃ value,
      inputs.finding? binding = some value ∧ Fills binding value name := by
  have hfind : staged.find? name = SortedBy.latest? Key.name name (written inputs bindings) := by
    rw [h.staged_eq, SortedBy.find?_insertAll]
    exact Option.or_none
  rw [Holds, hfind]
  constructor
  · rintro ⟨key, hlatest, hvalue⟩
    obtain ⟨binding, hbinding, value, hfound, hkey⟩ :=
      mem_written_iff.mp (SortedBy.mem_of_latest? hlatest)
    exact ⟨binding, hbinding, value, hfound, key, hkey, SortedBy.key_of_latest? hlatest, hvalue⟩
  · rintro ⟨binding, hbinding, value, hfound, key, hkey, rfl, hvalue⟩
    refine ⟨key, latest?_written horder hbinding hfound hkey ?_, hvalue⟩
    -- what comes later under the name claims it, and would have found it taken
    intro later hlater value' hfound' hreceives' hlt
    have hreceives := (receives_iff (horder.kind binding hbinding value hfound)).mpr
      ⟨key, hkey, rfl⟩
    exact hvalue (h.eq_empty_of_overlap horder hbinding hfound hkey hlater hfound' hlt
      (hreceives.claimed_eq hreceives' hlt))

end Staging

end DeclaredOptions
