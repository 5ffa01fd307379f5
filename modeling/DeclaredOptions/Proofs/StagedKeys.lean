import DeclaredOptions.Staging
import DeclaredOptions.Proofs.IndexNames
import DeclaredOptions.Proofs.ResolvedShape
import DeclaredOptions.Proofs.Filing
import Mathlib.Tactic.Common

/-!
# Staged keys

A value becomes a list of keys (`keysOf`) and has to claim one name that holds no value yet
(`write_eq_ok_iff`). A call that stages all its values is a `Run`; in the end it has staged the keys
of all values in the order of the bindings (`Run.staged_eq`). Any other call ends at the first
binding that is refused (`resolveAll_eq_error_iff`).
-/

namespace DeclaredOptions

open Std Steps

/-- The value found for a binding; none also where resolution fails. -/
def Inputs.finding? (inputs : Inputs) (binding : Binding) : Option Value :=
  match inputs.resolve binding with
  | .ok (some resolution) => some resolution.value
  | _ => none

lemma Inputs.finding?_eq_none {inputs : Inputs} {binding : Binding}
    (h : inputs.resolve binding = .ok none) : inputs.finding? binding = none := by
  rw [finding?, h]

lemma Inputs.finding?_eq_some {inputs : Inputs} {binding : Binding} {resolution : Resolution}
    (h : inputs.resolve binding = .ok (some resolution)) :
    inputs.finding? binding = some resolution.value := by
  rw [finding?, h]

lemma Inputs.finding?_eq_some_iff {inputs : Inputs} {binding : Binding} {value : Value} :
    inputs.finding? binding = some value ↔
      ∃ resolution, inputs.resolve binding = .ok (some resolution) ∧ resolution.value = value := by
  constructor
  · intro h
    rw [finding?] at h
    split at h
    · rename_i resolution hresolve
      cases h
      exact ⟨resolution, hresolve, rfl⟩
    · cases h
  · rintro ⟨resolution, hresolve, rfl⟩
    exact finding?_eq_some hresolve

namespace Staging

/-! ### The keys of one value -/

/-- The parent of the target of an array. -/
def arrayName (binding : Binding) : KeyName := (target binding).parent?.getD (target binding)

/-- The name that must hold no value before a value is staged. -/
def claimed (binding : Binding) : Value → KeyName
  | .scalar _ => target binding
  | .array _ => arrayName binding

/-- The keys that a value becomes, in the order of writing. -/
def keysOf (binding : Binding) : Value → List Key
  | .scalar text => [{ name := target binding, value := text }]
  | .array texts => elements (arrayName binding) 0 texts ++
      [{ name := arrayName binding, value := lastName texts.length }]

lemma ensureVacant_eq_ok_iff {store staged : KeySet} {origin : String} {name : KeyName} :
    ensureVacant store staged origin name = .ok () ↔ ¬Holds store name ∧ ¬Holds staged name := by
  rw [ensureVacant, ← not_or]
  split <;> simp_all

lemma ensureVacant_eq_error_iff {store staged : KeySet} {origin : String} {name : KeyName}
    {failure : Failure} : ensureVacant store staged origin name = .error failure ↔
      (Holds store name ∨ Holds staged name) ∧
        failure = .illegalUse origin (.alreadyResolved name.display) := by
  rw [ensureVacant]
  split <;> simp_all [eq_comm]

lemma write_eq (store staged : KeySet) (binding : Binding) (origin : String) (value : Value) :
    write store staged binding origin value = (do
      ensureVacant store staged origin (claimed binding value)
      return staged.insertAll (keysOf binding value)) := by
  cases value with
  | scalar text => rfl
  | array texts =>
    rw [keysOf, SortedBy.insertAll_append]
    rfl

/-- A value is staged if the name that it claims is free. -/
lemma write_eq_ok_iff {store staged final : KeySet} {binding : Binding} {origin : String}
    {value : Value} : write store staged binding origin value = .ok final ↔
      ¬Holds store (claimed binding value) ∧ ¬Holds staged (claimed binding value) ∧
        final = staged.insertAll (keysOf binding value) := by
  rw [write_eq, bind_eq_ok_iff]
  constructor
  · rintro ⟨_, hvacant, hfinal⟩
    obtain ⟨hstore, hstaged⟩ := ensureVacant_eq_ok_iff.mp hvacant
    cases hfinal
    exact ⟨hstore, hstaged, rfl⟩
  · rintro ⟨hstore, hstaged, rfl⟩
    exact ⟨(), ensureVacant_eq_ok_iff.mpr ⟨hstore, hstaged⟩, rfl⟩

/-- A value is refused if the name that it claims is taken. -/
lemma write_eq_error_iff {store staged : KeySet} {binding : Binding} {origin : String}
    {value : Value} {failure : Failure} :
    write store staged binding origin value = .error failure ↔
      (Holds store (claimed binding value) ∨ Holds staged (claimed binding value)) ∧
        failure = .illegalUse origin (.alreadyResolved (claimed binding value).display) := by
  rw [write_eq, bind_eq_error_iff, ensureVacant_eq_error_iff]
  constructor
  · rintro (hvacant | ⟨_, _, hreturn⟩)
    · exact hvacant
    · cases hreturn
  · exact Or.inl

/-! ### Names that hold values -/

lemma holds_insertAll_iff {keys : KeySet} {items : List Key} {name : KeyName}
    (h : ∀ key ∈ items, key.name ≠ name) : Holds (keys.insertAll items) name ↔ Holds keys name := by
  rw [Holds, Holds, SortedBy.find?_insertAll, SortedBy.latest?_eq_none_iff.mpr h, Option.none_or]

/-- Filing empty keys gives no name a value. -/
lemma not_holds_insertAll {keys : KeySet} {items : List Key} {name : KeyName}
    (hempty : ∀ key ∈ items, key.value = "") (hkeys : ¬Holds keys name) :
    ¬Holds (keys.insertAll items) name := by
  rintro ⟨key, hfind, hvalue⟩
  rw [SortedBy.find?_insertAll] at hfind
  cases hlatest : SortedBy.latest? Key.name name items with
  | none =>
    rw [hlatest, Option.none_or] at hfind
    exact hkeys ⟨key, hfind, hvalue⟩
  | some last =>
    rw [hlatest] at hfind
    cases hfind
    exact hvalue (hempty _ (SortedBy.mem_of_latest? hlatest))

/-! ### Runs -/

/-- All bindings resolve, and each value finds the name that it claims free. -/
inductive Run (store : KeySet) (inputs : Inputs) : KeySet → List Binding → KeySet → Prop
  | done (staged : KeySet) : Run store inputs staged [] staged
  | skip {staged final : KeySet} {binding : Binding} {bindings : List Binding}
      (unresolved : inputs.resolve binding = .ok none)
      (rest : Run store inputs staged bindings final) :
      Run store inputs staged (binding :: bindings) final
  | write {staged final : KeySet} {binding : Binding} {bindings : List Binding}
      {resolution : Resolution} (resolved : inputs.resolve binding = .ok (some resolution))
      (unstored : ¬Holds store (claimed binding resolution.value))
      (unstaged : ¬Holds staged (claimed binding resolution.value))
      (rest : Run store inputs (staged.insertAll (keysOf binding resolution.value)) bindings
        final) :
      Run store inputs staged (binding :: bindings) final

variable {store : KeySet} {inputs : Inputs}

lemma resolveAll_eq_ok_iff {staged final : KeySet} {bindings : List Binding} :
    resolveAll store inputs staged bindings = .ok final ↔
      Run store inputs staged bindings final := by
  constructor
  · intro h
    induction bindings generalizing staged with
    | nil =>
      cases h
      exact .done _
    | cons binding bindings ih =>
      rw [resolveAll, bind_eq_ok_iff] at h
      obtain ⟨found, hresolve, h⟩ := h
      cases found with
      | none => exact .skip hresolve (ih h)
      | some resolution =>
        obtain ⟨next, hwrite, hrest⟩ := bind_eq_ok_iff.mp h
        obtain ⟨hstore, hstaged, rfl⟩ := write_eq_ok_iff.mp hwrite
        exact .write hresolve hstore hstaged (ih hrest)
  · intro h
    induction h with
    | done staged => rfl
    | skip unresolved rest ih =>
      rw [resolveAll, bind_eq_ok_iff]
      exact ⟨none, unresolved, ih⟩
    | write resolved unstored unstaged rest ih =>
      rw [resolveAll, bind_eq_ok_iff]
      refine ⟨_, resolved, bind_eq_ok_iff.mpr ⟨_, ?_, ih⟩⟩
      exact write_eq_ok_iff.mpr ⟨unstored, unstaged, rfl⟩

/-- Why a binding is refused: its sources conflict, or the name that its value claims is taken. -/
inductive Refused (store : KeySet) (inputs : Inputs) (staged : KeySet) (binding : Binding) :
    Failure → Prop
  | unresolved {failure : Failure} (h : inputs.resolve binding = .error failure) :
      Refused store inputs staged binding failure
  | taken {resolution : Resolution} (resolved : inputs.resolve binding = .ok (some resolution))
      (h : Holds store (claimed binding resolution.value) ∨
        Holds staged (claimed binding resolution.value)) :
      Refused store inputs staged binding
        (.illegalUse resolution.origin
          (.alreadyResolved (claimed binding resolution.value).display))

/-- Staging fails at the first binding that is refused. -/
lemma resolveAll_eq_error_iff {staged : KeySet} {bindings : List Binding} {failure : Failure} :
    resolveAll store inputs staged bindings = .error failure ↔
      ∃ before binding after next, bindings = before ++ binding :: after ∧
        Run store inputs staged before next ∧ Refused store inputs next binding failure := by
  constructor
  · intro h
    induction bindings generalizing staged with
    | nil => cases h
    | cons binding bindings ih =>
      rw [resolveAll] at h
      rcases bind_eq_error_iff.mp h with hresolve | ⟨found, hresolve, h⟩
      · exact ⟨[], binding, bindings, staged, rfl, .done staged, .unresolved hresolve⟩
      cases found with
      | none =>
        obtain ⟨before, other, after, next, rfl, hrun, hrefused⟩ := ih h
        exact ⟨binding :: before, other, after, next, rfl, .skip hresolve hrun, hrefused⟩
      | some resolution =>
        rcases bind_eq_error_iff.mp h with hwrite | ⟨following, hwrite, h⟩
        · obtain ⟨htaken, rfl⟩ := write_eq_error_iff.mp hwrite
          exact ⟨[], binding, bindings, staged, rfl, .done staged, .taken hresolve htaken⟩
        · obtain ⟨hstore, hstaged, rfl⟩ := write_eq_ok_iff.mp hwrite
          obtain ⟨before, other, after, next, rfl, hrun, hrefused⟩ := ih h
          exact ⟨binding :: before, other, after, next, rfl,
            .write hresolve hstore hstaged hrun, hrefused⟩
  · rintro ⟨before, binding, after, next, rfl, hrun, hrefused⟩
    induction hrun with
    | done staged =>
      rw [List.nil_append, resolveAll, bind_eq_error_iff]
      cases hrefused with
      | unresolved hresolve => exact Or.inl hresolve
      | taken resolved htaken =>
        exact Or.inr ⟨_, resolved,
          bind_eq_error_iff.mpr (Or.inl (write_eq_error_iff.mpr ⟨htaken, rfl⟩))⟩
    | skip unresolved rest ih =>
      rw [List.cons_append, resolveAll, bind_eq_error_iff]
      exact Or.inr ⟨none, unresolved, ih hrefused⟩
    | write resolved unstored unstaged rest ih =>
      rw [List.cons_append, resolveAll, bind_eq_error_iff]
      refine Or.inr ⟨_, resolved, bind_eq_error_iff.mpr (Or.inr ⟨_, ?_, ih hrefused⟩)⟩
      exact write_eq_ok_iff.mpr ⟨unstored, unstaged, rfl⟩

/-- Staging fails with a failure of resolution or at a name that is not free. -/
lemma resolveAll_eq_error {staged : KeySet} {bindings : List Binding} {failure : Failure}
    (h : resolveAll store inputs staged bindings = .error failure) :
    (∃ binding ∈ bindings, inputs.resolve binding = .error failure) ∨
      ∃ origin name, failure = .illegalUse origin (.alreadyResolved name) := by
  obtain ⟨before, binding, after, next, rfl, _, hrefused⟩ := resolveAll_eq_error_iff.mp h
  cases hrefused with
  | unresolved hresolve => exact Or.inl ⟨binding, by simp, hresolve⟩
  | taken _ _ => exact Or.inr ⟨_, _, rfl⟩

/-- The keys that the values of bindings become, in the order of writing. -/
def written (inputs : Inputs) (bindings : List Binding) : List Key :=
  bindings.flatMap fun binding => ((inputs.finding? binding).map (keysOf binding)).getD []

lemma written_append (before after : List Binding) :
    written inputs (before ++ after) = written inputs before ++ written inputs after :=
  List.flatMap_append

lemma written_cons_of_found {binding : Binding} {bindings : List Binding} {value : Value}
    (h : inputs.finding? binding = some value) :
    written inputs (binding :: bindings) = keysOf binding value ++ written inputs bindings := by
  simp [written, h]

lemma written_cons_of_none {binding : Binding} {bindings : List Binding}
    (h : inputs.resolve binding = .ok none) :
    written inputs (binding :: bindings) = written inputs bindings := by
  simp [written, Inputs.finding?_eq_none h]

lemma mem_written_iff {bindings : List Binding} {key : Key} :
    key ∈ written inputs bindings ↔ ∃ binding ∈ bindings, ∃ value,
      inputs.finding? binding = some value ∧ key ∈ keysOf binding value := by
  rw [written, List.mem_flatMap]
  constructor
  · rintro ⟨binding, hbinding, hkey⟩
    cases hfound : inputs.finding? binding with
    | none =>
      rw [hfound] at hkey
      exact absurd hkey List.not_mem_nil
    | some value =>
      rw [hfound] at hkey
      exact ⟨binding, hbinding, value, hfound, hkey⟩
  · rintro ⟨binding, hbinding, value, hfound, hkey⟩
    refine ⟨binding, hbinding, ?_⟩
    rw [hfound]
    exact hkey

lemma Run.staged_eq {staged final : KeySet} {bindings : List Binding}
    (h : Run store inputs staged bindings final) :
    final = staged.insertAll (written inputs bindings) := by
  induction h with
  | done staged => rfl
  | skip unresolved rest ih => rw [ih, written_cons_of_none unresolved]
  | write resolved unstored unstaged rest ih =>
    rw [ih, written_cons_of_found (Inputs.finding?_eq_some resolved), SortedBy.insertAll_append]

lemma Run.resolves {staged final : KeySet} {bindings : List Binding}
    (h : Run store inputs staged bindings final) :
    ∀ binding ∈ bindings, ∃ found, inputs.resolve binding = .ok found := by
  induction h with
  | done staged => exact fun _ hmem => absurd hmem List.not_mem_nil
  | skip unresolved rest ih =>
    intro binding hmem
    rcases List.mem_cons.mp hmem with rfl | hmem
    · exact ⟨_, unresolved⟩
    · exact ih binding hmem
  | write resolved unstored unstaged rest ih =>
    intro binding hmem
    rcases List.mem_cons.mp hmem with rfl | hmem
    · exact ⟨_, resolved⟩
    · exact ih binding hmem

/-- Behind some of its bindings a run goes on with what they staged. -/
lemma Run.of_append {staged final : KeySet} {before after : List Binding}
    (h : Run store inputs staged (before ++ after) final) :
    Run store inputs (staged.insertAll (written inputs before)) after final := by
  induction before generalizing staged with
  | nil => exact h
  | cons first before ih =>
    cases h with
    | skip unresolved rest =>
      rw [written_cons_of_none unresolved]
      exact ih rest
    | write resolved unstored unstaged rest =>
      rw [written_cons_of_found (Inputs.finding?_eq_some resolved), SortedBy.insertAll_append]
      exact ih rest

/-- Some of the bindings of a run at its start are a run of their own. -/
lemma Run.before {staged final : KeySet} {before after : List Binding}
    (h : Run store inputs staged (before ++ after) final) :
    Run store inputs staged before (staged.insertAll (written inputs before)) := by
  induction before generalizing staged with
  | nil => exact .done staged
  | cons first before ih =>
    cases h with
    | skip unresolved rest =>
      rw [written_cons_of_none unresolved]
      exact .skip unresolved (ih rest)
    | write resolved unstored unstaged rest =>
      rw [written_cons_of_found (Inputs.finding?_eq_some resolved), SortedBy.insertAll_append]
      exact .write resolved unstored unstaged (ih rest)

/-- Each value found the name that it claims free of what was there. -/
lemma Run.not_holds {staged final : KeySet} {bindings : List Binding} {binding : Binding}
    {value : Value} (h : Run store inputs staged bindings final) (hbinding : binding ∈ bindings)
    (hfound : inputs.finding? binding = some value) : ¬Holds store (claimed binding value) := by
  obtain ⟨before, after, rfl⟩ := List.append_of_mem hbinding
  cases h.of_append with
  | skip unresolved rest =>
    rw [Inputs.finding?_eq_none unresolved] at hfound
    cases hfound
  | write resolved unstored unstaged rest =>
    rw [Inputs.finding?_eq_some resolved] at hfound
    cases hfound
    exact unstored

end Staging

end DeclaredOptions
