import DeclaredOptions.Specification
import DeclaredOptions.Proofs.Filing
import DeclaredOptions.Proofs.NameOrder
import DeclaredOptions.Proofs.Steps
import Mathlib.Tactic.Common

/-!
# Compilation key by key

A specification is compiled from the `spec` keys, in key order, and nothing else matters
(`compile_congr`). Each of them adds the binding that it declares, if there is any
(`addKey_eq_ok_iff`).
-/

namespace DeclaredOptions

open Std Steps

/-! ### Keys of one namespace -/

namespace KeySet

lemma pairwise_inSpace (keys : KeySet) (space : Namespace) :
    (keys.inSpace space).Pairwise fun a b => compare a.name b.name = .lt :=
  keys.increasing.filter _

lemma mem_inSpace {keys : KeySet} {space : Namespace} {key : Key} :
    key ∈ keys.inSpace space ↔ keys.find? key.name = some key ∧ key.name.space = space := by
  rw [inSpace, List.mem_filter, SortedBy.mem_iff_find?, decide_eq_true_iff]

/-- The keys of a namespace are determined by the look-ups in it. -/
lemma inSpace_congr {keys keys' : KeySet} {space : Namespace}
    (h : ∀ name : KeyName, name.space = space → keys.find? name = keys'.find? name) :
    keys.inSpace space = keys'.inSpace space := by
  apply SortedBy.eq_of_mem_iff (keys.pairwise_inSpace space) (keys'.pairwise_inSpace space)
  intro key
  rw [mem_inSpace, mem_inSpace]
  constructor
  · rintro ⟨hfind, hspace⟩
    exact ⟨h key.name hspace ▸ hfind, hspace⟩
  · rintro ⟨hfind, hspace⟩
    exact ⟨(h key.name hspace).symm ▸ hfind, hspace⟩

end KeySet

/-! ### One key -/

/-- A binding says just what its key declares after the bindings of `spec`. -/
structure Binding.IsDeclaredBy (binding : Binding) (spec : Specification) (key : Key) : Prop where
  name : binding.key = key.name
  options : declaredOptions spec.options key = .ok binding.options
  envVars : declaredVariables spec key = .ok binding.envVars
  remaining : declaredRemaining key = .ok binding.remaining
  help : binding.help = declaredHelp key.metadata

namespace Specification

lemma addKey_eq_ok_iff {spec next : Specification} {key : Key} :
    spec.addKey key = .ok next ↔ ∃ binding : Binding, binding.IsDeclaredBy spec key ∧
      next = if binding.isBound then ⟨spec.bindings ++ [binding]⟩ else spec := by
  simp only [addKey, bind_eq_ok_iff]
  constructor
  · rintro ⟨options, hoptions, envVars, henvVars, remaining, hremaining, hnext⟩
    refine ⟨⟨key.name, options, envVars, remaining, declaredHelp key.metadata⟩,
      ⟨rfl, hoptions, henvVars, hremaining, rfl⟩, ?_⟩
    cases hnext
    rfl
  · rintro ⟨binding, ⟨hkey, hoptions, henvVars, hremaining, hhelp⟩, rfl⟩
    refine ⟨_, hoptions, _, henvVars, _, hremaining, ?_⟩
    rw [← hkey, ← hhelp]
    rfl

/-- Compilation looks at the `spec` keys only. -/
lemma compile_congr {keys keys' : KeySet}
    (h : ∀ name : KeyName, name.space = .spec → keys.find? name = keys'.find? name) :
    compile keys = compile keys' := by
  rw [compile, compile, KeySet.inSpace_congr h]

end Specification

end DeclaredOptions
