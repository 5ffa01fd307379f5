import DeclaredOptions.Proofs.Registration
import DeclaredOptions.Proofs.Tables
import Mathlib.Tactic.Common

/-!
# Agreement of the tables

Registration changes the table of options, the lists of each binding and the table of variables at
different moments, yet after all keys they agree (`Registry.agrees_of_compile`): what one of them
holds can be found in the others, and in the declarations of the keys.
-/

namespace DeclaredOptions

/-! ### Sizes -/

/-- A sorted list has as many items as there are keys to look up. -/
lemma SortedBy.size_eq_length {α κ : Type} [Ord κ] [Std.LawfulEqOrd κ] {key : α → κ}
    {s : SortedBy key} {names : List κ} (hnodup : names.Nodup)
    (h : ∀ k, k ∈ names ↔ (s.find? k).isSome) : s.size = names.length := by
  have hkeys : (s.toList.map key).Nodup := List.pairwise_map.mpr (s.increasing.imp fun hlt heq => by
    rw [heq] at hlt
    simp at hlt)
  have hperm : (s.toList.map key).Perm names := by
    refine (List.perm_ext_iff_of_nodup hkeys hnodup).mpr fun k => ?_
    rw [h, Option.isSome_iff_exists, List.mem_map]
    exact exists_congr fun a => find?_eq_some_iff.symm
  rw [size, ← List.length_map, hperm.length_eq]

/-! ### What is looked up -/

section LookUp

variable {options : List OptionSpec} {name : OptionName} {option : OptionSpec}

lemma isSome_get?_optionTable_iff :
    ((optionTable options).get? name).isSome ↔ name ∈ optionNames options := by
  rw [get?_optionTable, Option.isSome_map, Option.isSome_iff_ne_none, ne_eq, find?_eq_none_iff,
    not_not]

/-- Where names are distinct, what is filed under the name of an option is this option. -/
lemma get?_optionTable_name (h : (optionNames options).Nodup) (hoption : option ∈ options) :
    (optionTable options).get? option.name = some option.descriptor := by
  rw [get?_optionTable]
  have hlookup := lookupOption_name h hoption
  unfold lookupOption at hlookup
  split at hlookup
  · rename_i hfind
    cases hlookup
    rw [hfind]
    rfl
  · cases hlookup

end LookUp

/-- In a specification that compiles, the key that holds a variable is the one that lists it. -/
lemma Specification.holder?_eq_some_iff {keys : KeySet} {spec : Specification}
    (h : compile keys = .ok spec) {name : String} {holder : KeyName} :
    spec.holder? name = some holder ↔
      ∃ binding ∈ spec.bindings, binding.key = holder ∧ name ∈ binding.envVars := by
  constructor
  · exact exists_of_holder?
  · rintro ⟨binding, hbinding, hkey, hname⟩
    cases hholder : spec.holder? name with
    | none =>
      exact absurd (List.mem_flatMap.mpr ⟨binding, hbinding, hname⟩)
        (holder?_eq_none_iff.mp hholder)
    | some other =>
      obtain ⟨other, hother, rfl, hname'⟩ := exists_of_holder? hholder
      rw [← hkey, eq_of_mem_envVars h hother hbinding hname' hname]

namespace Registry

variable {keys : KeySet} {registry : Registry}

/-- The tables agree with each other and with the keys whose declarations filled them. -/
structure Agrees (registry : Registry) (keys : KeySet) : Prop where
  names : ∀ name, (registry.options.get? name).isSome ↔
    name = .helpShort ∨ name = .helpLong ∨ ∃ binding ∈ registry.bindings, name ∈ binding.options
  distinct : (registry.bindings.flatMap KeyBinding.options).Nodup
  size : registry.options.size =
    2 + (registry.bindings.map fun binding => binding.options.length).sum
  filed : ∀ binding ∈ registry.bindings, ∀ name ∈ binding.options, ∃ descriptor,
    registry.options.get? name = some descriptor ∧ descriptor.name = name ∧
      descriptor.owner = .key binding.key ∧ (descriptor.kind = .array ↔ binding.key.baseName = "#")
  envVars : (registry.bindings.flatMap KeyBinding.envVars).Nodup
  held : ∀ name holder, registry.holders.get? name = some holder ↔
    ∃ binding ∈ registry.bindings, binding.key = holder ∧ name ∈ binding.envVars
  increasing : registry.bindings.Pairwise fun a b => compare a.key b.key = .lt
  bound : ∀ name, (∃ binding ∈ registry.bindings, binding.key = name) ↔
    ∃ key ∈ keys.inSpace .spec, key.name = name ∧ key.Declares

/-- The tables that were filled are those of the specification that the keys declare. -/
lemma exists_of_compile (h : compile keys = .ok registry) :
    ∃ spec, Specification.compile keys = .ok spec ∧ registry = spec.registry := by
  rw [compile_eq_map] at h
  cases hspec : Specification.compile keys with
  | error failure =>
    rw [hspec] at h
    cases h
  | ok spec =>
    rw [hspec] at h
    cases h
    exact ⟨spec, rfl, rfl⟩

lemma exists_mem_bindings_iff {spec : Specification} {P : KeyBinding → Prop} :
    (∃ binding ∈ spec.registry.bindings, P binding) ↔
      ∃ binding ∈ spec.bindings, P binding.entry := by
  simp [Specification.registry]

/-- In tables that were filled without a failure, each agrees with the others and with the keys. -/
theorem agrees_of_compile (h : compile keys = .ok registry) : registry.Agrees keys := by
  obtain ⟨spec, hspec, rfl⟩ := exists_of_compile h
  have hnodup := Specification.nodup_optionNames hspec
  constructor
  case names =>
    intro name
    rw [exists_mem_bindings_iff]
    exact isSome_get?_optionTable_iff.trans Specification.mem_optionNames_options_iff
  case distinct =>
    rw [Specification.registry, List.flatMap_map]
    exact Specification.nodup_flatMap_optionNames hspec
  case size =>
    have hsize : (optionTable spec.options).size = (optionNames spec.options).length := by
      refine SortedBy.size_eq_length hnodup fun name => ?_
      rw [← isSome_get?_optionTable_iff, SortedMap.get?, Option.isSome_map]
    rw [Specification.registry, hsize, spec.length_optionNames, List.map_map]
    simp [Function.comp_def, Binding.entry]
  case filed =>
    simp only [Specification.registry, List.forall_mem_map, Binding.entry]
    intro binding hbinding option hoption
    have howner := Specification.owner_of_mem_bindings hspec hbinding hoption
    refine ⟨option.descriptor, ?_, rfl, howner, ?_⟩
    · exact get?_optionTable_name hnodup
        (Specification.mem_options_of_mem_bindings hbinding hoption)
    · exact (congrArg (· = Kind.array) (OptionSpec.kind_of_owner howner)).to_iff.trans
        KeyName.kind_eq_array_iff
  case envVars =>
    rw [Specification.registry, List.flatMap_map]
    exact Specification.nodup_envVars hspec
  case held =>
    intro name holder
    rw [exists_mem_bindings_iff]
    exact (Option.ext_iff.mp (spec.get?_holdings name) holder).trans
      (Specification.holder?_eq_some_iff hspec)
  case increasing =>
    exact List.pairwise_map.mpr (Specification.pairwise_of_compile hspec)
  case bound =>
    intro name
    rw [exists_mem_bindings_iff]
    exact Specification.exists_binding_iff hspec name

open Specification in
theorem agrees_sampleKeys : ∃ registry, compile sampleKeys = .ok registry ∧
    registry.options.toList.map Prod.fst =
      [.short 'h', .short 'l', .short 'v', .long "help", .long "level"] ∧
    registry.bindings.map KeyBinding.options = [[], [.short 'l', .long "level"], [.short 'v']] ∧
    registry.Agrees sampleKeys := by
  have hcompile : compile sampleKeys = .ok sample.registry := by
    rw [compile_eq_map, compile_sampleKeys]
    rfl
  exact ⟨_, hcompile, by decide +kernel, rfl, agrees_of_compile hcompile⟩

end Registry

end DeclaredOptions
