import DeclaredOptions.Registry
import DeclaredOptions.Proofs.Filing
import DeclaredOptions.Proofs.HelpForms
import DeclaredOptions.Proofs.Steps
import Mathlib.Tactic.Common

/-!
# Registration and specifications

What registration files in its tables and what a specification lists is the same: each declaration
that registration takes up changes its tables as it changes the specification, and each one that it
refuses is refused with the same failure. So the tables after all keys are those of the
specification that the keys declare (`Registry.compile_eq_map`).
-/

namespace DeclaredOptions

open Steps

/-! ### Tables from lists -/

namespace SortedMap

variable {κ β : Type} [DecidableEq κ] [Ord κ] [Std.TransOrd κ] [Std.LawfulEqOrd κ]
  {items more : List (κ × β)} {k : κ}

/-- The map of named items; of two with one name the first stays. -/
def ofFirsts (items : List (κ × β)) : SortedMap κ β := .ofList Prod.fst items.reverse

lemma get?_ofFirsts (items : List (κ × β)) (k : κ) :
    (ofFirsts items).get? k = (items.find? fun item => item.1 = k).map Prod.snd := by
  rw [get?, ofFirsts, SortedBy.ofList, SortedBy.find?_insertAll, SortedBy.latest?,
    List.reverse_reverse, SortedBy.find?_empty, Option.or_none]
  simp [beq_eq_decide]

lemma ofFirsts_concat (h : (ofFirsts items).get? k = none) (v : β) :
    ofFirsts (items ++ [(k, v)]) = (ofFirsts items).set k v := by
  rw [get?_ofFirsts, Option.map_eq_none_iff] at h
  apply ext_get?
  intro j
  rw [get?_ofFirsts, List.find?_append]
  by_cases hj : k = j
  · subst hj
    rw [get?_set_self, h]
    simp
  · rw [get?_set_of_ne _ hj, get?_ofFirsts]
    simp [hj]

/-- Where no name is in both lists, their order does not matter. -/
lemma ofFirsts_append_comm (h : ∀ item ∈ items, (ofFirsts more).get? item.1 = none) :
    ofFirsts (items ++ more) = ofFirsts (more ++ items) := by
  apply ext_get?
  intro k
  simp only [get?_ofFirsts, List.find?_append]
  cases hitem : items.find? fun item => item.1 = k with
  | none => simp
  | some item =>
    have hnone := h item (List.mem_of_find?_eq_some hitem)
    have hname : item.1 = k := by simpa using List.find?_some hitem
    rw [get?_ofFirsts, Option.map_eq_none_iff, hname] at hnone
    rw [hnone]
    rfl

end SortedMap

/-! ### Tables of a specification -/

/-- What is filed for an option. -/
def OptionSpec.descriptor (option : OptionSpec) : Descriptor where
  name := option.name
  mode := option.mode
  kind := option.kind
  flagValue := option.flagValue
  hidden := option.hidden
  owner := option.owner

/-- The options of a list by name. -/
def optionTable (options : List OptionSpec) : SortedMap OptionName Descriptor :=
  .ofFirsts (options.map fun option => (option.name, option.descriptor))

lemma get?_optionTable (options : List OptionSpec) (name : OptionName) :
    (optionTable options).get? name =
      (options.find? fun option => option.name = name).map OptionSpec.descriptor := by
  rw [optionTable, SortedMap.get?_ofFirsts, List.find?_map, Option.map_map]
  rfl

lemma optionTable_concat {options : List OptionSpec} {option : OptionSpec}
    (h : (optionTable options).get? option.name = none) : optionTable (options ++ [option]) =
      (optionTable options).set option.name option.descriptor := by
  rw [optionTable, List.map_append, List.map_singleton]
  exact SortedMap.ofFirsts_concat h _

/-- What is listed for a binding. -/
def Binding.entry (binding : Binding) : KeyBinding where
  key := binding.key
  kind := binding.key.kind
  options := optionNames binding.options
  envVars := binding.envVars
  remaining := binding.remaining
  helpLine? := binding.helpLine?

@[simp] lemma Binding.entry_key (binding : Binding) : binding.entry.key = binding.key := rfl

/-- The variables of a binding, each with the key that holds it. -/
def Binding.holdings (binding : Binding) : List (String × KeyName) :=
  binding.envVars.map fun name => (name, binding.key)

lemma Binding.find?_holdings (binding : Binding) (name : String) :
    (binding.holdings.find? fun item => item.1 = name) =
      if name ∈ binding.envVars then some (name, binding.key) else none := by
  rw [holdings]
  induction binding.envVars with
  | nil => rfl
  | cons other names ih =>
    by_cases h : other = name
    · simp [h]
    · rw [List.map_cons, List.find?_cons_of_neg (by simpa using h), ih]
      simp [Ne.symm h]

namespace Specification

/-- The variables of a specification, each with the key that holds it. -/
def holdings (spec : Specification) : List (String × KeyName) :=
  spec.bindings.flatMap Binding.holdings

lemma get?_holdings (spec : Specification) (name : String) :
    (SortedMap.ofFirsts spec.holdings).get? name = spec.holder? name := by
  rw [SortedMap.get?_ofFirsts, holdings, holder?]
  induction spec.bindings with
  | nil => rfl
  | cons binding bindings ih =>
    rw [List.flatMap_cons, List.find?_append, Binding.find?_holdings]
    by_cases h : name ∈ binding.envVars
    · simp [h]
    · simpa [h] using ih

/-- The tables that say what a specification does. -/
def registry (spec : Specification) : Registry where
  options := optionTable spec.options
  bindings := spec.bindings.map Binding.entry
  hasOptions := spec.hasOptions
  hasArguments := spec.hasArguments
  holders := .ofFirsts spec.holdings

/-- The tables of a specification while the declarations of one more key are filed. -/
def draft (spec : Specification) (line? : Option String) (binding : Binding) : Draft where
  registry := {
    options := optionTable (spec.options ++ binding.options)
    bindings := spec.bindings.map Binding.entry
    hasOptions := spec.hasOptions || binding.options.any fun option => !option.hidden
    hasArguments := spec.hasArguments || binding.remaining
    holders := .ofFirsts (binding.holdings ++ spec.holdings) }
  binding := { binding.entry with helpLine? := line? }
  help := .ofOptions binding.options

variable (spec : Specification) (line? : Option String) (binding : Binding)

/-! ### One declaration -/

/-- Filing an option changes the tables as registering it changes the specification. -/
lemma addName_draft (settings : OptionSettings) (name : OptionName) :
    (spec.draft line? binding).addName settings name =
      (registerOption spec.options binding.options (settings.option binding.key name)).map
        fun options => spec.draft line? { binding with options } := by
  have hname : (settings.option binding.key name).name = name := rfl
  rw [Draft.addName, registerOption, hname]
  cases name.fault? with
  | some fault => rfl
  | none =>
    have hget := get?_optionTable (spec.options ++ binding.options) name
    cases hfind : (spec.options ++ binding.options).find? fun other => other.name = name with
    | some other =>
      rw [hfind, Option.map_some] at hget
      simp only [draft, hget]
      rfl
    | none =>
      rw [hfind, Option.map_none] at hget
      have htable :
          optionTable (spec.options ++ binding.options ++ [settings.option binding.key name])
          = (optionTable (spec.options ++ binding.options)).set name
            (settings.option binding.key name).descriptor := optionTable_concat hget
      have hhelp := HelpParts.addName_ofOptions binding.options settings binding.key name
      simp only [draft, hget, Except.map, ← List.append_assoc, htable, hhelp, List.any_append,
        List.any_cons, List.any_nil, Bool.or_false, Bool.or_assoc, Binding.entry, optionNames,
        List.map_append, List.map_singleton]
      rfl

lemma foldlM_addName_draft (settings : OptionSettings) (names : List OptionName) :
    names.foldlM (Draft.addName settings) (spec.draft line? binding) =
      (names.foldlM (fun own name => registerOption spec.options own
        (settings.option binding.key name)) binding.options).map
        fun options => spec.draft line? { binding with options } :=
  foldlM_comm (g := fun options => spec.draft line? { binding with options })
    (fun name _ options => addName_draft spec line? { binding with options } settings name)
    binding.options

/-- Filing an entry changes the tables as declaring it changes the specification. -/
lemma addEntry_draft {key : Key} (hkey : binding.key = key.name) (entry : FieldEntry) :
    (spec.draft line? binding).addEntry key.metadata entry =
      (declareEntry spec.options key binding.options entry).map
        fun options => spec.draft line? { binding with options } := by
  rw [Draft.addEntry, declareEntry]
  cases OptionSettings.read key.metadata entry with
  | error fault => rfl
  | ok settings =>
    rw [ok_bind, ok_bind, ← hkey]
    exact foldlM_addName_draft spec line? binding settings _

lemma addOptions_draft {key : Key} (hkey : binding.key = key.name) :
    (spec.draft line? binding).addOptions key.metadata =
      ((optionEntries key.metadata).foldlM (declareEntry spec.options key) binding.options).map
        fun options => spec.draft ((HelpParts.ofOptions options).line? (declaredHelp key.metadata))
          { binding with options } := by
  have hfold : (optionEntries key.metadata).foldlM (Draft.addEntry key.metadata)
        (spec.draft line? binding) =
      ((optionEntries key.metadata).foldlM (declareEntry spec.options key) binding.options).map
        fun options => spec.draft line? { binding with options } :=
    foldlM_comm (g := fun options => spec.draft line? { binding with options })
      (fun entry _ options => addEntry_draft spec line? { binding with options } hkey entry)
      binding.options
  rw [Draft.addOptions, hfold]
  cases (optionEntries key.metadata).foldlM (declareEntry spec.options key) binding.options <;> rfl

/-- A key holds the variables of its own that were filed, other keys hold theirs. -/
lemma get?_holders_draft (name : String) :
    (spec.draft line? binding).registry.holders.get? name =
      if name ∈ binding.envVars then some binding.key else spec.holder? name := by
  rw [draft, SortedMap.get?_ofFirsts, List.find?_append, Binding.find?_holdings, ← get?_holdings,
    SortedMap.get?_ofFirsts]
  split <;> rfl

lemma set_holders_draft (name : String) :
    (spec.draft line? binding).registry.holders.set name (spec.draft line? binding).binding.key =
      (spec.draft line?
        { binding with envVars := binding.envVars ++ [name] }).registry.holders := by
  apply SortedMap.ext_get?
  intro other
  rw [get?_holders_draft]
  by_cases h : name = other
  · subst h
    rw [SortedMap.get?_set_self]
    simp [draft]
  · rw [SortedMap.get?_set_of_ne _ h, get?_holders_draft]
    simp [Ne.symm h]

/-- Filing a variable changes the tables as binding it changes the specification. -/
lemma addVariable_draft (name : String) : (spec.draft line? binding).addVariable name =
    (registerVariable spec binding.key binding.envVars name).map
      fun envVars => spec.draft line? { binding with envVars } := by
  rw [Draft.addVariable, registerVariable, get?_holders_draft]
  by_cases hempty : name = ""
  · rw [if_pos hempty, if_pos hempty]
    rfl
  · rw [if_neg hempty, if_neg hempty]
    cases if name ∈ binding.envVars then some binding.key else spec.holder? name with
    | some holder => rfl
    | none =>
      rw [set_holders_draft]
      rfl

lemma addVariables_draft {key : Key} (hkey : binding.key = key.name)
    (hnone : binding.envVars = []) : (spec.draft line? binding).addVariables key.metadata =
      (declaredVariables spec key).map fun envVars =>
        spec.draft line? { binding with envVars } := by
  rw [Draft.addVariables, declaredVariables, ← hkey, ← hnone]
  exact foldlM_comm (g := fun envVars => spec.draft line? { binding with envVars })
    (fun name _ envVars => addVariable_draft spec line? { binding with envVars } name)
    binding.envVars

lemma addRemaining_draft {key : Key} (hkey : binding.key = key.name)
    (hnone : binding.remaining = false) : (spec.draft line? binding).addRemaining key.metadata =
      (declaredRemaining key).map fun remaining =>
        spec.draft line? { binding with remaining } := by
  have hkind : (spec.draft line? binding).binding.kind = key.name.kind :=
    congrArg KeyName.kind hkey
  rw [Draft.addRemaining, declaredRemaining, hkind]
  split
  · split
    · simp [draft, Except.map, Binding.entry, Binding.holdings]
    · rfl
  · rw [← hnone]
    rfl

variable {spec line? binding}

/-- A key holds a variable only if no other key does. -/
lemma holder?_eq_none_of_declaredVariables {key : Key} {envVars : List String}
    (h : declaredVariables spec key = .ok envVars) :
    ∀ name ∈ envVars, spec.holder? name = none := by
  refine foldlM_invariant (P := fun own => ∀ name ∈ own, spec.holder? name = none) ?_ (by simp) h
  intro own name next hown hnext
  by_cases hempty : name = ""
  · rw [registerVariable, if_pos hempty] at hnext
    cases hnext
    exact hown
  · obtain ⟨hnew, rfl⟩ := (registerVariable_eq_ok_iff hempty).mp hnext
    have hholder := holder?_eq_none_iff.mpr fun hmem => hnew (List.mem_append_left _ hmem)
    exact List.forall_mem_append.mpr ⟨hown, List.forall_mem_singleton.mpr hholder⟩

/-- The tables after a key are those of the specification with its binding. -/
lemma close_draft (hline : line? = binding.helpLine?)
    (hnew : ∀ name ∈ binding.envVars, spec.holder? name = none) :
    (spec.draft line? binding).close =
      (if binding.isBound then ⟨spec.bindings ++ [binding]⟩
        else spec : Specification).registry := by
  have hbound : (spec.draft line? binding).binding.isBound = binding.isBound := by
    apply Bool.eq_iff_iff.mpr
    simp only [KeyBinding.isBound, Binding.isBound, Bool.or_eq_true, decide_eq_true_iff]
    simp [draft, Binding.entry]
  have hholders : SortedMap.ofFirsts (binding.holdings ++ spec.holdings) =
      .ofFirsts (spec.holdings ++ binding.holdings) := by
    refine SortedMap.ofFirsts_append_comm fun item hitem => ?_
    obtain ⟨name, hname, rfl⟩ := List.mem_map.mp hitem
    exact (spec.get?_holdings name).trans (hnew name hname)
  rw [Draft.close, hbound]
  by_cases h : binding.isBound
  · rw [if_pos h, if_pos h]
    rw [holdings] at hholders
    simp [draft, registry, hholders, hline, Binding.entry, options, hasOptions, hasArguments,
      holdings]
  · rw [if_neg h, if_neg h]
    simp_all [draft, registry, Binding.isBound, Binding.holdings]

/-! ### All declarations -/

/-- Registration of a key changes the tables as its binding changes the specification. -/
lemma addKey_registry (spec : Specification) (key : Key) :
    spec.registry.addKey key = (spec.addKey key).map registry := by
  let start : Binding := ⟨key.name, [], [], false, declaredHelp key.metadata⟩
  have hstart : (⟨spec.registry, .unbound key.name, ⟨[], []⟩⟩ : Draft) = spec.draft none start := by
    simp [draft, registry, start, Binding.holdings, Binding.entry, KeyBinding.unbound,
      HelpParts.ofOptions]
  rw [Registry.addKey, hstart, addOptions_draft spec none start rfl, addKey, declaredOptions]
  refine map_bind_comm fun options => ?_
  rw [addVariables_draft _ _ _ rfl rfl]
  cases hvariables : declaredVariables spec key with
  | error fault => rfl
  | ok envVars =>
    have hnew := holder?_eq_none_of_declaredVariables hvariables
    rw [ok_bind]
    simp only [Except.map, ok_bind]
    rw [addRemaining_draft _ _ _ rfl rfl]
    refine map_bind_comm fun remaining => congrArg Except.ok (close_draft ?_ hnew)
    exact (Binding.helpLine?_eq_line?
      ⟨key.name, options, envVars, remaining, declaredHelp key.metadata⟩).symm

lemma registry_nil : (⟨[]⟩ : Specification).registry = .builtin := rfl

end Specification

/-- Registration fills the tables of the specification that the keys declare, and fails just where
they declare none. -/
theorem Registry.compile_eq_map (keys : KeySet) :
    compile keys = (Specification.compile keys).map Specification.registry := by
  rw [compile, Specification.compile, ← Specification.registry_nil]
  apply foldlM_comm
  intro key _ spec
  rw [Specification.addKey_registry]
  cases spec.addKey key <;> rfl

end DeclaredOptions
