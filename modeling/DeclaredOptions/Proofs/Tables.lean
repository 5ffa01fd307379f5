import DeclaredOptions.CommandLine
import DeclaredOptions.Proofs.Legality
import Mathlib.Algebra.GroupWithZero.Nat
import Mathlib.Tactic.Common

/-!
# Names of a specification

Options are looked up by name among those of the built-in help and of all bindings. As names are
pairwise distinct in a specification that compiles, the look-up finds for each name that a binding
lists just the option listed there (`lookupOption_of_mem_bindings`), and no variable is listed
twice. Just the keys that declare anything have a binding (`exists_binding_iff`).
-/

namespace DeclaredOptions

/-! ### Looking up options -/

section LookUp

variable {options : List OptionSpec} {option : OptionSpec} {name : OptionName}

lemma lookupOption_eq_ok (h : lookupOption options name = .ok option) :
    option ∈ options ∧ option.name = name := by
  unfold lookupOption at h
  split at h
  · rename_i hfind
    cases h
    exact ⟨List.mem_of_find?_eq_some hfind, by simpa using List.find?_some hfind⟩
  · cases h

lemma exists_lookupOption_iff :
    (∃ option, lookupOption options name = .ok option) ↔ name ∈ optionNames options := by
  constructor
  · rintro ⟨option, h⟩
    obtain ⟨hoption, rfl⟩ := lookupOption_eq_ok h
    exact List.mem_map_of_mem hoption
  · intro hname
    unfold lookupOption
    cases hfind : options.find? fun option => option.name = name with
    | some option => exact ⟨option, rfl⟩
    | none => exact absurd hname (find?_eq_none_iff.mp hfind)

/-- Where names are distinct, every option is found under its name. -/
lemma lookupOption_name (h : (optionNames options).Nodup) (hoption : option ∈ options) :
    lookupOption options option.name = .ok option := by
  obtain ⟨other, hother⟩ := exists_lookupOption_iff.mpr (List.mem_map_of_mem hoption)
  obtain ⟨hmem, hname⟩ := lookupOption_eq_ok hother
  rw [hother, List.inj_on_of_nodup_map h hmem hoption hname]

end LookUp

/-! ### Options of a key -/

lemma KeyName.kind_eq_array_iff {name : KeyName} : name.kind = .array ↔ name.IsWildcard := by
  unfold kind
  split <;> simp_all

lemma OptionSpec.kind_of_owner {option : OptionSpec} {name : KeyName}
    (h : option.owner = .key name) : option.kind = name.kind := by
  rw [kind, h]

namespace Key

variable {key : Key} {option : OptionSpec}

lemma owner_of_mem_options (h : option ∈ key.options) : option.owner = .key key.name := by
  obtain ⟨entry, _, hoption⟩ := List.mem_flatMap.mp h
  obtain ⟨name, _, rfl⟩ := List.mem_map.mp hoption
  rfl

/-- Whether a key declares an option, a variable or, for an array, leftover arguments. -/
def Declares (key : Key) : Prop :=
  key.optionNames ≠ [] ∨ key.envVars ≠ [] ∨ key.AsksForRemaining ∧ key.name.IsWildcard

lemma isBound_binding_iff (h : key.AsksForRemaining → key.name.IsWildcard) :
    key.binding.isBound ↔ key.Declares := by
  have hoptions : key.options ≠ [] ↔ key.optionNames ≠ [] := by
    rw [← key.optionNames_options, DeclaredOptions.optionNames, ne_eq, ne_eq, List.map_eq_nil_iff]
  have hremaining : key.AsksForRemaining ↔ key.AsksForRemaining ∧ key.name.IsWildcard :=
    (and_iff_left_of_imp h).symm
  rw [Binding.isBound_iff, Declares, ← hremaining, ← hoptions]
  simp only [binding, decide_eq_true_iff]

end Key

namespace Specification

variable {keys : KeySet} {spec : Specification}

lemma length_optionNames (spec : Specification) : (optionNames spec.options).length =
    2 + (spec.bindings.map fun binding => binding.options.length).sum := by
  rw [optionNames, List.length_map, options, List.length_append, List.length_flatMap]
  rfl

lemma mem_optionNames_options_iff {name : OptionName} : name ∈ optionNames spec.options ↔
    name = .helpShort ∨ name = .helpLong ∨
      ∃ binding ∈ spec.bindings, name ∈ optionNames binding.options := by
  simp only [optionNames, options, List.map_append, List.map_flatMap, List.mem_append,
    List.mem_flatMap, ← or_assoc]
  apply or_congr_left
  simp [OptionSpec.builtin, OptionSpec.help]

lemma mem_options_of_mem_bindings {binding : Binding} {option : OptionSpec}
    (hbinding : binding ∈ spec.bindings) (hoption : option ∈ binding.options) :
    option ∈ spec.options :=
  List.mem_append_right _ (List.mem_flatMap.mpr ⟨binding, hbinding, hoption⟩)

lemma owner_of_mem_bindings (h : compile keys = .ok spec) {binding : Binding} {option : OptionSpec}
    (hbinding : binding ∈ spec.bindings) (hoption : option ∈ binding.options) :
    option.owner = .key binding.key := by
  obtain ⟨_, rfl⟩ := compile_eq_ok_iff.mp h
  obtain ⟨key, _, rfl, _⟩ := mem_bindings_ofKeys_iff.mp hbinding
  exact Key.owner_of_mem_options hoption

/-- Every option of a key that is bound stands in its binding. -/
lemma mem_options_of_owner (h : compile keys = .ok spec) {binding : Binding} {option : OptionSpec}
    (hbinding : binding ∈ spec.bindings) (hoption : option ∈ spec.options)
    (howner : option.owner = .key binding.key) : option ∈ binding.options := by
  rcases List.mem_append.mp hoption with hbuiltin | hbound
  · have hhelp : option.owner = .help := by
      simp only [OptionSpec.builtin, List.mem_cons, List.not_mem_nil, or_false] at hbuiltin
      rcases hbuiltin with rfl | rfl <;> rfl
    cases hhelp.symm.trans howner
  · obtain ⟨other, hother, hmem⟩ := List.mem_flatMap.mp hbound
    have hkey := (owner_of_mem_bindings h hother hmem).symm.trans howner
    have hsame : other = binding := by
      have hnodup : (spec.bindings.map Binding.key).Nodup :=
        List.pairwise_map.mpr ((pairwise_of_compile h).imp fun hlt heq => by
          rw [heq] at hlt
          simp at hlt)
      exact List.inj_on_of_nodup_map hnodup hother hbinding (by simpa using hkey)
    exact hsame ▸ hmem

/-! ### One binding for each name -/

lemma nodup_flatMap_optionNames (h : compile keys = .ok spec) :
    (spec.bindings.flatMap fun binding => optionNames binding.options).Nodup := by
  obtain ⟨hlegal, rfl⟩ := compile_eq_ok_iff.mp h
  have hnodup := nodup_options_ofKeys hlegal
  rw [options, optionNames, List.map_append, List.map_flatMap] at hnodup
  exact hnodup.of_append_right

lemma nodup_envVars (h : compile keys = .ok spec) : spec.envVars.Nodup := by
  obtain ⟨hlegal, rfl⟩ := compile_eq_ok_iff.mp h
  rw [envVars_ofKeys]
  exact hlegal.envVars

/-- Where no item is listed twice, only one list holds it. -/
lemma eq_of_mem_of_nodup_flatMap {α β : Type} {f : α → List β} {items : List α} {a b : α} {x : β}
    (h : (items.flatMap f).Nodup) (ha : a ∈ items) (hb : b ∈ items) (hxa : x ∈ f a)
    (hxb : x ∈ f b) : a = b := by
  induction items with
  | nil => cases ha
  | cons c items ih =>
    rw [List.flatMap_cons, List.nodup_append'] at h
    obtain ⟨_, hrest, hdisjoint⟩ := h
    rcases List.mem_cons.mp ha with rfl | ha'
    · rcases List.mem_cons.mp hb with rfl | hb'
      · rfl
      · exact absurd (List.mem_flatMap.mpr ⟨b, hb', hxb⟩) (hdisjoint hxa)
    · rcases List.mem_cons.mp hb with rfl | hb'
      · exact absurd (List.mem_flatMap.mpr ⟨a, ha', hxa⟩) (hdisjoint hxb)
      · exact ih hrest ha' hb'

section

variable {binding other : Binding}

lemma nodup_optionNames_of_mem (h : compile keys = .ok spec) (hbinding : binding ∈ spec.bindings) :
    (optionNames binding.options).Nodup :=
  (List.nodup_flatMap.mp (nodup_flatMap_optionNames h)).1 binding hbinding

lemma nodup_envVars_of_mem (h : compile keys = .ok spec) (hbinding : binding ∈ spec.bindings) :
    binding.envVars.Nodup :=
  (List.nodup_flatMap.mp (nodup_envVars h)).1 binding hbinding

lemma eq_of_mem_optionNames (h : compile keys = .ok spec) (hbinding : binding ∈ spec.bindings)
    (hother : other ∈ spec.bindings) {name : OptionName}
    (hname : name ∈ optionNames binding.options) (hname' : name ∈ optionNames other.options) :
    binding = other :=
  eq_of_mem_of_nodup_flatMap (nodup_flatMap_optionNames h) hbinding hother hname hname'

lemma eq_of_mem_envVars (h : compile keys = .ok spec) (hbinding : binding ∈ spec.bindings)
    (hother : other ∈ spec.bindings) {name : String} (hname : name ∈ binding.envVars)
    (hname' : name ∈ other.envVars) : binding = other :=
  eq_of_mem_of_nodup_flatMap (nodup_envVars h) hbinding hother hname hname'

end

lemma nodup_optionNames (h : compile keys = .ok spec) : (optionNames spec.options).Nodup := by
  obtain ⟨hlegal, rfl⟩ := compile_eq_ok_iff.mp h
  exact nodup_options_ofKeys hlegal

/-- In a specification that compiles, every option that a binding lists is found under its name. -/
lemma lookupOption_of_mem_bindings (h : compile keys = .ok spec) {binding : Binding}
    {option : OptionSpec} (hbinding : binding ∈ spec.bindings)
    (hoption : option ∈ binding.options) :
    lookupOption spec.options option.name = .ok option :=
  lookupOption_name (nodup_optionNames h) (mem_options_of_mem_bindings hbinding hoption)

/-- In a specification that compiles, just the keys that declare anything have a binding. -/
lemma exists_binding_iff (h : compile keys = .ok spec) (name : KeyName) :
    (∃ binding ∈ spec.bindings, binding.key = name) ↔
      ∃ key ∈ keys.inSpace .spec, key.name = name ∧ key.Declares := by
  obtain ⟨hlegal, rfl⟩ := compile_eq_ok_iff.mp h
  constructor
  · rintro ⟨binding, hbinding, rfl⟩
    obtain ⟨key, hkey, rfl, hbound⟩ := mem_bindings_ofKeys_iff.mp hbinding
    exact ⟨key, hkey, rfl, (Key.isBound_binding_iff (hlegal.remaining key hkey)).mp hbound⟩
  · rintro ⟨key, hkey, rfl, hdeclares⟩
    have hbound := (Key.isBound_binding_iff (hlegal.remaining key hkey)).mpr hdeclares
    exact ⟨key.binding, mem_bindings_ofKeys_iff.mpr ⟨key, hkey, rfl, hbound⟩, rfl⟩

/-- A list of leftover arguments, a level with an option, a long option and a variable, and a
switch. -/
def sampleKeys : KeySet := .ofList Key.name [
  { name := ⟨.spec, ["files", "#"], by decide⟩,
    metadata := .ofList Prod.fst [("args", "remaining")] },
  { name := ⟨.spec, ["level"], by decide⟩,
    metadata := .ofList Prod.fst [("opt", "l"), ("opt/long", "level"), ("env", "LEVEL")] },
  { name := ⟨.spec, ["verbose"], by decide⟩,
    metadata := .ofList Prod.fst [("opt", "v"), ("opt/arg", "none")] }]

/-- What `sampleKeys` declare. -/
def sample : Specification := .ofKeys (sampleKeys.inSpace .spec)

/-- The option for the level, under one of its names. -/
def levelOption (name : OptionName) : OptionSpec where
  name
  mode := .required
  flagValue := "1"
  placeholder := "ARG"
  hidden := false
  owner := .key ⟨.spec, ["level"], by decide⟩

/-- The switch. -/
def verboseOption : OptionSpec where
  name := .short 'v'
  mode := .never
  flagValue := "1"
  placeholder := "ARG"
  hidden := false
  owner := .key ⟨.spec, ["verbose"], by decide⟩

/-- The binding of the level. -/
def levelBinding : Binding where
  key := ⟨.spec, ["level"], by decide⟩
  options := [levelOption (.short 'l'), levelOption (.long "level")]
  envVars := ["LEVEL"]
  remaining := false
  help := ""

/-- The binding of the leftover arguments. -/
def filesBinding : Binding where
  key := ⟨.spec, ["files", "#"], by decide⟩
  options := []
  envVars := []
  remaining := true
  help := ""

lemma options_sample : sample.options = OptionSpec.builtin ++
    [levelOption (.short 'l'), levelOption (.long "level"), verboseOption] := rfl

lemma compile_sampleKeys : compile sampleKeys = .ok sample := rfl

end Specification

end DeclaredOptions
