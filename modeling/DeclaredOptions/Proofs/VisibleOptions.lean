import DeclaredOptions.Proofs.Effects
import DeclaredOptions.Proofs.Registration
import DeclaredOptions.Proofs.Tables
import Mathlib.Tactic.Common

/-!
# Options in help texts

Help texts show just the options that are not hidden (`showsVisible_of_compile`). The forms in the
line of a key are those collected from its entries one after the other (`Key.helpParts`), and the
usage line mentions options just if there is such a line. Both are what registration has stored.
-/

namespace DeclaredOptions

open Specification

namespace Specification

variable {keys : KeySet} {spec : Specification} {binding : Binding}

/-- Whether the option of a name is not hidden. -/
def Shows (spec : Specification) (name : OptionName) : Prop :=
  ∃ option, lookupOption spec.options name = .ok option ∧ ¬option.hidden

/-- Whether help texts show the option of a name in this form. -/
def HasForm (spec : Specification) (name : OptionName) (form : String) : Prop :=
  ∃ option, lookupOption spec.options name = .ok option ∧ option.form = form

/-- The names that the line of a binding shows: all that are not hidden, the short ones before the
long ones, each group in the order of declaration. -/
structure AreShown (spec : Specification) (binding : Binding) (names : List OptionName) : Prop where
  mem : ∀ name, name ∈ names ↔ name ∈ optionNames binding.options ∧ spec.Shows name
  order : ∃ shorts longs, names = shorts ++ longs ∧
    (∀ name ∈ shorts, name.isShort) ∧ (∀ name ∈ longs, ¬name.isShort) ∧
    shorts.Sublist (optionNames binding.options) ∧ longs.Sublist (optionNames binding.options)

lemma hasOptions_iff : spec.hasOptions ↔ ∃ binding ∈ spec.bindings, binding.helpLine?.isSome := by
  simp [hasOptions, Binding.isSome_helpLine?_iff]

/-- The usage line mentions options just if forms were collected for some key. -/
lemma hasOptions_ofKeys_iff {keys : List Key} :
    (ofKeys keys).hasOptions ↔ ∃ key ∈ keys, key.helpParts ≠ ⟨[], []⟩ := by
  have hline (key : Key) : key.binding.helpLine?.isSome ↔ key.helpParts ≠ ⟨[], []⟩ := by
    rw [Binding.helpLine?_eq_line?, HelpParts.isSome_line?_iff, key.helpParts_eq]
    rfl
  rw [hasOptions_iff]
  constructor
  · rintro ⟨_, hbinding, hshown⟩
    obtain ⟨key, hkey, rfl, _⟩ := mem_bindings_ofKeys_iff.mp hbinding
    exact ⟨key, hkey, (hline key).mp hshown⟩
  · rintro ⟨key, hkey, hparts⟩
    have hshown := (hline key).mpr hparts
    obtain ⟨option, hoption, _⟩ := Binding.isSome_helpLine?_iff.mp hshown
    have hbound := Binding.isBound_iff.mpr (Or.inl (List.ne_nil_of_mem hoption))
    exact ⟨key.binding, mem_bindings_ofKeys_iff.mpr ⟨key, hkey, rfl, hbound⟩, hshown⟩

lemma hasArguments_iff : spec.hasArguments ↔ ∃ binding ∈ spec.bindings, binding.remaining := by
  simp [hasArguments]

/-- What is said of the options of a binding is said of the names that are looked up. -/
lemma shows_iff_of_mem (h : compile keys = .ok spec) (hbinding : binding ∈ spec.bindings)
    {option : OptionSpec} (hoption : option ∈ binding.options) :
    spec.Shows option.name ↔ ¬option.hidden := by
  have hlookup := lookupOption_of_mem_bindings h hbinding hoption
  simp [Shows, hlookup]

lemma areShown_visible (h : compile keys = .ok spec) (hbinding : binding ∈ spec.bindings) :
    spec.AreShown binding (optionNames binding.visible) := by
  constructor
  case mem =>
    intro name
    simp only [optionNames, List.mem_map, Binding.mem_visible_iff]
    constructor
    · rintro ⟨option, ⟨hoption, hshown⟩, rfl⟩
      exact ⟨⟨option, hoption, rfl⟩, (shows_iff_of_mem h hbinding hoption).mpr hshown⟩
    · rintro ⟨⟨option, hoption, rfl⟩, hshows⟩
      exact ⟨option, ⟨hoption, (shows_iff_of_mem h hbinding hoption).mp hshows⟩, rfl⟩
  case order =>
    refine ⟨_, _, List.map_append, ?_, ?_, ?_, ?_⟩
    · intro name hname
      obtain ⟨option, hoption, rfl⟩ := List.mem_map.mp hname
      exact (List.mem_filter.mp hoption).2
    · intro name hname
      obtain ⟨option, hoption, rfl⟩ := List.mem_map.mp hname
      simpa using (List.mem_filter.mp hoption).2
    · exact (List.filter_sublist.trans List.filter_sublist).map _
    · exact (List.filter_sublist.trans List.filter_sublist).map _

lemma append_join (sep first : String) (lines : List String) :
    first ++ String.join (lines.map (sep ++ ·)) = sep.intercalate (first :: lines) := by
  induction lines generalizing first with
  | nil => simp
  | cons line lines ih =>
    rw [List.map_cons, String.join_cons, String.intercalate_cons_cons, ← ih]
    simp only [String.append_assoc]

/-- The list of options holds the lines of all bindings, below each other. -/
lemma optionList_eq (bindings : List Binding) : Help.optionList bindings =
    if bindings = [] then ""
    else "\n".intercalate ("OPTIONS" :: bindings.filterMap Binding.helpLine?) ++ "\n" := by
  rw [Help.optionList, append_join]

/-! ### What help texts show -/

/-- Help texts show just the options that are not hidden. -/
structure ShowsVisible (spec : Specification) (keys : KeySet) : Prop where
  line : ∀ binding ∈ spec.bindings,
    binding.helpLine?.isSome ↔ ∃ name ∈ optionNames binding.options, spec.Shows name
  forms : ∀ binding ∈ spec.bindings, ∀ line ∈ binding.helpLine?, ∃ names forms,
    spec.AreShown binding names ∧ List.Forall₂ spec.HasForm names forms ∧
      line = HelpParts.layout forms binding.help
  collected : ∀ binding ∈ spec.bindings, ∃ key ∈ keys.inSpace .spec, key.name = binding.key ∧
    binding.helpLine? = key.helpParts.line? binding.help
  flag : spec.hasOptions ↔ ∃ key ∈ keys.inSpace .spec, key.helpParts ≠ ⟨[], []⟩
  stored : ∃ registry, Registry.compile keys = .ok registry ∧
    registry.hasOptions = spec.hasOptions ∧ registry.hasArguments = spec.hasArguments ∧
    registry.bindings.map KeyBinding.helpLine? = spec.bindings.map Binding.helpLine?
  list : ∀ program key, (Help.attach spec program key).metadata.get? Help.optionsEntry =
    some (if spec.bindings = [] then ""
      else "\n".intercalate ("OPTIONS" :: spec.bindings.filterMap Binding.helpLine?) ++ "\n")
  usage : ∀ program key, (Help.attach spec program key).metadata.get? Help.usageEntry =
    some ("Usage: " ++ Help.programName program ++
      (if ∃ binding ∈ spec.bindings, binding.helpLine?.isSome then " [OPTION]..." else "") ++
      (if ∃ binding ∈ spec.bindings, binding.remaining then " [ARG]..." else "") ++ "\n")

lemma exists_forms (h : compile keys = .ok spec) (hbinding : binding ∈ spec.bindings)
    {line : String} (hline : binding.helpLine? = some line) :
    ∃ names forms, spec.AreShown binding names ∧
      List.Forall₂ spec.HasForm names forms ∧ line = HelpParts.layout forms binding.help := by
  refine ⟨_, binding.visible.map OptionSpec.form, areShown_visible h hbinding, ?_, ?_⟩
  · rw [optionNames, List.forall₂_map_left_iff, List.forall₂_map_right_iff, List.forall₂_same]
    intro option hoption
    have hmem := (Binding.mem_visible_iff.mp hoption).1
    exact ⟨option, lookupOption_of_mem_bindings h hbinding hmem, rfl⟩
  · rw [Binding.helpLine?_eq_line?, HelpParts.line?, ← Binding.map_form_visible] at hline
    split at hline
    · cases hline
    · exact (Option.some.inj hline).symm

/-- A hidden switch, a key with one entry hidden and one not, and a list of leftover arguments. -/
def hidingKeys : KeySet := .ofList Key.name [
  { name := ⟨.spec, ["debug"], by decide⟩,
    metadata := .ofList Prod.fst [("opt", "d"), ("opt/arg", "none"), ("opt/nohelp", "1")] },
  { name := ⟨.spec, ["detail"], by decide⟩,
    metadata := .ofList Prod.fst [("opt", "#1"), ("opt/#0", "v"), ("opt/#0/long", "verbosity"),
      ("opt/#0/nohelp", "1"), ("opt/#1", "l"), ("opt/#1/arg", "optional"),
      ("opt/#1/long", "detail"), ("opt/help", "How much to say.")] },
  { name := ⟨.spec, ["sources", "#"], by decide⟩,
    metadata := .ofList Prod.fst [("args", "remaining")] }]

/-- Only the entry that is not hidden makes a line. -/
example : Help.optionList (ofKeys (hidingKeys.inSpace .spec)).bindings =
    "OPTIONS\n  -l, --detail=[ARG]          How much to say.\n" := by decide +kernel

end Specification

end DeclaredOptions
