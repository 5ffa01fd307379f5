import DeclaredOptions.Help
import DeclaredOptions.Proofs.Declarations
import Mathlib.Tactic.Common

/-!
# Forms in help texts

The forms that help texts show for a key are collected name by name, while its options are
registered. They are those of all its options that are not hidden (`Key.helpParts_eq`), and so is
the line of its binding (`Binding.helpLine?_eq_line?`).
-/

namespace DeclaredOptions

/-! ### Collecting -/

namespace HelpParts

lemma isSome_line?_iff {parts : HelpParts} {help : String} :
    (parts.line? help).isSome ↔ parts ≠ ⟨[], []⟩ := by
  rw [line?, ne_eq, HelpParts.ext_iff, ← List.append_eq_nil_iff]
  split <;> simp_all

/-- The forms of the options that are not hidden. -/
def ofOptions (options : List OptionSpec) : HelpParts :=
  let shown := options.filter fun option => !option.hidden
  ⟨(shown.filter (·.name.isShort)).map OptionSpec.form,
    (shown.filter fun option => !option.name.isShort).map OptionSpec.form⟩

lemma form_long (settings : OptionSettings) (key : KeyName) (word : String) :
    (settings.option key (.long word)).form = "--" ++ word ++ settings.argumentForm := by
  simp only [OptionSpec.form, OptionSettings.option, OptionSettings.argumentForm,
    OptionName.display]
  cases settings.mode <;> simp [String.append_assoc]

/-- A name adds the form of its option. -/
lemma addName_ofOptions (options : List OptionSpec) (settings : OptionSettings) (key : KeyName)
    (name : OptionName) :
    (ofOptions options).addName settings name
      = ofOptions (options ++ [settings.option key name]) := by
  have hhidden : (settings.option key name).hidden = settings.hidden := rfl
  by_cases h : settings.hidden
  · simp [addName, ofOptions, hhidden, h]
  · have hform := form_long settings key
    cases name with
    | short letter =>
      simp [addName, ofOptions, h, OptionSettings.option, OptionSpec.form, OptionName.display,
        OptionName.isShort]
    | long word => simp_all [addName, ofOptions, OptionSettings.option, OptionName.isShort]

lemma foldl_addName (options : List OptionSpec) (settings : OptionSettings) (key : KeyName)
    (names : List OptionName) : names.foldl (addName settings) (ofOptions options) =
      ofOptions (options ++ names.map (settings.option key)) := by
  induction names generalizing options with
  | nil => simp
  | cons name names ih =>
    rw [List.foldl_cons, addName_ofOptions options settings key, ih, List.map_cons,
      List.append_assoc, List.singleton_append]

end HelpParts

/-- The forms of a key, collected from its entries one after the other. -/
def Key.helpParts (key : Key) : HelpParts :=
  (optionEntries key.metadata).foldl (fun parts entry =>
    (entry.optionNames key.metadata).foldl
      (HelpParts.addName (entry.settings key.metadata)) parts) ⟨[], []⟩

lemma HelpParts.foldl_entries (options : List OptionSpec) (entries : List FieldEntry) (key : Key) :
    entries.foldl (fun parts entry => (entry.optionNames key.metadata).foldl
        (addName (entry.settings key.metadata)) parts) (ofOptions options) =
      ofOptions (options ++ entries.flatMap fun entry => entry.options key) := by
  induction entries generalizing options with
  | nil => simp
  | cons entry entries ih =>
    rw [List.foldl_cons, foldl_addName options _ key.name, ih, List.flatMap_cons,
      List.append_assoc]
    rfl

/-- Collecting entry by entry gives the forms of all options that the key declares. -/
lemma Key.helpParts_eq (key : Key) : key.helpParts = HelpParts.ofOptions key.options :=
  HelpParts.foldl_entries [] _ key

/-! ### Lines of bindings -/

namespace Binding

variable {binding : Binding} {option : OptionSpec}

lemma mem_visible_iff : option ∈ binding.visible ↔ option ∈ binding.options ∧ ¬option.hidden := by
  simp only [visible, List.mem_append, List.mem_filter]
  cases option.name.isShort <;> simp

lemma map_form_visible (binding : Binding) : binding.visible.map OptionSpec.form =
    (HelpParts.ofOptions binding.options).shorts ++ (HelpParts.ofOptions binding.options).longs :=
  List.map_append

lemma helpLine?_eq_line? (binding : Binding) :
    binding.helpLine? = (HelpParts.ofOptions binding.options).line? binding.help := by
  rw [HelpParts.line?, ← map_form_visible, helpLine?]
  simp only [List.map_eq_nil_iff]

lemma isSome_helpLine?_iff :
    binding.helpLine?.isSome ↔ ∃ option ∈ binding.options, ¬option.hidden := by
  have hvisible : binding.helpLine?.isSome ↔ binding.visible ≠ [] := by
    rw [helpLine?]
    split <;> simp_all
  simp only [hvisible, ne_eq, List.eq_nil_iff_forall_not_mem, not_forall_not, mem_visible_iff]

end Binding

end DeclaredOptions
