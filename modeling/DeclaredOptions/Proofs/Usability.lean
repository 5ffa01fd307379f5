import DeclaredOptions.Proofs.LongNames
import DeclaredOptions.Proofs.Offers
import DeclaredOptions.Proofs.ResolvedShape
import DeclaredOptions.Proofs.Variables
import Mathlib.Tactic.Common

/-!
# Sources that can be used

An entry of a command line names a long option by what stands before the first `=`, and so does an
entry of an environment with a variable. Of the options and variables that a specification lists
those can give a value that have no `=` in their name, and no others (`usable_iff`): each of them
does where it is given alone, and a name with `=` in it is never read from an entry
(`isSpellable_of_scan`). Compilation does not look for `=`, so it accepts such names
(`not_usable_pairKeys`).
-/

namespace DeclaredOptions

open Steps OptionLog CommandLine

/-! ### Names and their texts -/

lemma OptionName.toList_display_short (letter : Char) :
    (short letter).display.toList = ['-', letter] := by simp [display]

lemma OptionName.toList_display_long (word : String) :
    (long word).display.toList = '-' :: '-' :: word.toList := by simp [display]

/-- Names that can be written are told apart by their text. -/
lemma OptionName.display_injective {name other : OptionName} (h : name.IsWritable)
    (h' : other.IsWritable) (heq : name.display = other.display) : name = other := by
  have htext := congrArg String.toList heq
  cases name with
  | short letter =>
    cases other with
    | short letter' =>
      rw [toList_display_short, toList_display_short] at htext
      simpa using htext
    | long word =>
      rw [toList_display_short, toList_display_long] at htext
      simp only [List.cons.injEq] at htext
      exact absurd htext.2.1 h
  | long word =>
    cases other with
    | short letter =>
      rw [toList_display_short, toList_display_long] at htext
      simp only [List.cons.injEq] at htext
      exact absurd htext.2.1.symm h'
    | long word' =>
      rw [toList_display_long, toList_display_long] at htext
      simpa [String.toList_inj] using htext

/-- Leftover arguments have no option as their origin. -/
lemma OptionName.display_ne {name : OptionName} (h : name.IsWritable) : name.display ≠ "--" := by
  intro heq
  have htext : name.display.toList = ['-', '-'] := by rw [heq]; rfl
  cases name with
  | short letter =>
    rw [toList_display_short] at htext
    simp only [List.cons.injEq] at htext
    exact absurd htext.2.1 h
  | long word =>
    rw [toList_display_long] at htext
    exact absurd (by simpa using htext) h

/-! ### Giving one option -/

section Giving

variable {options : List OptionSpec} {option : OptionSpec}

/-- A command line of one option gives just this option. -/
lemma exists_parse_of_isSpellable (hnamed : WellNamed options) (hoption : option ∈ options)
    (hspell : option.name.IsSpellable) (posixly : Bool) :
    ∃ argv value, parse options posixly argv = .ok ⟨[⟨option, value⟩], []⟩ := by
  obtain ⟨phrase, value, hgives⟩ := Phrase.exists_gives hoption
  have haccept : acceptAll [] [⟨option, value⟩] = .ok [⟨option, value⟩] :=
    acceptAll_eq_ok_iff.mpr (by simp)
  refine ⟨"" :: (phrase.entries ++ []), value, ?_⟩
  rw [parse, List.tail_cons, scan_entries hnamed hgives.valid (hgives.spellable hspell)
    hgives.positionals, hgives.occurrences, haccept]
  rfl

end Giving

/-! ### The origin of a value -/

namespace Inputs

variable {inputs : Inputs} {binding : Binding} {kind : Kind} {source : Source} {name : OptionName}
  {resolution : Resolution}

lemma gives_of_ofOption (h : inputs.ofOption kind source name = some resolution) :
    inputs.line.log.Gives name ∧ resolution.origin = name.display := by
  have hgives : inputs.line.log.Gives name := by
    by_contra hnot
    rw [ofOption_eq_none hnot] at h
    cases h
  obtain ⟨other, hother, horigin⟩ := exists_ofOption_of_gives hgives kind source
  cases h.symm.trans hother
  exact ⟨hgives, horigin⟩

/-- The origin of a value is an option that was given, a variable that has a value, or `--`. -/
lemma origin_cases (h : inputs.resolve binding = .ok (some resolution)) :
    (∃ option ∈ binding.options, inputs.line.log.Gives option.name ∧
      resolution.origin = option.name.display) ∨
    (∃ name ∈ binding.envVars, inputs.environment.get? name ≠ none ∧ resolution.origin = name) ∨
    resolution.origin = "--" := by
  obtain ⟨source, hmem⟩ := exists_offer_of_resolve h
  cases source with
  | shortOption | longOption =>
    obtain ⟨option, hoption, hoffer⟩ := List.mem_map.mp hmem
    exact Or.inl ⟨option, (List.mem_filter.mp hoption).1, gives_of_ofOption hoffer⟩
  | environment =>
    obtain ⟨name, hname, hoffer⟩ := List.mem_map.mp hmem
    obtain ⟨value, hvalue, rfl⟩ := Option.map_eq_some_iff.mp hoffer
    refine Or.inr (Or.inl ⟨name, hname, by simp [hvalue], ?_⟩)
    cases binding.key.kind <;> rfl
  | positional =>
    rw [offers] at hmem
    split at hmem
    · cases List.mem_singleton.mp hmem
      exact Or.inr (Or.inr rfl)
    · cases hmem

end Inputs

/-! ### Sources of a specification -/

namespace Specification

variable {keys : KeySet} {spec : Specification} {binding : Binding} {posixly : Bool}
  {separator : Char}

/-- Whether some command line makes an option the origin of a value, without any variables. -/
def CanGive (spec : Specification) (posixly : Bool) (separator : Char) (binding : Binding)
    (name : OptionName) : Prop :=
  ∃ argv line resolution, parse spec.options posixly argv = .ok line ∧
    Inputs.resolve ⟨line, ∅, separator⟩ binding = .ok (some resolution) ∧
    resolution.origin = name.display

/-- Whether some environment makes a variable the origin of a value, without any options. -/
def CanSet (spec : Specification) (posixly : Bool) (separator : Char) (binding : Binding)
    (name : String) : Prop :=
  ∃ argv envp line resolution, parse spec.options posixly argv = .ok line ∧ line.log = [] ∧
    Inputs.resolve ⟨line, Environment.ofEntries envp, separator⟩ binding = .ok (some resolution) ∧
    resolution.origin = name

lemma canGive_of_isSpellable (hcompile : compile keys = .ok spec)
    (hbinding : binding ∈ spec.bindings) {option : OptionSpec} (hoption : option ∈ binding.options)
    (hspell : option.name.IsSpellable) : spec.CanGive posixly separator binding option.name := by
  obtain ⟨argv, value, hparse⟩ := exists_parse_of_isSpellable (wellNamed_of_compile hcompile)
    (mem_options_of_mem_bindings hbinding hoption) hspell posixly
  let inputs : Inputs := ⟨⟨[⟨option, value⟩], []⟩, ∅, separator⟩
  have hgives {other : OptionName} : inputs.line.log.Gives other ↔ other = option.name := by
    simp [inputs, Gives, eq_comm]
  obtain ⟨resolution, hoffer, horigin⟩ := Inputs.exists_ofOption_of_gives (hgives.mpr rfl)
    binding.key.kind option.name.source
  have hnodup := nodup_optionNames_of_mem hcompile hbinding
  exact ⟨argv, _, resolution, hparse,
    Inputs.resolve_of_option hnodup hoption (fun _ => hgives.mp) hoffer, horigin⟩

lemma isSpellable_of_canGive (hcompile : compile keys = .ok spec)
    (hbinding : binding ∈ spec.bindings) {option : OptionSpec} (hoption : option ∈ binding.options)
    (h : spec.CanGive posixly separator binding option.name) : option.name.IsSpellable := by
  obtain ⟨argv, line, resolution, hparse, hresolve, horigin⟩ := h
  have hwritable : ∀ option ∈ binding.options, option.name.IsWritable := fun option hoption =>
    (wellNamed_of_compile hcompile).writable option (mem_options_of_mem_bindings hbinding hoption)
  rcases Inputs.origin_cases hresolve with ⟨other, hother, hgives, hdisplay⟩ | ⟨_, _, hvalue, _⟩ |
    hdisplay
  · have hname := OptionName.display_injective (hwritable option hoption) (hwritable other hother)
      (horigin.symm.trans hdisplay)
    obtain ⟨occurrence, hmem, hoccurrence⟩ := hgives
    have hlog : line.log.IsSpellable := isSpellable_of_scan (by simp [IsSpellable]) hparse
    rw [hname, ← hoccurrence]
    exact hlog occurrence hmem
  · exact absurd rfl hvalue
  · exact absurd (horigin.symm.trans hdisplay) (OptionName.display_ne (hwritable option hoption))

lemma canSet_of_not_mem (hcompile : compile keys = .ok spec) (hbinding : binding ∈ spec.bindings)
    {name : String} (hname : name ∈ binding.envVars) (h : '=' ∉ name.toList) :
    spec.CanSet posixly separator binding name := by
  let inputs : Inputs := ⟨⟨[], []⟩, Environment.ofEntries [Environment.entry name ""], separator⟩
  have hget {other : String} :
      inputs.environment.get? other = if other = name then some "" else none :=
    (Environment.get?_ofEntries _ _).trans (Environment.value?_entry h)
  obtain ⟨resolution, hoffer, horigin⟩ : ∃ resolution,
      inputs.ofVariable binding.key.kind name = some resolution ∧ resolution.origin = name := by
    rw [Inputs.ofVariable, hget, if_pos rfl]
    cases binding.key.kind <;> simp
  have hnodup := nodup_envVars_of_mem hcompile hbinding
  have hresolve : inputs.resolve binding = .ok (some resolution) := by
    refine Inputs.resolve_of_variable ?_ hnodup hname ?_ hoffer
    · simp [inputs, Gives]
    · intro other _ hne
      rw [hget, if_neg hne]
  exact ⟨[""], _, _, resolution, rfl, rfl, hresolve, horigin⟩

lemma not_mem_of_canSet {name : String} (h : spec.CanSet posixly separator binding name) :
    '=' ∉ name.toList := by
  intro hmem
  obtain ⟨argv, envp, line, resolution, _, hlog, hresolve, rfl⟩ := h
  rcases Inputs.origin_cases hresolve with ⟨_, _, hgives, _⟩ | ⟨other, _, hvalue, rfl⟩ | horigin
  · simp [hlog, Gives] at hgives
  · exact hvalue ((Environment.get?_ofEntries _ _).trans
      (Environment.value?_eq_none_of_mem envp hmem))
  · simp [horigin] at hmem

/-- Of the options and variables that a binding lists, just those without `=` in their name can give
a value. -/
theorem usable_iff (hcompile : compile keys = .ok spec) (hbinding : binding ∈ spec.bindings)
    (posixly : Bool) (separator : Char) :
    (∀ option ∈ binding.options,
      spec.CanGive posixly separator binding option.name ↔ option.name.IsSpellable) ∧
    ∀ name ∈ binding.envVars, spec.CanSet posixly separator binding name ↔ '=' ∉ name.toList := by
  constructor
  · intro option hoption
    exact ⟨isSpellable_of_canGive hcompile hbinding hoption,
      canGive_of_isSpellable hcompile hbinding hoption⟩
  · intro name hname
    exact ⟨not_mem_of_canSet, canSet_of_not_mem hcompile hbinding hname⟩

theorem usable_sample : compile sampleKeys = .ok sample ∧ levelBinding ∈ sample.bindings ∧
    sample.CanGive false ':' levelBinding (.short 'l') ∧
    sample.CanGive false ':' levelBinding (.long "level") ∧
    sample.CanSet false ':' levelBinding "LEVEL" := by
  have hbinding : levelBinding ∈ sample.bindings := List.mem_of_getElem? (i := 1) rfl
  obtain ⟨hoptions, hvariables⟩ := usable_iff compile_sampleKeys hbinding false ':'
  refine ⟨compile_sampleKeys, hbinding, ?_, ?_, ?_⟩
  · exact (hoptions (levelOption (.short 'l')) (by simp [levelBinding])).mpr
      (OptionName.isSpellable_short 'l')
  · exact (hoptions (levelOption (.long "level")) (by simp [levelBinding])).mpr
      (OptionName.isSpellable_long.mpr (by decide))
  · exact (hvariables "LEVEL" (by simp [levelBinding])).mpr (by decide)

/-! ### Sources that cannot be used -/

/-- A key with a long option and a variable that have `=` in their names. -/
def pairKeys : KeySet := .ofList Key.name [
  { name := ⟨.spec, ["pair"], by decide⟩,
    metadata := .ofList Prod.fst [("opt/long", "a=b"), ("env", "A=B")] }]

/-- The binding that `pairKeys` declare. -/
def pairBinding : Binding where
  key := ⟨.spec, ["pair"], by decide⟩
  options := [{
    name := .long "a=b"
    mode := .required
    flagValue := "1"
    placeholder := "ARG"
    hidden := false
    owner := .key ⟨.spec, ["pair"], by decide⟩ }]
  envVars := ["A=B"]
  remaining := false
  help := ""

/-- Compilation accepts names that nothing can spell. -/
theorem not_usable_pairKeys : ∃ spec, compile pairKeys = .ok spec ∧ pairBinding ∈ spec.bindings ∧
    ∀ posixly separator,
      (∃ option ∈ pairBinding.options, ¬spec.CanGive posixly separator pairBinding option.name) ∧
      ∃ name ∈ pairBinding.envVars, ¬spec.CanSet posixly separator pairBinding name := by
  have hcompile : compile pairKeys = .ok ⟨[pairBinding]⟩ := rfl
  have hbinding : pairBinding ∈ [pairBinding] := List.mem_singleton_self _
  refine ⟨_, hcompile, hbinding, fun posixly separator => ⟨?_, ?_⟩⟩
  · refine ⟨_, List.mem_singleton_self _, fun hgive => ?_⟩
    have hspell := isSpellable_of_canGive hcompile hbinding (List.mem_singleton_self _) hgive
    exact absurd (OptionName.isSpellable_long.mp hspell) (by decide)
  · refine ⟨_, List.mem_singleton_self _, fun hset => ?_⟩
    exact absurd (not_mem_of_canSet hset) (by decide)

end Specification

end DeclaredOptions
