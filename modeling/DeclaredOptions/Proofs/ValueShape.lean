import DeclaredOptions.Proofs.LogInvariants
import DeclaredOptions.Proofs.ListSources
import DeclaredOptions.Proofs.Usability
import Mathlib.Tactic.Common

/-!
# The shape of a resolved value

A value has the shape that its binding asks for (`hasShape_of_resolve`). An option of a
single-valued key is recorded at most once (`isRegular_of_parse`), so a scalar is all that was
recorded, or all that a variable holds. A list is empty only where arguments are collected and none
is left over; then the parent of the list receives `#`.
-/

namespace DeclaredOptions

open Steps OptionLog CommandLine Staging

/-! ### Logs of a command line -/

/-- The options of a log are among `options`, and none of a single-valued key stands there twice. -/
structure OptionLog.IsRegular (options : List OptionSpec) (log : OptionLog) : Prop where
  listed : ∀ occurrence ∈ log, occurrence.option ∈ options
  noneTwice : log.NoneTwice

section Logs

variable {options : List OptionSpec} {posixly : Bool} {log : OptionLog} {option : OptionSpec}

lemma OptionLog.NoneTwice.add (h : log.NoneTwice) (hcheck : log.checkRepeat option = .ok ())
    (value : String) : (log.add option value).NoneTwice := by
  refine List.pairwise_append.mpr ⟨h, List.pairwise_singleton _ _, ?_⟩
  intro earlier hearlier later hlater hkind
  rw [List.mem_singleton] at hlater
  subst hlater
  exact checkRepeat_eq_ok_iff.mp hcheck hkind earlier hearlier

lemma invariant_isRegular (options : List OptionSpec) :
    Invariant options (IsRegular options) (· ∈ options) where
  long _ hlookup := (lookupOption_eq_ok hlookup).1
  short hlookup := (lookupOption_eq_ok hlookup).1
  add value hlog hoption hcheck :=
    ⟨List.forall_mem_append.mpr ⟨hlog.listed, List.forall_mem_singleton.mpr hoption⟩,
      hlog.noneTwice.add hcheck value⟩

lemma isRegular_of_parse {argv : List String} {line : CommandLine}
    (h : parse options posixly argv = .ok line) : line.log.IsRegular options :=
  (invariant_isRegular options).scan ⟨by simp, .nil⟩ h

/-- An option of a single-valued key has at most one value. -/
lemma OptionLog.IsRegular.eq_nil_of_values (h : log.IsRegular options)
    (hnodup : (optionNames options).Nodup) (hoption : option ∈ options)
    (hkind : option.kind = .single) {value : String} {values : List String}
    (hvalues : log.values option.name = value :: values) : values = [] := by
  unfold OptionLog.values at hvalues
  cases hfilter : log.filter fun occurrence => occurrence.option.name = option.name with
  | nil => simp [hfilter] at hvalues
  | cons first rest =>
    cases rest with
    | nil =>
      rw [hfilter] at hvalues
      exact (List.cons.inj hvalues).2.symm
    | cons second rest =>
      -- two occurrences under one name are of one option, which may not be repeated
      have hmem {occurrence : Occurrence} (hmem : occurrence ∈ first :: second :: rest) :
          occurrence.option = option := by
        rw [← hfilter, List.mem_filter] at hmem
        exact List.inj_on_of_nodup_map hnodup (h.listed _ hmem.1) hoption (by simpa using hmem.2)
      have hpairwise := h.noneTwice.filter fun occurrence => occurrence.option.name = option.name
      rw [hfilter, List.pairwise_cons] at hpairwise
      have hfirst := hmem (List.mem_cons_self)
      have hsecond := hmem (List.mem_cons_of_mem _ List.mem_cons_self)
      have hne := hpairwise.1 second List.mem_cons_self
      rw [hfirst, hsecond] at hne
      exact absurd rfl (hne hkind)

end Logs

/-! ### What supplies a value -/

namespace Inputs

/-- The values that the sources of a binding have for a key of its kind. -/
inductive Supplies (inputs : Inputs) (binding : Binding) : Resolution → Prop
  | option {option : OptionSpec} {text : String} (hoption : option ∈ binding.options)
      (hkind : binding.key.kind = .single)
      (hvalues : inputs.line.log.values option.name = [text]) :
      Supplies inputs binding ⟨option.name.source, option.name.display, .scalar text⟩
  | options {option : OptionSpec} (hoption : option ∈ binding.options)
      (hkind : binding.key.kind = .array) (hne : inputs.line.log.values option.name ≠ []) :
      Supplies inputs binding
        ⟨option.name.source, option.name.display, .array (inputs.line.log.values option.name)⟩
  | envVar {name text : String} (hname : name ∈ binding.envVars)
      (hkind : binding.key.kind = .single) (hvalue : inputs.environment.get? name = some text) :
      Supplies inputs binding ⟨.environment, name, .scalar text⟩
  | envList {name text : String} (hname : name ∈ binding.envVars)
      (hkind : binding.key.kind = .array) (hvalue : inputs.environment.get? name = some text) :
      Supplies inputs binding ⟨.environment, name, .array (Text.split inputs.separator text)⟩
  | leftover (hremaining : binding.remaining) (hkind : binding.key.kind = .array) :
      Supplies inputs binding ⟨.positional, "--", .array inputs.line.positionals⟩

variable {inputs : Inputs} {binding : Binding} {resolution : Resolution}

/-- What an option gives is all that was recorded under its name. -/
lemma supplies_of_ofOption {option : OptionSpec} (hoption : option ∈ binding.options)
    (honce : binding.key.kind = .single → ∀ value values,
      inputs.line.log.values option.name = value :: values → values = [])
    (h : inputs.ofOption binding.key.kind option.name.source option.name = some resolution) :
    inputs.Supplies binding resolution := by
  unfold ofOption at h
  split at h
  · cases h
  · rename_i value values hkind hvalues
    cases h
    rw [honce hkind value values hvalues] at hvalues
    exact .option hoption hkind hvalues
  · rename_i hkind hne
    cases h
    exact .options hoption hkind hne

lemma supplies_of_ofVariable {name : String} (hname : name ∈ binding.envVars)
    (h : inputs.ofVariable binding.key.kind name = some resolution) :
    inputs.Supplies binding resolution := by
  obtain ⟨text, hvalue, rfl⟩ := Option.map_eq_some_iff.mp h
  cases hkind : binding.key.kind with
  | single => exact .envVar hname hkind hvalue
  | array =>
    simp only [values_read]
    exact .envList hname hkind hvalue

lemma supplies_of_resolve
    (honce : binding.key.kind = .single → ∀ option ∈ binding.options, ∀ value values,
      inputs.line.log.values option.name = value :: values → values = [])
    (hremaining : binding.remaining → binding.key.kind = .array)
    (h : inputs.resolve binding = .ok (some resolution)) : inputs.Supplies binding resolution := by
  obtain ⟨source, hmem⟩ := exists_offer_of_resolve h
  cases source with
  | shortOption =>
    obtain ⟨option, hoption, hoffer⟩ := List.mem_map.mp hmem
    obtain ⟨hoption, hshort⟩ := List.mem_filter.mp hoption
    have hsource : option.name.source = .shortOption := if_pos hshort
    rw [← hsource] at hoffer
    exact supplies_of_ofOption hoption (fun hkind => honce hkind option hoption) hoffer
  | longOption =>
    obtain ⟨option, hoption, hoffer⟩ := List.mem_map.mp hmem
    obtain ⟨hoption, hlong⟩ := List.mem_filter.mp hoption
    have hsource : option.name.source = .longOption := if_neg (by simpa using hlong)
    rw [← hsource] at hoffer
    exact supplies_of_ofOption hoption (fun hkind => honce hkind option hoption) hoffer
  | environment =>
    obtain ⟨name, hname, hoffer⟩ := List.mem_map.mp hmem
    exact supplies_of_ofVariable hname hoffer
  | positional =>
    rw [offers] at hmem
    split at hmem
    · rename_i hcollects
      cases List.mem_singleton.mp hmem
      exact .leftover hcollects (hremaining hcollects)
    · cases hmem

/-- Just leftover arguments can make an empty list. -/
lemma Supplies.ne_nil (h : inputs.Supplies binding resolution) {texts : List String}
    (hvalue : resolution.value = .array texts) (hsource : resolution.source ≠ .positional) :
    texts ≠ [] := by
  cases h with
  | option _ _ _ | envVar _ _ _ => cases hvalue
  | options _ _ hne =>
    cases hvalue
    exact hne
  | envList _ _ _ =>
    cases hvalue
    exact Text.split_ne_nil _ _
  | leftover _ _ => exact absurd rfl hsource

lemma Supplies.eq_positionals (h : inputs.Supplies binding resolution) {texts : List String}
    (hvalue : resolution.value = .array texts) (hsource : resolution.source = .positional) :
    texts = inputs.line.positionals := by
  cases h with
  | option _ _ _ | envVar _ _ _ => cases hvalue
  | @options option _ _ _ =>
    rw [OptionName.source] at hsource
    split at hsource <;> cases hsource
  | envList _ _ _ => cases hsource
  | leftover _ _ =>
    cases hvalue
    rfl

/-- A list is empty just where no argument is left over for it. -/
lemma Supplies.eq_nil_iff (h : inputs.Supplies binding resolution) {texts : List String}
    (hvalue : resolution.value = .array texts) :
    texts = [] ↔ resolution.source = .positional ∧ inputs.line.positionals = [] := by
  constructor
  · intro hnil
    have hsource : resolution.source = .positional := by
      by_contra hsource
      exact h.ne_nil hvalue hsource hnil
    exact ⟨hsource, (h.eq_positionals hvalue hsource).symm.trans hnil⟩
  · rintro ⟨hsource, hnil⟩
    exact (h.eq_positionals hvalue hsource).trans hnil

end Inputs

/-! ### What the parent of a list receives -/

namespace Staging

lemma lastName_eq_wildcard_iff {count : Nat} : lastName count = KeyName.wildcard ↔ count = 0 := by
  rw [lastName]
  split
  · simp [*]
  · rename_i hne
    have hlt := Index.wildcard_lt_name (count - 1)
    have hne' : Index.name (count - 1) ≠ KeyName.wildcard := by
      intro heq
      rw [heq] at hlt
      simp at hlt
    simp [hne, hne']

lemma find?_of_write_array {store staged next : KeySet} {binding : Binding} {parent : KeyName}
    {origin : String} {texts : List String}
    (hparent : target binding = parent.child KeyName.wildcard)
    (h : write store staged binding origin (.array texts) = .ok next) :
    next.find? parent = some { name := parent, value := lastName texts.length } := by
  obtain ⟨_, _, rfl⟩ := write_eq_ok_iff.mp h
  rw [SortedBy.find?_insertAll, keysOf, arrayName_eq hparent, SortedBy.latest?_append]
  simp [SortedBy.latest?]

end Staging

/-! ### Resolved values -/

/-- A value of the shape that its binding asks for, and what comes of it. -/
structure Inputs.HasShape (inputs : Inputs) (binding : Binding) (resolution : Resolution) :
    Prop where
  array : (∃ texts, resolution.value = .array texts) ↔ binding.key.baseName = "#"
  scalar : (∃ text, resolution.value = .scalar text) ↔ binding.key.baseName ≠ "#"
  recorded : ∀ text, resolution.value = .scalar text →
    (∃ option ∈ binding.options, resolution.source = option.name.source ∧
      resolution.origin = option.name.display ∧
      inputs.line.log.values option.name = [text]) ∨
    ∃ name ∈ binding.envVars, resolution.source = .environment ∧ resolution.origin = name ∧
      inputs.environment.get? name = some text
  nonEmpty : ∀ texts, resolution.value = .array texts → resolution.source ≠ .positional →
    texts ≠ []
  written : ∀ texts, resolution.value = .array texts →
    ∃ parent, (target binding).parent? = some parent ∧
      ∀ store staged origin next,
        write store staged binding origin resolution.value = .ok next →
          ∃ key, next.find? parent = some key ∧
            (key.value = "#" ↔ resolution.source = .positional ∧ inputs.line.positionals = [])

namespace Specification

variable {keys : KeySet} {spec : Specification} {binding : Binding} {posixly : Bool}
  {argv : List String} {line : CommandLine} {environment : Environment} {separator : Char}
  {resolution : Resolution}

/-- An option of a binding that takes one value has at most one. -/
lemma eq_nil_of_values (hcompile : compile keys = .ok spec) (hbinding : binding ∈ spec.bindings)
    (hparse : parse spec.options posixly argv = .ok line) (hkind : binding.key.kind = .single)
    {option : OptionSpec} (hoption : option ∈ binding.options) {value : String}
    {values : List String} (hvalues : line.log.values option.name = value :: values) :
    values = [] := by
  have hsingle : option.kind = .single := by
    rw [OptionSpec.kind_of_owner (owner_of_mem_bindings hcompile hbinding hoption), hkind]
  exact (isRegular_of_parse hparse).eq_nil_of_values (wellNamed_of_compile hcompile).nodup
    (mem_options_of_mem_bindings hbinding hoption) hsingle hvalues

lemma supplies_of_compile (hcompile : compile keys = .ok spec) (hbinding : binding ∈ spec.bindings)
    (hparse : parse spec.options posixly argv = .ok line)
    (h : Inputs.resolve ⟨line, environment, separator⟩ binding = .ok (some resolution)) :
    Inputs.Supplies ⟨line, environment, separator⟩ binding resolution := by
  refine Inputs.supplies_of_resolve ?_ (kind_of_remaining hcompile hbinding) h
  intro hkind option hoption value values
  exact eq_nil_of_values hcompile hbinding hparse hkind hoption

/-- Whatever command line and environment it comes from, a value has the shape of its binding. -/
theorem hasShape_of_resolve (hcompile : compile keys = .ok spec)
    (hbinding : binding ∈ spec.bindings) (hparse : parse spec.options posixly argv = .ok line)
    (h : Inputs.resolve ⟨line, environment, separator⟩ binding = .ok (some resolution)) :
    Inputs.HasShape ⟨line, environment, separator⟩ binding resolution := by
  have hsupplies := supplies_of_compile hcompile hbinding hparse h
  have hkind : resolution.value.kind = binding.key.kind :=
    Inputs.kind_of_resolve (kind_of_remaining hcompile hbinding) h
  have harray : (∃ texts, resolution.value = .array texts) ↔ binding.key.baseName = "#" := by
    have hwildcard : binding.key.kind = .array ↔ binding.key.baseName = "#" :=
      KeyName.kind_eq_array_iff
    rw [← hwildcard, ← hkind]
    cases resolution.value <;> simp [Value.kind]
  constructor
  case array => exact harray
  case scalar =>
    rw [ne_eq, ← harray]
    cases resolution.value <;> simp
  case recorded =>
    intro text hvalue
    cases hsupplies with
    | option hoption _ hvalues =>
      cases hvalue
      exact Or.inl ⟨_, hoption, rfl, rfl, hvalues⟩
    | envVar hname _ hget =>
      cases hvalue
      exact Or.inr ⟨_, hname, rfl, rfl, hget⟩
    | options _ _ _ | envList _ _ _ | leftover _ _ => cases hvalue
  case nonEmpty => exact fun texts => hsupplies.ne_nil
  case written =>
    intro texts hvalue
    rw [hvalue] at hkind
    obtain ⟨parent, hparent⟩ := exists_parent hkind.symm
    refine ⟨parent, ?_, ?_⟩
    · rw [hparent, KeyName.parent?_child parent KeyName.isSegment_wildcard]
    · intro store staged origin next hwrite
      rw [hvalue] at hwrite
      refine ⟨_, find?_of_write_array hparent hwrite, ?_⟩
      show lastName texts.length = KeyName.wildcard ↔ _
      rw [lastName_eq_wildcard_iff, List.length_eq_zero_iff, hsupplies.eq_nil_iff hvalue]

theorem hasShape_sample :
    let inputs : Inputs := ⟨⟨[⟨levelOption (.long "level"), ""⟩], []⟩, .ofEntries ["LEVEL=3"], ':'⟩
    let level : Resolution := ⟨.longOption, "--level", .scalar ""⟩
    let files : Resolution := ⟨.positional, "--", .array []⟩
    compile sampleKeys = .ok sample ∧ levelBinding ∈ sample.bindings ∧
      filesBinding ∈ sample.bindings ∧
      parse sample.options true ["prog", "--level=", "--"] = .ok inputs.line ∧
      inputs.resolve levelBinding = .ok (some level) ∧ inputs.HasShape levelBinding level ∧
      inputs.resolve filesBinding = .ok (some files) ∧ inputs.HasShape filesBinding files := by
  intro inputs level files
  have hlevel : levelBinding ∈ sample.bindings := List.mem_of_getElem? (i := 1) rfl
  have hfiles : filesBinding ∈ sample.bindings := List.mem_of_getElem? (i := 0) rfl
  have hparse : parse sample.options true ["prog", "--level=", "--"] = .ok inputs.line := rfl
  have hresolve : inputs.resolve levelBinding = .ok (some level) := rfl
  have hresolve' : inputs.resolve filesBinding = .ok (some files) := rfl
  exact ⟨compile_sampleKeys, hlevel, hfiles, hparse,
    hresolve, hasShape_of_resolve compile_sampleKeys hlevel hparse hresolve,
    hresolve', hasShape_of_resolve compile_sampleKeys hfiles hparse hresolve'⟩

end Specification

end DeclaredOptions
