import DeclaredOptions.Proofs.Call
import DeclaredOptions.Proofs.Offers
import DeclaredOptions.Proofs.Phrases
import DeclaredOptions.Proofs.Variables
import Mathlib.Tactic.Common

/-!
# Lists from options and from variables

A list can be given by repeating a long option, or in a variable with separators between the
elements. The command line and the variable are read as the same list (`scan_assigned`,
`values_read`), all other bindings find the same, and runs that find the same values stage the same
keys (`Run.transfer`). So the store is the same either way (`sameStore_of_list`).
-/

namespace DeclaredOptions

open Steps OptionLog CommandLine Staging

/-! ### Reading a list -/

section Reading

variable {options : List OptionSpec} {option : OptionSpec} {word : String} {log : OptionLog}

/-- Options of an array may be given any number of times. -/
lemma accept_of_array (h : option.kind = .array) (value : String) :
    log.accept option value = .ok (log.add option value) := by
  have hignores : ¬log.Ignores option := by simp [Ignores, ShortSupplied, h]
  have hcheck : log.checkRepeat option = .ok () := checkRepeat_eq_ok_iff.mpr (by simp [h])
  rw [accept_of_not_ignores hignores, hcheck, ok_bind]

/-- Entries `--word=value`, one for each value. -/
def assigned (word : String) (values : List String) : List String :=
  values.map fun value => "--" ++ word ++ "=" ++ value

lemma scan_assigned (hnamed : WellNamed options) (hoption : option ∈ options)
    (hname : option.name = .long word) (hword : '=' ∉ word.toList)
    (hmode : option.mode = .required) (hkind : option.kind = .array) (posixly : Bool)
    (values : List String) : scan options posixly log (assigned word values) =
      .ok ⟨log ++ values.map (⟨option, ·⟩), []⟩ := by
  induction values generalizing log with
  | nil => simp [assigned, scan]
  | cons value values ih =>
    have hargument : option.mode.AdmitsLong (some (.inline value)) := by
      simp [ArgumentMode.AdmitsLong, hmode]
    have hentries : assigned word (value :: values) = Argument.entries option.name.display "="
        (some (.inline value)) ++ assigned word values := by
      rw [hname]
      rfl
    rw [hentries, scan_long hnamed hoption hname hword hargument,
      option.occurrence_inline, acceptAll_singleton, accept_of_array hkind, ok_bind, ih]
    simp [add]

end Reading

/-- The elements of a list in a variable are the parts between separators. -/
lemma values_read (separator : Char) (text : String) :
    (ListValue.read separator text).values = Text.split separator text := by
  by_cases hmem : separator ∈ text.toList
  · rw [ListValue.read, if_pos hmem, ListValue.values]
  · have hjoin : Text.join separator [text] = text := by simp [Text.join]
    have hsplit : Text.split separator (Text.join separator [text]) = [text] :=
      Text.split_join (by simp) (by simpa using hmem)
    rw [ListValue.read, if_neg hmem, ListValue.values]
    rwa [hjoin, eq_comm] at hsplit

/-! ### Command lines of one option -/

namespace CommandLine

variable {option : OptionSpec} {values : List String}

/-- What a command line gives that repeats one option. -/
def repeating (option : OptionSpec) (values : List String) : CommandLine :=
  ⟨values.map (⟨option, ·⟩), []⟩

lemma eq_of_gives_repeating {name : OptionName} (h : (repeating option values).log.Gives name) :
    name = option.name := by
  obtain ⟨occurrence, hmem, rfl⟩ := h
  obtain ⟨value, _, rfl⟩ := List.mem_map.mp hmem
  rfl

lemma values_repeating : (repeating option values).log.values option.name = values := by
  simp [repeating, OptionLog.values, List.filter_map, Function.comp_def]

/-- Options of bindings are not those of the built-in help. -/
lemma not_helpRequested_repeating {keys : KeySet} {spec : Specification} {binding : Binding}
    (hcompile : Specification.compile keys = .ok spec) (hbinding : binding ∈ spec.bindings)
    (hoption : option ∈ binding.options) : ¬(repeating option values).HelpRequested := by
  have hne {name : OptionName} (hhelp : OptionSpec.help name ∈ spec.options) :
      ¬(repeating option values).log.Gives name := by
    intro hgives
    have hsame := List.inj_on_of_nodup_map (wellNamed_of_compile hcompile).nodup hhelp
      (Specification.mem_options_of_mem_bindings hbinding hoption) (eq_of_gives_repeating hgives)
    have howner := Specification.owner_of_mem_bindings hcompile hbinding hoption
    rw [← hsame] at howner
    cases howner
  rintro (hgives | hgives)
  · exact hne (by simp [Specification.options, OptionSpec.builtin]) hgives
  · exact hne (by simp [Specification.options, OptionSpec.builtin]) hgives

end CommandLine

/-! ### What bindings find -/

namespace Inputs

variable {binding other : Binding} {option : OptionSpec} {name : String}
  {environment environment' : Environment} {separator : Char} {values : List String}

/-- A binding finds the list that one of its options is given with. -/
lemma resolve_of_repeating (hnodup : (optionNames binding.options).Nodup)
    (hoption : option ∈ binding.options) (harray : binding.key.kind = .array) (hne : values ≠ []) :
    resolve ⟨repeating option values, environment, separator⟩ binding =
      .ok (some ⟨option.name.source, option.name.display, .array values⟩) := by
  refine resolve_of_option hnodup hoption (fun _ => eq_of_gives_repeating) ?_
  obtain ⟨value, values, rfl⟩ := List.exists_cons_of_ne_nil hne
  simp only [ofOption, harray, values_repeating]

/-- A binding finds the list that one of its variables holds. -/
lemma resolve_of_joined (hnodup : binding.envVars.Nodup) (hname : name ∈ binding.envVars)
    (harray : binding.key.kind = .array) (hne : values ≠ [])
    (hfree : ∀ value ∈ values, separator ∉ value.toList)
    (hjoined : environment.get? name = some (Text.join separator values))
    (hothers : ∀ other ∈ binding.envVars, other ≠ name → environment.get? other = none) :
    resolve ⟨⟨[], []⟩, environment, separator⟩ binding =
      .ok (some ⟨.environment, name, .array values⟩) := by
  apply resolve_of_variable
  · simp [Gives]
  · exact hnodup
  · exact hname
  · exact hothers
  · simp only [ofVariable, harray, hjoined, Option.map_some, values_read, Text.split_join hne hfree]

/-- Bindings without the option and with the same variables find the same. -/
lemma resolve_of_not_mem (hoption : option.name ∉ optionNames other.options)
    (henvironment : ∀ name ∈ other.envVars, environment.get? name = environment'.get? name) :
    resolve ⟨repeating option values, environment, separator⟩ other =
      resolve ⟨⟨[], []⟩, environment', separator⟩ other := by
  have hoffers (source : Source) (selects : OptionSpec → Bool) :
      (other.options.filter selects).map (fun option' => ofOption
        ⟨repeating option values, environment, separator⟩ other.key.kind source option'.name) =
      (other.options.filter selects).map (fun option' => ofOption
        ⟨⟨[], []⟩, environment', separator⟩ other.key.kind source option'.name) := by
    apply List.map_congr_left
    intro option' hmem
    rw [ofOption_eq_none, ofOption_eq_none]
    · simp [Gives]
    · intro hgives
      rw [← eq_of_gives_repeating hgives] at hoption
      exact hoption (List.mem_map_of_mem (List.mem_filter.mp hmem).1)
  apply resolve_congr
  · exact hoffers _ _
  · exact fun _ => hoffers _ _
  · apply List.map_congr_left
    intro name hname
    simp only [ofVariable, henvironment name hname]
  · rfl

/-- Whether resolution comes to a value, or to none, without a failure. -/
def Yields (inputs : Inputs) (binding : Binding) (value : Option Value) : Prop :=
  ∃ found, inputs.resolve binding = .ok found ∧ found.map Resolution.value = value

lemma yields_iff {inputs : Inputs} {resolution : Resolution} {value : Option Value}
    (h : inputs.resolve binding = .ok (some resolution)) :
    inputs.Yields binding value ↔ some resolution.value = value := by
  simp [Yields, h]

end Inputs

/-! ### Runs that find the same -/

/-- Where another run comes from does not matter if it finds the same values. -/
lemma Staging.Run.transfer {store staged final : KeySet} {inputs inputs' : Inputs}
    {bindings : List Binding} (h : Run store inputs staged bindings final)
    (hsame : ∀ binding ∈ bindings, ∀ value,
      inputs.Yields binding value → inputs'.Yields binding value) :
    Run store inputs' staged bindings final := by
  induction h with
  | done staged => exact .done staged
  | skip unresolved rest ih =>
    obtain ⟨hfirst, hrest⟩ := List.forall_mem_cons.mp hsame
    obtain ⟨found, hresolve, hvalue⟩ := hfirst none ⟨none, unresolved, rfl⟩
    cases Option.map_eq_none_iff.mp hvalue
    exact .skip hresolve (ih hrest)
  | write resolved unstored unstaged rest ih =>
    obtain ⟨hfirst, hrest⟩ := List.forall_mem_cons.mp hsame
    obtain ⟨found, hresolve, hvalue⟩ := hfirst _ ⟨_, resolved, rfl⟩
    obtain ⟨resolution, rfl, heq⟩ := Option.map_eq_some_iff.mp hvalue
    rw [← heq] at unstored unstaged ih
    exact .write hresolve unstored unstaged (ih hrest)

/-- A long option and a variable of an array, both of which entries can name. -/
structure Binding.TakesList (binding : Binding) (option : OptionSpec) (word name : String) :
    Prop where
  array : binding.key.kind = .array
  listed : option ∈ binding.options
  long : option.name = .long word
  spellable : '=' ∉ word.toList
  required : option.mode = .required
  bound : name ∈ binding.envVars
  named : '=' ∉ name.toList

namespace Session

/-- Both calls resolve with equal keys, or both fail and leave the keys as they were. -/
def SameStore (session : Session) (first second : Except Failure Outcome × Session) : Prop :=
  (first.1 = .ok .resolved ∧ second.1 = .ok .resolved ∧ first.2.keys = second.2.keys) ∨
    (∃ failure failure', first.1 = .error failure ∧ second.1 = .error failure') ∧
      first.2.keys = session.keys ∧ second.2.keys = session.keys

variable {session : Session} {argv argv' envp envp' : List String} {settings : Settings}
  {spec : Specification} {inputs inputs' : Inputs}

/-- Calls with bindings that yield the same leave the same store. -/
lemma sameStore_of_yields (hread : session.read argv envp settings = .ok (spec, inputs))
    (hread' : session.read argv' envp' settings = .ok (spec, inputs'))
    (hhelp : ¬inputs.line.HelpRequested) (hhelp' : ¬inputs'.line.HelpRequested)
    (hsame : ∀ binding ∈ spec.bindings, ∀ value,
      inputs.Yields binding value ↔ inputs'.Yields binding value) :
    session.SameStore (session.resolveWith argv envp settings)
      (session.resolveWith argv' envp' settings) := by
  rw [resolveWith_eq, resolveWith_eq, hread, hread']
  simp only [if_neg hhelp, if_neg hhelp']
  cases hall : resolveAll session.keys inputs ∅ spec.bindings with
  | ok staged =>
    have hrun := (resolveAll_eq_ok_iff.mp hall).transfer fun binding hbinding value =>
      (hsame binding hbinding value).mp
    rw [resolveAll_eq_ok_iff.mpr hrun]
    exact Or.inl ⟨rfl, rfl, rfl⟩
  | error failure =>
    cases hall' : resolveAll session.keys inputs' ∅ spec.bindings with
    | error failure' => exact Or.inr ⟨⟨failure, failure', rfl, rfl⟩, rfl, rfl⟩
    | ok staged =>
      have hrun := (resolveAll_eq_ok_iff.mp hall').transfer fun binding hbinding value =>
        (hsame binding hbinding value).mpr
      cases hall.symm.trans (resolveAll_eq_ok_iff.mpr hrun)

section Lists

variable {binding : Binding} {option : OptionSpec} {word name : String} {values : List String}
  {before after : List String}

/-- The command line gives to each binding what the variable gives to it. -/
lemma yields_repeating_iff (hcompile : Specification.compile session.keys = .ok spec)
    (hbinding : binding ∈ spec.bindings) (h : binding.TakesList option word name)
    {separator : Char} (hne : values ≠ []) (hfree : ∀ value ∈ values, separator ∉ value.toList)
    (henvp : ∀ other ∈ binding.envVars, Environment.value? (before ++ after) other = none)
    {other : Binding} (hother : other ∈ spec.bindings) (value : Option Value) :
    Inputs.Yields ⟨repeating option values, .ofEntries (before ++ after), separator⟩ other
        value ↔
      Inputs.Yields ⟨⟨[], []⟩, .ofEntries (before ++
        Environment.entry name (Text.join separator values) :: after), separator⟩ other value := by
  by_cases hsame : other = binding
  · subst hsame
    have hgiven : Inputs.resolve
        ⟨repeating option values, .ofEntries (before ++ after), separator⟩ other =
          .ok (some ⟨option.name.source, option.name.display, .array values⟩) :=
      Inputs.resolve_of_repeating (Specification.nodup_optionNames_of_mem hcompile hother)
        h.listed h.array hne
    have hset : Inputs.resolve ⟨⟨[], []⟩, .ofEntries (before ++
        Environment.entry name (Text.join separator values) :: after), separator⟩ other =
          .ok (some ⟨.environment, name, .array values⟩) := by
      apply Inputs.resolve_of_joined (Specification.nodup_envVars_of_mem hcompile hother) h.bound
        h.array hne hfree (Environment.get?_ofEntries_insert h.named (henvp name h.bound))
      intro bound hbound hdiffers
      rw [Environment.get?_ofEntries_insert_of_ne h.named hdiffers, Environment.get?_ofEntries,
        henvp bound hbound]
    rw [Inputs.yields_iff hgiven, Inputs.yields_iff hset]
  · rw [Inputs.Yields, Inputs.Yields, Inputs.resolve_of_not_mem]
    · intro hlisted
      exact hsame (Specification.eq_of_mem_optionNames hcompile hother hbinding hlisted
        (List.mem_map_of_mem h.listed))
    · intro bound hbound
      refine (Environment.get?_ofEntries_insert_of_ne h.named ?_).symm
      rintro rfl
      exact hsame (Specification.eq_of_mem_envVars hcompile hother hbinding hbound h.bound)

/-- A list gives the same store, whether a long option is repeated with its elements or a variable
holds them with separators in between. -/
theorem sameStore_of_list (hcompile : Specification.compile session.keys = .ok spec)
    (hbinding : binding ∈ spec.bindings) (h : binding.TakesList option word name)
    (hne : values ≠ []) (hfree : ∀ value ∈ values, settings.separator ∉ value.toList)
    (henvp : ∀ other ∈ binding.envVars, Environment.value? (before ++ after) other = none)
    (program : String) :
    session.SameStore
      (session.resolveWith (program :: assigned word values) (before ++ after) settings)
      (session.resolveWith [program]
        (before ++ Environment.entry name (Text.join settings.separator values) :: after)
        settings) := by
  have hkind : option.kind = .array := by
    rw [OptionSpec.kind_of_owner (Specification.owner_of_mem_bindings hcompile hbinding h.listed),
      h.array]
  have hread : session.read (program :: assigned word values) (before ++ after) settings =
      .ok (spec, ⟨repeating option values, .ofEntries (before ++ after),
        settings.separator⟩) := by
    refine read_eq_ok_iff.mpr ⟨hcompile, _, ?_, rfl⟩
    exact scan_assigned (wellNamed_of_compile hcompile)
      (Specification.mem_options_of_mem_bindings hbinding h.listed) h.long h.spellable h.required
      hkind _ _
  have hread' (envp : List String) : session.read [program] envp settings =
      .ok (spec, ⟨⟨[], []⟩, .ofEntries envp, settings.separator⟩) :=
    read_eq_ok_iff.mpr ⟨hcompile, _, rfl, rfl⟩
  apply sameStore_of_yields hread (hread' _)
  · exact not_helpRequested_repeating hcompile hbinding h.listed
  · simp [HelpRequested, Gives]
  · intro other hother value
    exact yields_repeating_iff hcompile hbinding h hne hfree henvp hother value

/-- A key set that declares a list of paths. -/
def pathsSession : Session where
  keys := .ofList Key.name [
    { name := ⟨.spec, ["paths", "#"], by decide⟩,
      metadata := .ofList Prod.fst [("opt/long", "path"), ("env", "PATHS")] }]
  errorKey := { name := .root .cascading }

/-- The long option for a path. -/
def pathOption : OptionSpec where
  name := .long "path"
  mode := .required
  flagValue := "1"
  placeholder := "ARG"
  hidden := false
  owner := .key ⟨.spec, ["paths", "#"], by decide⟩

/-- The binding of the list of paths. -/
def pathsBinding : Binding where
  key := ⟨.spec, ["paths", "#"], by decide⟩
  options := [pathOption]
  envVars := ["PATHS"]
  remaining := false
  help := ""

theorem sameStore_pathsSession :
    Specification.compile pathsSession.keys = .ok ⟨[pathsBinding]⟩ ∧
    pathsBinding.TakesList pathOption "path" "PATHS" ∧
    pathsSession.SameStore
      (pathsSession.resolveWith ["prog", "--path=a", "--path=", "--path=c"] ["LANG=C"] {})
      (pathsSession.resolveWith ["prog"] ["LANG=C", "PATHS=a::c"] {}) := by
  have hcompile : Specification.compile pathsSession.keys = .ok ⟨[pathsBinding]⟩ := rfl
  have htakes : pathsBinding.TakesList pathOption "path" "PATHS" :=
    ⟨rfl, by simp [pathsBinding], rfl, by decide, rfl, by simp [pathsBinding], by decide⟩
  have hne : ["a", "", "c"] ≠ [] := List.cons_ne_nil _ _
  have hfree : ∀ value ∈ ["a", "", "c"], Settings.separator {} ∉ value.toList := by decide
  have henvp : ∀ other ∈ pathsBinding.envVars,
      Environment.value? (["LANG=C"] ++ []) other = none := by decide
  have hsame := sameStore_of_list hcompile (List.mem_singleton_self _) htakes hne hfree henvp "prog"
  have hassigned : assigned "path" ["a", "", "c"] = ["--path=a", "--path=", "--path=c"] := by
    decide
  have hentry : Environment.entry "PATHS" (Text.join ':' ["a", "", "c"]) = "PATHS=a::c" := by
    decide
  rw [hassigned, hentry] at hsame
  exact ⟨hcompile, htakes, hsame⟩

end Lists

end Session

end DeclaredOptions
