import DeclaredOptions.Proofs.ValueShape
import Mathlib.Tactic.Common

/-!
# The deciding source

The first source that holds anything for a binding decides alone (`isDecided_of_compile`). If it
holds one thing, this is the value, with all its texts; if it holds more, the second conflicts with
the first. A value is thus a function of what the sources hold (`given_eq_map_holdings`), and what
the sources after the deciding one hold does not enter into it.
-/

namespace DeclaredOptions

open Steps OptionLog CommandLine

/-! ### The order of sources -/

/-- The sources that win over a source: short options win over long ones, these over variables, and
variables over leftover arguments. -/
def Source.above : Source → List Source
  | .shortOption => []
  | .longOption => [.shortOption]
  | .environment => [.shortOption, .longOption]
  | .positional => [.shortOption, .longOption, .environment]

/-- Resolution goes through the sources in this order. -/
lemma Source.exists_precedence_eq (source : Source) :
    ∃ after, precedence = source.above ++ source :: after := by
  cases source <;> exact ⟨_, rfl⟩

/-! ### What sources hold -/

/-- The texts of a value, in order. -/
def Value.texts : Value → List String
  | .scalar text => [text]
  | .array texts => texts

/-- What a source holds for a binding in one place, with all its texts. -/
structure Holding where
  /-- The option, the variable, or `--` for leftover arguments. -/
  origin : String
  texts : List String
  deriving DecidableEq, Repr

/-- The resolution that a holding makes. Of several texts a single-valued key takes the first. -/
def Holding.resolution (kind : Kind) (source : Source) (holding : Holding) : Resolution :=
  ⟨source, holding.origin, match kind with
    | .single => .scalar (holding.texts.headD "")
    | .array => .array holding.texts⟩

namespace Inputs

variable {inputs inputs' : Inputs} {binding : Binding} {kind : Kind} {source : Source}
  {before after : List Source}

/-- The recorded ones of some options, with all values recorded for each. -/
def recorded (inputs : Inputs) (options : List OptionSpec) : List Holding :=
  ((optionNames options).filter fun name => inputs.line.log.Gives name).map fun name =>
    ⟨name.display, inputs.line.log.values name⟩

/-- The present ones of some variables. A list is divided into its elements. -/
def present (inputs : Inputs) (kind : Kind) (names : List String) : List Holding :=
  names.filterMap fun name => (inputs.environment.get? name).map fun text =>
    ⟨name, match kind with
      | .single => [text]
      | .array => Text.split inputs.separator text⟩

/-- What a source holds for a binding, in the order of declaration. -/
def holdings (inputs : Inputs) (binding : Binding) : Source → List Holding
  | .shortOption => inputs.recorded (binding.options.filter (·.name.isShort))
  | .longOption => inputs.recorded (binding.options.filter fun option => !option.name.isShort)
  | .environment => inputs.present binding.key.kind binding.envVars
  | .positional => if binding.remaining then [⟨"--", inputs.line.positionals⟩] else []

/-! ### Offers of what is held -/

lemma values_ne_nil_iff {log : OptionLog} {name : OptionName} :
    log.values name ≠ [] ↔ log.Gives name := by
  simp [OptionLog.values, Gives]

lemma ofOption_of_gives {name : OptionName} (h : inputs.line.log.Gives name) :
    inputs.ofOption kind source name =
      some (Holding.resolution kind source ⟨name.display, inputs.line.log.values name⟩) := by
  obtain ⟨value, values, hvalues⟩ := List.exists_cons_of_ne_nil (values_ne_nil_iff.mpr h)
  cases kind <;> simp [ofOption, Holding.resolution, hvalues]

lemma reduceOption_map_ofOption_eq (options : List OptionSpec) :
    (options.map fun option => inputs.ofOption kind source option.name).reduceOption =
      (inputs.recorded options).map (Holding.resolution kind source) := by
  induction options with
  | nil => rfl
  | cons option options ih =>
    by_cases hgives : inputs.line.log.Gives option.name
    · rw [List.map_cons, ofOption_of_gives hgives, List.reduceOption_cons_of_some, ih]
      simp [recorded, hgives]
    · rw [List.map_cons, ofOption_eq_none hgives, List.reduceOption_cons_of_none, ih]
      simp [recorded, hgives]

lemma reduceOption_map_ofVariable_eq (names : List String) :
    (names.map (inputs.ofVariable kind)).reduceOption =
      (inputs.present kind names).map (Holding.resolution kind .environment) := by
  rw [List.reduceOption, List.filterMap_map, present, List.map_filterMap]
  apply List.filterMap_congr
  intro name _
  cases hvalue : inputs.environment.get? name with
  | none => simp [ofVariable, hvalue]
  | some text => cases kind <;> simp [ofVariable, hvalue, Holding.resolution, values_read]

/-- What a source gives is made from what it holds. -/
lemma given_eq_map_holdings (inputs : Inputs)
    (hremaining : binding.remaining → binding.key.kind = .array) (source : Source) :
    inputs.given binding source =
      (inputs.holdings binding source).map (Holding.resolution binding.key.kind source) := by
  cases source with
  | shortOption | longOption => exact reduceOption_map_ofOption_eq _
  | environment => exact reduceOption_map_ofVariable_eq _
  | positional =>
    rw [given, offers, holdings]
    split
    · rename_i hcollects
      rw [hremaining hcollects]
      rfl
    · rfl

/-! ### Going down the sources -/

lemma resolveFrom_of_conflict {sources : List Source} {first second : Resolution}
    {rest : List Resolution} (h : inputs.given binding source = first :: second :: rest) :
    inputs.resolveFrom binding (source :: sources) =
      .error (.illegalUse second.origin
        (.conflictingSource first.origin binding.key.display)) := by
  have hchoose : choose binding.key none (inputs.offers binding source) =
      .error (.illegalUse second.origin
        (.conflictingSource first.origin binding.key.display)) := by
    rw [choose_none,
      show (inputs.offers binding source).reduceOption = first :: second :: rest from h]
  rw [resolveFrom, hchoose]
  rfl

/-- Sources that give nothing are passed over. -/
lemma resolveFrom_append (h : ∀ source ∈ before, inputs.given binding source = []) :
    inputs.resolveFrom binding (before ++ after) = inputs.resolveFrom binding after := by
  induction before with
  | nil => rfl
  | cons source before ih =>
    obtain ⟨hsource, hbefore⟩ := List.forall_mem_cons.mp h
    rw [List.cons_append, resolveFrom_of_nil hsource, ih hbefore]

/-- From the deciding source on, only what this source gives matters. -/
lemma resolveFrom_congr (hne : inputs.given binding source ≠ [])
    (hsame : inputs'.given binding source = inputs.given binding source) :
    inputs'.resolveFrom binding (source :: after)
      = inputs.resolveFrom binding (source :: after) := by
  match hgiven : inputs.given binding source with
  | [] => exact absurd hgiven hne
  | [only] =>
    rw [resolveFrom_of_singleton hgiven, resolveFrom_of_singleton (hsame.trans hgiven)]
  | first :: second :: rest =>
    rw [resolveFrom_of_conflict hgiven, resolveFrom_of_conflict (hsame.trans hgiven)]

/-! ### Decisions -/

/-- How the holdings of a source decide about a binding. -/
inductive Decides (binding : Binding) (source : Source) :
    List Holding → Except Failure (Option Resolution) → Prop
  | value {holding : Holding} {value : Value} (hkind : value.kind = binding.key.kind)
      (htexts : value.texts = holding.texts) :
      Decides binding source [holding] (.ok (some ⟨source, holding.origin, value⟩))
  | conflict (first second : Holding) (rest : List Holding) :
      Decides binding source (first :: second :: rest) (.error (.illegalUse second.origin
        (.conflictingSource first.origin binding.key.display)))

/-- The first source that holds anything for a binding. -/
structure IsFirst (inputs : Inputs) (binding : Binding) (source : Source) : Prop where
  empty : ∀ higher ∈ source.above, inputs.holdings binding higher = []
  holds : inputs.holdings binding source ≠ []

/-- How resolution comes out of what the sources hold for a binding: the first that holds anything
decides, else leftover arguments are collected, and what lower sources hold may be anything. -/
structure IsDecided (inputs : Inputs) (binding : Binding) : Prop where
  decides : ∀ source, inputs.IsFirst binding source →
    Decides binding source (inputs.holdings binding source) (inputs.resolve binding)
  leftover : (∀ source, source ≠ .positional → inputs.holdings binding source = []) →
    inputs.resolve binding = .ok (if binding.remaining then
      some ⟨.positional, "--", .array inputs.line.positionals⟩ else none)
  independent : ∀ source, inputs.IsFirst binding source →
    ∀ inputs' : Inputs, (∀ other ∈ source.above ++ [source],
      inputs'.holdings binding other = inputs.holdings binding other) →
        inputs'.resolve binding = inputs.resolve binding

/-- A source decides where a single-valued key has one text for each place. -/
lemma decides_resolveFrom (hremaining : binding.remaining → binding.key.kind = .array)
    (hsingle : binding.key.kind = .single →
      ∀ holding ∈ inputs.holdings binding source, ∃ text, holding.texts = [text])
    (hne : inputs.holdings binding source ≠ []) :
    Decides binding source (inputs.holdings binding source)
      (inputs.resolveFrom binding (source :: after)) := by
  have hgiven := inputs.given_eq_map_holdings hremaining source
  generalize inputs.holdings binding source = holdings at *
  match holdings with
  | [] => exact absurd rfl hne
  | [only] =>
    rw [resolveFrom_of_singleton hgiven]
    apply Decides.value
    · cases binding.key.kind <;> rfl
    · cases hkind : binding.key.kind with
      | array => rfl
      | single =>
        obtain ⟨text, htext⟩ := hsingle hkind only List.mem_cons_self
        simp [Value.texts, htext]
  | first :: second :: rest =>
    rw [resolveFrom_of_conflict hgiven]
    exact .conflict first second rest

/-- What is recorded for a single-valued key is one text for each option. -/
lemma exists_text_of_mem_holdings (hkind : binding.key.kind = .single)
    (honce : ∀ option ∈ binding.options, ∀ value values,
      inputs.line.log.values option.name = value :: values → values = [])
    (hremaining : binding.remaining → binding.key.kind = .array) :
    ∀ holding ∈ inputs.holdings binding source, ∃ text, holding.texts = [text] := by
  have hrecorded : ∀ options ⊆ binding.options, ∀ holding ∈ inputs.recorded options,
      ∃ text, holding.texts = [text] := by
    intro options hsub holding hmem
    obtain ⟨name, hname, rfl⟩ := List.mem_map.mp hmem
    obtain ⟨hname, hgives⟩ := List.mem_filter.mp hname
    obtain ⟨option, hoption, rfl⟩ := List.mem_map.mp hname
    have hvalues := values_ne_nil_iff.mpr (of_decide_eq_true hgives)
    obtain ⟨value, values, hvalues⟩ := List.exists_cons_of_ne_nil hvalues
    have hnil := honce option (hsub hoption) value values hvalues
    exact ⟨value, by rw [hvalues, hnil]⟩
  cases source with
  | shortOption | longOption => exact hrecorded _ List.filter_sublist.subset
  | environment =>
    intro holding hmem
    obtain ⟨name, _, hmem⟩ := List.mem_filterMap.mp hmem
    obtain ⟨text, _, rfl⟩ := Option.map_eq_some_iff.mp hmem
    exact ⟨text, by rw [hkind]⟩
  | positional =>
    intro holding hmem
    rw [holdings] at hmem
    split at hmem
    · rename_i hcollects
      rw [hremaining hcollects] at hkind
      cases hkind
    · cases hmem

/-- Where no option or variable holds anything, leftover arguments are the value if they are
collected. -/
lemma resolve_of_leftover (hremaining : binding.remaining → binding.key.kind = .array)
    (h : ∀ source, source ≠ .positional → inputs.holdings binding source = []) :
    inputs.resolve binding = .ok (if binding.remaining then
      some ⟨.positional, "--", .array inputs.line.positionals⟩ else none) := by
  have hgiven : ∀ source ∈ [Source.shortOption, .longOption, .environment],
      inputs.given binding source = [] := by
    intro source hsource
    have hne : source ≠ .positional := by
      rintro rfl
      simp at hsource
    rw [inputs.given_eq_map_holdings hremaining, h source hne, List.map_nil]
  have hlast : inputs.resolve binding = inputs.resolveFrom binding [.positional] :=
    resolveFrom_append hgiven
  rw [hlast]
  by_cases hcollects : binding.remaining
  · have honly : inputs.given binding .positional =
        [⟨.positional, "--", .array inputs.line.positionals⟩] := by simp [given, offers, hcollects]
    rw [resolveFrom_of_singleton honly, if_pos hcollects]
  · have hnone : inputs.given binding .positional = [] := by simp [given, offers, hcollects]
    rw [resolveFrom_of_nil hnone, if_neg hcollects]
    rfl

end Inputs

namespace Specification

variable {keys : KeySet} {spec : Specification} {binding : Binding} {posixly : Bool}
  {argv : List String} {line : CommandLine}

/-- The value of a binding is decided by the first source that holds anything for it. -/
theorem isDecided_of_compile (hcompile : compile keys = .ok spec)
    (hbinding : binding ∈ spec.bindings) (hparse : parse spec.options posixly argv = .ok line)
    (environment : Environment) (separator : Char) :
    Inputs.IsDecided ⟨line, environment, separator⟩ binding := by
  have hremaining := kind_of_remaining hcompile hbinding
  have hgiven (inputs : Inputs) := inputs.given_eq_map_holdings hremaining
  constructor
  case decides =>
    rintro source ⟨hbefore, hne⟩
    obtain ⟨after, hprecedence⟩ := source.exists_precedence_eq
    rw [Inputs.resolve, hprecedence, Inputs.resolveFrom_append]
    · refine Inputs.decides_resolveFrom hremaining (fun hkind => ?_) hne
      refine Inputs.exists_text_of_mem_holdings hkind ?_ hremaining
      intro option hoption value values
      exact eq_nil_of_values hcompile hbinding hparse hkind hoption
    · intro higher hhigher
      rw [hgiven, hbefore higher hhigher, List.map_nil]
  case leftover => exact Inputs.resolve_of_leftover hremaining
  case independent =>
    rintro source ⟨hbefore, hne⟩ inputs' hsame
    obtain ⟨after, hprecedence⟩ := source.exists_precedence_eq
    obtain ⟨hsame, hsource⟩ := List.forall_mem_append.mp hsame
    rw [Inputs.resolve, Inputs.resolve, hprecedence, Inputs.resolveFrom_append,
      Inputs.resolveFrom_append]
    · apply Inputs.resolveFrom_congr
      · rw [hgiven, ne_eq, List.map_eq_nil_iff]
        exact hne
      · rw [hgiven, hgiven, hsource source (List.mem_singleton_self _)]
    · intro higher hhigher
      rw [hgiven, hbefore higher hhigher, List.map_nil]
    · intro higher hhigher
      rw [hgiven, hsame higher hhigher, hbefore higher hhigher, List.map_nil]

/-- A level that has two short options, two long ones and two variables. -/
def rivalKeys : KeySet := .ofList Key.name [
  { name := (KeyName.root .spec).child "level",
    metadata := .ofList Prod.fst [("opt", "#1"), ("opt/#0", "l"), ("opt/#0/long", "level"),
      ("opt/#1", "L"), ("opt/#1/long", "lvl"), ("env", "#1"), ("env/#0", "APP_LEVEL"),
      ("env/#1", "LEVEL")] }]

/-- The binding that `rivalKeys` declare. -/
def rivalBinding : Binding where
  key := (KeyName.root .spec).child "level"
  options := [.short 'l', .long "level", .short 'L', .long "lvl"].map levelOption
  envVars := ["APP_LEVEL", "LEVEL"]
  remaining := false
  help := ""

/-- A short option wins over a long one and over variables; two long ones exclude each other. -/
theorem isDecided_rivals :
    let options := OptionSpec.builtin ++ rivalBinding.options
    let environment : Environment := .ofEntries ["APP_LEVEL=3", "LEVEL=4"]
    let line : CommandLine :=
      ⟨[⟨levelOption (.long "lvl"), "2"⟩, ⟨levelOption (.short 'l'), "1"⟩], []⟩
    let line' : CommandLine :=
      ⟨[⟨levelOption (.long "lvl"), "2"⟩, ⟨levelOption (.long "level"), "1"⟩], []⟩
    compile rivalKeys = .ok ⟨[rivalBinding]⟩ ∧
      parse options false ["prog", "--lvl=2", "-l1"] = .ok line ∧
      Inputs.IsDecided ⟨line, environment, ':'⟩ rivalBinding ∧
      Inputs.resolve ⟨line, environment, ':'⟩ rivalBinding =
        .ok (some ⟨.shortOption, "-l", .scalar "1"⟩) ∧
      parse options false ["prog", "--lvl=2", "--level=1"] = .ok line' ∧
      Inputs.IsDecided ⟨line', environment, ':'⟩ rivalBinding ∧
      Inputs.resolve ⟨line', environment, ':'⟩ rivalBinding =
        .error (.illegalUse "--lvl" (.conflictingSource "--level" "spec/level")) := by
  intro options environment line line'
  have hcompile : compile rivalKeys = .ok ⟨[rivalBinding]⟩ := rfl
  have hparse : parse options false ["prog", "--lvl=2", "-l1"] = .ok line := rfl
  have hparse' : parse options false ["prog", "--lvl=2", "--level=1"] = .ok line' := rfl
  have hbinding : rivalBinding ∈ [rivalBinding] := List.mem_singleton_self _
  exact ⟨hcompile, hparse, isDecided_of_compile hcompile hbinding hparse _ _, rfl, hparse',
    isDecided_of_compile hcompile hbinding hparse' _ _, rfl⟩

end Specification

end DeclaredOptions
