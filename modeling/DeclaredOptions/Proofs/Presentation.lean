import DeclaredOptions.Proofs.Effects
import DeclaredOptions.Proofs.Erasure
import DeclaredOptions.Proofs.Phrases
import Mathlib.Tactic.Common

/-!
# What presentation cannot change

Metadata for help texts decides nothing but these texts (`differInHelp_of_resembles`). Command lines
are read, bindings resolved and values staged in the same way with bare options and bindings, so
sessions that are the same without presentation come to the same end.
-/

namespace DeclaredOptions

open Steps Staging

/-! ### Command lines -/

/-- An occurrence of a bare option. -/
def Occurrence.bare (occurrence : Occurrence) : Occurrence :=
  { occurrence with option := occurrence.option.bare }

namespace OptionLog

/-- The occurrences of bare options. -/
def bare (log : OptionLog) : OptionLog := log.map Occurrence.bare

variable (log : OptionLog) (option : OptionSpec)

lemma values_bare (name : OptionName) : log.bare.values name = log.values name := by
  rw [values, values, bare, List.filter_map, List.map_map]
  rfl

lemma gives_bare_iff {name : OptionName} : log.bare.Gives name ↔ log.Gives name := by
  simp [Gives, bare, Occurrence.bare]

lemma shortSupplied_bare_iff :
    log.bare.ShortSupplied option.bare ↔ log.ShortSupplied option := by
  simp [ShortSupplied, bare, Occurrence.bare]

lemma checkRepeat_bare : log.bare.checkRepeat option.bare = log.checkRepeat option := by
  simp only [checkRepeat, gives_bare_iff, OptionSpec.kind_bare, OptionSpec.name_bare]

lemma add_bare (value : String) : log.bare.add option.bare value = (log.add option value).bare := by
  rw [add, add, bare, bare, List.map_append]
  rfl

lemma accept_bare (value : String) :
    log.bare.accept option.bare value = (log.accept option value).map bare := by
  simp only [accept, shortSupplied_bare_iff, checkRepeat_bare, add_bare, OptionSpec.name_bare]
  split
  · rfl
  · cases log.checkRepeat option <;> rfl

end OptionLog

/-- What is known of bare options. -/
def Progress.bare : Progress → Progress
  | complete log => .complete log.bare
  | awaiting log option => .awaiting log.bare option.bare

/-- A command line that gives bare options. -/
def CommandLine.bare (line : CommandLine) : CommandLine := { line with log := line.log.bare }

section Reading

variable (options : List OptionSpec) (log : OptionLog)

lemma lookupOption_bare (name : OptionName) : lookupOption (options.map .bare) name =
    (lookupOption options name).map OptionSpec.bare := by
  unfold lookupOption
  rw [find?_name_bare]
  cases options.find? fun option => option.name = name <;> rfl

lemma readLong_bare (word : String) (argument : Option String) :
    readLong (options.map .bare) log.bare word argument =
      (readLong options log word argument).map Progress.bare := by
  unfold readLong
  rw [lookupOption_bare]
  refine map_bind_comm fun option => ?_
  have haccept (value : String) :
      (log.bare.accept option.bare value >>= fun log => .ok (Progress.complete log)) =
        (log.accept option value >>= fun log => .ok (Progress.complete log)).map Progress.bare := by
    rw [OptionLog.accept_bare]
    exact map_bind_comm fun log => rfl
  rw [OptionSpec.mode_bare, OptionSpec.flagValue_bare]
  cases option.mode <;> cases argument
  case required.none | never.some => rfl
  all_goals exact haccept _

lemma readCluster_bare (letters : List Char) :
    readCluster (options.map .bare) log.bare letters =
      (readCluster options log letters).map Progress.bare := by
  induction letters generalizing log with
  | nil => rfl
  | cons letter letters ih =>
    unfold readCluster
    rw [lookupOption_bare]
    refine map_bind_comm fun option => ?_
    rw [OptionLog.checkRepeat_bare]
    cases log.checkRepeat option with
    | error failure => rfl
    | ok _ =>
      simp only [ok_bind, OptionSpec.mode_bare, OptionSpec.flagValue_bare, OptionLog.add_bare, ih]
      split
      · split <;> rfl
      · rfl

lemma readOptions_bare (entry : OptionEntry) : readOptions (options.map .bare) log.bare entry =
    (readOptions options log entry).map Progress.bare := by
  cases entry with
  | long word argument => exact readLong_bare options log word argument
  | cluster letters => exact readCluster_bare options log letters

end Reading

namespace CommandLine

lemma scan_bare (options : List OptionSpec) (posixly : Bool) (log : OptionLog)
    (entries : List String) : scan (options.map .bare) posixly log.bare entries =
      (scan options posixly log entries).map bare := by
  -- the cases are those of the scan with presentation; each reads its first entry in the same way
  induction log, entries using scan.induct options posixly with
  | case1 log => rfl
  | case2 log text rest htext =>
    rw [scan, scan, htext]
    rfl
  | case3 log text rest htext hposixly =>
    rw [scan, scan, htext]
    dsimp only
    rw [if_pos hposixly, if_pos hposixly]
    rfl
  | case4 log text rest htext hposixly ih =>
    rw [scan, scan, htext]
    dsimp only
    rw [if_neg hposixly, if_neg hposixly, ih]
    exact map_bind_comm fun line => rfl
  | case5 log text rest entry htext failure hread =>
    rw [scan_of_option htext, scan_of_option htext, readOptions_bare, hread]
    rfl
  | case6 log text rest entry htext log' hread ih =>
    rw [scan_of_option htext, scan_of_option htext, readOptions_bare, hread]
    exact ih
  | case7 log text entry htext log' option hread =>
    rw [scan_of_option htext, scan_of_option htext, readOptions_bare, hread]
    rfl
  | case8 log text entry htext log' option hread argument rest ih =>
    rw [scan_of_option htext, scan_of_option htext, readOptions_bare, hread]
    show log'.bare.accept option.bare argument >>= _ = (log'.accept option argument >>= _).map bare
    rw [OptionLog.accept_bare]
    exact map_bind_comm ih

lemma parse_bare (options : List OptionSpec) (posixly : Bool) (argv : List String) :
    parse (options.map .bare) posixly argv = (parse options posixly argv).map bare :=
  scan_bare options posixly [] argv.tail

lemma helpRequested_bare_iff (line : CommandLine) :
    line.bare.HelpRequested ↔ line.HelpRequested := by
  simp only [HelpRequested, bare, OptionLog.gives_bare_iff]

end CommandLine

/-! ### Resolution -/

/-- Inputs whose command line gives bare options. -/
def Inputs.bare (inputs : Inputs) : Inputs := { inputs with line := inputs.line.bare }

namespace Inputs

variable (inputs : Inputs) (binding : Binding)

lemma ofOption_bare (kind : Kind) (source : Source) (name : OptionName) :
    inputs.bare.ofOption kind source name = inputs.ofOption kind source name := by
  simp only [ofOption, bare, CommandLine.bare, OptionLog.values_bare]

lemma offers_bare (source : Source) :
    inputs.bare.offers binding.bare source = inputs.offers binding source := by
  cases source with
  | shortOption | longOption =>
    simp only [offers, Binding.bare, List.filter_map, List.map_map, Function.comp_def,
      ofOption_bare, OptionSpec.name_bare]
  | environment | positional => rfl

lemma resolve_bare : inputs.bare.resolve binding.bare = inputs.resolve binding := by
  have hfrom (sources : List Source) :
      inputs.bare.resolveFrom binding.bare sources = inputs.resolveFrom binding sources := by
    induction sources with
    | nil => rfl
    | cons source sources ih =>
      rw [resolveFrom, resolveFrom, offers_bare, ih]
      rfl
  exact hfrom Source.precedence

end Inputs

namespace Staging

variable (store staged : KeySet)

lemma holds_essence_iff (name : KeyName) : Holds store.essence name ↔ Holds store name := by
  simp [Holds, KeySet.find?_essence]

lemma write_essence (binding : Binding) (origin : String) (value : Value) :
    write store.essence staged binding.bare origin value =
      write store staged binding origin value := by
  have hvacant (name : KeyName) :
      ensureVacant store.essence staged origin name = ensureVacant store staged origin name := by
    simp only [ensureVacant, holds_essence_iff]
  cases value <;> simp only [write, hvacant] <;> rfl

lemma resolveAll_essence (inputs : Inputs) (bindings : List Binding) :
    resolveAll store.essence inputs.bare staged (bindings.map .bare) =
      resolveAll store inputs staged bindings := by
  induction bindings generalizing staged with
  | nil => rfl
  | cons binding bindings ih =>
    rw [List.map_cons, resolveAll, resolveAll, Inputs.resolve_bare]
    refine bind_congr fun found => ?_
    cases found with
    | none => exact ih staged
    | some resolution =>
      simp only [write_essence]
      exact bind_congr fun next => ih next

end Staging

/-! ### Keys that differ in presentation -/

/-- Keys that differ at most in the texts of metadata for help texts. -/
structure Key.Resembles (key other : Key) : Prop where
  name : key.name = other.name
  value : key.value = other.value
  present : ∀ entry, (key.metadata.get? entry).isSome = (other.metadata.get? entry).isSome
  metadata : ∀ entry, ¬(key.name.space = .spec ∧ IsPresentation entry) →
    key.metadata.get? entry = other.metadata.get? entry

/-- Key sets whose keys differ at most in the texts of metadata for help texts. -/
def KeySet.Resembles (keys others : KeySet) : Prop :=
  List.Forall₂ Key.Resembles keys.toList others.toList

lemma Metadata.bare_eq_iff {m n : Metadata} : m.bare = n.bare ↔
    (∀ entry, (m.get? entry).isSome = (n.get? entry).isSome) ∧
      ∀ entry, ¬IsPresentation entry → m.get? entry = n.get? entry := by
  constructor
  · intro h
    refine ⟨fun entry => ?_, fun entry hentry => ?_⟩
    · rw [← isSome_get?_bare m, h, isSome_get?_bare]
    · rw [← get?_bare_of_not hentry, h, get?_bare_of_not hentry]
  · rintro ⟨hpresent, hdecisive⟩
    apply SortedMap.ext_get?
    intro entry
    by_cases hentry : IsPresentation entry
    · have hsome := hpresent entry
      rw [get?_bare, get?_bare]
      cases hm : m.get? entry <;> cases hn : n.get? entry <;> simp_all
    · rw [get?_bare_of_not hentry, get?_bare_of_not hentry, hdecisive entry hentry]

/-- Keys resemble each other if they are the same without presentation. -/
lemma Key.resembles_iff {key other : Key} : key.Resembles other ↔ key.essence = other.essence := by
  constructor
  · rintro ⟨hname, hvalue, hpresent, hmetadata⟩
    by_cases hspace : key.name.space = .spec
    · have hbare : key.metadata.bare = other.metadata.bare :=
        Metadata.bare_eq_iff.mpr ⟨hpresent, fun entry hentry =>
          hmetadata entry fun hboth => hentry hboth.2⟩
      rw [essence, essence, if_pos hspace, if_pos (hname ▸ hspace)]
      exact Key.ext hname hvalue hbare
    · have hsame : key.metadata = other.metadata :=
        SortedMap.ext_get? fun entry => hmetadata entry fun hboth => hspace hboth.1
      rw [Key.ext hname hvalue hsame]
  · intro h
    have hname : key.name = other.name := by
      rw [← key.name_essence, h, name_essence]
    have hvalue : key.value = other.value := by
      rw [← key.value_essence, h, value_essence]
    by_cases hspace : key.name.space = .spec
    · rw [essence, essence, if_pos hspace, if_pos (hname ▸ hspace)] at h
      obtain ⟨hpresent, hdecisive⟩ := Metadata.bare_eq_iff.mp (congrArg Key.metadata h)
      exact ⟨hname, hvalue, hpresent, fun entry hentry =>
        hdecisive entry fun hshown => hentry ⟨hspace, hshown⟩⟩
    · rw [essence_of_space_ne hspace, essence_of_space_ne (hname ▸ hspace)] at h
      subst h
      exact ⟨rfl, rfl, fun _ => rfl, fun _ _ => rfl⟩

lemma KeySet.resembles_iff {keys others : KeySet} :
    keys.Resembles others ↔ keys.essence = others.essence := by
  rw [Resembles, SortedBy.ext_iff, ← List.forall₂_eq_eq_eq]
  show _ ↔ List.Forall₂ Eq (keys.toList.map Key.essence) (others.toList.map Key.essence)
  rw [List.forall₂_map_left_iff, List.forall₂_map_right_iff]
  simp only [← Key.resembles_iff]

lemma KeySet.essence_insertAll (keys : KeySet) (items : List Key) :
    KeySet.essence (keys.insertAll items) = keys.essence.insertAll (items.map Key.essence) :=
  keys.map_insertAll Key.name_essence items

/-! ### Sessions -/

namespace Session

/-- Sessions with the same error key, and with keys that differ at most in presentation. -/
structure Resembles (first second : Session) : Prop where
  keys : first.keys.Resembles second.keys
  errorKey : first.errorKey = second.errorKey

/-- Ends of calls that differ at most in presentation and in generated help texts. -/
structure DifferInHelp (first second : Except Failure Outcome × Session) : Prop where
  result : first.1 = second.1
  keys : first.2.keys.Resembles second.2.keys
  errorKey : first.2.errorKey.AgreesOutside [Help.usageEntry, Help.optionsEntry] second.2.errorKey
  unhelped : first.1 ≠ .ok .helpRequested → first.2.errorKey = second.2.errorKey

lemma read_bare (session : Session) (argv envp : List String) (settings : Settings) :
    (session.read argv envp settings).map (fun (spec, inputs) => (spec.bare, inputs.bare)) =
      Specification.compile session.keys.essence >>= fun spec =>
        CommandLine.parse spec.options settings.posixly argv >>= fun line =>
          .ok (spec, ⟨line, Environment.ofEntries envp, settings.separator⟩) := by
  rw [Specification.compile_essence]
  refine (map_bind_comm fun spec => ?_).symm
  rw [Specification.options_bare, CommandLine.parse_bare]
  exact map_bind_comm fun line => rfl

variable {keys others : KeySet}

/-- Bindings that are the same without presentation find and stage the same. -/
lemma resolveAll_eq_of_bare_eq (hkeys : keys.essence = others.essence)
    {spec spec' : Specification} (hspec : spec.bare = spec'.bare) {inputs inputs' : Inputs}
    (hinputs : inputs.bare = inputs'.bare) :
    resolveAll keys inputs ∅ spec.bindings = resolveAll others inputs' ∅ spec'.bindings := by
  have hbindings : spec.bindings.map Binding.bare = spec'.bindings.map Binding.bare :=
    congrArg Specification.bindings hspec
  rw [← resolveAll_essence, hkeys, hinputs, hbindings, resolveAll_essence]

lemma helpRequested_iff_of_bare_eq {inputs inputs' : Inputs} (h : inputs.bare = inputs'.bare) :
    inputs.line.HelpRequested ↔ inputs'.line.HelpRequested := by
  have hline : inputs.line.bare = inputs'.line.bare := congrArg Inputs.line h
  rw [← CommandLine.helpRequested_bare_iff, hline, CommandLine.helpRequested_bare_iff]

/-- Ends with the same result and the same error key. -/
lemma differInHelp_of_eq (hkeys : keys.Resembles others) (result : Except Failure Outcome)
    (errorKey : Key) : DifferInHelp (result, ⟨keys, errorKey⟩) (result, ⟨others, errorKey⟩) :=
  ⟨rfl, hkeys, ⟨rfl, rfl, fun _ _ => rfl⟩, fun _ => rfl⟩

lemma differInHelp_of_help (hkeys : keys.Resembles others) (spec spec' : Specification)
    (program : String) (errorKey : Key) :
    DifferInHelp (.ok .helpRequested, ⟨keys, Help.attach spec program errorKey⟩)
      (.ok .helpRequested, ⟨others, Help.attach spec' program errorKey⟩) := by
  have hagrees (spec : Specification) : (Help.attach spec program errorKey).AgreesOutside
      [Help.usageEntry, Help.optionsEntry] errorKey :=
    Key.agreesOutside_setMetadata errorKey _ _ _ _
  refine ⟨rfl, hkeys, ⟨rfl, rfl, fun entry hentry => ?_⟩, fun h => absurd rfl h⟩
  exact ((hagrees spec).metadata entry hentry).trans ((hagrees spec').metadata entry hentry).symm

/-- Presentation decides nothing but help texts. Where keys differ in it at most, calls come to the
same result, the very same failure included, and leave keys and error keys that differ in nothing
else. -/
theorem differInHelp_of_resembles {first second : Session} (h : first.Resembles second)
    (argv envp : List String) (settings : Settings) :
    DifferInHelp (first.resolveWith argv envp settings)
      (second.resolveWith argv envp settings) := by
  obtain ⟨keys, errorKey⟩ := first
  obtain ⟨others, _⟩ := second
  obtain ⟨hkeys, rfl⟩ := h
  have hessence : keys.essence = others.essence := KeySet.resembles_iff.mp hkeys
  have hread := read_bare ⟨others, errorKey⟩ argv envp settings
  rw [← hessence, ← read_bare ⟨keys, errorKey⟩] at hread
  rw [resolveWith_eq, resolveWith_eq]
  -- both calls read the same bindings and inputs but for presentation, or neither reads any
  obtain ⟨failure, hsecond, hfirst⟩ |
    ⟨⟨spec', inputs'⟩, ⟨spec, inputs⟩, hsecond, hfirst, hbare⟩ := cases_of_map_eq hread
  · rw [hfirst, hsecond]
    exact differInHelp_of_eq hkeys _ _
  obtain ⟨hspec, hinputs⟩ := Prod.ext_iff.mp hbare
  have hhelp := helpRequested_iff_of_bare_eq hinputs
  have hall := resolveAll_eq_of_bare_eq hessence.symm hspec hinputs
  rw [hfirst, hsecond]
  dsimp only at hkeys ⊢
  by_cases hrequested : inputs.line.HelpRequested
  · rw [if_pos hrequested, if_pos (hhelp.mpr hrequested)]
    exact differInHelp_of_help hkeys _ _ _ _
  · rw [if_neg hrequested, if_neg (mt hhelp.mp hrequested), hall]
    cases resolveAll keys inputs ∅ spec.bindings with
    | error failure => exact differInHelp_of_eq hkeys _ _
    | ok staged =>
      refine differInHelp_of_eq ?_ _ _
      rw [KeySet.resembles_iff, KeySet.essence_insertAll, KeySet.essence_insertAll, hessence]

/-- A depth with a short and a long option and a switch, shown in help texts as `shown` says. -/
def shownSession (shown : String) : Session where
  keys := .ofList Key.name [
    { name := ⟨.spec, ["depth"], by decide⟩,
      metadata := .ofList Prod.fst [("opt", "#1"), ("opt/#0", "d"), ("opt/#0/nohelp", shown),
        ("opt/#1", ""), ("opt/#1/long", "depth"), ("opt/#1/nohelp", shown),
        ("opt/#1/arg/help", shown), ("opt/help", shown)] },
    { name := ⟨.spec, ["quiet"], by decide⟩,
      metadata := .ofList Prod.fst [("opt", "q"), ("opt/arg", "none"), ("opt/arg/help", shown),
        ("opt/nohelp", shown), ("description", shown)] }]
  errorKey := { name := .root .cascading }

theorem differInHelp_shownSession :
    (shownSession "1").Resembles (shownSession "") ∧
      DifferInHelp ((shownSession "1").resolveWith ["prog", "-q", "--help"] [] {})
        ((shownSession "").resolveWith ["prog", "-q", "--help"] [] {}) ∧
      ((shownSession "1").resolveWith ["prog", "-q", "--help"] [] {}).2.errorKey ≠
        ((shownSession "").resolveWith ["prog", "-q", "--help"] [] {}).2.errorKey := by
  have hkeys : (shownSession "1").keys.Resembles (shownSession "").keys :=
    KeySet.resembles_iff.mpr rfl
  have hresembles : (shownSession "1").Resembles (shownSession "") := ⟨hkeys, rfl⟩
  refine ⟨hresembles, differInHelp_of_resembles hresembles ["prog", "-q", "--help"] [] {}, ?_⟩
  decide +kernel

end Session

end DeclaredOptions
