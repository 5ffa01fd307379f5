import DeclaredOptions.Proofs.LongNames
import Mathlib.Tactic.Common

/-!
# The grammar of command lines

Outside of posix mode a command line is a sentence: phrases, and after the entry `--` whatever is
left over. Reading the entries of a sentence accepts its occurrences (`scan_sentence`), and entries
that can be read are those of a sentence (`exists_sentence`), so the command lines that are accepted
are just the sentences in which no option counts twice for a single-valued key, as long as entries
can spell its long names (`parse_eq_ok_iff`). Sentences with other names are refused, so a table
accepts all sentences only if no long name in it has an equals sign (`acceptsSentences_iff`).
-/

namespace DeclaredOptions

open Steps OptionLog CommandLine

/-! ### Sentences -/

/-- Phrases, and the entries after `--`. -/
structure Sentence where
  phrases : List Phrase
  leftover : Option (List String)
  deriving DecidableEq

namespace Sentence

/-- Whether every phrase can be said with `options`. -/
def IsValid (options : List OptionSpec) (sentence : Sentence) : Prop :=
  ∀ phrase ∈ sentence.phrases, phrase.IsValid options

/-- Whether every argument that is attached to a long name begins after the first `=`. -/
def IsCut (sentence : Sentence) : Prop := ∀ phrase ∈ sentence.phrases, phrase.IsCut

/-- Whether entries can give every option that a phrase has a long name of. -/
def IsSpellable (sentence : Sentence) : Prop := ∀ phrase ∈ sentence.phrases, phrase.IsSpellable

/-- The entries after the phrases. -/
def ending : Option (List String) → List String
  | none => []
  | some leftover => "--" :: leftover

/-- The entries that say a sentence. -/
def entries (sentence : Sentence) : List String :=
  sentence.phrases.flatMap Phrase.entries ++ ending sentence.leftover

lemma entries_cons (phrase : Phrase) (phrases : List Phrase) (leftover : Option (List String)) :
    entries ⟨phrase :: phrases, leftover⟩ = phrase.entries ++ entries ⟨phrases, leftover⟩ := by
  simp [entries]

/-- The options that a sentence gives. -/
def occurrences (sentence : Sentence) : List Occurrence :=
  sentence.phrases.flatMap Phrase.occurrences

/-- The positional arguments that a sentence gives. -/
def positionals (sentence : Sentence) : List String :=
  sentence.phrases.flatMap Phrase.positionals ++ sentence.leftover.getD []

/-- What a sentence comes to: the options that count, and the positional arguments. -/
def line (sentence : Sentence) : CommandLine where
  log := counted [] sentence.occurrences
  positionals := sentence.positionals

end Sentence

section

variable {options : List OptionSpec} {log : OptionLog} {line : CommandLine}

/-! ### Reading a sentence -/

lemma scan_phrase (hnamed : WellNamed options) {phrase : Phrase} (h : phrase.IsValid options)
    (hspell : phrase.IsSpellable) (rest : List String) :
    scan options false log (phrase.entries ++ rest) =
      log.acceptAll phrase.occurrences >>= fun log => scan options false log rest >>= fun line =>
        .ok { line with positionals := phrase.positionals ++ line.positionals } := by
  cases phrase with
  | positional text =>
    cases h with
    | positional htext => exact scan_positional htext
  | long option argument =>
    rw [scan_entries hnamed h hspell rfl]
    exact bind_congr fun log => (bind_pure _).symm
  | cluster flags last argument =>
    rw [scan_entries hnamed h hspell rfl]
    exact bind_congr fun log => (bind_pure _).symm

/-- The entries of a sentence are read as its occurrences and its positional arguments. -/
lemma scan_sentence (hnamed : WellNamed options) {sentence : Sentence}
    (h : sentence.IsValid options) (hspell : sentence.IsSpellable) :
    scan options false log sentence.entries =
      log.acceptAll sentence.occurrences >>= fun log => .ok ⟨log, sentence.positionals⟩ := by
  obtain ⟨phrases, leftover⟩ := sentence
  induction phrases generalizing log with
  | nil => cases leftover <;> rfl
  | cons phrase phrases ih =>
    obtain ⟨hphrase, hrest⟩ := List.forall_mem_cons.mp h
    obtain ⟨hspell, hspell'⟩ := List.forall_mem_cons.mp hspell
    rw [Sentence.entries_cons, scan_phrase hnamed hphrase hspell]
    simp [ih hrest hspell', Sentence.occurrences, Sentence.positionals, acceptAll_append]

/-- A sentence is accepted just if no option counts twice for a single-valued key. -/
lemma scan_sentence_eq_ok_iff (hnamed : WellNamed options) {sentence : Sentence}
    (h : sentence.IsValid options) (hspell : sentence.IsSpellable) :
    scan options false [] sentence.entries = .ok line ↔
      sentence.line.log.NoneTwice ∧ line = sentence.line := by
  rw [scan_sentence hnamed h hspell, bind_eq_ok_iff]
  constructor
  · rintro ⟨log, haccept, hline⟩
    obtain ⟨hnone, rfl⟩ := acceptAll_eq_ok_iff.mp haccept
    cases hline
    exact ⟨hnone, rfl⟩
  · rintro ⟨hnone, rfl⟩
    exact ⟨_, acceptAll_eq_ok_iff.mpr ⟨hnone, rfl⟩, rfl⟩

/-! ### Entries that can be read -/

/-- The entries that belong to an option besides its own, if `next` comes next. -/
def Progress.taken (next : String) : Progress → List String
  | .complete _ => []
  | .awaiting _ _ => [next]

lemma exists_long {text word : String} {attached : Option String} {progress : Progress}
    (htext : Entry.Reads text (.option (.long word attached)))
    (h : readLong options log word attached = .ok progress) (next : String) :
    ∃ phrase : Phrase, phrase.IsValid options ∧ phrase.IsSpellable ∧
      phrase.entries = text :: progress.taken next := by
  obtain ⟨option, hlookup, _⟩ := bind_eq_ok_iff.mp h
  obtain ⟨hoption, hname⟩ := lookupOption_eq_ok hlookup
  have hdisplay : option.name.display = "--" ++ word := by rw [hname, OptionName.display]
  have hspell (hword : '=' ∉ word.toList) : option.name.IsSpellable :=
    hname ▸ OptionName.isSpellable_long.mpr hword
  cases htext with
  | long hempty hword =>
    by_cases hmode : option.mode = .required
    · rw [readLong_awaiting hmode hlookup] at h
      cases h
      exact ⟨.long option (some (.next next)), .long hoption hname hmode, hspell hword,
        by simp [Phrase.entries, Argument.entries, hdisplay, Progress.taken]⟩
    · rw [readLong_none hmode hlookup] at h
      obtain ⟨log, _, hread⟩ := bind_eq_ok_iff.mp h
      cases hread
      exact ⟨.long option none, .long hoption hname hmode, hspell hword,
        by simp [Phrase.entries, Argument.entries, hdisplay, Progress.taken]⟩
  | assigned value hword =>
    by_cases hmode : option.mode = .never
    · simp [readLong, hlookup, hmode, throw, throwThe, MonadExceptOf.throw] at h
    · rw [readLong_some hmode hlookup] at h
      obtain ⟨log, _, hread⟩ := bind_eq_ok_iff.mp h
      cases hread
      exact ⟨.long option (some (.inline value)), .long hoption hname hmode, hspell hword,
        by simp [Phrase.entries, Argument.entries, hdisplay, Progress.taken]⟩

/-- Letters that can be read are flags and the option that ends them. -/
lemma exists_cluster {letters : List Char} {progress : Progress} (hne : letters ≠ [])
    (h : readCluster options log letters = .ok progress) (next : String) :
    ∃ flags last argument, (Phrase.cluster flags last argument).IsValid options ∧
      (flags ++ [last]).flatMap (·.name.letters) ++ (Argument.attached argument).toList = letters ∧
      Argument.following argument = progress.taken next := by
  induction letters generalizing log with
  | nil => exact absurd rfl hne
  | cons letter letters ih =>
    obtain ⟨option, hlookup, hread⟩ := bind_eq_ok_iff.mp h
    obtain ⟨hoption, hname⟩ := lookupOption_eq_ok hlookup
    obtain ⟨_, _, hread⟩ := bind_eq_ok_iff.mp hread
    have hshort : option.name.isShort := by rw [hname]; rfl
    have hletters : option.name.letters = [letter] := by rw [hname]; rfl
    have hlast {argument : Option Argument} (hargument : option.mode.AdmitsShort argument) :
        (Phrase.cluster [] option argument).IsValid options :=
      .cluster (by simp) hoption hshort hargument
    -- a letter that requires an argument ends the cluster, any other one stands before the rest
    by_cases hmode : option.mode = .required
    · rw [if_pos hmode] at hread
      by_cases hend : letters = []
      · rw [if_pos hend] at hread
        cases hread
        exact ⟨[], option, some (.next next), hlast hmode, by simp [hletters, hend], rfl⟩
      · rw [if_neg hend] at hread
        cases hread
        exact ⟨[], option, some (.inline (.ofList letters)), hlast ⟨hmode, by simpa using hend⟩,
          by simp [hletters], rfl⟩
    · rw [if_neg hmode] at hread
      by_cases hend : letters = []
      · subst hend
        cases hread
        exact ⟨[], option, none, hlast hmode, by simp [hletters], rfl⟩
      · obtain ⟨flags, last, argument, hvalid, rfl, hfollowing⟩ := ih hend hread
        refine ⟨option :: flags, last, argument, ?_, by simp [hletters], hfollowing⟩
        cases hvalid with
        | cluster hflags hlast hshort' hargument =>
          exact .cluster (areFlags_cons.mpr ⟨⟨hoption, hshort, hmode⟩, hflags⟩) hlast hshort'
            hargument

lemma exists_phrase {text : String} {entry : OptionEntry} {progress : Progress}
    (htext : Entry.Reads text (.option entry)) (h : readOptions options log entry = .ok progress)
    (next : String) :
    ∃ phrase : Phrase, phrase.IsValid options ∧ phrase.IsSpellable ∧
      phrase.entries = text :: progress.taken next := by
  cases entry with
  | long word attached => exact exists_long htext h next
  | cluster letters =>
    cases htext with
    | @cluster letter letters hletter =>
      obtain ⟨flags, last, argument, hvalid, hletters, hfollowing⟩ :=
        exists_cluster (List.cons_ne_nil _ _) h next
      refine ⟨.cluster flags last argument, hvalid, trivial, ?_⟩
      rw [Phrase.entries, Argument.entries_ofList, List.cons_append, hletters, hfollowing]

lemma Sentence.exists_cons {phrase : Phrase} {entries : List String} (h : phrase.IsValid options)
    (hspell : phrase.IsSpellable) (hrest : ∃ sentence : Sentence, sentence.IsValid options ∧
      sentence.IsSpellable ∧ sentence.entries = entries) :
    ∃ sentence : Sentence, sentence.IsValid options ∧ sentence.IsSpellable ∧
      sentence.entries = phrase.entries ++ entries := by
  obtain ⟨sentence, hvalid, hspell', rfl⟩ := hrest
  exact ⟨⟨phrase :: sentence.phrases, sentence.leftover⟩, List.forall_mem_cons.mpr ⟨h, hvalid⟩,
    List.forall_mem_cons.mpr ⟨hspell, hspell'⟩, entries_cons _ _ _⟩

/-- Entries that can be read are those of a sentence. -/
lemma exists_sentence {entries : List String} (h : scan options false log entries = .ok line) :
    ∃ sentence : Sentence, sentence.IsValid options ∧ sentence.IsSpellable ∧
      sentence.entries = entries := by
  -- along the recursion of `scan`: what is left after a phrase is a shorter sentence
  induction log, entries using scan.induct options false generalizing line with
  | case1 log => exact ⟨⟨[], none⟩, by simp [Sentence.IsValid], by simp [Sentence.IsSpellable], rfl⟩
  | case2 log text rest htext =>
    cases Entry.reads_iff.mpr htext with
    | terminator =>
      exact ⟨⟨[], some rest⟩, by simp [Sentence.IsValid], by simp [Sentence.IsSpellable], rfl⟩
  | case3 log text rest htext hposixly => cases hposixly
  | case4 log text rest htext _ ih =>
    rw [scan_of_positional htext] at h
    obtain ⟨line, hrest, _⟩ := bind_eq_ok_iff.mp h
    cases Entry.reads_iff.mpr htext with
    | positional hphrase => exact Sentence.exists_cons (.positional hphrase) trivial (ih hrest)
  | case5 log text rest entry htext failure hread =>
    rw [scan_of_option htext, hread] at h
    cases h
  | case6 log text rest entry htext log' hread ih =>
    rw [scan_of_option htext, hread] at h
    obtain ⟨phrase, hphrase, hspell, hentries⟩ := exists_phrase (Entry.reads_iff.mpr htext) hread ""
    have hcons := Sentence.exists_cons hphrase hspell (ih h)
    rw [hentries] at hcons
    exact hcons
  | case7 log text entry htext log' option hread =>
    rw [scan_of_option htext, hread] at h
    cases h
  | case8 log text entry htext log' option hread argument rest ih =>
    rw [scan_of_option htext, hread, ok_bind] at h
    obtain ⟨log, haccept, hrest⟩ := bind_eq_ok_iff.mp h
    obtain ⟨phrase, hphrase, hspell, hentries⟩ :=
      exists_phrase (Entry.reads_iff.mpr htext) hread argument
    have hcons := Sentence.exists_cons hphrase hspell (ih log hrest)
    rw [hentries] at hcons
    exact hcons

end

/-! ### Accepted command lines -/

lemma Phrase.IsValid.isSpellable {options : List OptionSpec} {phrase : Phrase}
    (h : phrase.IsValid options) (hall : ∀ option ∈ options, option.name.IsSpellable) :
    phrase.IsSpellable := by
  cases h with
  | long hoption _ _ => exact hall _ hoption
  | positional _ | cluster _ _ _ _ => trivial

/-- Whether the command lines that are accepted are the sentences in which no option counts twice
for a single-valued key, and come to what these do. -/
def AcceptsSentences (options : List OptionSpec) : Prop :=
  ∀ argv line, parse options false argv = .ok line ↔
    ∃ sentence : Sentence, sentence.IsValid options ∧ sentence.IsCut ∧
      sentence.entries = argv.tail ∧ sentence.line.log.NoneTwice ∧ line = sentence.line

namespace CommandLine

variable {keys : KeySet} {spec : Specification}

/-- A command line is accepted just if it is a sentence of names that entries can spell. -/
lemma parse_eq_ok_iff (h : Specification.compile keys = .ok spec) {argv : List String}
    {line : CommandLine} : parse spec.options false argv = .ok line ↔
      ∃ sentence : Sentence, sentence.IsValid spec.options ∧ sentence.IsSpellable ∧
        sentence.entries = argv.tail ∧ sentence.line.log.NoneTwice ∧ line = sentence.line := by
  have hnamed := wellNamed_of_compile h
  constructor
  · intro hparse
    obtain ⟨sentence, hvalid, hspell, hentries⟩ := exists_sentence hparse
    rw [parse, ← hentries, scan_sentence_eq_ok_iff hnamed hvalid hspell] at hparse
    exact ⟨sentence, hvalid, hspell, hentries, hparse⟩
  · rintro ⟨sentence, hvalid, hspell, hentries, haccepted⟩
    rw [parse, ← hentries]
    exact (scan_sentence_eq_ok_iff hnamed hvalid hspell).mpr haccepted

/-- An option that can be given by itself has a name that entries can spell. -/
lemma isSpellable_of_acceptsSentences {options : List OptionSpec} (h : AcceptsSentences options)
    {option : OptionSpec} (hoption : option ∈ options) : option.name.IsSpellable := by
  obtain ⟨phrase, value, hgives⟩ := Phrase.exists_gives hoption
  have hlog : (Sentence.mk [phrase] none).line.log = [⟨option, value⟩] := by
    simp [Sentence.line, Sentence.occurrences, hgives.occurrences]
  have hparse := (h ("" :: (Sentence.mk [phrase] none).entries) _).mpr
    ⟨⟨[phrase], none⟩, List.forall_mem_singleton.mpr hgives.valid,
      List.forall_mem_singleton.mpr hgives.cut, rfl, by simp [hlog], rfl⟩
  have hspell := isSpellable_of_scan (by simp [OptionLog.IsSpellable]) hparse
  rw [hlog] at hspell
  exact hspell _ (List.mem_singleton_self _)

/-- The command lines that are accepted are the sentences in which no option counts twice for a
single-valued key, as far as entries can spell the long names in them. So they are all such
sentences just if no long name has `=` in it. -/
theorem acceptsSentences_iff (h : Specification.compile keys = .ok spec) :
    (∀ argv line, parse spec.options false argv = .ok line ↔
      ∃ sentence : Sentence, sentence.IsValid spec.options ∧ sentence.IsSpellable ∧
        sentence.entries = argv.tail ∧ sentence.line.log.NoneTwice ∧ line = sentence.line) ∧
    (AcceptsSentences spec.options ↔ ∀ option ∈ spec.options, option.name.IsSpellable) := by
  refine ⟨fun argv line => parse_eq_ok_iff h, ?_, ?_⟩
  · intro haccepts option hoption
    exact isSpellable_of_acceptsSentences haccepts hoption
  · intro hall argv line
    rw [parse_eq_ok_iff h]
    refine exists_congr fun sentence => and_congr_right fun hvalid => and_congr_left' ?_
    have hspell : sentence.IsSpellable := fun phrase hphrase =>
      (hvalid phrase hphrase).isSpellable hall
    exact iff_of_true hspell fun phrase hphrase => (hspell phrase hphrase).isCut

open Specification in
/-- Each option of the level gives its value where it is given alone; a long one that comes after a
short one does not count. -/
theorem acceptsSentences_sample : compile sampleKeys = .ok sample ∧
    AcceptsSentences sample.options ∧
    parse sample.options false ["prog", "--level=4", "in", "-v"] =
      .ok ⟨[⟨levelOption (.long "level"), "4"⟩, ⟨verboseOption, "1"⟩], ["in"]⟩ ∧
    parse sample.options false ["prog", "-vl", "3", "in", "--level=4", "--", "-v"] =
      .ok ⟨[⟨verboseOption, "1"⟩, ⟨levelOption (.short 'l'), "3"⟩], ["in", "-v"]⟩ := by
  have haccepts : AcceptsSentences sample.options := by
    refine (acceptsSentences_iff compile_sampleKeys).2.mpr ?_
    simp [options_sample, OptionSpec.builtin, OptionSpec.help, levelOption, verboseOption,
      OptionName.helpShort, OptionName.helpLong, OptionName.isSpellable_short,
      OptionName.isSpellable_long]
  have hverbose : AreFlags sample.options [verboseOption] := by
    simp [options_sample, verboseOption, OptionName.isShort]
  have hlevel : Phrase.IsValid sample.options
      (.long (levelOption (.long "level")) (some (.inline "4"))) :=
    .long (by simp [options_sample]) rfl (by simp [levelOption, ArgumentMode.AdmitsLong])
  have hcut : (Phrase.long (levelOption (.long "level")) (some (.inline "4"))).IsCut :=
    OptionName.isSpellable_long.mpr (by decide)
  have hin : (Phrase.positional "in").IsValid sample.options := .positional (by decide)
  refine ⟨compile_sampleKeys, haccepts, (haccepts _ _).mpr ?_, (haccepts _ _).mpr ?_⟩
  · refine ⟨⟨[.long (levelOption (.long "level")) (some (.inline "4")), .positional "in",
      .cluster [] verboseOption none], none⟩, ?_, ?_, rfl, by decide, rfl⟩
    · simp only [Sentence.IsValid, List.forall_mem_cons]
      exact ⟨hlevel, hin, .cluster (by simp) (by simp [options_sample]) rfl
        (by simp [verboseOption, ArgumentMode.AdmitsShort]), by simp⟩
    · simp only [Sentence.IsCut, List.forall_mem_cons]
      exact ⟨hcut, trivial, trivial, by simp⟩
  · refine ⟨⟨[.cluster [verboseOption] (levelOption (.short 'l')) (some (.next "3")),
      .positional "in", .long (levelOption (.long "level")) (some (.inline "4"))],
      some ["-v"]⟩, ?_, ?_, rfl, by decide, rfl⟩
    · simp only [Sentence.IsValid, List.forall_mem_cons]
      exact ⟨.cluster hverbose (by simp [options_sample]) rfl rfl, hin, hlevel, by simp⟩
    · simp only [Sentence.IsCut, List.forall_mem_cons]
      exact ⟨trivial, trivial, hcut, by simp⟩

/-! ### A sentence that is refused -/

/-- A switch with `=` in its long name. -/
def assignedKeys : KeySet := .ofList Key.name [
  { name := ⟨.spec, ["switch"], by decide⟩,
    metadata := .ofList Prod.fst [("opt/long", "a=b"), ("opt/arg", "none")] }]

/-- The switch. -/
def assignedOption : OptionSpec where
  name := .long "a=b"
  mode := .never
  flagValue := "1"
  placeholder := "ARG"
  hidden := false
  owner := .key ⟨.spec, ["switch"], by decide⟩

/-- The name of the switch is a sentence, but it is read up to its `=`. -/
theorem not_acceptsSentences_assignedKeys : ∃ spec,
    Specification.compile assignedKeys = .ok spec ∧
    Sentence.IsValid spec.options ⟨[.long assignedOption none], none⟩ ∧
    Sentence.IsCut ⟨[.long assignedOption none], none⟩ ∧
    Sentence.entries ⟨[.long assignedOption none], none⟩ = ["--a=b"] ∧
    Sentence.line ⟨[.long assignedOption none], none⟩ = ⟨[⟨assignedOption, "1"⟩], []⟩ ∧
    parse spec.options false ["prog", "--a=b"] = .error (.unknownOption "--a") ∧
    ¬AcceptsSentences spec.options := by
  have hoptions : (Specification.ofKeys (assignedKeys.inSpace .spec)).options =
      OptionSpec.builtin ++ [assignedOption] := rfl
  have hmem : assignedOption ∈ (Specification.ofKeys (assignedKeys.inSpace .spec)).options := by
    simp [hoptions]
  refine ⟨.ofKeys (assignedKeys.inSpace .spec), rfl, ?_, ?_, rfl, rfl, rfl, ?_⟩
  · refine List.forall_mem_singleton.mpr (.long hmem rfl ?_)
    simp [assignedOption, ArgumentMode.AdmitsLong]
  · exact List.forall_mem_singleton.mpr trivial
  · intro haccepts
    have hspell := isSpellable_of_acceptsSentences haccepts hmem
    exact absurd (OptionName.isSpellable_long.mp hspell) (by decide)

end CommandLine

end DeclaredOptions
