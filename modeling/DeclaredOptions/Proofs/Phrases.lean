import DeclaredOptions.Proofs.Entries
import DeclaredOptions.Proofs.Occurrences
import DeclaredOptions.Proofs.Tables
import Mathlib.Tactic.Common

/-!
# Phrases of a command line

A phrase is what a command line says at a time: a positional argument, a long option or a cluster of
short ones, with the argument that the last of them takes. Reading the entries of a phrase accepts
its occurrences, whatever was read before and whatever follows (`scan_entries`).
-/

namespace DeclaredOptions

open Steps OptionLog

/-! ### Arguments of options -/

/-- An argument as it is written: at the end of an entry, or as an entry of its own. -/
inductive Argument
  | inline (value : String)
  | next (value : String)
  deriving DecidableEq

namespace Argument

/-- The text of an argument. -/
def value : Argument → String
  | inline value | next value => value

/-- The entries of an option with its argument, `mark` between them. -/
def entries (text mark : String) : Option Argument → List String
  | none => [text]
  | some (inline value) => [text ++ mark ++ value]
  | some (next value) => [text, value]

/-- The part of an argument that belongs to the entry of its option. -/
@[simp] def attached : Option Argument → String
  | some (inline value) => value
  | _ => ""

/-- The entry that an argument has of its own. -/
@[simp] def following : Option Argument → List String
  | some (next value) => [value]
  | _ => []

lemma entries_ofList (letters : List Char) (argument : Option Argument) :
    entries (.ofList letters) "" argument =
      .ofList (letters ++ (attached argument).toList) :: following argument := by
  rcases argument with _ | ⟨value⟩ | ⟨value⟩ <;> simp [entries]

end Argument

/-- Whether a long option of this mode is written so. -/
def ArgumentMode.AdmitsLong (mode : ArgumentMode) : Option Argument → Prop
  | none => mode ≠ .required
  | some (.inline _) => mode ≠ .never
  | some (.next _) => mode = .required

/-- Whether a short option of this mode ends a cluster so. -/
def ArgumentMode.AdmitsShort (mode : ArgumentMode) : Option Argument → Prop
  | none => mode ≠ .required
  | some (.inline value) => mode = .required ∧ value ≠ ""
  | some (.next _) => mode = .required

lemma OptionName.exists_short {name : OptionName} (h : name.isShort) :
    ∃ letter, name = .short letter := by
  cases name with
  | short letter => exact ⟨letter, rfl⟩
  | long word => cases h

/-- Whether entries can give an option of this name: a long one has to end before the first `=`. -/
def OptionName.IsSpellable (name : OptionName) : Prop :=
  ∀ word, name = .long word → '=' ∉ word.toList

lemma OptionName.isSpellable_short (letter : Char) : (short letter).IsSpellable := by
  rintro word ⟨⟩

lemma OptionName.isSpellable_long {word : String} :
    (long word).IsSpellable ↔ '=' ∉ word.toList := by
  constructor
  · intro h
    exact h word rfl
  · rintro h _ ⟨⟩
    exact h

/-- Short options that can stand before others in a cluster. -/
def AreFlags (options flags : List OptionSpec) : Prop :=
  ∀ flag ∈ flags, flag ∈ options ∧ flag.name.isShort ∧ flag.mode ≠ .required

@[simp] lemma areFlags_nil (options : List OptionSpec) : AreFlags options [] := by
  simp [AreFlags]

@[simp] lemma areFlags_cons {options flags : List OptionSpec} {flag : OptionSpec} :
    AreFlags options (flag :: flags) ↔
      (flag ∈ options ∧ flag.name.isShort ∧ flag.mode ≠ .required) ∧ AreFlags options flags :=
  List.forall_mem_cons

/-- An option given with an argument, or with its flag value. -/
def OptionSpec.occurrence (option : OptionSpec) (argument : Option Argument) : Occurrence :=
  ⟨option, (argument.map Argument.value).getD option.flagValue⟩

@[simp] lemma OptionSpec.occurrence_option (option : OptionSpec) (argument : Option Argument) :
    (option.occurrence argument).option = option := rfl

@[simp] lemma OptionSpec.occurrence_none (option : OptionSpec) :
    option.occurrence none = ⟨option, option.flagValue⟩ := rfl

@[simp] lemma OptionSpec.occurrence_inline (option : OptionSpec) (value : String) :
    option.occurrence (some (.inline value)) = ⟨option, value⟩ := rfl

@[simp] lemma OptionSpec.occurrence_next (option : OptionSpec) (value : String) :
    option.occurrence (some (.next value)) = ⟨option, value⟩ := rfl

/-! ### Phrases -/

/-- What a command line says at a time. -/
inductive Phrase
  | positional (text : String)
  | long (option : OptionSpec) (argument : Option Argument)
  /-- Short options in one entry; the last of them may take an argument. -/
  | cluster (flags : List OptionSpec) (last : OptionSpec) (argument : Option Argument)
  deriving DecidableEq

namespace Phrase

/-- The entries that say a phrase. -/
def entries : Phrase → List String
  | positional text => [text]
  | long option argument => Argument.entries option.name.display "=" argument
  | cluster flags last argument =>
    Argument.entries (.ofList ('-' :: (flags ++ [last]).flatMap (·.name.letters))) "" argument

/-- The options that a phrase gives. -/
def occurrences : Phrase → List Occurrence
  | positional _ => []
  | long option argument => [option.occurrence argument]
  | cluster flags last argument =>
    flags.map (·.occurrence none) ++ [last.occurrence argument]

/-- The positional argument that a phrase gives. -/
def positionals : Phrase → List String
  | positional text => [text]
  | _ => []

/-- Phrases that can be said with `options`. -/
inductive IsValid (options : List OptionSpec) : Phrase → Prop
  | positional {text : String} (h : text = "-" ∨ text.toList.head? ≠ some '-') :
      IsValid options (positional text)
  | long {option : OptionSpec} {word : String} {argument : Option Argument}
      (hoption : option ∈ options) (hname : option.name = .long word)
      (hargument : option.mode.AdmitsLong argument) : IsValid options (long option argument)
  | cluster {flags : List OptionSpec} {last : OptionSpec} {argument : Option Argument}
      (hflags : AreFlags options flags) (hlast : last ∈ options) (hshort : last.name.isShort)
      (hargument : last.mode.AdmitsShort argument) : IsValid options (cluster flags last argument)

/-- Whether an argument that is attached to a long name begins after the first `=` of the entry. -/
def IsCut : Phrase → Prop
  | long option (some (.inline _)) => option.name.IsSpellable
  | _ => True

/-- Whether entries can give the option of a phrase that has a long name. -/
def IsSpellable : Phrase → Prop
  | long option _ => option.name.IsSpellable
  | _ => True

lemma IsSpellable.isCut {phrase : Phrase} (h : phrase.IsSpellable) : phrase.IsCut := by
  unfold IsCut
  split
  · exact h
  · trivial

/-- A phrase that gives one option with a value and says nothing else. -/
structure Gives (options : List OptionSpec) (option : OptionSpec) (value : String)
    (phrase : Phrase) : Prop where
  valid : phrase.IsValid options
  cut : phrase.IsCut
  spellable : option.name.IsSpellable → phrase.IsSpellable
  occurrences : phrase.occurrences = [⟨option, value⟩]
  positionals : phrase.positionals = []

/-- Each option can be given in a phrase without an attached argument. -/
lemma exists_gives {options : List OptionSpec} {option : OptionSpec} (hoption : option ∈ options) :
    ∃ phrase value, Gives options option value phrase := by
  obtain ⟨argument, hlong, hshort, hattached⟩ : ∃ argument, option.mode.AdmitsLong argument ∧
      option.mode.AdmitsShort argument ∧ (long option argument).IsCut := by
    by_cases hmode : option.mode = .required
    · exact ⟨some (.next ""), hmode, hmode, trivial⟩
    · exact ⟨none, hmode, hmode, trivial⟩
  cases hname : option.name with
  | short letter =>
    have hisShort : option.name.isShort := by rw [hname]; rfl
    exact ⟨.cluster [] option argument, _, .cluster (by simp) hoption hisShort hshort, trivial,
      fun _ => trivial, rfl, rfl⟩
  | long word =>
    exact ⟨.long option argument, _, .long hoption hname hlong, hattached, id, rfl, rfl⟩

end Phrase

/-! ### Names that can be written -/

/-- Whether the name makes an entry that gives options, other than `--`. -/
def OptionName.IsWritable : OptionName → Prop
  | .short letter => letter ≠ '-'
  | .long word => word ≠ ""

/-- Names that are told apart from each other and from `--`. -/
structure WellNamed (options : List OptionSpec) : Prop where
  nodup : (optionNames options).Nodup
  writable : ∀ option ∈ options, option.name.IsWritable

lemma FieldEntry.isWritable {entry : FieldEntry} {m : Metadata} {name : OptionName}
    (hfault : name.fault? = none) (h : name ∈ entry.optionNames m) : name.IsWritable := by
  cases name with
  | short letter =>
    rintro rfl
    simp [OptionName.fault?] at hfault
  | long word =>
    have hlong : entry.facet? m .long = some word := by simpa [optionNames] using h
    exact (Metadata.nonEmpty?_eq_some_iff.mp hlong).2

lemma wellNamed_of_compile {keys : KeySet} {spec : Specification}
    (h : Specification.compile keys = .ok spec) : WellNamed spec.options := by
  obtain ⟨hlegal, rfl⟩ := Specification.compile_eq_ok_iff.mp h
  refine ⟨Specification.nodup_options_ofKeys hlegal, ?_⟩
  rw [Specification.options_ofKeys]
  refine List.forall_mem_append.mpr ⟨?_, ?_⟩
  · simp [OptionSpec.builtin, OptionSpec.help, OptionName.helpShort, OptionName.helpLong,
      OptionName.IsWritable]
  · intro option hoption
    have hfault := hlegal.fault?_eq_none option hoption
    obtain ⟨key, _, hkey⟩ := List.mem_flatMap.mp hoption
    obtain ⟨entry, _, hentry⟩ := List.mem_flatMap.mp hkey
    obtain ⟨name, hname, rfl⟩ := List.mem_map.mp hentry
    exact entry.isWritable hfault hname

/-! ### Reading the entries of a phrase -/

/-- Goes on with `rest` after an entry that gives options. -/
def CommandLine.resume (options : List OptionSpec) (posixly : Bool) (rest : List String) :
    Progress → Except Failure CommandLine
  | .complete log => scan options posixly log rest
  | .awaiting log option => match rest with
    | [] => .error (.illegalUse option.name.display .missingArgument)
    | argument :: rest => log.accept option argument >>= (scan options posixly · rest)

section Reading

variable {options : List OptionSpec} {posixly : Bool} {log : OptionLog} {option : OptionSpec}
  {rest : List String}

open CommandLine

lemma scan_of_option {text : String} {entry : OptionEntry}
    (h : Entry.ofText text = .option entry) : scan options posixly log (text :: rest) =
      readOptions options log entry >>= resume options posixly rest := by
  simp only [scan, h]
  cases readOptions options log entry with
  | error failure => rfl
  | ok progress => cases progress <;> rfl

lemma scan_of_positional {text : String} (h : Entry.ofText text = .positional) :
    scan options false log (text :: rest) = scan options false log rest >>= fun line =>
      .ok { line with positionals := text :: line.positionals } := by
  rw [scan, h]
  rfl

lemma readCluster_cons (hnamed : WellNamed options) (hoption : option ∈ options)
    (hshort : option.name.isShort) (letters : List Char) :
    readCluster options log (option.name.letters ++ letters) = log.checkRepeat option >>= fun _ =>
      if option.mode = .required then
        if letters = [] then .ok (.awaiting log option)
        else .ok (.complete (log.add option (.ofList letters)))
      else readCluster options (log.add option option.flagValue) letters := by
  obtain ⟨letter, hname⟩ := OptionName.exists_short hshort
  rw [hname, OptionName.letters, List.singleton_append, readCluster, ← hname,
    lookupOption_name hnamed.nodup hoption]
  rfl

lemma readCluster_flags (hnamed : WellNamed options) {flags : List OptionSpec}
    (hflags : AreFlags options flags) (letters : List Char) :
    readCluster options log (flags.flatMap (·.name.letters) ++ letters) =
      log.acceptAll (flags.map (·.occurrence none)) >>= (readCluster options · letters) := by
  induction flags generalizing log with
  | nil => rfl
  | cons flag flags ih =>
    obtain ⟨⟨hflag, hshort, hmode⟩, hrest⟩ := areFlags_cons.mp hflags
    rw [List.flatMap_cons, List.append_assoc, readCluster_cons hnamed hflag hshort, if_neg hmode]
    simp [accept_of_isShort hshort, ih hrest]

lemma readLong_none (h : option.mode ≠ .required) {word : String}
    (hlookup : lookupOption options (.long word) = .ok option) :
    readLong options log word none =
      log.accept option option.flagValue >>= fun log => .ok (.complete log) := by
  rw [readLong, hlookup, ok_bind]
  cases hmode : option.mode with
  | never | optional => rfl
  | required => exact absurd hmode h

lemma readLong_some (h : option.mode ≠ .never) {word value : String}
    (hlookup : lookupOption options (.long word) = .ok option) :
    readLong options log word (some value) =
      log.accept option value >>= fun log => .ok (.complete log) := by
  rw [readLong, hlookup, ok_bind]
  cases hmode : option.mode with
  | required | optional => rfl
  | never => exact absurd hmode h

lemma readLong_awaiting (h : option.mode = .required) {word : String}
    (hlookup : lookupOption options (.long word) = .ok option) :
    readLong options log word none = .ok (.awaiting log option) := by
  rw [readLong, hlookup, ok_bind, h]
  rfl

/-- A long option is accepted with the argument that it is written with. -/
lemma scan_long (hnamed : WellNamed options) {word : String} {argument : Option Argument}
    (hoption : option ∈ options) (hname : option.name = .long word) (hword : '=' ∉ word.toList)
    (hargument : option.mode.AdmitsLong argument) :
    scan options posixly log (Argument.entries option.name.display "=" argument ++ rest) =
      log.acceptAll [option.occurrence argument] >>= (scan options posixly · rest) := by
  have hempty : word ≠ "" := by
    simpa [hname, OptionName.IsWritable] using hnamed.writable option hoption
  have hlookup : lookupOption options (.long word) = .ok option := by
    rw [← hname, lookupOption_name hnamed.nodup hoption]
  have hbare := (Entry.Reads.long hempty hword).ofText_eq
  rw [hname, OptionName.display]
  rcases argument with _ | ⟨value⟩ | ⟨value⟩
  case none =>
    show scan options posixly log (("--" ++ word) :: rest) = _
    rw [scan_of_option hbare, readOptions, readLong_none hargument hlookup]
    simp [resume]
  case some.inline =>
    show scan options posixly log (("--" ++ word ++ "=" ++ value) :: rest) = _
    rw [scan_of_option (Entry.Reads.assigned value hword).ofText_eq, readOptions,
      readLong_some hargument hlookup]
    simp [resume]
  case some.next =>
    show scan options posixly log (("--" ++ word) :: value :: rest) = _
    rw [scan_of_option hbare, readOptions, readLong_awaiting hargument hlookup]
    simp [resume]

lemma ofText_cluster (hnamed : WellNamed options) {first : OptionSpec} (hfirst : first ∈ options)
    (hshort : first.name.isShort) (letters : List Char) :
    Entry.ofText (.ofList ('-' :: (first.name.letters ++ letters))) =
      .option (.cluster (first.name.letters ++ letters)) := by
  obtain ⟨letter, hname⟩ := OptionName.exists_short hshort
  have hletter : letter ≠ '-' := by
    simpa [hname, OptionName.IsWritable] using hnamed.writable first hfirst
  rw [hname]
  exact (Entry.Reads.cluster letters hletter).ofText_eq

/-- Reading a cluster accepts its flags and goes on at its last letter. -/
lemma scan_flags (hnamed : WellNamed options) {flags : List OptionSpec} {last : OptionSpec}
    (hflags : AreFlags options flags) (hlast : last ∈ options) (hshort : last.name.isShort)
    (more : List Char) :
    scan options posixly log
        (.ofList ('-' :: ((flags ++ [last]).flatMap (·.name.letters) ++ more)) :: rest) =
      log.acceptAll (flags.map (·.occurrence none)) >>= fun log =>
        readCluster options log (last.name.letters ++ more) >>= resume options posixly rest := by
  obtain ⟨first, letters, hfirst, hfirst', hletters⟩ : ∃ first letters, first ∈ options ∧
      first.name.isShort ∧
      (flags ++ [last]).flatMap (·.name.letters) ++ more = first.name.letters ++ letters := by
    cases flags with
    | nil => exact ⟨last, more, hlast, hshort, by simp⟩
    | cons first flags =>
      obtain ⟨⟨hfirst, hfirst', _⟩, _⟩ := areFlags_cons.mp hflags
      exact ⟨first, (flags ++ [last]).flatMap (·.name.letters) ++ more, hfirst, hfirst', by simp⟩
  have hentry := ofText_cluster hnamed hfirst hfirst' letters
  rw [← hletters] at hentry
  rw [scan_of_option hentry, readOptions, List.flatMap_append, List.flatMap_singleton,
    List.append_assoc, readCluster_flags hnamed hflags, bind_assoc]

/-- The options of a cluster are accepted one by one, the last with its argument. -/
lemma scan_cluster (hnamed : WellNamed options) {flags : List OptionSpec} {last : OptionSpec}
    {argument : Option Argument}
    (hflags : AreFlags options flags) (hlast : last ∈ options) (hshort : last.name.isShort)
    (hargument : last.mode.AdmitsShort argument) :
    scan options posixly log ((Phrase.cluster flags last argument).entries ++ rest) =
      log.acceptAll (Phrase.cluster flags last argument).occurrences >>=
        (scan options posixly · rest) := by
  rw [Phrase.entries, Argument.entries_ofList, Phrase.occurrences, acceptAll_append, bind_assoc,
    List.cons_append, List.cons_append, scan_flags hnamed hflags hlast hshort]
  refine bind_congr fun log => ?_
  rcases argument with _ | ⟨value⟩ | ⟨value⟩
  case none =>
    rw [readCluster_cons hnamed hlast hshort, if_neg hargument]
    simp [resume, accept_of_isShort hshort, readCluster]
  case some.inline =>
    rw [readCluster_cons hnamed hlast hshort, if_pos hargument.1]
    simp [resume, accept_of_isShort hshort, hargument.2]
  case some.next =>
    -- the option is checked before its argument is taken and once more with it
    have hmode : last.mode = .required := hargument
    rw [readCluster_cons hnamed hlast hshort, if_pos hmode, last.occurrence_next,
      acceptAll_singleton, ← checkRepeat_accept hshort]
    simp [resume]

/-- Entries that give options are read as the phrase they say, in either scanning mode. -/
lemma scan_entries (hnamed : WellNamed options) {phrase : Phrase} (h : phrase.IsValid options)
    (hspell : phrase.IsSpellable) (hnone : phrase.positionals = []) :
    scan options posixly log (phrase.entries ++ rest) =
      log.acceptAll phrase.occurrences >>= (scan options posixly · rest) := by
  cases h with
  | positional _ => simp [Phrase.positionals] at hnone
  | long hoption hname hargument =>
    exact scan_long hnamed hoption hname (hspell _ hname) hargument
  | cluster hflags hlast hshort hargument =>
    exact scan_cluster hnamed hflags hlast hshort hargument

/-- A positional argument is set aside. -/
lemma scan_positional {text : String} (h : text = "-" ∨ text.toList.head? ≠ some '-') :
    scan options false log (text :: rest) = scan options false log rest >>= fun line =>
      .ok { line with positionals := text :: line.positionals } :=
  scan_of_positional (Entry.Reads.positional h).ofText_eq

end Reading

end DeclaredOptions
