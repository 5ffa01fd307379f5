import DeclaredOptions.Proofs.Grammar
import DeclaredOptions.Proofs.Offers
import Mathlib.Tactic.Common

/-!
# The order of options

Two command lines may give the same options in different orders. Where each option keeps its own
order, nothing that is resolved differs (`agree_of_interleaves`): their logs differ just in long
options that follow a short one of their key in one of them, and for such a key the short options
decide in both. This needs that no name is taken for another one, as it may be if it has an equals
sign in it: then the order of two options is the order of the values of one.
-/

namespace DeclaredOptions

open Steps OptionLog CommandLine

/-! ### The same items in another order -/

/-- Whether two lists hold the same items, those with one label in the same order. -/
def SameBy {α β : Type} [DecidableEq β] (label : α → β) (first second : List α) : Prop :=
  ∀ b, first.filter (label · = b) = second.filter (label · = b)

instance {α β : Type} [DecidableEq α] [DecidableEq β] (label : α → β) (first second : List α) :
    Decidable (SameBy label first second) :=
  decidable_of_iff (∀ a ∈ first ++ second, first.filter (label · = label a) =
      second.filter (label · = label a)) <| by
    constructor
    · intro hall b
      by_cases hb : ∃ a ∈ first ++ second, label a = b
      · obtain ⟨a, ha, rfl⟩ := hb
        exact hall a ha
      · simp only [List.mem_append, not_exists, not_and] at hb
        rw [List.filter_eq_nil_iff.mpr (by simpa using fun a ha => hb a (Or.inl ha)),
          List.filter_eq_nil_iff.mpr (by simpa using fun a ha => hb a (Or.inr ha))]
    · intro h a _
      exact h (label a)

lemma SameBy.mem_iff {α β : Type} [DecidableEq β] {label : α → β} {first second : List α}
    (h : SameBy label first second) {a : α} : a ∈ first ↔ a ∈ second := by
  have hfilter := congrArg (a ∈ ·) (h (label a))
  simpa using hfilter

/-! ### The same occurrences in another order -/

section Logs

variable {first second : List Occurrence} {option : OptionSpec} {name : OptionName}

lemma SameBy.ignores_iff (h : SameBy (·.option.name) first second) :
    Ignores first option ↔ Ignores second option := by
  simp only [Ignores, ShortSupplied, h.mem_iff]

/-- A name that is never ignored has the same occurrences in both logs. -/
lemma SameBy.filter_counted (h : SameBy (·.option.name) first second)
    (hcounts : ∀ occurrence ∈ first, occurrence.option.name = name →
      ¬Ignores first occurrence.option) :
    (counted [] first).filter (·.option.name = name) =
      (counted [] second).filter (·.option.name = name) := by
  rw [OptionLog.filter_counted, OptionLog.filter_counted, h name]
  · intro occurrence hmem hname
    rw [List.nil_append, ← h.ignores_iff]
    exact hcounts occurrence (h.mem_iff.mpr hmem) hname
  · simpa using hcounts

end Logs

/-! ### Resolution from logs -/

namespace Inputs

variable {inputs inputs' : Inputs} {binding : Binding}

lemma eq_none_of_choose {key : KeyName} {found : Option Resolution}
    {offers : List (Option Resolution)} (h : choose key found offers = .ok none) :
    found = none ∧ ∀ offer ∈ offers, offer = none := by
  induction offers generalizing found with
  | nil =>
    cases h
    simp
  | cons offer offers ih =>
    match offer, found with
    | none, found => simpa using ih h
    | some offer, none => simpa using ih h
    | some offer, some first => cases h

lemma ofOption_congr {kind : Kind} {source : Source} {name : OptionName}
    (h : inputs.line.log.values name = inputs'.line.log.values name) :
    inputs.ofOption kind source name = inputs'.ofOption kind source name := by
  simp only [ofOption, h]

lemma ofOption_ne_none {kind : Kind} {source : Source} {name : OptionName}
    (h : inputs.line.log.Gives name) : inputs.ofOption kind source name ≠ none := by
  obtain ⟨resolution, hoffer, _⟩ := exists_ofOption_of_gives h kind source
  simp [hoffer]

end Inputs

/-! ### The same phrases in another order -/

namespace Phrase

/-- Whether a phrase gives at most one option. -/
def IsSimple : Phrase → Prop
  | cluster flags _ _ => flags = []
  | _ => True

/-- The name of the option that a simple phrase gives. -/
def name? : Phrase → Option OptionName
  | positional _ => none
  | long option _ | cluster _ option _ => some option.name

lemma filter_occurrences_eq_nil {phrase : Phrase} {name : OptionName} (h : phrase.IsSimple)
    (hname : phrase.name? ≠ some name) : phrase.occurrences.filter (·.option.name = name) = [] := by
  cases phrase with
  | positional text => rfl
  | long option argument => simpa [occurrences, name?] using hname
  | cluster flags last argument =>
    cases h
    simpa [occurrences, name?] using hname

lemma positionals_eq_nil {phrase : Phrase} (hname : phrase.name? ≠ none) :
    phrase.positionals = [] := by
  cases phrase with
  | positional text => exact absurd rfl hname
  | long option argument => rfl
  | cluster flags last argument => rfl

lemma IsValid.option_mem {options : List OptionSpec} {phrase : Phrase}
    (h : phrase.IsValid options) :
    ∀ occurrence ∈ phrase.occurrences, occurrence.option ∈ options := by
  cases h with
  | positional _ => simp [occurrences]
  | long hoption _ _ => simpa [occurrences] using hoption
  | cluster hflags hlast _ _ =>
    simp only [occurrences, List.forall_mem_append, List.forall_mem_map, List.forall_mem_singleton]
    exact ⟨fun flag hflag => (hflags flag hflag).1, hlast⟩

end Phrase

namespace Sentence

variable {first second : Sentence}

/-- Whether two sentences give the same options, one in a phrase, and the same positional arguments,
where only what has different names changes its order. -/
structure Interleaves (first second : Sentence) : Prop where
  simple : ∀ phrase ∈ first.phrases, phrase.IsSimple
  phrases : SameBy Phrase.name? first.phrases second.phrases
  leftover : first.leftover = second.leftover

lemma IsValid.option_mem {options : List OptionSpec} {sentence : Sentence}
    (h : sentence.IsValid options) :
    ∀ occurrence ∈ sentence.occurrences, occurrence.option ∈ options := by
  intro occurrence hmem
  obtain ⟨phrase, hphrase, hmem⟩ := List.mem_flatMap.mp hmem
  exact (h phrase hphrase).option_mem occurrence hmem

lemma filter_occurrences (hsimple : ∀ phrase ∈ first.phrases, phrase.IsSimple) (name : OptionName) :
    first.occurrences.filter (·.option.name = name) =
      (first.phrases.filter (·.name? = some name)).flatMap fun phrase =>
        phrase.occurrences.filter (·.option.name = name) := by
  rw [occurrences, List.filter_flatMap, flatMap_filter]
  intro phrase hphrase hname
  exact Phrase.filter_occurrences_eq_nil (hsimple phrase hphrase) (by simpa using hname)

lemma positionals_eq (sentence : Sentence) : sentence.positionals =
    (sentence.phrases.filter (·.name? = none)).flatMap Phrase.positionals ++
      sentence.leftover.getD [] := by
  rw [positionals, flatMap_filter]
  intro phrase _ hname
  exact Phrase.positionals_eq_nil (by simpa using hname)

namespace Interleaves

lemma occurrences (h : first.Interleaves second) :
    SameBy (·.option.name) first.occurrences second.occurrences := by
  intro name
  have hsimple : ∀ phrase ∈ second.phrases, phrase.IsSimple := fun phrase hphrase =>
    h.simple phrase (h.phrases.mem_iff.mpr hphrase)
  rw [filter_occurrences h.simple, filter_occurrences hsimple, h.phrases]

lemma positionals (h : first.Interleaves second) : first.positionals = second.positionals := by
  rw [positionals_eq, positionals_eq, h.phrases, h.leftover]

lemma isValid {options : List OptionSpec} (h : first.Interleaves second)
    (hvalid : first.IsValid options) : second.IsValid options := fun phrase hphrase =>
  hvalid phrase (h.phrases.mem_iff.mpr hphrase)

lemma isSpellable (h : first.Interleaves second) (hspell : first.IsSpellable) :
    second.IsSpellable := fun phrase hphrase => hspell phrase (h.phrases.mem_iff.mpr hphrase)

end Interleaves

/-! ### Names that are taken for others -/

/-- Whether no option of a sentence has a name that makes its entries give another option. -/
def NoneOvertaken (options : List OptionSpec) (sentence : Sentence) : Prop :=
  ∀ phrase ∈ sentence.phrases, ∀ name ∈ phrase.name?, ¬name.IsOvertaken options

end Sentence

section

variable {options : List OptionSpec}

/-- A phrase that entries cannot spell is refused, unless another option takes its entries. -/
lemma Phrase.exists_scan_eq_error {phrase : Phrase} (hspell : ¬phrase.IsSpellable)
    (hnone : ∀ name ∈ phrase.name?, ¬name.IsOvertaken options) : ∃ failure, ∀ log rest,
      scan options false log (phrase.entries ++ rest) = .error failure := by
  cases phrase with
  | positional text | cluster flags last argument => exact absurd trivial hspell
  | long option argument =>
    obtain ⟨failure, hrefused⟩ := DeclaredOptions.exists_scan_eq_error hspell (hnone _ rfl)
    refine ⟨failure, fun log rest => ?_⟩
    rcases argument with _ | ⟨value⟩ | ⟨value⟩
    · exact (hrefused false log rest).1
    · exact (hrefused false log rest).2 value
    · exact (hrefused false log (value :: rest)).1

/-- Where no other option takes the entries of a sentence, it is accepted only if entries can spell
it. -/
lemma Sentence.isSpellable_of_scan (hnamed : WellNamed options) {sentence : Sentence}
    (hvalid : sentence.IsValid options) (hnone : sentence.NoneOvertaken options)
    {log : OptionLog} {line : CommandLine}
    (h : scan options false log sentence.entries = .ok line) : sentence.IsSpellable := by
  obtain ⟨phrases, leftover⟩ := sentence
  induction phrases generalizing log line with
  | nil => simp [IsSpellable]
  | cons phrase phrases ih =>
    obtain ⟨hphrase, hvalid⟩ := List.forall_mem_cons.mp hvalid
    obtain ⟨hfree, hnone⟩ := List.forall_mem_cons.mp hnone
    rw [entries_cons] at h
    by_cases hspell : phrase.IsSpellable
    · rw [scan_phrase hnamed hphrase hspell] at h
      obtain ⟨next, _, hnext⟩ := bind_eq_ok_iff.mp h
      obtain ⟨line', hrest, _⟩ := bind_eq_ok_iff.mp hnext
      exact List.forall_mem_cons.mpr ⟨hspell, ih hvalid hnone hrest⟩
    · obtain ⟨failure, hrefused⟩ := phrase.exists_scan_eq_error hspell hfree
      rw [hrefused] at h
      cases h

end

/-! ### The same resolution -/

section Resolving

variable {keys : KeySet} {spec : Specification} {first second : Sentence} {binding : Binding}
  {environment : Environment} {separator : Char} {name : OptionName}

namespace Sentence

/-- What a sentence gives in an environment. -/
def inputs (sentence : Sentence) (environment : Environment) (separator : Char) : Inputs :=
  ⟨sentence.line, environment, separator⟩

lemma Interleaves.values (h : first.Interleaves second)
    (hcounts : ∀ occurrence ∈ first.occurrences, occurrence.option.name = name →
      ¬Ignores first.occurrences occurrence.option) :
    first.line.log.values name = second.line.log.values name := by
  rw [OptionLog.values, OptionLog.values, line, line, h.occurrences.filter_counted hcounts]

/-- Help is asked for in both or in none. -/
lemma Interleaves.helpRequested_iff (hnodup : (optionNames spec.options).Nodup)
    (hvalid : first.IsValid spec.options) (h : first.Interleaves second) :
    first.line.HelpRequested ↔ second.line.HelpRequested := by
  have hgives {name : OptionName} (hname : OptionSpec.help name ∈ spec.options) :
      first.line.log.Gives name ↔ second.line.log.Gives name := by
    rw [gives_iff, gives_iff, line, line, h.occurrences.filter_counted]
    intro occurrence hmem heq
    have hhelp := List.inj_on_of_nodup_map hnodup (hvalid.option_mem occurrence hmem) hname heq
    exact not_ignores_of_help (by rw [hhelp]; rfl)
  exact or_congr (hgives (by simp [Specification.options, OptionSpec.builtin]))
    (hgives (by simp [Specification.options, OptionSpec.builtin]))

lemma Interleaves.offers_shortOption (h : first.Interleaves second) :
    (first.inputs environment separator).offers binding .shortOption =
      (second.inputs environment separator).offers binding .shortOption := by
  apply List.map_congr_left
  intro option hoption
  apply Inputs.ofOption_congr
  apply h.values
  intro occurrence _ hname
  apply not_ignores_of_isShort
  rw [hname]
  simpa using (List.mem_filter.mp hoption).2

/-- Where no short option of a key is given, its long options count. -/
lemma Interleaves.offers_longOption (hcompile : Specification.compile keys = .ok spec)
    (hvalid : first.IsValid spec.options) (h : first.Interleaves second)
    (hbinding : binding ∈ spec.bindings)
    (hnone : Inputs.choose binding.key none
      ((first.inputs environment separator).offers binding .shortOption) = .ok none) :
    (first.inputs environment separator).offers binding .longOption =
      (second.inputs environment separator).offers binding .longOption := by
  apply List.map_congr_left
  intro option hoption
  apply Inputs.ofOption_congr
  apply h.values
  rintro occurrence hmem hname ⟨_, _, _, given, hgiven, hshort, howner⟩
  have hoption := (List.mem_filter.mp hoption).1
  have hsame : occurrence.option = option :=
    List.inj_on_of_nodup_map (wellNamed_of_compile hcompile).nodup
      (hvalid.option_mem occurrence hmem)
      (Specification.mem_options_of_mem_bindings hbinding hoption) hname
  rw [hsame, Specification.owner_of_mem_bindings hcompile hbinding hoption] at howner
  have hlisted := Specification.mem_options_of_owner hcompile hbinding
    (hvalid.option_mem given hgiven) howner
  -- the short option that was given offers its value
  have hgives : (first.inputs environment separator).line.log.Gives given.option.name :=
    ⟨given, (mem_counted_iff_of_isShort hshort).mpr hgiven, rfl⟩
  apply Inputs.ofOption_ne_none hgives
  exact (Inputs.eq_none_of_choose hnone).2 _
    (List.mem_map_of_mem (List.mem_filter.mpr ⟨hlisted, hshort⟩))

lemma Interleaves.resolve (hcompile : Specification.compile keys = .ok spec)
    (hvalid : first.IsValid spec.options) (h : first.Interleaves second)
    (hbinding : binding ∈ spec.bindings) :
    (first.inputs environment separator).resolve binding =
      (second.inputs environment separator).resolve binding := by
  apply Inputs.resolve_congr
  · exact h.offers_shortOption
  · exact h.offers_longOption hcompile hvalid hbinding
  · rfl
  · simp only [Inputs.offers, inputs, line, h.positionals]

end Sentence

/-- The order of options does not matter. Where two command lines say the same phrases, of one
option each, just the order between different options and positional arguments differs, and none of
the names gives another option, they have the same positional arguments, ask for help alike and
resolve every binding alike. -/
theorem CommandLine.agree_of_interleaves (hcompile : Specification.compile keys = .ok spec)
    (hvalid : first.IsValid spec.options) (hnone : first.NoneOvertaken spec.options)
    (h : first.Interleaves second) {program : String} {line line' : CommandLine}
    (hfirst : parse spec.options false (program :: first.entries) = .ok line)
    (hsecond : parse spec.options false (program :: second.entries) = .ok line') :
    line.positionals = line'.positionals ∧ (line.HelpRequested ↔ line'.HelpRequested) ∧
      ∀ environment separator, ∀ binding ∈ spec.bindings,
        Inputs.resolve ⟨line, environment, separator⟩ binding =
          Inputs.resolve ⟨line', environment, separator⟩ binding := by
  have hnamed := wellNamed_of_compile hcompile
  have hspell := Sentence.isSpellable_of_scan hnamed hvalid hnone hfirst
  -- an accepted sentence gives its own line
  obtain ⟨_, rfl⟩ := (scan_sentence_eq_ok_iff hnamed hvalid hspell).mp hfirst
  obtain ⟨_, rfl⟩ := (scan_sentence_eq_ok_iff hnamed (h.isValid hvalid) (h.isSpellable hspell)).mp
    hsecond
  refine ⟨h.positionals, h.helpRequested_iff hnamed.nodup hvalid, ?_⟩
  intro environment separator binding hbinding
  exact h.resolve hcompile hvalid hbinding

end Resolving

open Specification in
/-- A long option is in the log before the short option of its key, and not after it. -/
theorem CommandLine.agree_sample :
    let line : CommandLine :=
      ⟨[⟨levelOption (.long "level"), "1"⟩, ⟨levelOption (.short 'l'), "2"⟩], ["in"]⟩
    let line' : CommandLine := ⟨[⟨levelOption (.short 'l'), "2"⟩], ["in"]⟩
    compile sampleKeys = .ok sample ∧
      parse sample.options false ["prog", "--level=1", "in", "-l", "2"] = .ok line ∧
      parse sample.options false ["prog", "-l", "2", "--level=1", "in"] = .ok line' ∧
      line.positionals = line'.positionals ∧ (line.HelpRequested ↔ line'.HelpRequested) ∧
      ∀ environment separator, ∀ binding ∈ sample.bindings,
        Inputs.resolve ⟨line, environment, separator⟩ binding =
          Inputs.resolve ⟨line', environment, separator⟩ binding := by
  intro line line'
  have hfirst : parse sample.options false ["prog", "--level=1", "in", "-l", "2"] = .ok line := rfl
  have hsecond :
      parse sample.options false ["prog", "-l", "2", "--level=1", "in"] = .ok line' := rfl
  let long : Phrase := .long (levelOption (.long "level")) (some (.inline "1"))
  let short : Phrase := .cluster [] (levelOption (.short 'l')) (some (.next "2"))
  have hlong : long.IsValid sample.options := .long (by simp [options_sample]) rfl
    (by simp [levelOption, ArgumentMode.AdmitsLong])
  have hshort : short.IsValid sample.options :=
    .cluster (by simp) (by simp [options_sample]) rfl rfl
  have hvalid : Sentence.IsValid sample.options ⟨[long, .positional "in", short], none⟩ := by
    simp only [Sentence.IsValid, List.forall_mem_cons]
    exact ⟨hlong, .positional (by decide), hshort, by simp⟩
  have hsame : Sentence.Interleaves ⟨[long, .positional "in", short], none⟩
      ⟨[short, long, .positional "in"], none⟩ :=
    ⟨by simp [long, short, Phrase.IsSimple], by decide, rfl⟩
  have hnone : Sentence.NoneOvertaken sample.options ⟨[long, .positional "in", short], none⟩ := by
    have hfree : ¬(OptionName.long "level").IsOvertaken sample.options :=
      OptionName.not_isOvertaken (OptionName.isSpellable_long.mpr (by decide))
    have hfree' : ¬(OptionName.short 'l').IsOvertaken sample.options :=
      OptionName.not_isOvertaken (OptionName.isSpellable_short 'l')
    simpa [Sentence.NoneOvertaken, long, short, Phrase.name?, levelOption] using ⟨hfree, hfree'⟩
  exact ⟨compile_sampleKeys, hfirst, hsecond,
    agree_of_interleaves compile_sampleKeys hvalid hnone hsame hfirst hsecond⟩

/-! ### An option whose entries give another one -/

/-- Two keys for lists with long options, the name of one of which begins with the other name and
`=`. -/
def overtakenKeys : KeySet := .ofList Key.name [
  { name := ⟨.spec, ["first", "#"], by decide⟩, metadata := .ofList Prod.fst [("opt/long", "a")] },
  { name := ⟨.spec, ["second", "#"], by decide⟩,
    metadata := .ofList Prod.fst [("opt/long", "a=b")] }]

/-- The option of a list that the key of this name declares. -/
def listedOption (segment word : String) (h : IsSegment segment) : OptionSpec where
  name := .long word
  mode := .required
  flagValue := "1"
  placeholder := "ARG"
  hidden := false
  owner := .key ⟨.spec, [segment, "#"], by simpa using ⟨h, by decide⟩⟩

/-- The option `--a` with an argument. -/
def innerPhrase : Phrase := .long (listedOption "first" "a" (by decide)) (some (.inline "1"))

/-- The option `--a=b` with an argument. -/
def outerPhrase : Phrase := .long (listedOption "second" "a=b" (by decide)) (some (.inline "2"))

/-- The order of different options matters where the entries of both give one of them. -/
theorem CommandLine.not_agree_overtakenKeys : ∃ spec line line',
    Specification.compile overtakenKeys = .ok spec ∧
    Sentence.IsValid spec.options ⟨[innerPhrase, outerPhrase], none⟩ ∧
    Sentence.Interleaves ⟨[innerPhrase, outerPhrase], none⟩ ⟨[outerPhrase, innerPhrase], none⟩ ∧
    parse spec.options false
      ("prog" :: Sentence.entries ⟨[innerPhrase, outerPhrase], none⟩) = .ok line ∧
    parse spec.options false
      ("prog" :: Sentence.entries ⟨[outerPhrase, innerPhrase], none⟩) = .ok line' ∧
    ∃ binding ∈ spec.bindings,
      Inputs.resolve ⟨line, ∅, ':'⟩ binding =
        .ok (some ⟨.longOption, "--a", .array ["1", "b=2"]⟩) ∧
      Inputs.resolve ⟨line', ∅, ':'⟩ binding =
        .ok (some ⟨.longOption, "--a", .array ["b=2", "1"]⟩) := by
  let listed := listedOption "first" "a" (by decide)
  have hoptions : (Specification.ofKeys (overtakenKeys.inSpace .spec)).options =
      OptionSpec.builtin ++ [listed, listedOption "second" "a=b" (by decide)] := rfl
  refine ⟨.ofKeys (overtakenKeys.inSpace .spec), ⟨[⟨listed, "1"⟩, ⟨listed, "b=2"⟩], []⟩,
    ⟨[⟨listed, "b=2"⟩, ⟨listed, "1"⟩], []⟩, rfl, ?_, ?_, rfl, rfl, ?_⟩
  · simp only [Sentence.IsValid, List.forall_mem_cons, hoptions]
    exact ⟨.long (by simp [listed]) rfl (by simp [listedOption, ArgumentMode.AdmitsLong]),
      .long (by simp) rfl (by simp [listedOption, ArgumentMode.AdmitsLong]), by simp⟩
  · exact ⟨by simp [innerPhrase, outerPhrase, Phrase.IsSimple], by decide, rfl⟩
  · exact ⟨_, List.mem_of_getElem? (i := 0) rfl, rfl, rfl⟩

end DeclaredOptions
