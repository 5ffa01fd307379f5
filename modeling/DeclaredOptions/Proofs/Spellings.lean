import DeclaredOptions.Proofs.FreshEntries
import DeclaredOptions.Proofs.Usability
import Mathlib.Tactic.Common

/-!
# Spellings of an option

What stands after the name of an option in its entry can be said in an entry of its own: the other
letters of a cluster, the argument of a short option, the argument of a long one (`Separates`). A
command line gives the same either way, wherever the entry is read afresh, unless the name of a long
option has `=` in it and another option takes what begins with the part before
(`interchangeable_iff`).
-/

namespace DeclaredOptions

open Steps OptionLog CommandLine

/-- An entry of an option with something after the name, and the entries that say it apart. -/
inductive Separates (option : OptionSpec) : String → List String → Prop
  | flag (letters : String) (hshort : option.name.isShort) (hmode : option.mode ≠ .required)
      (hempty : letters ≠ "") (hdash : letters.toList.head? ≠ some '-') :
      Separates option (option.name.display ++ letters) [option.name.display, "-" ++ letters]
  | argument (value : String) (hshort : option.name.isShort) (hmode : option.mode = .required)
      (hempty : value ≠ "") :
      Separates option (option.name.display ++ value) [option.name.display, value]
  | assigned (value : String) (hlong : ¬option.name.isShort) (hmode : option.mode = .required) :
      Separates option (option.name.display ++ "=" ++ value) [option.name.display, value]

/-- Whether every command line gives the same with `entries` in place of `entry`, where the entry is
read afresh. -/
def Interchangeable (options : List OptionSpec) (entry : String) (entries : List String) : Prop :=
  ∀ (posixly : Bool) (program : String) (before after : List String) (log : OptionLog)
    (positionals : List String), Consumes options posixly [] before log positionals →
      parse options posixly (program :: (before ++ entry :: after)) =
        parse options posixly (program :: (before ++ entries ++ after))

section

variable {options : List OptionSpec} {option : OptionSpec} {posixly : Bool} {log : OptionLog}
  {entry text word rest value letters : String} {entries after : List String}

/-- What is read alike after every log is read alike wherever it is read afresh. -/
lemma interchangeable_of_scan (h : ∀ posixly log after,
      scan options posixly log (entry :: after) = scan options posixly log (entries ++ after)) :
    Interchangeable options entry entries := by
  intro posixly program before after log positionals hbefore
  rw [parse, parse, List.tail_cons, List.tail_cons, List.append_assoc, hbefore.scan_append,
    hbefore.scan_append, h]

/-! ### Short options -/

lemma OptionName.display_append {name : OptionName} (hshort : name.isShort) (text : String) :
    name.display ++ text = .ofList ('-' :: (name.letters ++ text.toList)) := by
  obtain ⟨letter, rfl⟩ := OptionName.exists_short hshort
  rw [← String.toList_inj]
  simp [display, OptionName.letters]

lemma OptionName.display_of_isShort {name : OptionName} (hshort : name.isShort) :
    name.display = .ofList ('-' :: name.letters) := by
  simpa using display_append hshort ""

lemma ofText_letters (hempty : letters ≠ "") (hdash : letters.toList.head? ≠ some '-') :
    Entry.ofText ("-" ++ letters) = .option (.cluster letters.toList) := by
  obtain ⟨letter, more, rfl⟩ := Entry.exists_ofList_cons hempty
  have hletter : letter ≠ '-' := by simpa using hdash
  have htext : "-" ++ String.ofList (letter :: more) = .ofList ('-' :: letter :: more) := by
    rw [← String.toList_inj]
    simp
  rw [htext, (Entry.Reads.cluster more hletter).ofText_eq, String.toList_ofList]

/-- A short option is accepted with the argument that it is written with. -/
lemma scan_short (hnamed : WellNamed options) (hoption : option ∈ options)
    (hshort : option.name.isShort) {argument : Option Argument}
    (hargument : option.mode.AdmitsShort argument) :
    scan options posixly log (Argument.entries option.name.display "" argument ++ after) =
      log.acceptAll [option.occurrence argument] >>= (scan options posixly · after) := by
  have hentries : (Phrase.cluster [] option argument).entries =
      Argument.entries option.name.display "" argument := by
    simp [Phrase.entries, OptionName.display_of_isShort hshort]
  rw [← hentries]
  exact scan_cluster hnamed (areFlags_nil options) hoption hshort hargument

/-- The letters after a flag can stand in an entry of their own. -/
lemma scan_flag (hnamed : WellNamed options) (hoption : option ∈ options)
    (hshort : option.name.isShort) (hmode : option.mode ≠ .required) (hempty : letters ≠ "")
    (hdash : letters.toList.head? ≠ some '-') :
    scan options posixly log ((option.name.display ++ letters) :: after) =
      scan options posixly log (option.name.display :: ("-" ++ letters) :: after) := by
  have htext : Entry.ofText (option.name.display ++ letters) =
      .option (.cluster (option.name.letters ++ letters.toList)) := by
    rw [OptionName.display_append hshort]
    exact ofText_cluster hnamed hoption hshort _
  have hbare : option.mode.AdmitsShort none := hmode
  have hcluster : readCluster options log (option.name.letters ++ letters.toList) =
      log.acceptAll [option.occurrence none] >>= (readCluster options · letters.toList) := by
    simpa using readCluster_flags hnamed (areFlags_cons.mpr ⟨⟨hoption, hshort, hmode⟩,
      areFlags_nil options⟩) letters.toList
  have hflag : scan options posixly log (option.name.display :: ("-" ++ letters) :: after) =
      log.acceptAll [option.occurrence none] >>=
        (scan options posixly · (("-" ++ letters) :: after)) :=
    scan_short hnamed hoption hshort hbare
  rw [scan_of_option htext, readOptions, hcluster, hflag, bind_assoc]
  refine bind_congr fun next => ?_
  rw [scan_of_option (ofText_letters hempty hdash), readOptions]

/-- The argument of a short option can stand in an entry of its own. -/
lemma scan_argument (hnamed : WellNamed options) (hoption : option ∈ options)
    (hshort : option.name.isShort) (hmode : option.mode = .required) (hempty : value ≠ "") :
    scan options posixly log ((option.name.display ++ value) :: after) =
      scan options posixly log (option.name.display :: value :: after) := by
  have hinline : option.mode.AdmitsShort (some (.inline value)) := ⟨hmode, hempty⟩
  have hnext : option.mode.AdmitsShort (some (.next value)) := hmode
  have hentries : Argument.entries option.name.display "" (some (.inline value)) =
      [option.name.display ++ value] := by
    rw [Argument.entries, String.append_empty]
  exact (hentries ▸ scan_short hnamed hoption hshort hinline).trans
    (scan_short hnamed hoption hshort hnext).symm

/-! ### Long options -/

/-- The argument of a long option can stand in an entry of its own, if the name has no `=` in it. -/
lemma scan_assigned_apart (hnamed : WellNamed options) (hoption : option ∈ options)
    (hname : option.name = .long word) (hword : '=' ∉ word.toList)
    (hmode : option.mode = .required) :
    scan options posixly log ((option.name.display ++ "=" ++ value) :: after) =
      scan options posixly log (option.name.display :: value :: after) := by
  have hinline : option.mode.AdmitsLong (some (.inline value)) := by
    rw [hmode]
    exact nofun
  have hnext : option.mode.AdmitsLong (some (.next value)) := hmode
  exact (scan_long hnamed hoption hname hword hinline).trans
    (scan_long hnamed hoption hname hword hnext).symm

/-! ### Entries that another option takes -/

lemma accept_nil : accept [] option value = .ok [⟨option, value⟩] := by
  have hcounts : ¬Ignores [] option := by simp [Ignores, ShortSupplied]
  rw [accept_of_not_ignores hcounts, checkRepeat_eq_ok_iff.mpr (by simp)]
  rfl

/-- What is in a log stays there. -/
lemma invariant_mem (options : List OptionSpec) (occurrence : Occurrence) :
    Invariant options (occurrence ∈ ·) fun _ => True where
  long _ _ := trivial
  short _ := trivial
  add _ hlog _ _ := List.mem_append_left _ hlog

/-- The other option gets the rest of the name, with the argument behind it in one spelling and
without it in the other. -/
lemma not_interchangeable_of_isOvertaken (hnamed : WellNamed options)
    (h : option.name.IsOvertaken options) :
    ¬Interchangeable options (option.name.display ++ "=" ++ value)
      [option.name.display, value] := by
  intro hsame
  obtain ⟨other, hother, hmode, word, rest, hlong, hword, hname⟩ := h
  have hlookup : lookupOption options (.long word) = .ok other := by
    rw [← hlong, lookupOption_name hnamed.nodup hother]
  obtain ⟨hbare, hassigned⟩ := OptionName.display_cut hname value
  have hparse : scan options false [] [option.name.display ++ "=" ++ value] =
      scan options false [] [option.name.display, value] := hsame false "" [] [] [] [] (.nil [])
  rw [hassigned, hbare, scan_cut hword, scan_cut hword, readLong_some hmode hlookup,
    readLong_some hmode hlookup, accept_nil, accept_nil] at hparse
  have hgiven : (⟨other, rest⟩ : Occurrence) ∈ [(⟨other, rest ++ "=" ++ value⟩ : Occurrence)] :=
    (invariant_mem options ⟨other, rest⟩).scan (List.mem_singleton_self _) hparse.symm
  have hvalue : rest = rest ++ "=" ++ value := by simpa using hgiven
  have hlength := congrArg String.length hvalue
  rw [String.length_append, String.length_append, show "=".length = 1 from rfl] at hlength
  omega

/-- Where no other option takes the entries of a long option, its argument can stand apart. -/
lemma scan_assigned_of_not_isOvertaken (hnamed : WellNamed options) (hoption : option ∈ options)
    (hlong : ¬option.name.isShort) (hmode : option.mode = .required)
    (hnone : ¬option.name.IsOvertaken options) :
    scan options posixly log ((option.name.display ++ "=" ++ value) :: after) =
      scan options posixly log (option.name.display :: value :: after) := by
  by_cases hspell : option.name.IsSpellable
  · cases hname : option.name with
    | short letter => simp [hname, OptionName.isShort] at hlong
    | long word => exact hname ▸ scan_assigned_apart hnamed hoption hname (hspell _ hname) hmode
  · obtain ⟨failure, hrefused⟩ := exists_scan_eq_error hspell hnone
    rw [(hrefused posixly log _).1, (hrefused posixly log after).2]

end

/-- What stands after the name of an option can be said apart in every command line, unless another
option takes the entries that begin with the name. -/
theorem interchangeable_iff {keys : KeySet} {spec : Specification}
    (hcompile : Specification.compile keys = .ok spec) {option : OptionSpec}
    (hoption : option ∈ spec.options) {entry : String} {entries : List String}
    (h : Separates option entry entries) :
    Interchangeable spec.options entry entries ↔ ¬option.name.IsOvertaken spec.options := by
  have hnamed := wellNamed_of_compile hcompile
  have hfree (hshort : option.name.isShort) : ¬option.name.IsOvertaken spec.options := by
    obtain ⟨letter, hname⟩ := OptionName.exists_short hshort
    rw [hname]
    exact OptionName.not_isOvertaken (OptionName.isSpellable_short letter)
  cases h with
  | flag _ hshort hmode hempty hdash =>
    refine iff_of_true (interchangeable_of_scan fun posixly log after => ?_) (hfree hshort)
    exact scan_flag hnamed hoption hshort hmode hempty hdash
  | argument _ hshort hmode hempty =>
    refine iff_of_true (interchangeable_of_scan fun posixly log after => ?_) (hfree hshort)
    exact scan_argument hnamed hoption hshort hmode hempty
  | assigned _ hlong hmode =>
    constructor
    · intro hsame hovertaken
      exact not_interchangeable_of_isOvertaken hnamed hovertaken hsame
    · intro hnone
      exact interchangeable_of_scan fun posixly log after =>
        scan_assigned_of_not_isOvertaken hnamed hoption hlong hmode hnone

open Specification in
theorem interchangeable_sample : compile sampleKeys = .ok sample ∧
    Interchangeable sample.options "-vl3" ["-v", "-l3"] ∧
    Interchangeable sample.options "-l--" ["-l", "--"] ∧
    Interchangeable sample.options "--level=3=" ["--level", "3="] := by
  have hshort (letter : Char) : ¬(OptionName.short letter).IsOvertaken sample.options :=
    OptionName.not_isOvertaken (OptionName.isSpellable_short letter)
  have hlong : ¬(OptionName.long "level").IsOvertaken sample.options :=
    OptionName.not_isOvertaken (OptionName.isSpellable_long.mpr (by decide))
  have hflag : Separates verboseOption "-vl3" ["-v", "-l3"] :=
    .flag "l3" rfl (by decide) (by decide) (by decide)
  have hargument : Separates (levelOption (.short 'l')) "-l--" ["-l", "--"] :=
    .argument "--" rfl rfl (by decide)
  have hassigned : Separates (levelOption (.long "level")) "--level=3=" ["--level", "3="] :=
    .assigned "3=" nofun rfl
  refine ⟨compile_sampleKeys, ?_, ?_, ?_⟩
  · exact (interchangeable_iff compile_sampleKeys (by simp [options_sample]) hflag).mpr (hshort 'v')
  · exact (interchangeable_iff compile_sampleKeys (by simp [options_sample]) hargument).mpr
      (hshort 'l')
  · exact (interchangeable_iff compile_sampleKeys (by simp [options_sample]) hassigned).mpr hlong

/-! ### An option whose entries another one takes -/

/-- Two keys with long options, the name of one of which begins with the other name and `=`. -/
def nestedKeys : KeySet := .ofList Key.name [
  { name := ⟨.spec, ["inner"], by decide⟩, metadata := .ofList Prod.fst [("opt/long", "a")] },
  { name := ⟨.spec, ["outer"], by decide⟩, metadata := .ofList Prod.fst [("opt/long", "a=b")] }]

/-- The option that the key of this name declares. -/
def nestedOption (segment word : String) (h : IsSegment segment) : OptionSpec where
  name := .long word
  mode := .required
  flagValue := "1"
  placeholder := "ARG"
  hidden := false
  owner := .key ⟨.spec, [segment], by simpa using h⟩

/-- The option `--a`. -/
def innerOption : OptionSpec := nestedOption "inner" "a" (by decide)

/-- The option `--a=b`. -/
def outerOption : OptionSpec := nestedOption "outer" "a=b" (by decide)

/-- The argument of the longer name cannot be said apart: the other option takes both spellings, and
one of them leaves a positional argument. -/
theorem not_interchangeable_nestedKeys : ∃ spec, Specification.compile nestedKeys = .ok spec ∧
    outerOption ∈ spec.options ∧ Separates outerOption "--a=b=c" ["--a=b", "c"] ∧
    parse spec.options false ["prog", "--a=b=c"] = .ok ⟨[⟨innerOption, "b=c"⟩], []⟩ ∧
    parse spec.options false ["prog", "--a=b", "c"] = .ok ⟨[⟨innerOption, "b"⟩], ["c"]⟩ ∧
    ¬Interchangeable spec.options "--a=b=c" ["--a=b", "c"] := by
  have hinline : parse (OptionSpec.builtin ++ [innerOption, outerOption]) false
      ["prog", "--a=b=c"] = .ok ⟨[⟨innerOption, "b=c"⟩], []⟩ := rfl
  have hapart : parse (OptionSpec.builtin ++ [innerOption, outerOption]) false
      ["prog", "--a=b", "c"] = .ok ⟨[⟨innerOption, "b"⟩], ["c"]⟩ := rfl
  refine ⟨.ofKeys (nestedKeys.inSpace .spec), rfl, ?_, ?_, hinline, hapart, ?_⟩
  · exact List.mem_append_right _ (List.mem_cons_of_mem _ (List.mem_singleton_self _))
  · exact .assigned "c" nofun rfl
  · intro hsame
    have hequal := (hinline.symm.trans (hsame false "prog" [] [] [] [] (.nil []))).trans hapart
    simp at hequal

end DeclaredOptions
