import DeclaredOptions.Proofs.LogInvariants
import DeclaredOptions.Proofs.Phrases
import Mathlib.Tactic.Common

/-!
# Long names with an equals sign

An entry names a long option by what stands before its first `=`, so an option with `=` in its name
is never read (`isSpellable_of_scan`). An entry that begins with such a name gives the option that
has the part before the first `=` as its name, if there is one that takes an argument; else it is
refused (`exists_scan_eq_error`).
-/

namespace DeclaredOptions

open Steps OptionLog CommandLine

/-! ### What is read can be spelled -/

section Reading

variable {options : List OptionSpec} {posixly : Bool} {log : OptionLog}

/-- Whether entries can give all options of a log. -/
def OptionLog.IsSpellable (log : OptionLog) : Prop :=
  ∀ occurrence ∈ log, occurrence.option.name.IsSpellable

lemma invariant_isSpellable (options : List OptionSpec) :
    Invariant options IsSpellable fun option => option.name.IsSpellable where
  long {word option} hword hlookup := by
    rw [(lookupOption_eq_ok hlookup).2]
    exact OptionName.isSpellable_long.mpr hword
  short {letter option} hlookup := by
    rw [(lookupOption_eq_ok hlookup).2]
    exact OptionName.isSpellable_short letter
  add value hlog hoption _ :=
    List.forall_mem_append.mpr ⟨hlog, List.forall_mem_singleton.mpr hoption⟩

/-- Whatever the mode, an option that was read from entries can be spelled. -/
lemma isSpellable_of_scan {entries : List String} {line : CommandLine} (hlog : log.IsSpellable)
    (h : scan options posixly log entries = .ok line) : line.log.IsSpellable :=
  (invariant_isSpellable options).scan hlog h

end Reading

/-! ### Entries that another option takes -/

/-- Whether entries that begin with the name give another option, which takes an argument: the name
goes on with `=` after that of the other option. -/
def OptionName.IsOvertaken (options : List OptionSpec) (name : OptionName) : Prop :=
  ∃ other ∈ options, other.mode ≠ .never ∧ ∃ word rest, other.name = .long word ∧
    '=' ∉ word.toList ∧ name = .long (word ++ "=" ++ rest)

section

variable {options : List OptionSpec} {posixly : Bool} {log : OptionLog} {name : OptionName}
  {word rest value : String} {after : List String}

lemma OptionName.not_isOvertaken (h : name.IsSpellable) : ¬name.IsOvertaken options := by
  rintro ⟨other, _, _, word, rest, _, _, hname⟩
  exact h _ hname (by simp)

lemma OptionName.exists_cut (h : ¬name.IsSpellable) :
    ∃ word rest, '=' ∉ word.toList ∧ name = .long (word ++ "=" ++ rest) := by
  cases name with
  | short letter => exact absurd (isSpellable_short letter) h
  | long text =>
    cases hcut : Text.cut? '=' text with
    | none => exact absurd (isSpellable_long.mpr (Text.cut?_eq_none_iff.mp hcut)) h
    | some parts =>
      obtain ⟨hword, htext⟩ := Text.cut?_eq_some_iff.mp hcut
      exact ⟨_, _, hword, congrArg long htext⟩

lemma OptionName.display_cut (hname : name = .long (word ++ "=" ++ rest)) (value : String) :
    name.display = "--" ++ word ++ "=" ++ rest ∧
      name.display ++ "=" ++ value = "--" ++ word ++ "=" ++ (rest ++ "=" ++ value) := by
  rw [hname, OptionName.display]
  simp only [String.append_assoc, and_self]

/-- An entry with `=` in it names what stands before. -/
lemma scan_cut (hword : '=' ∉ word.toList) :
    scan options posixly log (("--" ++ word ++ "=" ++ value) :: after) =
      readLong options log word (some value) >>= resume options posixly after := by
  rw [scan_of_option (Entry.Reads.assigned value hword).ofText_eq, readOptions]

/-- A name that no option has, or an option without arguments, is refused with any argument. -/
lemma exists_readLong_eq_error (h : ∀ other, lookupOption options (.long word) = .ok other →
      other.mode = .never) :
    ∃ failure, ∀ log value, readLong options log word (some value) = .error failure := by
  cases hlookup : lookupOption options (.long word) with
  | error failure => exact ⟨failure, fun log value => by rw [readLong, hlookup, error_bind]⟩
  | ok other =>
    refine ⟨.illegalUse other.name.display .unexpectedArgument, fun log value => ?_⟩
    rw [readLong, hlookup, ok_bind, h other hlookup]
    rfl

/-- Entries that begin with a name with `=` in it are refused alike if no other option takes
them. -/
lemma exists_scan_eq_error (hspell : ¬name.IsSpellable) (hnone : ¬name.IsOvertaken options) :
    ∃ failure, ∀ posixly log after,
      scan options posixly log (name.display :: after) = .error failure ∧
      ∀ value, scan options posixly log ((name.display ++ "=" ++ value) :: after) =
        .error failure := by
  obtain ⟨word, rest, hword, hname⟩ := OptionName.exists_cut hspell
  have hnever : ∀ other, lookupOption options (.long word) = .ok other → other.mode = .never := by
    intro other hlookup
    obtain ⟨hother, hlong⟩ := lookupOption_eq_ok hlookup
    by_contra hmode
    exact hnone ⟨other, hother, hmode, word, rest, hlong, hword, hname⟩
  obtain ⟨failure, hrefused⟩ := exists_readLong_eq_error hnever
  refine ⟨failure, fun posixly log after => ⟨?_, fun value => ?_⟩⟩
  · rw [(OptionName.display_cut hname "").1, scan_cut hword, hrefused, error_bind]
  · rw [(OptionName.display_cut hname value).2, scan_cut hword, hrefused, error_bind]

end

end DeclaredOptions
