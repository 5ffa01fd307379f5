import DeclaredOptions.Proofs.PosixMode
import Mathlib.Tactic.Common

/-!
# Further entries

A command line is read from left to right, and what was read is never read again. So a failure stays
the same whatever entries follow, unless it was for want of an argument
(`scan_append_of_error`). Entries that were read to their end give the same options when the entry
`--` and any others follow, and those others are positional (`Consumes.scan_append_terminator`).
Without a terminator among them, all entries of a command line that can be read are read to their
end (`consumes_iff`).
-/

namespace DeclaredOptions

open Steps OptionLog CommandLine

/-- Whether an option was left without the argument that it requires. -/
def Failure.IsMissingArgument (failure : Failure) : Prop :=
  ∃ subject, failure = .illegalUse subject .missingArgument

/-- Whether an entry `--` among the entries ends the options: those before it were read to their
end. -/
def MeetsTerminator (options : List OptionSpec) (log : OptionLog) (entries : List String) : Prop :=
  ∃ before after last positionals, entries = before ++ "--" :: after ∧
    Consumes options false log before last positionals

section

variable {options : List OptionSpec} {posixly : Bool} {log last : OptionLog}
  {entries positionals : List String} {failure : Failure} {line : CommandLine}

/-! ### Failures -/

/-- A command line fails in the same way whatever follows, unless an argument is missing. -/
lemma scan_append_of_error (h : scan options posixly log entries = .error failure)
    (hmissing : ¬failure.IsMissingArgument) (more : List String) :
    scan options posixly log (entries ++ more) = .error failure := by
  -- along the recursion of `scan`: only an option without an argument looks beyond the last entry
  induction log, entries using scan.induct options posixly with
  | case1 log => cases h
  | case2 log text rest htext =>
    rw [scan, htext] at h
    cases h
  | case3 log text rest htext hposixly =>
    obtain rfl : posixly = true := hposixly
    rw [scan_posixly_of_positional htext] at h
    cases h
  | case4 log text rest htext hposixly ih =>
    obtain rfl : posixly = false := by simpa using hposixly
    rw [scan_of_positional htext] at h
    rcases bind_eq_error_iff.mp h with hrest | ⟨line, _, hline⟩
    · rw [List.cons_append, scan_of_positional htext, ih hrest, error_bind]
    · cases hline
  | case5 log text rest entry htext other hread =>
    rw [scan_of_option htext, hread] at h
    rw [List.cons_append, scan_of_option htext, hread]
    exact h
  | case6 log text rest entry htext next hread ih =>
    rw [scan_of_option htext, hread] at h
    rw [List.cons_append, scan_of_option htext, hread]
    exact ih h
  | case7 log text entry htext next option hread =>
    rw [scan_of_option htext, hread] at h
    cases h
    exact absurd ⟨_, rfl⟩ hmissing
  | case8 log text entry htext next option hread argument rest ih =>
    rw [scan_of_option htext, hread, ok_bind, resume] at h
    rw [List.cons_append, List.cons_append, scan_of_option htext, hread, ok_bind, resume]
    cases haccept : next.accept option argument with
    | error other =>
      rw [haccept] at h
      exact h
    | ok accepted =>
      rw [haccept] at h
      exact ih accepted h

/-! ### Terminators -/

/-- The entry `--` after entries that were read to their end makes positional arguments of all that
follows. -/
lemma Consumes.scan_append_terminator (h : Consumes options posixly log entries last positionals)
    (rest : List String) : scan options posixly log (entries ++ "--" :: rest) =
      .ok ⟨last, positionals ++ rest⟩ := by
  rw [h.scan_append, scan_terminator]
  rfl

lemma Consumes.scan_eq (h : Consumes options posixly log entries last positionals) :
    scan options posixly log entries = .ok ⟨last, positionals⟩ := by
  have happend := h.scan_append []
  rw [List.append_nil] at happend
  rw [happend]
  show Except.ok (setAside positionals ⟨last, []⟩) = _
  rw [setAside, List.append_nil]

lemma consumes_of_scan (h : scan options false log entries = .ok line)
    (hterminator : ¬MeetsTerminator options log entries) :
    Consumes options false log entries line.log line.positionals := by
  -- along the recursion of `scan`: a terminator in the rest would be one behind what is read here
  induction log, entries using scan.induct options false generalizing line with
  | case1 log =>
    cases h
    exact .nil log
  | case2 log text rest htext =>
    obtain rfl : text = "--" := by
      cases Entry.reads_iff.mpr htext
      rfl
    exact absurd ⟨[], rest, log, [], rfl, .nil log⟩ hterminator
  | case3 log text rest htext hposixly => cases hposixly
  | case4 log text rest htext hposixly ih =>
    rw [scan_of_positional htext] at h
    obtain ⟨line', hrest, hline⟩ := bind_eq_ok_iff.mp h
    cases hline
    refine .positional htext hposixly (ih hrest ?_)
    rintro ⟨before, after, last, positionals, rfl, hbefore⟩
    exact hterminator ⟨_, after, last, _, rfl, .positional htext hposixly hbefore⟩
  | case5 log text rest entry htext failure hread =>
    rw [scan_of_option htext, hread] at h
    cases h
  | case6 log text rest entry htext next hread ih =>
    rw [scan_of_option htext, hread] at h
    refine .complete htext hread (ih h ?_)
    rintro ⟨before, after, last, positionals, rfl, hbefore⟩
    exact hterminator ⟨_, after, last, _, rfl, .complete htext hread hbefore⟩
  | case7 log text entry htext next option hread =>
    rw [scan_of_option htext, hread] at h
    cases h
  | case8 log text entry htext next option hread argument rest ih =>
    rw [scan_of_option htext, hread, ok_bind] at h
    obtain ⟨accepted, haccept, hrest⟩ := bind_eq_ok_iff.mp h
    refine .awaiting htext hread haccept (ih accepted hrest ?_)
    rintro ⟨before, after, last, positionals, rfl, hbefore⟩
    exact hterminator ⟨_, after, last, _, rfl, .awaiting htext hread haccept hbefore⟩

/-- Entries are read to their end just if they can be read and none of them ends the options. -/
lemma consumes_iff : Consumes options false log entries last positionals ↔
    scan options false log entries = .ok ⟨last, positionals⟩ ∧
      ¬MeetsTerminator options log entries := by
  constructor
  · intro h
    refine ⟨h.scan_eq, ?_⟩
    rintro ⟨before, after, last', positionals', rfl, hbefore⟩
    -- what follows a terminator counts in full, so a second terminator at the end would count too
    have hwhole := h.scan_append_terminator []
    rw [List.append_assoc, List.cons_append, hbefore.scan_append_terminator] at hwhole
    have hpart := h.scan_eq
    rw [hbefore.scan_append_terminator] at hpart
    cases hpart
    simp at hwhole
  · rintro ⟨hscan, hterminator⟩
    exact consumes_of_scan hscan hterminator

end

/-- What stands further right on a command line does not change what was read: a failure stays,
unless an argument is missing, and behind a command line that did not end its options, the entry
`--` and any others add just those others to the positional arguments. -/
theorem CommandLine.parse_append (options : List OptionSpec) (program : String)
    (entries : List String) :
    (∀ posixly failure more, parse options posixly (program :: entries) = .error failure →
      ¬failure.IsMissingArgument →
        parse options posixly (program :: entries ++ more) = .error failure) ∧
    ∀ line rest, parse options false (program :: entries) = .ok line →
      ¬MeetsTerminator options [] entries →
        parse options false (program :: entries ++ "--" :: rest) =
          .ok { line with positionals := line.positionals ++ rest } := by
  constructor
  · intro posixly failure more hparse hmissing
    exact scan_append_of_error hparse hmissing more
  · intro line rest hparse hterminator
    exact (consumes_of_scan hparse hterminator).scan_append_terminator rest

open Specification in
/-- An entry `--` that is taken as an argument ends no options, and after the one that does nothing
is read as an option. -/
theorem CommandLine.parse_append_sample :
    parse sample.options true ["prog", "-x"] = .error (.unknownOption "-x") ∧
    parse sample.options true (["prog", "-x"] ++ ["-l", "--", "in"]) =
      .error (.unknownOption "-x") ∧
    ¬MeetsTerminator sample.options [] ["in", "-l", "--"] ∧
    parse sample.options false (["prog", "in", "-l", "--"] ++ "--" :: ["--help", "--", "-x"]) =
      .ok ⟨[⟨levelOption (.short 'l'), "--"⟩], ["in", "--help", "--", "-x"]⟩ := by
  have hfails : parse sample.options true ["prog", "-x"] = .error (.unknownOption "-x") := rfl
  have hreads : parse sample.options false ["prog", "in", "-l", "--"] =
      .ok ⟨[⟨levelOption (.short 'l'), "--"⟩], ["in"]⟩ := rfl
  have hnone : ¬MeetsTerminator sample.options [] ["in", "-l", "--"] :=
    (consumes_iff.mp (.positional rfl nofun (.awaiting rfl rfl rfl (.nil _)))).2
  refine ⟨hfails, (parse_append _ _ _).1 _ _ _ hfails ?_, hnone,
    (parse_append _ _ _).2 _ _ hreads hnone⟩
  rintro ⟨subject, hsubject⟩
  cases hsubject

end DeclaredOptions
