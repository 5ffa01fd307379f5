import DeclaredOptions.Proofs.FreshEntries
import DeclaredOptions.Proofs.Places
import Mathlib.Tactic.Common

/-!
# Posix mode

In posix mode the options end at the first positional argument that is read afresh (`Stops`), as
they would end outside of it at an entry `--` just before (`parse_posixly`). Without such an
argument the mode makes no difference.
-/

namespace DeclaredOptions

open Steps OptionLog CommandLine

/-- Whether the options after `log` end at `text` in posix mode: it is a positional argument, and
the entries before it were read to their end. -/
structure Stops (options : List OptionSpec) (log : OptionLog) (entries before : List String)
    (text : String) (after : List String) : Prop where
  split : entries = before ++ text :: after
  fresh : ∃ last, Consumes options true log before last []
  positional : Entry.ofText text = .positional

section

variable {options : List OptionSpec} {posixly : Bool} {log : OptionLog}
  {entries before after : List String} {text : String}

lemma scan_terminator : scan options posixly log ("--" :: after) = .ok ⟨log, after⟩ := rfl

lemma scan_posixly_of_positional (h : Entry.ofText text = .positional) :
    scan options true log (text :: after) = .ok ⟨log, text :: after⟩ := by
  rw [scan, h]
  rfl

/-- Where the options end at a positional argument, all entries from it on are positional. -/
lemma Stops.scan_eq (h : Stops options log entries before text after) :
    ∃ last, scan options true log entries = .ok ⟨last, text :: after⟩ ∧
      scan options false log (before ++ "--" :: text :: after) = .ok ⟨last, text :: after⟩ := by
  obtain ⟨last, hfresh⟩ := h.fresh
  refine ⟨last, ?_, ?_⟩
  · rw [h.split, hfresh.scan_append, scan_posixly_of_positional h.positional]
    rfl
  · rw [hfresh.of_posixly.2.scan_append, scan_terminator]
    rfl

/-- Without a positional argument that ends the options, both modes read the same. -/
lemma scan_posixly_of_not_stops (h : ∀ before text after,
      ¬Stops options log entries before text after) :
    scan options true log entries = scan options false log entries := by
  -- along the recursion of `scan`: a stop in the rest would be a stop behind what is read here
  induction log, entries using scan.induct options true with
  | case1 log => rfl
  | case2 log text rest htext => rw [scan, scan, htext]
  | case3 log text rest htext _ => exact absurd ⟨rfl, ⟨log, .nil log⟩, htext⟩ (h [] text rest)
  | case4 log text rest htext hposixly _ => exact absurd rfl hposixly
  | case5 log text rest entry htext failure hread =>
    rw [scan_of_option htext, scan_of_option htext, hread]
    rfl
  | case6 log text rest entry htext next hread ih =>
    rw [scan_of_option htext, scan_of_option htext, hread]
    apply ih
    rintro before stop after ⟨rfl, ⟨last, hfresh⟩, hstop⟩
    exact h (text :: before) stop after ⟨rfl, ⟨last, .complete htext hread hfresh⟩, hstop⟩
  | case7 log text entry htext next option hread =>
    rw [scan_of_option htext, scan_of_option htext, hread]
    rfl
  | case8 log text entry htext next option hread argument rest ih =>
    rw [scan_of_option htext, scan_of_option htext, hread, ok_bind, ok_bind, resume, resume]
    cases haccept : next.accept option argument with
    | error failure => rfl
    | ok accepted =>
      apply ih
      rintro before stop after ⟨rfl, ⟨last, hfresh⟩, hstop⟩
      exact h (text :: argument :: before) stop after
        ⟨rfl, ⟨last, .awaiting htext hread haccept hfresh⟩, hstop⟩

end

/-- Where the options end at a positional argument in posix mode, all is read as with the entry `--`
before it outside of that mode; where they do not, the mode makes no difference. -/
theorem CommandLine.parse_posixly (options : List OptionSpec) (argv : List String) :
    (∀ before text after, Stops options [] argv.tail before text after →
      (∃ log, parse options true argv = .ok ⟨log, text :: after⟩) ∧
      parse options true argv = parse options false (argv.insertIdx (before.length + 1) "--")) ∧
    ((∀ before text after, ¬Stops options [] argv.tail before text after) →
      parse options true argv = parse options false argv) := by
  refine ⟨fun before text after hstops => ?_, scan_posixly_of_not_stops⟩
  obtain ⟨last, hposixly, hinserted⟩ := hstops.scan_eq
  refine ⟨⟨last, hposixly⟩, ?_⟩
  cases argv with
  | nil =>
    have hnil : [] = before ++ text :: after := hstops.split
    simp at hnil
  | cons program entries =>
    have hsplit : entries = before ++ text :: after := hstops.split
    rw [List.insertIdx_succ_cons, hsplit, SortedBy.insertIdx_length]
    rw [hsplit] at hposixly
    exact hposixly.trans hinserted.symm

open Specification in
/-- An argument that an option takes ends no options, and an entry `--` after the end is
positional. -/
theorem CommandLine.parse_posixly_sample :
    Stops sample.options [] ["-v", "-l", "in", "out", "--", "-v"] ["-v", "-l", "in"] "out"
      ["--", "-v"] ∧
    parse sample.options true ["prog", "-v", "-l", "in", "out", "--", "-v"] =
      parse sample.options false ["prog", "-v", "-l", "in", "--", "out", "--", "-v"] ∧
    (∀ before text after, ¬Stops sample.options [] ["-v", "--"] before text after) ∧
    parse sample.options true ["prog", "-v", "--"] =
      parse sample.options false ["prog", "-v", "--"] := by
  have hstops : Stops sample.options [] ["-v", "-l", "in", "out", "--", "-v"] ["-v", "-l", "in"]
      "out" ["--", "-v"] :=
    ⟨rfl, ⟨_, .complete rfl rfl (.awaiting rfl rfl rfl (.nil _))⟩, rfl⟩
  have hnone : ∀ before text after, ¬Stops sample.options [] ["-v", "--"] before text after := by
    intro before text after hstops
    obtain ⟨last, hposixly, _⟩ := hstops.scan_eq
    have hread : scan sample.options true [] ["-v", "--"] = .ok ⟨[⟨verboseOption, "1"⟩], []⟩ := rfl
    cases hposixly.symm.trans hread
  exact ⟨hstops, ((parse_posixly _ ["prog", "-v", "-l", "in", "out", "--", "-v"]).1 _ _ _ hstops).2,
    hnone, (parse_posixly _ ["prog", "-v", "--"]).2 hnone⟩

end DeclaredOptions
