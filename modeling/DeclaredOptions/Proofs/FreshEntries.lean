import DeclaredOptions.Proofs.Phrases
import Mathlib.Tactic.Common

/-!
# Entries that are read afresh

A scan comes to an entry afresh when the entries before it have been read to their end: no option
waits for its argument, and nothing ended the options (`Consumes`). What follows is read as if only
their log came before (`Consumes.scan_append`).
-/

namespace DeclaredOptions

open Steps OptionLog CommandLine

/-- Entries that are read to their end after a log, with the log that they leave and the positional
arguments that they set aside. -/
inductive Consumes (options : List OptionSpec) (posixly : Bool) :
    OptionLog → List String → OptionLog → List String → Prop
  | nil (log : OptionLog) : Consumes options posixly log [] log []
  /-- A positional argument is set aside, unless it ends the options. -/
  | positional {log last : OptionLog} {text : String} {entries positionals : List String}
      (htext : Entry.ofText text = .positional) (hposixly : ¬posixly)
      (hrest : Consumes options posixly log entries last positionals) :
      Consumes options posixly log (text :: entries) last (text :: positionals)
  /-- An entry gives options, and none of them takes the next entry. -/
  | complete {log next last : OptionLog} {text : String} {entry : OptionEntry}
      {entries positionals : List String} (htext : Entry.ofText text = .option entry)
      (hread : readOptions options log entry = .ok (.complete next))
      (hrest : Consumes options posixly next entries last positionals) :
      Consumes options posixly log (text :: entries) last positionals
  /-- An entry gives options, the last of which takes the next entry. -/
  | awaiting {log next accepted last : OptionLog} {text argument : String} {entry : OptionEntry}
      {option : OptionSpec} {entries positionals : List String}
      (htext : Entry.ofText text = .option entry)
      (hread : readOptions options log entry = .ok (.awaiting next option))
      (haccept : next.accept option argument = .ok accepted)
      (hrest : Consumes options posixly accepted entries last positionals) :
      Consumes options posixly log (text :: argument :: entries) last positionals

/-- Puts positional arguments before those of a command line. -/
def CommandLine.setAside (positionals : List String) (line : CommandLine) : CommandLine :=
  { line with positionals := positionals ++ line.positionals }

namespace Consumes

variable {options : List OptionSpec} {posixly : Bool} {log last : OptionLog}
  {entries positionals : List String}

/-- What follows entries that were read to their end is read as if only their log came before. -/
lemma scan_append (h : Consumes options posixly log entries last positionals)
    (rest : List String) : scan options posixly log (entries ++ rest) =
      (scan options posixly last rest).map (setAside positionals) := by
  induction h with
  | nil log =>
    rw [List.nil_append]
    cases scan options posixly log rest <;> rfl
  | @positional log last text entries positionals htext hposixly _ ih =>
    rw [List.cons_append, scan, htext]
    dsimp only
    rw [if_neg hposixly, ih]
    cases scan options posixly last rest <;> rfl
  | complete htext hread _ ih =>
    rw [List.cons_append, scan_of_option htext, hread]
    exact ih
  | awaiting htext hread haccept _ ih =>
    rw [List.cons_append, List.cons_append, scan_of_option htext, hread, ok_bind, resume, haccept]
    exact ih

/-- In posix mode no positional argument is set aside, and outside of it the same entries are read
alike. -/
lemma of_posixly (h : Consumes options true log entries last positionals) :
    positionals = [] ∧ Consumes options false log entries last [] := by
  induction h with
  | nil log => exact ⟨rfl, .nil log⟩
  | positional _ hposixly _ _ => exact absurd rfl hposixly
  | complete htext hread _ ih => exact ⟨ih.1, .complete htext hread ih.2⟩
  | awaiting htext hread haccept _ ih => exact ⟨ih.1, .awaiting htext hread haccept ih.2⟩

end Consumes

end DeclaredOptions
