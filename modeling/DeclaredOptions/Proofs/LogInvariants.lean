import DeclaredOptions.Proofs.Phrases
import Mathlib.Tactic.Common

/-!
# What stays true of a log

In whichever mode a command line is read, each option is looked up by a name that its entry spells,
and an option of a single-valued key is checked before it is added. What these two steps keep true
of a log is true of the log that a whole command line leaves (`Invariant.scan`).
-/

namespace DeclaredOptions

open Steps OptionLog CommandLine

/-- A property of logs that goes on holding when an option is added that passes the check. What is
known of the option is known from the name under which it was looked up. -/
structure OptionLog.Invariant (options : List OptionSpec) (Keeps : OptionLog → Prop)
    (Admits : OptionSpec → Prop) : Prop where
  long : ∀ {word : String} {option : OptionSpec}, '=' ∉ word.toList →
    lookupOption options (.long word) = .ok option → Admits option
  short : ∀ {letter : Char} {option : OptionSpec},
    lookupOption options (.short letter) = .ok option → Admits option
  add : ∀ {log : OptionLog} {option : OptionSpec} (value : String), Keeps log → Admits option →
    log.checkRepeat option = .ok () → Keeps (log.add option value)

/-- Whether a property holds of what was read, the pending option included. -/
def Progress.Satisfies (Keeps : OptionLog → Prop) (Admits : OptionSpec → Prop) : Progress → Prop
  | complete log => Keeps log
  | awaiting log option => Keeps log ∧ Admits option

namespace OptionLog.Invariant

variable {options : List OptionSpec} {Keeps : OptionLog → Prop} {Admits : OptionSpec → Prop}
  {log : OptionLog}

lemma accept (h : Invariant options Keeps Admits) (hlog : Keeps log) {option : OptionSpec}
    (hoption : Admits option) {value : String} {next : OptionLog}
    (haccept : log.accept option value = .ok next) : Keeps next := by
  by_cases hignores : log.Ignores option
  · rw [accept_of_ignores hignores] at haccept
    cases haccept
    exact hlog
  · obtain ⟨hcheck, rfl⟩ := (accept_eq_ok_iff hignores).mp haccept
    exact h.add value hlog hoption hcheck

lemma readLong (h : Invariant options Keeps Admits) (hlog : Keeps log) {word : String}
    (hword : '=' ∉ word.toList) {attached : Option String} {progress : Progress}
    (hread : readLong options log word attached = .ok progress) :
    progress.Satisfies Keeps Admits := by
  obtain ⟨option, hlookup, hread⟩ := bind_eq_ok_iff.mp hread
  have hoption := h.long hword hlookup
  have haccept {value : String}
      (hread : (log.accept option value >>= fun log => .ok (.complete log)) = .ok progress) :
      progress.Satisfies Keeps Admits := by
    obtain ⟨next, haccept, hnext⟩ := bind_eq_ok_iff.mp hread
    cases hnext
    exact h.accept hlog hoption haccept
  cases hmode : option.mode <;> cases attached <;> simp only [hmode] at hread
  case required.none =>
    cases hread
    exact ⟨hlog, hoption⟩
  case never.some => cases hread
  all_goals exact haccept hread

lemma readCluster (h : Invariant options Keeps Admits) (hlog : Keeps log) {letters : List Char}
    {progress : Progress} (hread : readCluster options log letters = .ok progress) :
    progress.Satisfies Keeps Admits := by
  induction letters generalizing log with
  | nil =>
    cases hread
    exact hlog
  | cons letter letters ih =>
    obtain ⟨option, hlookup, hread⟩ := bind_eq_ok_iff.mp hread
    obtain ⟨⟨⟩, hcheck, hread⟩ := bind_eq_ok_iff.mp hread
    have hoption := h.short hlookup
    split at hread
    · split at hread
      · cases hread
        exact ⟨hlog, hoption⟩
      · cases hread
        exact h.add _ hlog hoption hcheck
    · exact ih (h.add _ hlog hoption hcheck) hread

lemma readOptions (h : Invariant options Keeps Admits) (hlog : Keeps log) {text : String}
    {entry : OptionEntry} (htext : Entry.ofText text = .option entry) {progress : Progress}
    (hread : readOptions options log entry = .ok progress) : progress.Satisfies Keeps Admits := by
  cases Entry.reads_iff.mpr htext with
  | long _ hword => exact h.readLong hlog hword hread
  | assigned _ hword => exact h.readLong hlog hword hread
  | cluster _ _ => exact h.readCluster hlog hread

/-- Whatever the mode, an invariant of the log outlasts a whole command line. -/
lemma scan (h : Invariant options Keeps Admits) {posixly : Bool} (hlog : Keeps log)
    {entries : List String} {line : CommandLine}
    (hscan : CommandLine.scan options posixly log entries = .ok line) : Keeps line.log := by
  induction log, entries using scan.induct options posixly generalizing line with
  | case1 log =>
    cases hscan
    exact hlog
  | case2 log text rest htext =>
    rw [CommandLine.scan, htext] at hscan
    cases hscan
    exact hlog
  | case3 log text rest htext hposixly =>
    rw [CommandLine.scan, htext] at hscan
    dsimp only at hscan
    rw [if_pos hposixly] at hscan
    cases hscan
    exact hlog
  | case4 log text rest htext hposixly ih =>
    rw [CommandLine.scan, htext] at hscan
    dsimp only at hscan
    rw [if_neg hposixly] at hscan
    obtain ⟨line, hrest, hline⟩ := bind_eq_ok_iff.mp hscan
    cases hline
    show Keeps line.log
    exact ih hlog hrest
  | case5 log text rest entry htext failure hread =>
    rw [scan_of_option htext, hread] at hscan
    cases hscan
  | case6 log text rest entry htext log' hread ih =>
    rw [scan_of_option htext, hread] at hscan
    exact ih (h.readOptions hlog htext hread) hscan
  | case7 log text entry htext log' option hread =>
    rw [scan_of_option htext, hread] at hscan
    cases hscan
  | case8 log text entry htext log' option hread argument rest ih =>
    obtain ⟨hlog', hoption⟩ := h.readOptions hlog htext hread
    rw [scan_of_option htext, hread, ok_bind] at hscan
    obtain ⟨next, haccept, hrest⟩ := bind_eq_ok_iff.mp hscan
    exact ih next (h.accept hlog' hoption haccept) hrest

end OptionLog.Invariant

end DeclaredOptions
