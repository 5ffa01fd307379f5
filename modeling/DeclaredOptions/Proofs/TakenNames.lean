import DeclaredOptions.Proofs.Call
import DeclaredOptions.Proofs.FirstFault
import DeclaredOptions.Proofs.Phrases
import Mathlib.Tactic.Common

/-!
# Taken names

A value is refused if the name that it claims holds a text that is not empty, be it that the key set
holds one there or that a binding before puts one there (`Staging.FindsTaken`). A call that reads
its inputs resolves just if no binding is refused (`Session.resolved_iff`), and it reports a taken
name just where the first binding that is refused meets one (`Session.alreadyResolved_iff`).
-/

namespace DeclaredOptions

open Std Steps OptionLog CommandLine

/-! ### Failures of reading -/

/-- How reading a command line can fail. -/
inductive Failure.OfLine : Failure → Prop
  | unknownOption (option : String) : OfLine (.unknownOption option)
  | missingArgument (subject : String) : OfLine (.illegalUse subject .missingArgument)
  | notRepeatable (subject : String) : OfLine (.illegalUse subject .notRepeatable)
  | unexpectedArgument (subject : String) : OfLine (.illegalUse subject .unexpectedArgument)

section Lines

variable {options : List OptionSpec} {posixly : Bool} {log : OptionLog} {option : OptionSpec}
  {failure : Failure}

lemma ofLine_of_checkRepeat (h : log.checkRepeat option = .error failure) : failure.OfLine := by
  rw [checkRepeat] at h
  split at h
  · cases h
    exact .notRepeatable _
  · cases h

lemma ofLine_of_accept {value : String} (h : log.accept option value = .error failure) :
    failure.OfLine := by
  rw [accept] at h
  split at h
  · cases h
  · rcases bind_eq_error_iff.mp h with hcheck | ⟨_, _, hadd⟩
    · exact ofLine_of_checkRepeat hcheck
    · cases hadd

lemma ofLine_of_lookupOption {name : OptionName} (h : lookupOption options name = .error failure) :
    failure.OfLine := by
  rw [lookupOption] at h
  split at h
  · cases h
  · cases h
    exact .unknownOption _

lemma ofLine_of_readLong {word : String} {argument : Option String}
    (h : readLong options log word argument = .error failure) : failure.OfLine := by
  have haccept : ∀ {option : OptionSpec} {value : String},
      (log.accept option value >>= fun log => pure (Progress.complete log)) = .error failure →
        failure.OfLine := by
    intro option value h
    rcases bind_eq_error_iff.mp h with haccept | ⟨_, _, hreturn⟩
    · exact ofLine_of_accept haccept
    · cases hreturn
  rcases bind_eq_error_iff.mp h with hlookup | ⟨option, _, h⟩
  · exact ofLine_of_lookupOption hlookup
  split at h
  · cases h
  · exact haccept h
  · exact haccept h
  · exact haccept h
  · exact haccept h
  · cases h
    exact .unexpectedArgument _

lemma ofLine_of_readCluster {letters : List Char}
    (h : readCluster options log letters = .error failure) : failure.OfLine := by
  induction letters generalizing log with
  | nil => cases h
  | cons letter letters ih =>
    rw [readCluster] at h
    rcases bind_eq_error_iff.mp h with hlookup | ⟨option, _, h⟩
    · exact ofLine_of_lookupOption hlookup
    rcases bind_eq_error_iff.mp h with hcheck | ⟨_, _, h⟩
    · exact ofLine_of_checkRepeat hcheck
    split at h
    · split at h
      · cases h
      · cases h
    · exact ih h

lemma ofLine_of_readOptions {entry : OptionEntry}
    (h : readOptions options log entry = .error failure) : failure.OfLine := by
  cases entry with
  | long word argument => exact ofLine_of_readLong h
  | cluster letters => exact ofLine_of_readCluster h

lemma ofLine_of_scan {entries : List String}
    (h : scan options posixly log entries = .error failure) : failure.OfLine := by
  induction log, entries using scan.induct options posixly with
  | case1 log => cases h
  | case2 log text rest htext =>
    rw [scan, htext] at h
    cases h
  | case3 log text rest htext hposixly =>
    obtain rfl : posixly = true := hposixly
    rw [scan, htext] at h
    cases h
  | case4 log text rest htext hposixly ih =>
    obtain rfl : posixly = false := by simpa using hposixly
    rw [scan_of_positional htext] at h
    rcases bind_eq_error_iff.mp h with hrest | ⟨_, _, hreturn⟩
    · exact ih hrest
    · cases hreturn
  | case5 log text rest entry htext other hread =>
    rw [scan_of_option htext, hread] at h
    cases h
    exact ofLine_of_readOptions hread
  | case6 log text rest entry htext next hread ih =>
    rw [scan_of_option htext, hread] at h
    exact ih h
  | case7 log text entry htext next option hread =>
    rw [scan_of_option htext, hread] at h
    cases h
    exact .missingArgument _
  | case8 log text entry htext next option hread argument rest ih =>
    rw [scan_of_option htext, hread, ok_bind, resume] at h
    rcases bind_eq_error_iff.mp h with haccept | ⟨accepted, _, hrest⟩
    · exact ofLine_of_accept haccept
    · exact ih accepted hrest

end Lines

namespace Staging

/-! ### Bindings that are refused -/

section Definitions

variable (store : KeySet) (inputs : Inputs) (bindings : List Binding)

/-- The name that a value claims is taken: the key set holds a text there that is not empty, or a
binding before puts one there. -/
def FindsTaken (binding : Binding) (value : Value) : Prop :=
  Holds store (claimed binding value) ∨
    ∃ earlier ∈ bindings, compare (target earlier) (target binding) = .lt ∧
      ∃ value', inputs.finding? earlier = some value' ∧ Fills earlier value' (claimed binding value)

/-- The sources of a binding do not conflict, and a value that they give finds its name free. -/
def Passes (binding : Binding) : Prop :=
  ∃ found, inputs.resolve binding = .ok found ∧
    ∀ resolution ∈ found, ¬FindsTaken store inputs bindings binding resolution.value

/-- The first binding that does not pass has a value, and this finds its name taken. -/
structure StopsAt (binding : Binding) (resolution : Resolution) : Prop where
  mem : binding ∈ bindings
  resolved : inputs.resolve binding = .ok (some resolution)
  taken : FindsTaken store inputs bindings binding resolution.value
  first : ∀ other ∈ bindings, compare (target other) (target binding) = .lt →
    Passes store inputs bindings other

end Definitions

variable {store next : KeySet} {inputs : Inputs} {bindings before after : List Binding}
  {binding : Binding}

/-- What was staged by the bindings before one tells whether the one finds its name taken. -/
lemma findsTaken_iff (horder : Orderly inputs (before ++ binding :: after))
    (hrun : Run store inputs ∅ before next) {value : Value} :
    FindsTaken store inputs (before ++ binding :: after) binding value ↔
      Holds store (claimed binding value) ∨ Holds next (claimed binding value) := by
  rw [FindsTaken, hrun.holds_iff horder.of_append]
  refine or_congr_right (exists_congr fun earlier => ?_)
  rw [horder.mem_before_iff, and_assoc]

/-- Bindings are staged just if each of them passes. -/
lemma exists_run_before_iff (horder : Orderly inputs (before ++ after)) :
    (∃ next, Run store inputs ∅ before next) ↔
      ∀ binding ∈ before, Passes store inputs (before ++ after) binding := by
  constructor
  · rintro ⟨next, hrun⟩ binding hbinding
    obtain ⟨first, rest, rfl⟩ := List.append_of_mem hbinding
    rw [List.append_assoc, List.cons_append] at horder ⊢
    cases hrun.of_append with
    | skip unresolved _ => exact ⟨none, unresolved, by simp⟩
    | @write _ _ _ _ resolution resolved unstored unstaged _ =>
      refine ⟨some resolution, resolved, ?_⟩
      intro _ hfound
      cases hfound
      rw [findsTaken_iff horder hrun.before]
      exact not_or.mpr ⟨unstored, unstaged⟩
  · intro hpasses
    cases hall : resolveAll store inputs ∅ before with
    | ok next => exact ⟨next, resolveAll_eq_ok_iff.mp hall⟩
    | error failure =>
      exfalso
      obtain ⟨first, binding, rest, next, rfl, hrun, hrefused⟩ := resolveAll_eq_error_iff.mp hall
      obtain ⟨found, hresolve, hfree⟩ := hpasses binding (by simp)
      rw [List.append_assoc, List.cons_append] at horder hfree
      cases hrefused with
      | unresolved h => cases hresolve.symm.trans h
      | taken resolved htaken =>
        cases hresolve.symm.trans resolved
        exact hfree _ rfl ((findsTaken_iff horder hrun).mpr htaken)

lemma exists_run_iff (horder : Orderly inputs bindings) :
    (∃ next, Run store inputs ∅ bindings next) ↔
      ∀ binding ∈ bindings, Passes store inputs bindings binding := by
  rw [← bindings.append_nil] at horder
  rw [exists_run_before_iff horder, List.append_nil]

/-- A taken name is reported at the first binding that does not pass. -/
lemma resolveAll_eq_alreadyResolved_iff (horder : Orderly inputs bindings)
    {origin text : String} : resolveAll store inputs ∅ bindings
        = .error (.illegalUse origin (.alreadyResolved text)) ↔
      ∃ binding resolution, StopsAt store inputs bindings binding resolution ∧
        resolution.origin = origin ∧ (claimed binding resolution.value).display = text := by
  rw [resolveAll_eq_error_iff]
  constructor
  · rintro ⟨before, binding, after, next, rfl, hrun, hrefused⟩
    cases hrefused with
    | unresolved hresolve =>
      obtain ⟨_, _, hfailure⟩ := Inputs.resolve_eq_error hresolve
      cases hfailure
    | @taken resolution resolved htaken =>
      refine ⟨binding, resolution, ?_, rfl, rfl⟩
      constructor
      case mem => simp
      case resolved => exact resolved
      case taken => exact (findsTaken_iff horder hrun).mpr htaken
      case first =>
        intro other hother hlt
        have hbefore := horder.mem_before_iff.mpr ⟨hother, hlt⟩
        exact (exists_run_before_iff horder).mp ⟨next, hrun⟩ other hbefore
  · rintro ⟨binding, resolution, hstops, rfl, rfl⟩
    obtain ⟨before, after, rfl⟩ := List.append_of_mem hstops.mem
    have hpasses : ∀ other ∈ before, Passes store inputs (before ++ binding :: after) other := by
      intro other hother
      obtain ⟨hmem, hlt⟩ := horder.mem_before_iff.mp hother
      exact hstops.first other hmem hlt
    obtain ⟨next, hrun⟩ := (exists_run_before_iff horder).mpr hpasses
    have htaken := (findsTaken_iff horder hrun).mp hstops.taken
    exact ⟨before, binding, after, next, rfl, hrun, .taken hstops.resolved htaken⟩

end Staging

namespace Session

open Staging

variable {session : Session} {argv envp : List String} {settings : Settings}

/-! ### How the call ends -/

/-- A call resolves just if it reads its inputs, no help is asked for and all bindings pass. -/
lemma resolved_iff : (session.resolveWith argv envp settings).1 = .ok .resolved ↔
    ∃ spec inputs, session.read argv envp settings = .ok (spec, inputs) ∧
      ¬inputs.line.HelpRequested ∧
      ∀ binding ∈ spec.bindings, Passes session.keys inputs spec.bindings binding := by
  constructor
  · intro h
    have hends := session.ends_resolveWith argv envp settings
    generalize session.resolveWith argv envp settings = ended at h hends
    obtain ⟨result, after⟩ := ended
    cases hends with
    | resolved hread hhelp hrun =>
      exact ⟨_, _, hread, hhelp, (exists_run_iff (orderly_of_read hread)).mp ⟨_, hrun⟩⟩
    | unread _ | help _ _ | refused _ _ _ => cases h
  · rintro ⟨spec, inputs, hread, hhelp, hpasses⟩
    obtain ⟨staged, hrun⟩ := (exists_run_iff (orderly_of_read hread)).mpr hpasses
    rw [resolveWith_eq, hread]
    simp only [if_neg hhelp, resolveAll_eq_ok_iff.mpr hrun]

/-- Reading never fails for a taken name. -/
lemma read_ne_alreadyResolved {origin text : String} :
    session.read argv envp settings ≠ .error (.illegalUse origin (.alreadyResolved text)) := by
  intro h
  rcases bind_eq_error_iff.mp h with hcompile | ⟨spec, _, h⟩
  · obtain ⟨_, _, _, _, _, _, hfailure⟩ := Specification.compile_eq_error_iff.mp hcompile
    cases hfailure
  rcases bind_eq_error_iff.mp h with hparse | ⟨_, _, hreturn⟩
  · cases ofLine_of_scan hparse
  · cases hreturn

/-- A call reports a taken name just if it reads its inputs, no help is asked for and the first
binding that does not pass meets the name. -/
lemma alreadyResolved_iff {origin text : String} :
    (session.resolveWith argv envp settings).1
        = .error (.illegalUse origin (.alreadyResolved text)) ↔
      ∃ spec inputs, session.read argv envp settings = .ok (spec, inputs) ∧
        ¬inputs.line.HelpRequested ∧
        ∃ binding resolution, StopsAt session.keys inputs spec.bindings binding resolution ∧
          resolution.origin = origin ∧ (claimed binding resolution.value).display = text := by
  constructor
  · intro h
    have hends := session.ends_resolveWith argv envp settings
    generalize session.resolveWith argv envp settings = ended at h hends
    obtain ⟨result, after⟩ := ended
    cases h
    cases hends with
    | unread hread => exact absurd hread read_ne_alreadyResolved
    | refused hread hhelp hall =>
      exact ⟨_, _, hread, hhelp,
        (resolveAll_eq_alreadyResolved_iff (orderly_of_read hread)).mp hall⟩
  · rintro ⟨spec, inputs, hread, hhelp, hstops⟩
    have hall := (resolveAll_eq_alreadyResolved_iff (orderly_of_read hread)).mpr hstops
    rw [resolveWith_eq, hread]
    simp only [if_neg hhelp, hall]

end Session

end DeclaredOptions
