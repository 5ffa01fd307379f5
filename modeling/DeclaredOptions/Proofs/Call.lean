import DeclaredOptions.Session
import DeclaredOptions.Proofs.Overlap
import Mathlib.Tactic.Common

/-!
# Calls

A call reads its declarations and its inputs, and then it fails, asks for help or resolves
(`ends_resolveWith`). What a resolved call leaves under a name is what its run staged there last,
else what was there before (`Run.find?_commit`).
-/

namespace DeclaredOptions

open Std Steps Staging

namespace Session

/-! ### Reading -/

/-- What a call reads before it resolves anything. -/
def read (session : Session) (argv envp : List String) (settings : Settings) :
    Except Failure (Specification × Inputs) := do
  let spec ← Specification.compile session.keys
  let line ← CommandLine.parse spec.options settings.posixly argv
  return (spec, ⟨line, Environment.ofEntries envp, settings.separator⟩)

variable {session after : Session} {argv envp : List String} {settings : Settings}
  {spec : Specification} {inputs : Inputs}

lemma read_eq_ok_iff : session.read argv envp settings = .ok (spec, inputs) ↔
    Specification.compile session.keys = .ok spec ∧
      ∃ line, CommandLine.parse spec.options settings.posixly argv = .ok line ∧
        inputs = ⟨line, Environment.ofEntries envp, settings.separator⟩ := by
  simp only [read, bind_eq_ok_iff]
  constructor
  · rintro ⟨spec', hcompile, line, hparse, hreturn⟩
    cases hreturn
    exact ⟨hcompile, line, hparse, rfl⟩
  · rintro ⟨hcompile, line, hparse, rfl⟩
    exact ⟨spec, hcompile, line, hparse, rfl⟩

lemma read_eq_error {failure : Failure} (h : Specification.compile session.keys = .error failure ∨
      ∃ spec, Specification.compile session.keys = .ok spec ∧
        CommandLine.parse spec.options settings.posixly argv = .error failure) :
    session.read argv envp settings = .error failure := by
  rw [read, bind_eq_error_iff]
  rcases h with hcompile | ⟨spec, hcompile, hparse⟩
  · exact Or.inl hcompile
  · exact Or.inr ⟨spec, hcompile, bind_eq_error_iff.mpr (Or.inl hparse)⟩

/-- Reading depends on the `spec` keys only. -/
lemma read_congr (h : ∀ name : KeyName, name.space = .spec →
      session.keys.find? name = after.keys.find? name) :
    session.read argv envp settings = after.read argv envp settings := by
  rw [read, read, Specification.compile_congr h]

/-! ### The four ends of a call -/

/-- How a call ends: with an unreadable input, with a request for help, with a binding that does not
resolve, or with all values in the key set. -/
inductive Ends (session : Session) (argv envp : List String) (settings : Settings) :
    Except Failure Outcome → Session → Prop
  | unread {failure : Failure} (hread : session.read argv envp settings = .error failure) :
      Ends session argv envp settings (.error failure)
        { session with errorKey := failure.attach session.errorKey }
  | help {spec : Specification} {inputs : Inputs}
      (hread : session.read argv envp settings = .ok (spec, inputs))
      (hhelp : inputs.line.HelpRequested) :
      Ends session argv envp settings (.ok .helpRequested)
        { session with errorKey := Help.attach spec (argv.headD "") session.errorKey }
  | refused {spec : Specification} {inputs : Inputs} {failure : Failure}
      (hread : session.read argv envp settings = .ok (spec, inputs))
      (hhelp : ¬inputs.line.HelpRequested)
      (hrefused : resolveAll session.keys inputs ∅ spec.bindings = .error failure) :
      Ends session argv envp settings (.error failure)
        { session with errorKey := failure.attach session.errorKey }
  | resolved {spec : Specification} {inputs : Inputs} {staged : KeySet}
      (hread : session.read argv envp settings = .ok (spec, inputs))
      (hhelp : ¬inputs.line.HelpRequested)
      (hrun : Run session.keys inputs ∅ spec.bindings staged) :
      Ends session argv envp settings (.ok .resolved)
        { session with keys := session.keys.insertAll staged.toList }

lemma ends_of_attempt_eq_ok {outcome : Outcome}
    (h : session.attempt argv envp settings = .ok (outcome, after)) :
    Ends session argv envp settings (.ok outcome) after := by
  rw [attempt, bind_eq_ok_iff] at h
  obtain ⟨spec, hcompile, h⟩ := h
  obtain ⟨line, hparse, h⟩ := bind_eq_ok_iff.mp h
  have hread : session.read argv envp settings
      = .ok (spec, ⟨line, Environment.ofEntries envp, settings.separator⟩) :=
    read_eq_ok_iff.mpr ⟨hcompile, line, hparse, rfl⟩
  by_cases hhelp : line.HelpRequested
  · rw [if_pos hhelp] at h
    cases h
    exact .help hread hhelp
  · rw [if_neg hhelp] at h
    obtain ⟨staged, hall, h⟩ := bind_eq_ok_iff.mp h
    cases h
    exact .resolved hread hhelp (resolveAll_eq_ok_iff.mp hall)

lemma ends_of_attempt_eq_error {failure : Failure}
    (h : session.attempt argv envp settings = .error failure) :
    Ends session argv envp settings (.error failure)
      { session with errorKey := failure.attach session.errorKey } := by
  rw [attempt] at h
  rcases bind_eq_error_iff.mp h with hcompile | ⟨spec, hcompile, h⟩
  · exact .unread (read_eq_error (Or.inl hcompile))
  rcases bind_eq_error_iff.mp h with hparse | ⟨line, hparse, h⟩
  · exact .unread (read_eq_error (Or.inr ⟨spec, hcompile, hparse⟩))
  have hread : session.read argv envp settings
      = .ok (spec, ⟨line, Environment.ofEntries envp, settings.separator⟩) :=
    read_eq_ok_iff.mpr ⟨hcompile, line, hparse, rfl⟩
  by_cases hhelp : line.HelpRequested
  · rw [if_pos hhelp] at h
    cases h
  · rw [if_neg hhelp] at h
    rcases bind_eq_error_iff.mp h with hall | ⟨staged, _, h⟩
    · exact .refused hread hhelp hall
    · cases h

/-- Every call has one of the four ends. -/
lemma ends_resolveWith (session : Session) (argv envp : List String) (settings : Settings) :
    Ends session argv envp settings (session.resolveWith argv envp settings).1
      (session.resolveWith argv envp settings).2 := by
  rw [resolveWith]
  cases h : session.attempt argv envp settings with
  | error failure => exact ends_of_attempt_eq_error h
  | ok next => exact ends_of_attempt_eq_ok h

/-- A call reads, looks for a request for help, and then stages all values. -/
lemma resolveWith_eq (session : Session) (argv envp : List String) (settings : Settings) :
    session.resolveWith argv envp settings = match session.read argv envp settings with
      | .error failure =>
        (.error failure, { session with errorKey := failure.attach session.errorKey })
      | .ok (spec, inputs) =>
        if inputs.line.HelpRequested then (.ok .helpRequested,
          { session with errorKey := Help.attach spec (argv.headD "") session.errorKey })
        else match resolveAll session.keys inputs ∅ spec.bindings with
          | .error failure =>
            (.error failure, { session with errorKey := failure.attach session.errorKey })
          | .ok staged =>
            (.ok .resolved, { session with keys := session.keys.insertAll staged.toList }) := by
  rw [resolveWith, attempt, read]
  cases Specification.compile session.keys with
  | error failure => rfl
  | ok spec =>
    simp only [ok_bind]
    cases CommandLine.parse spec.options settings.posixly argv with
    | error failure => rfl
    | ok line =>
      simp only [ok_bind]
      by_cases hhelp : line.HelpRequested
      · rw [if_pos hhelp]
        exact (if_pos hhelp).symm
      · rw [if_neg hhelp]
        refine Eq.trans ?_ (if_neg hhelp).symm
        cases resolveAll session.keys ⟨line, Environment.ofEntries envp, settings.separator⟩ ∅
          spec.bindings <;> rfl

lemma exists_run_of_resolved (h : (session.resolveWith argv envp settings).1 = .ok .resolved) :
    ∃ spec inputs staged, session.read argv envp settings = .ok (spec, inputs) ∧
      Run session.keys inputs ∅ spec.bindings staged ∧
      (session.resolveWith argv envp settings).2
        = { session with keys := session.keys.insertAll staged.toList } := by
  have hends := session.ends_resolveWith argv envp settings
  generalize session.resolveWith argv envp settings = ended at h hends ⊢
  obtain ⟨result, after⟩ := ended
  cases hends with
  | resolved hread _ hrun => exact ⟨_, _, _, hread, hrun, rfl⟩
  | unread _ | help _ _ | refused _ _ _ => cases h

/-! ### Values found -/

/-- A binding that the key set declares, with the value that the inputs give it. -/
def Finds (session : Session) (argv envp : List String) (settings : Settings) (binding : Binding)
    (value : Value) : Prop :=
  ∃ spec inputs, session.read argv envp settings = .ok (spec, inputs) ∧
    binding ∈ spec.bindings ∧ inputs.finding? binding = some value

lemma finds_iff (hread : session.read argv envp settings = .ok (spec, inputs)) {binding : Binding}
    {value : Value} : session.Finds argv envp settings binding value ↔
      binding ∈ spec.bindings ∧ inputs.finding? binding = some value := by
  constructor
  · rintro ⟨spec', inputs', hread', hbinding, hfound⟩
    rw [hread] at hread'
    cases hread'
    exact ⟨hbinding, hfound⟩
  · rintro ⟨hbinding, hfound⟩
    exact ⟨spec, inputs, hread, hbinding, hfound⟩

lemma orderly_of_read (hread : session.read argv envp settings = .ok (spec, inputs)) :
    Orderly inputs spec.bindings :=
  orderly_of_compile inputs (read_eq_ok_iff.mp hread).1

/-- Whatever is staged under a name comes from a value that the name receives. -/
lemma exists_receives (hread : session.read argv envp settings = .ok (spec, inputs))
    {name : KeyName} {key : Key}
    (hlatest : SortedBy.latest? Key.name name (written inputs spec.bindings) = some key) :
    ∃ binding value, session.Finds argv envp settings binding value ∧
      Receives binding value name := by
  obtain ⟨binding, hbinding, value, hfound, hkey⟩ :=
    mem_written_iff.mp (SortedBy.mem_of_latest? hlatest)
  have hkind := (orderly_of_read hread).kind binding hbinding value hfound
  refine ⟨binding, value, (finds_iff hread).mpr ⟨hbinding, hfound⟩, ?_⟩
  exact (receives_iff hkind).mpr ⟨key, hkey, SortedBy.key_of_latest? hlatest⟩

end Session

namespace Staging

variable {store staged : KeySet} {inputs : Inputs} {bindings : List Binding}

/-- A run leaves in the key set what filing its keys there leaves. -/
lemma Run.commit_eq (h : Run store inputs ∅ bindings staged) :
    store.insertAll staged.toList = store.insertAll (written inputs bindings) := by
  rw [h.staged_eq]
  exact SortedBy.insertAll_ofList store _

/-- A run leaves under a name what it staged there last, else what was there before. -/
lemma Run.find?_commit (h : Run store inputs ∅ bindings staged) (name : KeyName) :
    (store.insertAll staged.toList).find? name
      = (SortedBy.latest? Key.name name (written inputs bindings)).or (store.find? name) := by
  rw [h.commit_eq, SortedBy.find?_insertAll]

end Staging

end DeclaredOptions
