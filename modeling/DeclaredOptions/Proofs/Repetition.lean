import DeclaredOptions.Proofs.Effects
import DeclaredOptions.Proofs.TakenNames
import Mathlib.Tactic.Common

/-!
# Equal calls

How a call ends depends on its keys (`Ends.unique`), and those of a call that fails or asks for help
stay. After a call that resolves, a name that was claimed for a list or for a text holds a value
(`Run.holds_claimed`), so an equal call finds it taken. If only empty texts were found, all goes as
before (`exists_run_of_empty`).
-/

namespace DeclaredOptions

open Std Staging

namespace Staging

variable {store : KeySet} {inputs : Inputs} {bindings : List Binding} {binding : Binding}

/-- A name that was claimed for a list or for a text holds a value in the end. -/
lemma Run.holds_claimed {staged : KeySet} (h : Run store inputs ∅ bindings staged)
    (horder : Orderly inputs bindings) (hbinding : binding ∈ bindings) {value : Value}
    (hfound : inputs.finding? binding = some value) (hvalue : value ≠ .scalar "") :
    Holds (store.insertAll staged.toList) (claimed binding value) := by
  obtain ⟨key, hkey, hfilled⟩ :=
    (h.holds_iff horder).mpr ⟨binding, hbinding, value, hfound, fills_claimed hvalue⟩
  refine ⟨key, ?_, hfilled⟩
  rw [SortedBy.find?_insertAll_toList, hkey]
  rfl

lemma eq_empty_of_mem_written (hempty : ∀ binding ∈ bindings, ∀ value,
      inputs.finding? binding = some value → value = .scalar "") :
    ∀ key ∈ written inputs bindings, key.value = "" := by
  intro key hkey
  obtain ⟨binding, hbinding, value, hfound, hkey⟩ := mem_written_iff.mp hkey
  cases hempty binding hbinding value hfound
  rw [List.mem_singleton.mp hkey]

/-- Empty texts are staged wherever nothing holds a value. -/
lemma exists_run_of_empty (horder : Orderly inputs bindings)
    (hresolves : ∀ binding ∈ bindings, ∃ found, inputs.resolve binding = .ok found)
    (hempty : ∀ binding ∈ bindings, ∀ value, inputs.finding? binding = some value →
      value = .scalar "")
    (hstore : ∀ binding ∈ bindings, ∀ value, inputs.finding? binding = some value →
      ¬Holds store (claimed binding value)) : ∃ final, Run store inputs ∅ bindings final := by
  refine (exists_run_iff horder).mpr fun binding hbinding => ?_
  obtain ⟨found, hresolve⟩ := hresolves binding hbinding
  refine ⟨found, hresolve, ?_⟩
  intro resolution hfound
  cases hfound
  rintro (hholds | ⟨earlier, hearlier, _, value, hfound, key, hkey, _, hfilled⟩)
  · exact hstore binding hbinding _ (Inputs.finding?_eq_some hresolve) hholds
  · have hkey := mem_written_iff.mpr ⟨earlier, hearlier, value, hfound, hkey⟩
    exact hfilled (eq_empty_of_mem_written hempty key hkey)

end Staging

namespace Session

variable {session session' after after' : Session} {argv envp : List String} {settings : Settings}
  {result result' : Except Failure Outcome}

/-- Equal keys make equal calls end alike. -/
lemma Ends.unique (hkeys : session.keys = session'.keys)
    (h : Ends session argv envp settings result after)
    (h' : Ends session' argv envp settings result' after') :
    result' = result ∧ after'.keys = after.keys := by
  have hread : session.read argv envp settings = session'.read argv envp settings :=
    read_congr fun _ _ => by rw [hkeys]
  cases h with
  | unread h =>
    rw [hread] at h
    cases h' with
    | unread h' =>
      cases h.symm.trans h'
      exact ⟨rfl, hkeys.symm⟩
    | help h' _ | refused h' _ _ | resolved h' _ _ => cases h.symm.trans h'
  | help h hhelp =>
    rw [hread] at h
    cases h' with
    | unread h' => cases h.symm.trans h'
    | help h' _ => exact ⟨rfl, hkeys.symm⟩
    | refused h' hhelp' _ | resolved h' hhelp' _ =>
      cases h.symm.trans h'
      exact absurd hhelp hhelp'
  | refused h hhelp hrefused =>
    rw [hread] at h
    rw [hkeys] at hrefused
    cases h' with
    | unread h' => cases h.symm.trans h'
    | help h' hhelp' =>
      cases h.symm.trans h'
      exact absurd hhelp' hhelp
    | refused h' _ hrefused' =>
      cases h.symm.trans h'
      cases hrefused.symm.trans hrefused'
      exact ⟨rfl, hkeys.symm⟩
    | resolved h' _ hrun =>
      cases h.symm.trans h'
      cases hrefused.symm.trans (resolveAll_eq_ok_iff.mpr hrun)
  | resolved h hhelp hrun =>
    rw [hread] at h
    rw [hkeys] at hrun
    have hall := resolveAll_eq_ok_iff.mpr hrun
    cases h' with
    | unread h' => cases h.symm.trans h'
    | help h' hhelp' =>
      cases h.symm.trans h'
      exact absurd hhelp' hhelp
    | refused h' _ hrefused =>
      cases h.symm.trans h'
      cases hall.symm.trans hrefused
    | resolved h' _ hrun' =>
      cases h.symm.trans h'
      cases hall.symm.trans (resolveAll_eq_ok_iff.mpr hrun')
      exact ⟨rfl, by rw [hkeys]⟩

/-! ### After a call that resolves -/

/-- Some binding gets a list or a text that is not empty. -/
def FindsValue (session : Session) (argv envp : List String) (settings : Settings) : Prop :=
  ∃ binding value, session.Finds argv envp settings binding value ∧ value ≠ .scalar ""

/-- What a call answers after an equal call with some result. -/
def AnswersAgain (session : Session) (argv envp : List String) (settings : Settings) :
    Except Failure Outcome → Except Failure Outcome → Prop
  | .error failure, again => again = .error failure
  | .ok .helpRequested, again => again = .ok .helpRequested
  | .ok .resolved, again =>
    (session.FindsValue argv envp settings →
      ∃ origin name, again = .error (.illegalUse origin (.alreadyResolved name))) ∧
    (¬session.FindsValue argv envp settings → again = .ok .resolved)

variable {spec : Specification} {inputs : Inputs} {staged : KeySet}

/-- A call that resolves leaves the `spec` keys, so an equal call reads the same. -/
lemma read_commit (hread : session.read argv envp settings = .ok (spec, inputs))
    (hrun : Run session.keys inputs ∅ spec.bindings staged) :
    ({ session with keys := session.keys.insertAll staged.toList } : Session).read argv envp
      settings = .ok (spec, inputs) := by
  rw [← hread]
  apply read_congr
  intro name hspace
  apply (committed_insertAll hread hrun).outside
  rw [hspace]
  decide

/-- Where only empty texts were found, an equal call stages them once more. -/
lemma exists_run_again (hread : session.read argv envp settings = .ok (spec, inputs))
    (hrun : Run session.keys inputs ∅ spec.bindings staged)
    (hnone : ¬session.FindsValue argv envp settings) :
    ∃ final, Run (session.keys.insertAll staged.toList) inputs ∅ spec.bindings final := by
  have hempty : ∀ binding ∈ spec.bindings, ∀ value, inputs.finding? binding = some value →
      value = .scalar "" := by
    intro binding hbinding value hfound
    by_contra hvalue
    exact hnone ⟨binding, value, (finds_iff hread).mpr ⟨hbinding, hfound⟩, hvalue⟩
  refine exists_run_of_empty (orderly_of_read hread) hrun.resolves hempty ?_
  intro binding hbinding value hfound
  rw [hrun.commit_eq]
  exact not_holds_insertAll (eq_empty_of_mem_written hempty) (hrun.not_holds hbinding hfound)

lemma ends_again (hread : session.read argv envp settings = .ok (spec, inputs))
    (hhelp : ¬inputs.line.HelpRequested) (hrun : Run session.keys inputs ∅ spec.bindings staged)
    (hagain : Ends { session with keys := session.keys.insertAll staged.toList } argv envp settings
      result after) :
    after.keys = session.keys.insertAll staged.toList ∧
      session.AnswersAgain argv envp settings (.ok .resolved) result := by
  have hread' := read_commit hread hrun
  cases hagain with
  | unread h => cases h.symm.trans hread'
  | help h hhelp' =>
    cases h.symm.trans hread'
    exact absurd hhelp' hhelp
  | refused h _ hrefused =>
    cases h.symm.trans hread'
    refine ⟨rfl, ?_, ?_⟩
    · intro _
      rcases resolveAll_eq_error hrefused with ⟨binding, hbinding, hresolve⟩ | ⟨origin, name, rfl⟩
      · obtain ⟨found, hfound⟩ := hrun.resolves binding hbinding
        cases hfound.symm.trans hresolve
      · exact ⟨origin, name, rfl⟩
    · intro hnone
      obtain ⟨final, hrun'⟩ := exists_run_again hread hrun hnone
      cases hrefused.symm.trans (resolveAll_eq_ok_iff.mpr hrun')
  | resolved h _ hrun' =>
    cases h.symm.trans hread'
    have hstaged := hrun'.staged_eq.trans hrun.staged_eq.symm
    subst hstaged
    refine ⟨SortedBy.insertAll_insertAll_toList _ _, ?_, fun _ => rfl⟩
    rintro ⟨binding, value, hfinds, hvalue⟩
    obtain ⟨hbinding, hfound⟩ := (finds_iff hread).mp hfinds
    have horder := orderly_of_read hread
    exact absurd (hrun.holds_claimed horder hbinding hfound hvalue)
      (hrun'.not_holds hbinding hfound)

/-- An equal call leaves all keys as they are. It answers what a call that failed or asked for help
answered; after a call that resolved it resolves as well, unless a list or a text that is not empty
was found: then it finds a name taken. -/
theorem again_resolveWith (session : Session) (argv envp : List String) (settings : Settings) :
    let first := session.resolveWith argv envp settings
    let again := first.2.resolveWith argv envp settings
    again.2.keys = first.2.keys ∧ session.AnswersAgain argv envp settings first.1 again.1 := by
  intro first again
  have hagain : Ends first.2 argv envp settings again.1 again.2 := first.2.ends_resolveWith _ _ _
  have hfirst : Ends session argv envp settings first.1 first.2 := session.ends_resolveWith _ _ _
  generalize again = again at hagain ⊢
  generalize first = first at hfirst hagain ⊢
  obtain ⟨result, after⟩ := first
  -- a call that does not resolve leaves the keys, so that the second one ends like the first
  have hsame : after.keys = session.keys → again.1 = result ∧ again.2.keys = after.keys :=
    fun hkeys => Ends.unique hkeys.symm hfirst hagain
  cases hfirst with
  | unread _ => exact (hsame rfl).symm
  | help _ _ => exact (hsame rfl).symm
  | refused _ _ _ => exact (hsame rfl).symm
  | resolved hread hhelp hrun => exact ends_again hread hhelp hrun hagain

end Session

end DeclaredOptions
