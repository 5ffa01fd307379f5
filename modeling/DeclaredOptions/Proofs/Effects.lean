import DeclaredOptions.Proofs.Call
import Mathlib.Tactic.Common

/-!
# What a call changes

A call that fails changes the error key in two entries, a call that asks for help in two others,
and a call that resolves changes nothing but `proc` keys under names that receive a value
(`effect_resolveWith`).
-/

namespace DeclaredOptions

open Std Staging

/-! ### Changed metadata -/

/-- Keys with the same name, the same value and the same metadata but for some entries. -/
structure Key.AgreesOutside (entries : List String) (a b : Key) : Prop where
  name : a.name = b.name
  value : a.value = b.value
  metadata : ∀ entry ∉ entries, a.metadata.get? entry = b.metadata.get? entry

lemma Key.agreesOutside_setMetadata (key : Key) (first second text text' : String) :
    ((key.setMetadata first text).setMetadata second text').AgreesOutside [first, second] key := by
  constructor
  · rfl
  · rfl
  · intro entry hentry
    have hfirst : first ≠ entry := by
      rintro rfl
      exact hentry List.mem_cons_self
    have hsecond : second ≠ entry := by
      rintro rfl
      exact hentry (List.mem_cons_of_mem _ List.mem_cons_self)
    show ((key.metadata.set first text).set second text').get? entry = _
    rw [SortedMap.get?_set_of_ne _ hsecond, SortedMap.get?_set_of_ne _ hfirst]

lemma Key.get?_setMetadata_first (key : Key) {first second : String} (h : second ≠ first)
    (text text' : String) :
    ((key.setMetadata first text).setMetadata second text').metadata.get? first = some text := by
  show ((key.metadata.set first text).set second text').get? first = _
  rw [SortedMap.get?_set_of_ne _ h, SortedMap.get?_set_self]

lemma Key.get?_setMetadata_second (key : Key) (first second text text' : String) :
    ((key.setMetadata first text).setMetadata second text').metadata.get? second = some text' :=
  SortedMap.get?_set_self _ _ _

namespace Session

variable {session after : Session} {argv envp : List String} {settings : Settings}

/-! ### The three effects -/

/-- The keys stay, and the error key reports the failure. -/
structure Failed (session after : Session) (failure : Failure) : Prop where
  keys : after.keys = session.keys
  errorKey : after.errorKey.AgreesOutside ["error", "error/reason"] session.errorKey
  label : after.errorKey.metadata.get? "error" = some failure.label
  reason : after.errorKey.metadata.get? "error/reason" = some failure.message

/-- The keys stay, and the error key carries the help texts of the declared bindings. -/
structure Helped (session after : Session) (argv : List String) : Prop where
  keys : after.keys = session.keys
  errorKey : after.errorKey.AgreesOutside [Help.usageEntry, Help.optionsEntry] session.errorKey
  texts : ∃ spec, Specification.compile session.keys = .ok spec ∧
    after.errorKey.metadata.get? Help.usageEntry = some (Help.usage
      (Help.programName (argv.headD "")) spec.hasOptions spec.hasArguments) ∧
    after.errorKey.metadata.get? Help.optionsEntry = some (Help.optionList spec.bindings)

/-- The error key stays, and so do all keys but those under names that receive a value. -/
structure Committed (session after : Session) (argv envp : List String) (settings : Settings) :
    Prop where
  errorKey : after.errorKey = session.errorKey
  present : ∀ name, session.keys.find? name ≠ none → after.keys.find? name ≠ none
  outside : ∀ name : KeyName, name.space ≠ .proc → after.keys.find? name = session.keys.find? name
  changed : ∀ name, after.keys.find? name ≠ session.keys.find? name →
    ∃ binding value, session.Finds argv envp settings binding value ∧ Receives binding value name

/-- The effect that belongs to an end of a call. -/
def HasEffect (session : Session) (argv envp : List String) (settings : Settings) :
    Except Failure Outcome × Session → Prop
  | (.error failure, after) => session.Failed after failure
  | (.ok .helpRequested, after) => session.Helped after argv
  | (.ok .resolved, after) => session.Committed after argv envp settings

lemma failed_attach (session : Session) (failure : Failure) :
    session.Failed { session with errorKey := failure.attach session.errorKey } failure where
  keys := rfl
  errorKey := session.errorKey.agreesOutside_setMetadata "error" "error/reason" _ _
  label := session.errorKey.get?_setMetadata_first (by decide) _ _
  reason := session.errorKey.get?_setMetadata_second "error" _ _ _

lemma helped_attach {spec : Specification} (argv : List String)
    (h : Specification.compile session.keys = .ok spec) :
    session.Helped { session with errorKey := Help.attach spec (argv.headD "") session.errorKey }
      argv where
  keys := rfl
  errorKey := session.errorKey.agreesOutside_setMetadata Help.usageEntry Help.optionsEntry _ _
  texts := by
    refine ⟨spec, h, ?_, ?_⟩
    · exact session.errorKey.get?_setMetadata_first (by decide) _ _
    · exact session.errorKey.get?_setMetadata_second Help.usageEntry _ _ _

/-- A request for help leaves a help text. -/
lemma Helped.isSome_message (h : session.Helped after argv) :
    (Help.message? after.errorKey).isSome := by
  obtain ⟨_, _, husage, _⟩ := h.texts
  rw [Help.message?, Option.isSome_map, Option.isSome_or, husage]
  exact Bool.or_true _

lemma committed_insertAll {spec : Specification} {inputs : Inputs} {staged : KeySet}
    (hread : session.read argv envp settings = .ok (spec, inputs))
    (hrun : Run session.keys inputs ∅ spec.bindings staged) :
    session.Committed { session with keys := session.keys.insertAll staged.toList } argv envp
      settings := by
  have hchanged : ∀ name, (session.keys.insertAll staged.toList).find? name ≠
      session.keys.find? name → ∃ binding value,
        session.Finds argv envp settings binding value ∧ Receives binding value name := by
    intro name hne
    rw [hrun.find?_commit name] at hne
    cases hlatest : SortedBy.latest? Key.name name (written inputs spec.bindings) with
    | none =>
      rw [hlatest] at hne
      exact absurd rfl hne
    | some key => exact exists_receives hread hlatest
  constructor
  · rfl
  · intro name hpresent hgone
    show False
    rw [hrun.find?_commit name] at hgone
    exact hpresent (Option.or_eq_none_iff.mp hgone).2
  · intro name hspace
    by_contra hne
    obtain ⟨binding, value, _, hreceives⟩ := hchanged name hne
    exact hspace hreceives.space_eq
  · exact hchanged

/-- A call that fails or asks for help leaves all keys as they were and reports in the metadata of
the error key; a call that resolves leaves the error key as it was, loses no key and changes only
names that a value found for some binding is written to. -/
theorem effect_resolveWith (session : Session) (argv envp : List String) (settings : Settings) :
    session.HasEffect argv envp settings (session.resolveWith argv envp settings) := by
  have hends := session.ends_resolveWith argv envp settings
  generalize session.resolveWith argv envp settings = ended at hends ⊢
  obtain ⟨result, after⟩ := ended
  cases hends with
  | unread hread => exact failed_attach session _
  | help hread hhelp => exact helped_attach argv (read_eq_ok_iff.mp hread).1
  | refused hread hhelp hrefused => exact failed_attach session _
  | resolved hread hhelp hrun => exact committed_insertAll hread hrun

end Session

end DeclaredOptions
