import DeclaredOptions.Proofs.Call
import Mathlib.Tactic.Common

/-!
# Values that were there before

A call that resolves does not touch a value under a name that is claimed. The elements of a list
claim no names: where one of them meets a value, it replaces the value without a failure, so a call
keeps all values only where no element does (`protection_iff`).
-/

namespace DeclaredOptions

open Std Staging

namespace Session

variable {session : Session} {argv envp : List String} {settings : Settings}

/-- A call that resolves keeps all values of the `proc` namespace. -/
def KeepsValues (session : Session) (argv envp : List String) (settings : Settings) : Prop :=
  (session.resolveWith argv envp settings).1 = .ok .resolved →
    ∀ name : KeyName, name.space = .proc → ∀ key ∈ session.keys.find? name, key.value ≠ "" →
      ∃ key' ∈ (session.resolveWith argv envp settings).2.keys.find? name, key'.value = key.value

/-- A call that would write to a name that holds a value fails, unless it asks for help. -/
def RefusesTakenNames (session : Session) (argv envp : List String) (settings : Settings) : Prop :=
  ∀ binding value name, session.Finds argv envp settings binding value →
    Receives binding value name → Holds session.keys name →
    (session.resolveWith argv envp settings).1 = .ok .helpRequested ∨
      ∃ subject fault, (session.resolveWith argv envp settings).1
        = .error (.illegalUse subject fault)

/-- The text of a list that was found, and the name of its element if the name holds a value. -/
inductive TakenElement (session : Session) (argv envp : List String) (settings : Settings) :
    String → KeyName → Prop
  | intro {binding : Binding} {texts : List String} {parent : KeyName} {i : Nat}
      (hfinds : session.Finds argv envp settings binding (.array texts))
      (hparent : target binding = parent.child KeyName.wildcard) (hi : i < texts.length)
      (hholds : Holds session.keys (parent.child (Index.name i))) :
      TakenElement session argv envp settings texts[i] (parent.child (Index.name i))

lemma TakenElement.holds {text : String} {name : KeyName}
    (h : session.TakenElement argv envp settings text name) : Holds session.keys name := by
  obtain ⟨_, _, _, hholds⟩ := h
  exact hholds

lemma TakenElement.space_eq {text : String} {name : KeyName}
    (h : session.TakenElement argv envp settings text name) : name.space = .proc := by
  obtain ⟨_, hparent, hi, _⟩ := h
  exact (Receives.element _ hparent hi).space_eq

variable {spec : Specification} {inputs : Inputs} {staged : KeySet}

/-- After a call that resolves, a taken name that received a value is that of an element. -/
lemma exists_takenElement (hread : session.read argv envp settings = .ok (spec, inputs))
    (hrun : Run session.keys inputs ∅ spec.bindings staged) {binding : Binding} {value : Value}
    {name : KeyName} (hfinds : session.Finds argv envp settings binding value)
    (hreceives : Receives binding value name) (hholds : Holds session.keys name) :
    ∃ text, session.TakenElement argv envp settings text name := by
  obtain ⟨hbinding, hfound⟩ := (finds_iff hread).mp hfinds
  have hfree := hrun.not_holds hbinding hfound
  cases hreceives with
  | scalar text => exact absurd hholds hfree
  | array texts hparent =>
    rw [claimed, arrayName_eq hparent] at hfree
    exact absurd hholds hfree
  | element texts hparent hi => exact ⟨texts[_], .intro hfinds hparent hi hholds⟩

/-- After a call that resolves, a taken name of an element holds the text of the element. -/
lemma find?_of_takenElement (hread : session.read argv envp settings = .ok (spec, inputs))
    (hrun : Run session.keys inputs ∅ spec.bindings staged) {text : String} {name : KeyName}
    (h : session.TakenElement argv envp settings text name) :
    (session.keys.insertAll staged.toList).find? name = some { name, value := text } := by
  obtain ⟨hfinds, hparent, hi, hholds⟩ := h
  obtain ⟨hbinding, hfound⟩ := (finds_iff hread).mp hfinds
  rw [hrun.find?_commit, latest?_of_element (orderly_of_read hread) hbinding hfound hparent hi ?_]
  · rfl
  · intro other hother value' hfound' hclaim
    rw [← hclaim] at hholds
    exact hrun.not_holds hother hfound' hholds

/-- A name that holds a value keeps its key, or else it is the name of an element. -/
lemma find?_of_holds (hread : session.read argv envp settings = .ok (spec, inputs))
    (hrun : Run session.keys inputs ∅ spec.bindings staged) {name : KeyName}
    (hholds : Holds session.keys name) :
    (session.keys.insertAll staged.toList).find? name = session.keys.find? name ∨
      ∃ text, session.TakenElement argv envp settings text name := by
  rw [hrun.find?_commit]
  cases hlatest : SortedBy.latest? Key.name name (written inputs spec.bindings) with
  | none => exact Or.inl rfl
  | some key =>
    obtain ⟨binding, value, hfinds, hreceives⟩ := exists_receives hread hlatest
    exact Or.inr (exists_takenElement hread hrun hfinds hreceives hholds)

lemma keepsValues_iff : session.KeepsValues argv envp settings ↔
    ((session.resolveWith argv envp settings).1 = .ok .resolved →
      ∀ text name, session.TakenElement argv envp settings text name →
        ∃ key ∈ session.keys.find? name, key.value = text) := by
  constructor
  · intro hkeeps hresolved text name htaken
    obtain ⟨spec, inputs, staged, hread, hrun, hafter⟩ := exists_run_of_resolved hresolved
    obtain ⟨key, hkey, hvalue⟩ := htaken.holds
    obtain ⟨key', hkey', heq⟩ := hkeeps hresolved name htaken.space_eq key hkey hvalue
    rw [hafter, find?_of_takenElement hread hrun htaken] at hkey'
    cases hkey'
    exact ⟨key, hkey, heq.symm⟩
  · intro hrestated hresolved name _ key hkey hvalue
    obtain ⟨spec, inputs, staged, hread, hrun, hafter⟩ := exists_run_of_resolved hresolved
    rw [hafter]
    rcases find?_of_holds hread hrun ⟨key, hkey, hvalue⟩ with hsame | ⟨text, htaken⟩
    · exact ⟨key, hsame.trans hkey, rfl⟩
    · obtain ⟨other, hother, htext⟩ := hrestated hresolved text name htaken
      cases hkey.symm.trans hother
      exact ⟨_, find?_of_takenElement hread hrun htaken, htext.symm⟩

lemma refusesTakenNames_iff : session.RefusesTakenNames argv envp settings ↔
    ((session.resolveWith argv envp settings).1 = .ok .resolved →
      ∀ text name, ¬session.TakenElement argv envp settings text name) := by
  constructor
  · intro hrefuses hresolved text name htaken
    obtain ⟨hfinds, hparent, hi, hholds⟩ := htaken
    rcases hrefuses _ _ _ hfinds (.element _ hparent hi) hholds with hresult | ⟨_, _, hresult⟩
    · cases hresolved.symm.trans hresult
    · cases hresolved.symm.trans hresult
  · intro hnone binding value name hfinds hreceives hholds
    have hends := session.ends_resolveWith argv envp settings
    generalize session.resolveWith argv envp settings = ended at hnone hends ⊢
    obtain ⟨result, after⟩ := ended
    cases hends with
    | unread hread =>
      obtain ⟨spec, inputs, hread', _⟩ := hfinds
      cases hread.symm.trans hread'
    | help _ _ => exact Or.inl rfl
    | refused _ _ hrefused =>
      right
      rcases resolveAll_eq_error hrefused with ⟨other, _, hresolve⟩ | ⟨origin, taken, rfl⟩
      · obtain ⟨subject, first, rfl⟩ := Inputs.resolve_eq_error hresolve
        exact ⟨_, _, rfl⟩
      · exact ⟨_, _, rfl⟩
    | resolved hread _ hrun =>
      obtain ⟨text, htaken⟩ := exists_takenElement hread hrun hfinds hreceives hholds
      exact absurd htaken (hnone rfl text name)

/-- A call keeps all values just where it resolves only if each element of a list whose name holds
a value repeats this value. It refuses all names that hold a value just where it resolves only if no
element of a list has such a name. -/
theorem protection_iff (session : Session) (argv envp : List String) (settings : Settings) :
    (session.KeepsValues argv envp settings ↔
      ((session.resolveWith argv envp settings).1 = .ok .resolved →
        ∀ text name, session.TakenElement argv envp settings text name →
          ∃ key ∈ session.keys.find? name, key.value = text)) ∧
    (session.RefusesTakenNames argv envp settings ↔
      ((session.resolveWith argv envp settings).1 = .ok .resolved →
        ∀ text name, ¬session.TakenElement argv envp settings text name)) := by
  constructor
  · exact keepsValues_iff
  · exact refusesTakenNames_iff

/-- The list `include` is declared with the option `-I`, and its first element holds a value. -/
def takenElementSession : Session where
  keys := .ofList Key.name [
    { name := ⟨.spec, ["include", "#"], by decide⟩, metadata := .ofList Prod.fst [("opt", "I")] },
    { name := ⟨.proc, ["include", "#0"], by decide⟩, value := "old" }]
  errorKey := { name := .root .cascading }

theorem not_keepsValues : ¬takenElementSession.KeepsValues ["prog", "-Inew"] [] {} := by
  intro hkeeps
  obtain ⟨key, hkey, hvalue⟩ := hkeeps rfl ⟨.proc, ["include", "#0"], by decide⟩ rfl
    { name := ⟨.proc, ["include", "#0"], by decide⟩, value := "old" } rfl (by decide)
  cases hkey
  exact absurd hvalue (by decide)

end Session

end DeclaredOptions
