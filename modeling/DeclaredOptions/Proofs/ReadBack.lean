import DeclaredOptions.Proofs.Subtree
import DeclaredOptions.Proofs.TakenNames
import Mathlib.Data.List.Pairwise
import Mathlib.Tactic.Common

/-!
# Reading values back

After a call that resolves, a scalar is the value of its target and a list is read back from its
elements, unless other bindings claim the same names (`readsBack_of_resolved`). What they replace is
empty: a text that is not empty is reported instead (`accountsForValues`).
-/

namespace DeclaredOptions

open Std Staging

/-- A list is read back by index if each index gives its element, and none a further one. -/
lemma filterMap_range_eq_iff {α : Type} {g : Nat → Option α} {xs : List α} {bound : Nat}
    (hbound : xs.length ≤ bound) (hsome : ∀ i < xs.length, (g i).isSome) :
    (List.range bound).filterMap g = xs ↔ ∀ i < bound, g i = xs[i]? := by
  induction xs generalizing g bound with
  | nil => simp [List.filterMap_eq_nil_iff]
  | cons x xs ih =>
    obtain ⟨rest, rfl⟩ := Nat.exists_eq_add_one_of_ne_zero (Nat.ne_zero_of_lt hbound)
    obtain ⟨y, hy⟩ := Option.isSome_iff_exists.mp (hsome 0 (Nat.succ_pos _))
    have htail := ih (g := fun i => g (i + 1)) (Nat.le_of_succ_le_succ hbound)
      fun i hi => hsome (i + 1) (Nat.succ_lt_succ hi)
    rw [List.range_succ_eq_map, List.filterMap_cons_some hy, List.filterMap_map, List.cons.injEq]
    constructor
    · rintro ⟨rfl, hrest⟩ i hi
      cases i with
      | zero => exact hy
      | succ i => exact htail.mp hrest i (Nat.lt_of_succ_lt_succ hi)
    · intro h
      constructor
      · exact Option.some.inj (hy.symm.trans (h 0 (Nat.succ_pos _)))
      · exact htail.mpr fun i hi => h (i + 1) (Nat.succ_lt_succ hi)

lemma KeySet.find?_eq_none_of_inSpace {keys : KeySet} {space : Namespace}
    (h : keys.inSpace space = []) {name : KeyName} (hspace : name.space = space) :
    keys.find? name = none := by
  cases hfind : keys.find? name with
  | none => rfl
  | some key =>
    have hname := SortedBy.key_of_find?_eq_some hfind
    have hmem : key ∈ keys.inSpace space := by
      rw [KeySet.mem_inSpace, hname]
      exact ⟨hfind, hspace⟩
    rw [h] at hmem
    cases hmem

namespace Staging

variable {inputs : Inputs} {bindings : List Binding}

/-- Bindings with the same target are the same. -/
lemma Orderly.eq_of_target_eq (h : Orderly inputs bindings) {a b : Binding} (ha : a ∈ bindings)
    (hb : b ∈ bindings) (heq : target a = target b) : a = b := by
  by_contra hne
  have hdistinct : bindings.Pairwise fun a b => target a ≠ target b := by
    apply h.increasing.imp
    intro a b hlt heq
    rw [heq] at hlt
    simp at hlt
  have hsymm : Std.Symm fun a b : Binding => target a ≠ target b := ⟨fun _ _ h => h.symm⟩
  exact hdistinct.forall ha hb hne heq

end Staging

namespace Session

variable {session : Session} {argv envp : List String} {settings : Settings}

/-! ### Claims -/

/-- Some binding gets a value that claims a name. -/
def Claims (session : Session) (argv envp : List String) (settings : Settings) (name : KeyName)
    (value : Value) : Prop :=
  ∃ binding, session.Finds argv envp settings binding value ∧ claimed binding value = name

variable {spec : Specification} {inputs : Inputs} {staged : KeySet}

lemma claims_iff (hread : session.read argv envp settings = .ok (spec, inputs)) {name : KeyName}
    {value : Value} : session.Claims argv envp settings name value ↔ ∃ binding ∈ spec.bindings,
      inputs.finding? binding = some value ∧ claimed binding value = name := by
  constructor
  · rintro ⟨binding, hfinds, hclaim⟩
    obtain ⟨hbinding, hfound⟩ := (finds_iff hread).mp hfinds
    exact ⟨binding, hbinding, hfound, hclaim⟩
  · rintro ⟨binding, hbinding, hfound, hclaim⟩
    exact ⟨binding, (finds_iff hread).mpr ⟨hbinding, hfound⟩, hclaim⟩

section Committed

variable (hread : session.read argv envp settings = .ok (spec, inputs))
  (hrun : Run session.keys inputs ∅ spec.bindings staged)

include hread hrun

/-- A name that is claimed for an array holds the name of its last element. -/
lemma find?_of_claims_array {name : KeyName} {texts : List String}
    (h : session.Claims argv envp settings name (.array texts)) :
    (session.keys.insertAll staged.toList).find? name
      = some { name, value := lastName texts.length } := by
  obtain ⟨binding, hbinding, hfound, hclaim⟩ := (claims_iff hread).mp h
  have horder := orderly_of_read hread
  obtain ⟨parent, hparent⟩ := exists_parent (horder.kind binding hbinding _ hfound).symm
  rw [claimed, arrayName_eq hparent] at hclaim
  rw [hclaim] at hparent
  rw [hrun.find?_commit, latest?_of_array horder hbinding hfound hparent]
  rfl

/-- A name that is claimed for a scalar, but not for an array, holds the scalar. -/
lemma find?_of_claims_scalar {name : KeyName} {text : String}
    (h : session.Claims argv envp settings name (.scalar text))
    (hno : ∀ texts, ¬session.Claims argv envp settings name (.array texts)) :
    (session.keys.insertAll staged.toList).find? name = some { name, value := text } := by
  obtain ⟨binding, hbinding, hfound, rfl⟩ := (claims_iff hread).mp h
  rw [hrun.find?_commit]
  rw [claimed, latest?_of_scalar (orderly_of_read hread) hbinding hfound]
  · rfl
  · intro other hother texts hfound' hclaim
    exact hno texts ((claims_iff hread).mpr ⟨other, hother, hfound', hclaim⟩)

/-- The name of an element that is not claimed holds the text of the element. -/
lemma find?_of_element {binding : Binding} {texts : List String}
    (hfinds : session.Finds argv envp settings binding (.array texts)) {parent : KeyName}
    (hparent : target binding = parent.child KeyName.wildcard) {i : Nat} (hi : i < texts.length)
    (hno : ∀ value, ¬session.Claims argv envp settings (parent.child (Index.name i)) value) :
    (session.keys.insertAll staged.toList).find? (parent.child (Index.name i))
      = some { name := parent.child (Index.name i), value := texts[i] } := by
  obtain ⟨hbinding, hfound⟩ := (finds_iff hread).mp hfinds
  rw [hrun.find?_commit, latest?_of_element (orderly_of_read hread) hbinding hfound hparent hi]
  · rfl
  · intro other hother value hfound' hclaim
    exact hno value ((claims_iff hread).mpr ⟨other, hother, hfound', hclaim⟩)

/-- An array has no further elements unless they are claimed. -/
lemma find?_eq_none_of_length_le (hproc : session.keys.inSpace .proc = []) {binding : Binding}
    {texts : List String} (hfinds : session.Finds argv envp settings binding (.array texts))
    {parent : KeyName} (hparent : target binding = parent.child KeyName.wildcard) {i : Nat}
    (hi : texts.length ≤ i)
    (hno : ∀ value, ¬session.Claims argv envp settings (parent.child (Index.name i)) value) :
    (session.keys.insertAll staged.toList).find? (parent.child (Index.name i)) = none := by
  obtain ⟨hbinding, hfound⟩ := (finds_iff hread).mp hfinds
  have hspace : (parent.child (Index.name i)).space = .proc := by
    rw [KeyName.space_child]
    exact space_of_parent hparent
  rw [hrun.find?_commit, KeySet.find?_eq_none_of_inSpace hproc hspace, Option.or_none]
  cases hlatest : SortedBy.latest? Key.name (parent.child (Index.name i))
      (written inputs spec.bindings) with
  | none => rfl
  | some key =>
    obtain ⟨other, value, hfinds', hreceives⟩ := exists_receives hread hlatest
    obtain ⟨hother, hfound'⟩ := (finds_iff hread).mp hfinds'
    rcases receives_cases hreceives with ⟨_, rfl, heq⟩ | ⟨_, rfl, heq⟩ |
      ⟨texts', parent', j, hj, rfl, heq, hname⟩
    · exact absurd ⟨other, hfinds', heq⟩ (hno _)
    · exact absurd ⟨other, hfinds', arrayName_eq heq⟩ (hno _)
    · obtain ⟨rfl, rfl⟩ := child_name_inj.mp hname
      cases (orderly_of_read hread).eq_of_target_eq hother hbinding (heq.trans hparent.symm)
      cases hfound.symm.trans hfound'
      exact absurd hj (Nat.not_lt.mpr hi)

/-- An element whose name is claimed is empty. -/
lemma eq_empty_of_claims_element {binding : Binding} {texts : List String}
    (hfinds : session.Finds argv envp settings binding (.array texts)) {parent : KeyName}
    (hparent : target binding = parent.child KeyName.wildcard) {i : Nat} (hi : i < texts.length)
    {value : Value} (h : session.Claims argv envp settings (parent.child (Index.name i)) value) :
    texts[i] = "" := by
  obtain ⟨hbinding, hfound⟩ := (finds_iff hread).mp hfinds
  obtain ⟨other, hother, hfound', hclaim⟩ := (claims_iff hread).mp h
  have horder := orderly_of_read hread
  have hlt := wildcard_lt_target_of_claimed (horder.kind other hother _ hfound') hclaim
  rw [← hparent] at hlt
  have hkey : ({ name := parent.child (Index.name i), value := texts[i] } : Key) ∈
      keysOf binding (.array texts) :=
    (mem_keysOf_array_iff hparent).mpr (Or.inl ⟨i, hi, rfl⟩)
  exact hrun.eq_empty_of_overlap horder hbinding hfound hkey hother hfound' hlt hclaim

/-- A scalar whose target is claimed for an array is empty. -/
lemma eq_empty_of_claims_array {binding : Binding} {text : String}
    (hfinds : session.Finds argv envp settings binding (.scalar text)) {texts : List String}
    (h : session.Claims argv envp settings (target binding) (.array texts)) : text = "" := by
  obtain ⟨hbinding, hfound⟩ := (finds_iff hread).mp hfinds
  obtain ⟨other, hother, hfound', hclaim⟩ := (claims_iff hread).mp h
  have horder := orderly_of_read hread
  have hlt := lt_target_of_claimed_array (horder.kind other hother _ hfound').symm hclaim
  exact hrun.eq_empty_of_overlap horder hbinding hfound (List.mem_singleton_self _) hother hfound'
    hlt hclaim

end Committed

/-! ### Reading back -/

/-- How a value is read back from the keys that a call leaves.

A scalar is the value of its target unless the target is claimed for an array. The elements of an
array are its values in order, unless other bindings claim further elements or put anything but an
empty text in place of an element. -/
def ReadsBack (session : Session) (argv envp : List String) (settings : Settings) (keys : KeySet)
    (binding : Binding) : Value → Prop
  | .scalar text =>
    (keys.find? (target binding) = some { name := target binding, value := text } ↔
      ∀ texts, ¬session.Claims argv envp settings (target binding) (.array texts)) ∧
    ∀ texts, session.Claims argv envp settings (target binding) (.array texts) → text = ""
  | .array texts => ∃ parent : KeyName, target binding = parent.child KeyName.wildcard ∧
    keys.find? parent = some { name := parent, value := lastName texts.length } ∧
    (∀ i, ∀ hi : i < texts.length, ∀ value,
      session.Claims argv envp settings (parent.child (Index.name i)) value → texts[i] = "") ∧
    (texts.length ≤ Index.bound → (keys.arrayValues parent = texts ↔
      ∀ i < Index.bound, ∀ value,
        session.Claims argv envp settings (parent.child (Index.name i)) value →
          value = .scalar "" ∧ i < texts.length))

section Committed

variable (hread : session.read argv envp settings = .ok (spec, inputs))
  (hrun : Run session.keys inputs ∅ spec.bindings staged)

include hread hrun

lemma readsBack_scalar {binding : Binding} {text : String}
    (hfinds : session.Finds argv envp settings binding (.scalar text)) :
    session.ReadsBack argv envp settings (session.keys.insertAll staged.toList) binding
      (.scalar text) := by
  have hempty : ∀ texts, session.Claims argv envp settings (target binding) (.array texts) →
      text = "" := fun texts hclaims => eq_empty_of_claims_array hread hrun hfinds hclaims
  refine ⟨⟨?_, ?_⟩, hempty⟩
  · intro hfind texts hclaims
    have harray := find?_of_claims_array hread hrun hclaims
    cases hfind.symm.trans harray
    exact lastName_ne_empty _ (hempty texts hclaims)
  · intro hno
    exact find?_of_claims_scalar hread hrun ⟨binding, hfinds, rfl⟩ hno

section Elements

variable {binding : Binding} {texts : List String}
  (hfinds : session.Finds argv envp settings binding (.array texts)) {parent : KeyName}
  (hparent : target binding = parent.child KeyName.wildcard)

include hfinds hparent

/-- There is a key for every element. -/
lemma isSome_of_lt_length {i : Nat} (hi : i < texts.length) :
    ((session.keys.insertAll staged.toList).find? (parent.child (Index.name i))).isSome := by
  obtain ⟨hbinding, hfound⟩ := (finds_iff hread).mp hfinds
  have hkey : ({ name := parent.child (Index.name i), value := texts[i] } : Key) ∈
      written inputs spec.bindings :=
    mem_written_iff.mpr ⟨binding, hbinding, _, hfound,
      (mem_keysOf_array_iff hparent).mpr (Or.inl ⟨i, hi, rfl⟩)⟩
  rw [hrun.find?_commit]
  cases hlatest : SortedBy.latest? Key.name (parent.child (Index.name i))
      (written inputs spec.bindings) with
  | none => exact absurd rfl (SortedBy.latest?_eq_none_iff.mp hlatest _ hkey)
  | some key => rfl

lemma claims_of_element_eq {i : Nat}
    (heq : ((session.keys.insertAll staged.toList).find? (parent.child (Index.name i))).map
      Key.value = texts[i]?) {value : Value}
    (h : session.Claims argv envp settings (parent.child (Index.name i)) value) :
    value = .scalar "" ∧ i < texts.length := by
  -- what is there is one of the texts, and an empty one, as its name is claimed
  have hvalue : ∀ key, (session.keys.insertAll staged.toList).find? (parent.child (Index.name i))
      = some key → i < texts.length ∧ key.value = "" := by
    intro key hkey
    rw [hkey, Option.map_some] at heq
    obtain ⟨hi, htext⟩ := List.getElem?_eq_some_iff.mp heq.symm
    rw [← htext]
    exact ⟨hi, eq_empty_of_claims_element hread hrun hfinds hparent hi h⟩
  have hno : ∀ texts',
      ¬session.Claims argv envp settings (parent.child (Index.name i)) (.array texts') :=
    fun texts' harray =>
      lastName_ne_empty _ (hvalue _ (find?_of_claims_array hread hrun harray)).2
  cases value with
  | array texts' => exact absurd h (hno texts')
  | scalar text =>
    obtain ⟨hi, htext⟩ := hvalue _ (find?_of_claims_scalar hread hrun h hno)
    exact ⟨congrArg Value.scalar htext, hi⟩

lemma element_eq_of_claims (hproc : session.keys.inSpace .proc = []) {i : Nat}
    (h : ∀ value, session.Claims argv envp settings (parent.child (Index.name i)) value →
      value = .scalar "" ∧ i < texts.length) :
    ((session.keys.insertAll staged.toList).find? (parent.child (Index.name i))).map Key.value
      = texts[i]? := by
  by_cases hany : ∃ value, session.Claims argv envp settings (parent.child (Index.name i)) value
  · obtain ⟨value, hclaims⟩ := hany
    obtain ⟨rfl, hi⟩ := h value hclaims
    have hno : ∀ texts',
        ¬session.Claims argv envp settings (parent.child (Index.name i)) (.array texts') := by
      intro texts' harray
      cases (h _ harray).1
    rw [find?_of_claims_scalar hread hrun hclaims hno, List.getElem?_eq_getElem hi,
      eq_empty_of_claims_element hread hrun hfinds hparent hi hclaims]
    rfl
  · have hno := not_exists.mp hany
    by_cases hi : i < texts.length
    · rw [find?_of_element hread hrun hfinds hparent hi hno, List.getElem?_eq_getElem hi]
      rfl
    · have hle := Nat.not_lt.mp hi
      rw [find?_eq_none_of_length_le hread hrun hproc hfinds hparent hle hno,
        List.getElem?_eq_none hle]
      rfl

/-- At an index the element is read back if what claims its name, if anything, is an empty text in
place of an element. -/
lemma element_eq_iff (hproc : session.keys.inSpace .proc = []) {i : Nat} :
    ((session.keys.insertAll staged.toList).find? (parent.child (Index.name i))).map Key.value
        = texts[i]? ↔
      ∀ value, session.Claims argv envp settings (parent.child (Index.name i)) value →
        value = .scalar "" ∧ i < texts.length := by
  constructor
  · intro heq value hclaims
    exact claims_of_element_eq hread hrun hfinds hparent heq hclaims
  · intro hclaimed
    exact element_eq_of_claims hread hrun hfinds hparent hproc hclaimed

lemma readsBack_array (hproc : session.keys.inSpace .proc = []) :
    session.ReadsBack argv envp settings (session.keys.insertAll staged.toList) binding
      (.array texts) := by
  refine ⟨parent, hparent, ?_, ?_, ?_⟩
  · exact find?_of_claims_array hread hrun ⟨binding, hfinds, arrayName_eq hparent⟩
  · intro i hi value hclaims
    exact eq_empty_of_claims_element hread hrun hfinds hparent hi hclaims
  · intro hbound
    rw [KeySet.arrayValues_eq_filterMap, filterMap_range_eq_iff hbound]
    · simp only [element_eq_iff hread hrun hfinds hparent hproc]
    · intro i hi
      rw [Option.isSome_map]
      exact isSome_of_lt_length hread hrun hfinds hparent hi

end Elements

end Committed

/-- After a call that resolves, and that found no `proc` keys, every value that was found is read
back but for names that other bindings claim, and only empty texts are replaced there. -/
lemma readsBack_of_resolved (hproc : session.keys.inSpace .proc = [])
    (hresolved : (session.resolveWith argv envp settings).1 = .ok .resolved) {binding : Binding}
    {value : Value} (hfinds : session.Finds argv envp settings binding value) :
    session.ReadsBack argv envp settings (session.resolveWith argv envp settings).2.keys binding
      value := by
  obtain ⟨spec, inputs, staged, hread, hrun, hafter⟩ := exists_run_of_resolved hresolved
  rw [hafter]
  cases value with
  | scalar text => exact readsBack_scalar hread hrun hfinds
  | array texts =>
    obtain ⟨hbinding, hfound⟩ := (finds_iff hread).mp hfinds
    obtain ⟨parent, hparent⟩ :=
      exists_parent ((orderly_of_read hread).kind binding hbinding _ hfound).symm
    exact readsBack_array hread hrun hfinds hparent hproc

/-- What becomes of the values that a call finds: they are read back from the keys that it leaves,
or the call reports the first name that is taken. -/
structure AccountsForValues (session : Session) (argv envp : List String) (settings : Settings) :
    Prop where
  readsBack : session.keys.inSpace .proc = [] →
    (session.resolveWith argv envp settings).1 = .ok .resolved →
    ∀ binding value, session.Finds argv envp settings binding value →
      session.ReadsBack argv envp settings (session.resolveWith argv envp settings).2.keys binding
        value
  resolved : (session.resolveWith argv envp settings).1 = .ok .resolved ↔
    ∃ spec inputs, session.read argv envp settings = .ok (spec, inputs) ∧
      ¬inputs.line.HelpRequested ∧
      ∀ binding ∈ spec.bindings, Passes session.keys inputs spec.bindings binding
  alreadyResolved : ∀ origin text,
    (session.resolveWith argv envp settings).1
        = .error (.illegalUse origin (.alreadyResolved text)) ↔
      ∃ spec inputs, session.read argv envp settings = .ok (spec, inputs) ∧
        ¬inputs.line.HelpRequested ∧
        ∃ binding resolution, StopsAt session.keys inputs spec.bindings binding resolution ∧
          resolution.origin = origin ∧ (claimed binding resolution.value).display = text

/-- Every call accounts for the values that it finds. -/
theorem accountsForValues (session : Session) (argv envp : List String) (settings : Settings) :
    session.AccountsForValues argv envp settings where
  readsBack hproc hresolved _ _ hfinds := readsBack_of_resolved hproc hresolved hfinds
  resolved := resolved_iff
  alreadyResolved _ _ := alreadyResolved_iff

/-- A scalar, a list of the same name and a scalar in place of the third element. -/
def listSession : Session where
  keys := .ofList Key.name [
    { name := ⟨.spec, ["list"], by decide⟩, metadata := .ofList Prod.fst [("opt", "s")] },
    { name := ⟨.spec, ["list", "#"], by decide⟩, metadata := .ofList Prod.fst [("opt", "I")] },
    { name := ⟨.spec, ["list", "#2"], by decide⟩, metadata := .ofList Prod.fst [("opt", "x")] }]
  errorKey := { name := .root .cascading }

/-- The name of the list. -/
def listName : KeyName := ⟨.proc, ["list"], by decide⟩

/-- A list is read back next to a further element; a list that finds the scalar of its name there is
reported. -/
theorem accountsForValues_listSession : listSession.keys.inSpace .proc = [] ∧
    ((listSession.resolveWith ["prog", "-Ia", "-Ib", "-xc"] [] {}).1 = .ok .resolved ∧
      ∃ binding,
        listSession.Finds ["prog", "-Ia", "-Ib", "-xc"] [] {} binding (.array ["a", "b"]) ∧
        listSession.ReadsBack ["prog", "-Ia", "-Ib", "-xc"] [] {}
          (listSession.resolveWith ["prog", "-Ia", "-Ib", "-xc"] [] {}).2.keys binding
          (.array ["a", "b"])) ∧
    (listSession.resolveWith ["prog", "-s", "x", "-Ia"] [] {}).1
      = .error (.illegalUse "-I" (.alreadyResolved "proc/list")) ∧
    ∃ spec inputs, listSession.read ["prog", "-s", "x", "-Ia"] [] {} = .ok (spec, inputs) ∧
      ¬inputs.line.HelpRequested ∧
      ∃ binding resolution, StopsAt listSession.keys inputs spec.bindings binding resolution ∧
        resolution.origin = "-I" ∧ (claimed binding resolution.value).display = "proc/list" := by
  have hfinds : ∃ binding, listSession.Finds ["prog", "-Ia", "-Ib", "-xc"] [] {} binding
      (.array ["a", "b"]) := ⟨_, _, _, rfl, .tail _ (.head _), rfl⟩
  obtain ⟨binding, hfinds⟩ := hfinds
  have hread := (accountsForValues listSession ["prog", "-Ia", "-Ib", "-xc"] [] {}).readsBack
    rfl rfl binding _ hfinds
  have hreport := accountsForValues listSession ["prog", "-s", "x", "-Ia"] [] {}
  exact ⟨rfl, ⟨rfl, binding, hfinds, hread⟩, rfl, (hreport.alreadyResolved _ _).mp rfl⟩

/-- A scalar makes a list longer than what was given for it, and a list takes the place of an empty
scalar. -/
theorem not_readBack_listSession : listSession.keys.inSpace .proc = [] ∧
    ((listSession.resolveWith ["prog", "-Ia", "-Ib", "-xc"] [] {}).1 = .ok .resolved ∧
      (∃ binding, listSession.Finds ["prog", "-Ia", "-Ib", "-xc"] [] {} binding
        (.array ["a", "b"]) ∧ target binding = listName.child KeyName.wildcard) ∧
      (listSession.resolveWith ["prog", "-Ia", "-Ib", "-xc"] [] {}).2.keys.arrayValues listName
        ≠ ["a", "b"]) ∧
    ((listSession.resolveWith ["prog", "-s", "", "-Ia"] [] {}).1 = .ok .resolved ∧
      (∃ binding, listSession.Finds ["prog", "-s", "", "-Ia"] [] {} binding (.scalar "") ∧
        target binding = listName) ∧
      ((listSession.resolveWith ["prog", "-s", "", "-Ia"] [] {}).2.keys.find? listName).map
        Key.value ≠ some "") := by
  refine ⟨rfl, ⟨rfl, ⟨_, ⟨_, _, rfl, .tail _ (.head _), rfl⟩, rfl⟩, ?_⟩,
    rfl, ⟨_, ⟨_, _, rfl, .head _, rfl⟩, rfl⟩, ?_⟩
  · have hvalues : (listSession.resolveWith ["prog", "-Ia", "-Ib", "-xc"] [] {}).2.keys.arrayValues
        listName = ["a", "b", "c"] := rfl
    rw [hvalues]
    decide
  · have hvalue : ((listSession.resolveWith ["prog", "-s", "", "-Ia"] [] {}).2.keys.find?
        listName).map Key.value = some "#0" := rfl
    rw [hvalue]
    decide

end Session

end DeclaredOptions
