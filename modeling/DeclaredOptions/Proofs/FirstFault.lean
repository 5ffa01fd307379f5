import DeclaredOptions.Proofs.Places
import DeclaredOptions.Proofs.Tables
import Mathlib.Tactic.Common

/-!
# The first fault of a specification

Compilation fails at one key: those before it compile, and what follows it does not count
(`compile_eq_error_iff`). What can be wrong with a key is listed once for its options and once for
its variables (`OptionFault`, `VariableFault`). A name that is declared twice is reported with the
first key that declares it, which may be the failing key itself. Together this says where an error
comes from and what it depends on (`exists_isLocalised`).
-/

namespace DeclaredOptions

open Std Steps

/-! ### Keys up to a name -/

namespace KeySet

/-- The `spec` keys before `name`. -/
def specBefore (keys : KeySet) (name : KeyName) : KeySet where
  toList := keys.toList.filter fun key => key.name.space = .spec ∧ compare key.name name = .lt
  increasing := keys.increasing.filter _

/-- Whether two key sets have the same `spec` keys up to `name`. -/
def AgreeUpTo (keys keys' : KeySet) (name : KeyName) : Prop :=
  ∀ other : KeyName, other.space = .spec → (compare other name).isLE →
    keys.find? other = keys'.find? other

/-- Whether `first` is the first `spec` key with a property. -/
structure IsFirst (keys : KeySet) (P : Key → Prop) (first : Key) : Prop where
  mem : first ∈ keys.inSpace .spec
  holds : P first
  least : ∀ key ∈ keys.inSpace .spec, P key → (compare first.name key.name).isLE

variable {keys keys' : KeySet} {key first : Key} {name : KeyName} {before after : List Key}

lemma inSpace_specBefore (keys : KeySet) (name : KeyName) : (keys.specBefore name).inSpace .spec =
    (keys.inSpace .spec).filter fun key => compare key.name name = .lt := by
  rw [inSpace, specBefore, inSpace, List.filter_filter, List.filter_filter]
  apply List.filter_congr
  intro key _
  grind

lemma specBefore_of_split (h : keys.inSpace .spec = before ++ key :: after) :
    (keys.specBefore key.name).inSpace .spec = before := by
  have hsorted := keys.pairwise_inSpace .spec
  rw [h] at hsorted
  obtain ⟨hbefore, hafter⟩ := SortedBy.neighbours hsorted
  have hnone : (key :: after).filter (fun other => compare other.name key.name = .lt) = [] := by
    simp only [List.filter_eq_nil_iff, decide_eq_true_iff, List.forall_mem_cons]
    exact ⟨by simp, fun other hother => OrientedCmp.not_lt_of_lt (hafter other hother)⟩
  rw [inSpace_specBefore, h, List.filter_append, hnone, List.append_nil, List.filter_eq_self]
  simpa using hbefore

/-- The `spec` keys are those before one of them, that one, and others. -/
lemma exists_inSpace_eq (h : key ∈ keys.inSpace .spec) : ∃ after,
    keys.inSpace .spec = (keys.specBefore key.name).inSpace .spec ++ key :: after := by
  obtain ⟨before, after, hsplit⟩ := List.append_of_mem h
  exact ⟨after, by rw [specBefore_of_split hsplit, hsplit]⟩

lemma AgreeUpTo.inSpace_specBefore_eq (h : keys.AgreeUpTo keys' name) :
    (keys.specBefore name).inSpace .spec = (keys'.specBefore name).inSpace .spec := by
  apply SortedBy.eq_of_mem_iff (pairwise_inSpace _ _) (pairwise_inSpace _ _)
  intro key
  simp only [inSpace_specBefore, List.mem_filter, mem_inSpace, decide_eq_true_iff, and_assoc]
  constructor
  · rintro ⟨hfind, hspace, hlt⟩
    exact ⟨h key.name hspace (by simp [hlt]) ▸ hfind, hspace, hlt⟩
  · rintro ⟨hfind, hspace, hlt⟩
    exact ⟨(h key.name hspace (by simp [hlt])).symm ▸ hfind, hspace, hlt⟩

lemma AgreeUpTo.mem_inSpace (h : keys.AgreeUpTo keys' key.name) (hkey : key ∈ keys.inSpace .spec) :
    key ∈ keys'.inSpace .spec := by
  obtain ⟨hfind, hspace⟩ := KeySet.mem_inSpace.mp hkey
  exact KeySet.mem_inSpace.mpr ⟨h key.name hspace (by simp) ▸ hfind, hspace⟩

/-- The only key with a property among the first ones is the first of all. -/
lemma isFirst_of_unique {P : Key → Prop} (hsplit : keys.inSpace .spec = before ++ after)
    (hmem : first ∈ before) (holds : P first) (unique : ∀ key ∈ before, P key → key = first) :
    keys.IsFirst P first := by
  have hsorted := keys.pairwise_inSpace .spec
  rw [hsplit] at hsorted
  refine ⟨by simp [hsplit, hmem], holds, fun key hkey hP => ?_⟩
  rw [hsplit] at hkey
  rcases List.mem_append.mp hkey with hkey | hkey
  · simp [unique key hkey hP]
  · simp [(List.pairwise_append.mp hsorted).2.2 first hmem key hkey]

section Declared

variable {α : Type} {declares : Key → List α} {x : α}

/-- Where nothing is declared twice, a key that declares something is the first that does. -/
lemma isFirst_of_mem (hsplit : keys.inSpace .spec = before ++ after)
    (hnodup : (before.flatMap declares).Nodup) (hmem : first ∈ before) (hx : x ∈ declares first) :
    keys.IsFirst (x ∈ declares ·) first :=
  isFirst_of_unique hsplit hmem hx fun _ hkey hx' =>
    Specification.eq_of_mem_of_nodup_flatMap hnodup hkey hmem hx' hx

/-- Where no key before declares something, a key that declares it is the first that does. -/
lemma isFirst_of_not_mem (hsplit : keys.inSpace .spec = before ++ key :: after)
    (hnew : x ∉ before.flatMap declares) (hx : x ∈ declares key) :
    keys.IsFirst (x ∈ declares ·) key := by
  have hsplit' : keys.inSpace .spec = (before ++ [key]) ++ after := by simp [hsplit]
  refine isFirst_of_unique hsplit' (by simp) hx fun other hother hx' => ?_
  rcases List.mem_append.mp hother with hother | hother
  · exact absurd (List.mem_flatMap.mpr ⟨other, hother, hx'⟩) hnew
  · exact List.mem_singleton.mp hother

end Declared

end KeySet

/-! ### Faults of options -/

lemma OptionName.mem_of_fault? {name : OptionName} {fault : SpecFault}
    (h : name.fault? = some fault) :
    fault ∈ [.dashShortOption, .reservedShortOption, .reservedLongOption] := by
  unfold fault? at h
  split at h <;> cases h <;> simp

/-- What can be wrong with the options of a key when `taken` are there. -/
inductive OptionFault (taken : List OptionSpec) (key : Key) : SpecFault → Prop
  | unknownMode (label : String) : OptionFault taken key (.unknownArgumentMode label)
  | flagValue : OptionFault taken key .flagValueWithRequiredArgument
  | reserved {name : OptionName} {fault : SpecFault} (hname : name ∈ key.optionNames)
      (hfault : name.fault? = some fault) : OptionFault taken key fault
  | taken {other : OptionSpec} (hother : other ∈ taken) (hname : other.name ∈ key.optionNames)
      (hfault : other.name.fault? = none) :
      OptionFault taken key (.duplicateOption other.name.display other.owner.display)
  | own {name : OptionName} (hname : name ∈ key.optionNames) (hnew : name ∉ optionNames taken) :
      OptionFault taken key (.duplicateOption name.display key.name.display)

/-- Whether options all belong to a key. -/
def Key.Owns (key : Key) (options : List OptionSpec) : Prop :=
  ∀ option ∈ options, option.owner = .key key.name

section Options

variable {taken own next : List OptionSpec} {key : Key} {fault : SpecFault}

lemma OptionSettings.optionFault_of_read {entry : FieldEntry}
    (h : OptionSettings.read key.metadata entry = .error fault) : OptionFault taken key fault := by
  unfold OptionSettings.read at h
  cases hlabel : entry.facet? key.metadata .argument with
  | none =>
    cases hvalue : entry.facet? key.metadata .flagValue with
    | none =>
      simp only [hlabel, hvalue] at h
      cases h
    | some value =>
      simp only [hlabel, hvalue] at h
      cases h
      exact .flagValue
  | some label =>
    cases hmode : ArgumentMode.ofLabel? label with
    | none =>
      simp only [hlabel, hmode] at h
      cases h
      exact .unknownMode label
    | some mode =>
      cases hvalue : entry.facet? key.metadata .flagValue with
      | none =>
        simp only [hlabel, hmode, hvalue] at h
        cases h
      | some value =>
        simp only [hlabel, hmode, hvalue] at h
        by_cases hrequired : mode = .required
        · rw [ok_bind, if_pos hrequired] at h
          cases h
          exact .flagValue
        · rw [ok_bind, if_neg hrequired] at h
          cases h

lemma optionFault_of_registerOption {option : OptionSpec} (hname : option.name ∈ key.optionNames)
    (hown : key.Owns own) (h : registerOption taken own option = .error fault) :
    OptionFault taken key fault := by
  rw [registerOption] at h
  cases hfault : option.name.fault? with
  | some reserved =>
    rw [hfault] at h
    cases h
    exact .reserved hname hfault
  | none =>
    rw [hfault] at h
    simp only [List.find?_append] at h
    cases htaken : taken.find? fun other => other.name = option.name with
    | some other =>
      rw [htaken] at h
      cases h
      have hsame : other.name = option.name := by simpa using List.find?_some htaken
      rw [← hsame] at hname hfault ⊢
      exact .taken (List.mem_of_find?_eq_some htaken) hname hfault
    | none =>
      cases hfind : own.find? fun other => other.name = option.name with
      | some other =>
        rw [htaken, hfind] at h
        cases h
        rw [hown other (List.mem_of_find?_eq_some hfind)]
        exact .own hname (find?_eq_none_iff.mp htaken)
      | none =>
        rw [htaken, hfind] at h
        cases h

lemma Key.Owns.registerOption {option : OptionSpec} (hown : key.Owns own)
    (hoption : option.owner = .key key.name) (h : registerOption taken own option = .ok next) :
    key.Owns next := by
  obtain ⟨_, _, rfl⟩ := registerOption_eq_ok_iff.mp h
  exact List.forall_mem_append.mpr ⟨hown, List.forall_mem_singleton.mpr hoption⟩

lemma Key.Owns.declareEntry {entry : FieldEntry} (hown : key.Owns own)
    (h : declareEntry taken key own entry = .ok next) : key.Owns next := by
  obtain ⟨settings, _, hfold⟩ := bind_eq_ok_iff.mp h
  exact foldlM_invariant (fun _ _ _ hown => hown.registerOption rfl) hown hfold

lemma optionFault_of_declareEntry {entry : FieldEntry} (hentry : entry ∈ optionEntries key.metadata)
    (hown : key.Owns own) (h : declareEntry taken key own entry = .error fault) :
    OptionFault taken key fault := by
  rcases bind_eq_error_iff.mp h with hread | ⟨settings, _, hfold⟩
  · exact OptionSettings.optionFault_of_read hread
  · obtain ⟨before, name, after, own', hnames, hbefore, hname⟩ := foldlM_eq_error_iff.mp hfold
    have hmem : name ∈ key.optionNames :=
      List.mem_flatMap.mpr ⟨entry, hentry, by simp [hnames]⟩
    have hown' : key.Owns own' :=
      foldlM_invariant (fun _ _ _ hown => hown.registerOption rfl) hown hbefore
    exact optionFault_of_registerOption hmem hown' hname

/-- All that can be wrong with the options of a key. -/
lemma optionFault_of_declaredOptions (h : declaredOptions taken key = .error fault) :
    OptionFault taken key fault := by
  obtain ⟨before, entry, after, own, hentries, hbefore, hentry⟩ := foldlM_eq_error_iff.mp h
  have hown : key.Owns own :=
    foldlM_invariant (fun _ _ _ hown => hown.declareEntry) (by simp [Key.Owns]) hbefore
  exact optionFault_of_declareEntry (by simp [hentries]) hown hentry

end Options

/-! ### Faults of variables -/

/-- What can be wrong with the variables of a key when those of `spec` are bound. -/
inductive VariableFault (spec : Specification) (key : Key) : SpecFault → Prop
  | taken {binding : Binding} {name : String} (hbinding : binding ∈ spec.bindings)
      (hbound : name ∈ binding.envVars) (hname : name ∈ key.envVars) :
      VariableFault spec key (.duplicateVariable name binding.key.display)
  | own {name : String} (hname : name ∈ key.envVars) (hnew : name ∉ spec.envVars) :
      VariableFault spec key (.duplicateVariable name key.name.display)

section Variables

variable {spec : Specification} {key : Key} {own : List String} {name : String} {fault : SpecFault}

lemma variableFault_of_registerVariable (hname : name ≠ "" → name ∈ key.envVars)
    (hown : ∀ other ∈ own, other ∉ spec.envVars)
    (h : registerVariable spec key.name own name = .error fault) :
    VariableFault spec key fault := by
  by_cases hempty : name = ""
  · rw [registerVariable, if_pos hempty] at h
    cases h
  · rw [registerVariable, if_neg hempty] at h
    by_cases hmem : name ∈ own
    · rw [if_pos hmem] at h
      cases h
      exact .own (hname hempty) (hown name hmem)
    · rw [if_neg hmem] at h
      cases hholder : spec.holder? name with
      | some holder =>
        rw [hholder] at h
        cases h
        obtain ⟨binding, hbinding, rfl, hbound⟩ := Specification.exists_of_holder? hholder
        exact .taken hbinding hbound (hname hempty)
      | none =>
        rw [hholder] at h
        cases h

lemma not_mem_of_registerVariable {next : List String} (hown : ∀ other ∈ own, other ∉ spec.envVars)
    (h : registerVariable spec key.name own name = .ok next) :
    ∀ other ∈ next, other ∉ spec.envVars := by
  by_cases hempty : name = ""
  · rw [registerVariable, if_pos hempty] at h
    cases h
    exact hown
  · obtain ⟨hnew, rfl⟩ := (registerVariable_eq_ok_iff hempty).mp h
    exact List.forall_mem_append.mpr ⟨hown, List.forall_mem_singleton.mpr
      fun hmem => hnew (List.mem_append_left _ hmem)⟩

/-- All that can be wrong with the variables of a key. -/
lemma variableFault_of_declaredVariables (h : declaredVariables spec key = .error fault) :
    VariableFault spec key fault := by
  obtain ⟨before, name, after, own, hnames, hbefore, hname⟩ := foldlM_eq_error_iff.mp h
  have hown : ∀ other ∈ own, other ∉ spec.envVars :=
    foldlM_invariant (fun _ _ _ hown => not_mem_of_registerVariable hown) (by simp) hbefore
  refine variableFault_of_registerVariable (fun hempty => ?_) hown hname
  simp [Key.envVars, hnames, hempty]

end Variables

lemma eq_of_declaredRemaining {key : Key} {fault : SpecFault}
    (h : declaredRemaining key = .error fault) : fault = .remainingOnSingleKey := by
  unfold declaredRemaining at h
  split at h
  · split at h
    · cases h
    · cases h
      rfl
  · cases h

/-! ### Failing keys -/

namespace Specification

variable {spec : Specification} {keys : KeySet} {key : Key} {failure : Failure} {fault : SpecFault}

lemma fault_of_addKey (h : spec.addKey key = .error fault) :
    OptionFault spec.options key fault ∨ VariableFault spec key fault ∨
      fault = .remainingOnSingleKey := by
  rcases bind_eq_error_iff.mp h with hoptions | ⟨options, _, h⟩
  · exact Or.inl (optionFault_of_declaredOptions hoptions)
  · rcases bind_eq_error_iff.mp h with hvars | ⟨envVars, _, h⟩
    · exact Or.inr (Or.inl (variableFault_of_declaredVariables hvars))
    · rcases bind_eq_error_iff.mp h with hremaining | ⟨remaining, _, h⟩
      · exact Or.inr (Or.inr (eq_of_declaredRemaining hremaining))
      · cases h

/-- Compilation fails at the key that cannot be added to those before it. -/
lemma compile_eq_error_iff : compile keys = .error failure ↔
    ∃ key ∈ keys.inSpace .spec, ∃ spec fault, compile (keys.specBefore key.name) = .ok spec ∧
      spec.addKey key = .error fault ∧ failure = .illegalSpecification key.name fault := by
  rw [compile, foldlM_eq_error_iff]
  constructor
  · rintro ⟨before, key, after, spec, hsplit, hbefore, hkey⟩
    obtain ⟨fault, hfault, rfl⟩ := mapError_eq_error_iff.mp hkey
    refine ⟨key, by simp [hsplit], spec, fault, ?_, hfault, rfl⟩
    rw [compile, KeySet.specBefore_of_split hsplit, hbefore]
  · rintro ⟨key, hmem, spec, fault, hbefore, hkey, rfl⟩
    obtain ⟨after, hsplit⟩ := KeySet.exists_inSpace_eq hmem
    exact ⟨_, key, after, spec, hsplit, hbefore, mapError_eq_error_iff.mpr ⟨fault, hkey, rfl⟩⟩

/-! ### First declarations -/

section First

variable {before after : List Key} {text existing : String}

/-- An option is reported with the first key that declares it. -/
lemma exists_isFirst_option (hlegal : LegalTogether before)
    (hsplit : keys.inSpace .spec = before ++ key :: after)
    (h : OptionFault (ofKeys before).options key (.duplicateOption text existing)) :
    ∃ name ∈ key.optionNames, text = name.display ∧ ∃ first : Key,
      keys.IsFirst (name ∈ ·.optionNames) first ∧ existing = first.name.display := by
  rw [options_ofKeys] at h
  cases h with
  | reserved _ hfault => simpa using OptionName.mem_of_fault? hfault
  | @taken other hother hname hfault =>
    refine ⟨other.name, hname, rfl, ?_⟩
    rcases List.mem_append.mp hother with hbuiltin | hother
    · have hreserved : ∀ option ∈ OptionSpec.builtin, option.name.fault? ≠ none := by decide
      exact absurd hfault (hreserved other hbuiltin)
    · obtain ⟨first, hfirst, hother⟩ := List.mem_flatMap.mp hother
      have hdeclared : other.name ∈ first.optionNames := by
        rw [← first.optionNames_options]
        exact List.mem_map_of_mem hother
      refine ⟨first, KeySet.isFirst_of_mem hsplit hlegal.optionNames hfirst hdeclared, ?_⟩
      rw [Key.owner_of_mem_options hother]
      rfl
  | @own name hname hnew =>
    rw [DeclaredOptions.optionNames, List.map_append, List.mem_append, not_or] at hnew
    have hnew' := hnew.2
    rw [← DeclaredOptions.optionNames, LegalTogether.optionNames_flatMap] at hnew'
    exact ⟨name, hname, rfl, key, KeySet.isFirst_of_not_mem hsplit hnew' hname, rfl⟩

/-- A variable is reported with the first key that binds it. -/
lemma exists_isFirst_variable (hlegal : LegalTogether before)
    (hsplit : keys.inSpace .spec = before ++ key :: after)
    (h : VariableFault (ofKeys before) key (.duplicateVariable text existing)) :
    text ∈ key.envVars ∧ ∃ first : Key,
      keys.IsFirst (text ∈ ·.envVars) first ∧ existing = first.name.display := by
  cases h with
  | taken hbinding hbound hname =>
    obtain ⟨first, hfirst, rfl, _⟩ := mem_bindings_ofKeys_iff.mp hbinding
    exact ⟨hname, first, KeySet.isFirst_of_mem hsplit hlegal.envVars hfirst hbound, rfl⟩
  | own hname hnew =>
    rw [envVars_ofKeys] at hnew
    exact ⟨hname, key, KeySet.isFirst_of_not_mem hsplit hnew hname, rfl⟩

end First

/-! ### Where errors come from -/

/-- Whether a failure to compile comes from `key`, with only the `spec` keys up to it playing a
part. -/
structure IsLocalised (keys : KeySet) (failure : Failure) (key : Key) : Prop where
  mem : key ∈ keys.inSpace .spec
  names : ∃ fault, failure = .illegalSpecification key.name fault
  before : ∃ spec, compile (keys.specBefore key.name) = .ok spec
  same : ∀ keys' : KeySet, keys.AgreeUpTo keys' key.name → compile keys' = .error failure
  doubledOption : ∀ text existing,
    failure = .illegalSpecification key.name (.duplicateOption text existing) →
    ∃ name ∈ key.optionNames, text = name.display ∧ ∃ first : Key,
      keys.IsFirst (name ∈ ·.optionNames) first ∧ existing = first.name.display
  doubledVariable : ∀ name existing,
    failure = .illegalSpecification key.name (.duplicateVariable name existing) →
    name ∈ key.envVars ∧ ∃ first : Key,
      keys.IsFirst (name ∈ ·.envVars) first ∧ existing = first.name.display

/-- A failure to compile comes from one key. -/
theorem exists_isLocalised (h : compile keys = .error failure) :
    ∃ key, IsLocalised keys failure key := by
  obtain ⟨key, hmem, spec, fault, hbefore, hkey, rfl⟩ := compile_eq_error_iff.mp h
  obtain ⟨after, hsplit⟩ := KeySet.exists_inSpace_eq hmem
  obtain ⟨hlegal, hspec⟩ := compile_eq_ok_iff.mp hbefore
  have hfault := fault_of_addKey hkey
  rw [hspec] at hfault
  refine ⟨key, ?_⟩
  constructor
  case mem => exact hmem
  case names => exact ⟨fault, rfl⟩
  case before => exact ⟨spec, hbefore⟩
  case same =>
    intro keys' hagree
    refine compile_eq_error_iff.mpr ⟨key, hagree.mem_inSpace hmem, spec, fault, ?_, hkey, rfl⟩
    rw [← hbefore, compile, compile, hagree.inSpace_specBefore_eq]
  case doubledOption =>
    intro text existing heq
    cases heq
    rcases hfault with hfault | hfault | hfault
    · exact exists_isFirst_option hlegal hsplit hfault
    · cases hfault
    · cases hfault
  case doubledVariable =>
    intro name existing heq
    cases heq
    rcases hfault with hfault | hfault | hfault
    · cases hfault with
      | reserved _ hfault => simpa using OptionName.mem_of_fault? hfault
    · exact exists_isFirst_variable hlegal hsplit hfault
    · cases hfault

/-- A size with an option and a variable, and a key whose second option is that of the size. -/
def doubledKeys : KeySet := .ofList Key.name [
  { name := ⟨.spec, ["size"], by decide⟩,
    metadata := .ofList Prod.fst [("opt", "s"), ("env", "SIZE")] },
  { name := ⟨.spec, ["strict"], by decide⟩,
    metadata := .ofList Prod.fst [("opt", "#1"), ("opt/#0", "t"), ("opt/#1", "s")] }]

/-- What is wrong with `doubledKeys`. -/
def doubledFailure : Failure :=
  .illegalSpecification ⟨.spec, ["strict"], by decide⟩ (.duplicateOption "-s" "spec/size")

theorem isLocalised_doubledKeys : compile doubledKeys = .error doubledFailure ∧
    ∃ key, IsLocalised doubledKeys doubledFailure key := by
  have hcompile : compile doubledKeys = .error doubledFailure := rfl
  exact ⟨hcompile, exists_isLocalised hcompile⟩

end Specification

end DeclaredOptions
