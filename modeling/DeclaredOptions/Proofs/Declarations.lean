import DeclaredOptions.Specification
import DeclaredOptions.Proofs.Steps
import Mathlib.Data.List.Nodup
import Mathlib.Tactic.Common

/-!
# What a key declares

The options and variables of a key can be read off its metadata without looking at other keys
(`Key.options`, `Key.envVars`). Compilation adds two kinds of checks: settings and names have to
be legal, and no name may be taken. Folding over the entries of a key it comes to just this
(`declaredOptions_eq_ok_iff`, `declaredVariables_eq_ok_iff`).
-/

namespace DeclaredOptions

open Steps

/-! ### Settings of an entry -/

namespace ArgumentMode

@[simp] lemma ofLabel?_label (mode : ArgumentMode) : ofLabel? mode.label = some mode := by
  cases mode <;> rfl

lemma label_of_ofLabel? {label : String} {mode : ArgumentMode} (h : ofLabel? label = some mode) :
    mode.label = label := by
  simpa using List.find?_some h

lemma mem_labels_iff {label : String} :
    label ∈ ["none", "required", "optional"] ↔ ∃ mode : ArgumentMode, mode.label = label := by
  constructor
  · intro h
    simp only [List.mem_cons, List.not_mem_nil, or_false] at h
    rcases h with rfl | rfl | rfl
    · exact ⟨.never, rfl⟩
    · exact ⟨.required, rfl⟩
    · exact ⟨.optional, rfl⟩
  · rintro ⟨mode, rfl⟩
    cases mode <;> simp [label]

end ArgumentMode

namespace FieldEntry

variable {entry : FieldEntry} {m : Metadata}

/-- The mode that an entry asks for. An argument is required unless told otherwise. -/
def mode (entry : FieldEntry) (m : Metadata) : ArgumentMode :=
  ((entry.facet? m .argument).bind ArgumentMode.ofLabel?).getD .required

lemma mode_of_facet?_eq_none (h : entry.facet? m .argument = none) : entry.mode m = .required := by
  simp [mode, h]

lemma mode_of_facet?_eq_some {mode : ArgumentMode}
    (h : entry.facet? m .argument = some mode.label) : entry.mode m = mode := by
  simp [FieldEntry.mode, h]

/-- The settings that an entry asks for. -/
def settings (entry : FieldEntry) (m : Metadata) : OptionSettings where
  mode := entry.mode m
  flagValue := (entry.facet? m .flagValue).getD "1"
  placeholder := (entry.facet? m .placeholder).getD "ARG"
  hidden := entry.facet? m .hidden = some "1"

/-- The mode is a known one, and where an argument is required, no value is given for occurrences
without it. -/
structure HasLegalSettings (entry : FieldEntry) (m : Metadata) : Prop where
  argument : ∀ label ∈ entry.facet? m .argument, label ∈ ["none", "required", "optional"]
  flagValue : entry.facet? m .argument ∈ [none, some "required"] → entry.facet? m .flagValue = none

end FieldEntry

namespace OptionSettings

variable {m : Metadata} {entry : FieldEntry} {settings : OptionSettings}

lemma read_of_hasLegalSettings (h : entry.HasLegalSettings m) :
    read m entry = .ok (entry.settings m) := by
  unfold read
  cases hlabel : entry.facet? m .argument with
  | none =>
    have hvalue := h.flagValue (by simp [hlabel])
    simp [hvalue, FieldEntry.settings, FieldEntry.mode_of_facet?_eq_none hlabel]
  | some label =>
    obtain ⟨mode, rfl⟩ := ArgumentMode.mem_labels_iff.mp (h.argument label hlabel)
    have hmode := FieldEntry.mode_of_facet?_eq_some hlabel
    cases hvalue : entry.facet? m .flagValue with
    | none =>
      simp [hvalue, FieldEntry.settings, hmode]
    | some value =>
      have hne : mode ≠ .required := by
        rintro rfl
        cases hvalue.symm.trans (h.flagValue (by simp [hlabel, ArgumentMode.label]))
      simp [hvalue, hne, FieldEntry.settings, hmode]

lemma hasLegalSettings_of_read (h : read m entry = .ok settings) : entry.HasLegalSettings m := by
  unfold read at h
  constructor
  · intro label hlabel
    cases hmode : ArgumentMode.ofLabel? label with
    | none =>
      simp only [Option.mem_def.mp hlabel, hmode] at h
      cases h
    | some mode =>
      exact ArgumentMode.mem_labels_iff.mpr ⟨mode, ArgumentMode.label_of_ofLabel? hmode⟩
  · intro hlabel
    cases hvalue : entry.facet? m .flagValue with
    | none => rfl
    | some value =>
      simp only [List.mem_cons, List.not_mem_nil, or_false] at hlabel
      rcases hlabel with hlabel | hlabel
      · simp only [hlabel, hvalue] at h
        cases h
      · simp only [hlabel, hvalue] at h
        cases h

lemma read_eq_ok_iff :
    read m entry = .ok settings ↔ entry.HasLegalSettings m ∧ settings = entry.settings m := by
  constructor
  · intro h
    have hlegal := hasLegalSettings_of_read h
    rw [read_of_hasLegalSettings hlegal] at h
    cases h
    exact ⟨hlegal, rfl⟩
  · rintro ⟨hlegal, rfl⟩
    exact read_of_hasLegalSettings hlegal

end OptionSettings

/-! ### Options of a key -/

/-- The names of options. -/
abbrev optionNames (options : List OptionSpec) : List OptionName := options.map OptionSpec.name

/-- Options whose names are neither reserved nor doubled, also among names that are taken. -/
structure Registrable (taken options : List OptionSpec) : Prop where
  fault : ∀ option ∈ options, option.name.fault? = none
  distinct : (optionNames (taken ++ options)).Nodup

lemma Registrable.of_append {taken options more : List OptionSpec}
    (h : Registrable taken (options ++ more)) : Registrable taken options := by
  constructor
  · intro option hoption
    exact h.fault option (List.mem_append_left _ hoption)
  · refine h.distinct.sublist (List.Sublist.map _ ?_)
    exact (List.sublist_append_left options more).append_left taken

lemma find?_eq_none_iff {options : List OptionSpec} {name : OptionName} :
    (options.find? fun option => option.name = name) = none ↔ name ∉ optionNames options := by
  simp

lemma registerOption_eq_ok_iff {taken own next : List OptionSpec} {option : OptionSpec} :
    registerOption taken own option = .ok next ↔ option.name.fault? = none ∧
      option.name ∉ optionNames (taken ++ own) ∧ next = own ++ [option] := by
  rw [← find?_eq_none_iff, registerOption]
  cases option.name.fault? with
  | some fault => simp
  | none =>
    cases (taken ++ own).find? fun other => other.name = option.name with
    | some other => simp
    | none => simp [eq_comm]

lemma registrable_concat_iff {taken own : List OptionSpec} {option : OptionSpec}
    (h : Registrable taken own) : Registrable taken (own ++ [option]) ↔
      option.name.fault? = none ∧ option.name ∉ optionNames (taken ++ own) := by
  have hdistinct : (optionNames (taken ++ (own ++ [option]))).Nodup ↔
      option.name ∉ optionNames (taken ++ own) := by
    rw [← List.append_assoc, optionNames, List.map_append, List.nodup_append_comm]
    exact List.nodup_cons.trans (and_iff_left h.distinct)
  constructor
  · intro hboth
    exact ⟨hboth.fault option (by simp), hdistinct.mp hboth.distinct⟩
  · rintro ⟨hfault, hnew⟩
    exact ⟨List.forall_mem_append.mpr ⟨h.fault, List.forall_mem_singleton.mpr hfault⟩,
      hdistinct.mpr hnew⟩

lemma foldlM_registerOption_eq_ok_iff {taken own options last : List OptionSpec}
    (h : Registrable taken own) : options.foldlM (registerOption taken) own = .ok last ↔
      Registrable taken (own ++ options) ∧ last = own ++ options := by
  refine foldlM_eq_ok_iff (fun seen => seen) (Registrable taken) ?_ ?_ own h
  · intro seen more
    exact Registrable.of_append
  · intro seen option next hseen
    rw [registerOption_eq_ok_iff, registrable_concat_iff hseen, and_assoc]

/-- The options that an entry of a key declares. -/
def FieldEntry.options (entry : FieldEntry) (key : Key) : List OptionSpec :=
  (entry.optionNames key.metadata).map ((entry.settings key.metadata).option key.name)

lemma declareEntry_eq_ok_iff {taken own next : List OptionSpec} {key : Key} {entry : FieldEntry}
    (h : Registrable taken own) : declareEntry taken key own entry = .ok next ↔
      entry.HasLegalSettings key.metadata ∧ Registrable taken (own ++ entry.options key) ∧
        next = own ++ entry.options key := by
  rw [declareEntry, bind_eq_ok_iff]
  constructor
  · rintro ⟨settings, hread, hfold⟩
    obtain ⟨hlegal, rfl⟩ := OptionSettings.read_eq_ok_iff.mp hread
    rw [← List.foldlM_map, foldlM_registerOption_eq_ok_iff h] at hfold
    exact ⟨hlegal, hfold⟩
  · rintro ⟨hlegal, hoptions⟩
    refine ⟨_, OptionSettings.read_of_hasLegalSettings hlegal, ?_⟩
    rw [← List.foldlM_map, foldlM_registerOption_eq_ok_iff h]
    exact hoptions

/-- The entries are those of the field. Without the field, a long name makes one entry, which has no
text. -/
lemma optionEntries_eq (m : Metadata) : optionEntries m =
    if Field.read m "opt" = .absent ∧ m.nonEmpty? "opt/long" ≠ none then [⟨"opt", ""⟩]
    else (Field.read m "opt").entries := by
  unfold optionEntries
  cases Field.read m "opt" with
  | absent => cases m.nonEmpty? "opt/long" <;> rfl
  | single entry | array entries => rfl

/-- The options that a key declares. -/
def Key.options (key : Key) : List OptionSpec :=
  (optionEntries key.metadata).flatMap fun entry => entry.options key

/-- Entries that can declare their options one after the other. -/
structure LegalEntries (taken : List OptionSpec) (key : Key) (entries : List FieldEntry) :
    Prop where
  settings : ∀ entry ∈ entries, entry.HasLegalSettings key.metadata
  options : Registrable taken (entries.flatMap fun entry => entry.options key)

lemma legalEntries_concat_iff {taken : List OptionSpec} {key : Key} {entries : List FieldEntry}
    {entry : FieldEntry} (h : LegalEntries taken key entries) :
    LegalEntries taken key (entries ++ [entry]) ↔ entry.HasLegalSettings key.metadata ∧
      Registrable taken
        ((entries.flatMap fun entry => entry.options key) ++ entry.options key) := by
  constructor
  · rintro ⟨hsettings, hoptions⟩
    refine ⟨hsettings entry (by simp), ?_⟩
    simpa using hoptions
  · rintro ⟨hsettings, hoptions⟩
    constructor
    · exact List.forall_mem_append.mpr ⟨h.settings, List.forall_mem_singleton.mpr hsettings⟩
    · simpa using hoptions

lemma declaredOptions_eq_ok_iff {taken options : List OptionSpec} {key : Key}
    (h : (optionNames taken).Nodup) : declaredOptions taken key = .ok options ↔
      LegalEntries taken key (optionEntries key.metadata) ∧ options = key.options := by
  refine foldlM_eq_ok_iff (fun seen => seen.flatMap fun entry => entry.options key)
    (LegalEntries taken key) ?_ ?_ [] ?_
  · rintro seen more ⟨hsettings, hoptions⟩
    rw [List.flatMap_append] at hoptions
    exact ⟨fun entry hentry => hsettings entry (List.mem_append_left _ hentry), hoptions.of_append⟩
  · intro seen entry next hseen
    rw [declareEntry_eq_ok_iff hseen.options, legalEntries_concat_iff hseen, and_assoc]
    simp
  · exact ⟨by simp, by simp, by simpa using h⟩

/-! ### Variables of a key -/

/-- The variables that a key binds. -/
def Key.envVars (key : Key) : List String :=
  ((Field.read key.metadata "env").entries.map FieldEntry.value).filter (· ≠ "")

/-- The variables that are bound. -/
def Specification.envVars (spec : Specification) : List String :=
  spec.bindings.flatMap Binding.envVars

lemma Specification.holder?_eq_none_iff {spec : Specification} {name : String} :
    spec.holder? name = none ↔ name ∉ spec.envVars := by
  simp [holder?, envVars]

lemma Specification.exists_of_holder? {spec : Specification} {name : String} {holder : KeyName}
    (h : spec.holder? name = some holder) :
    ∃ binding ∈ spec.bindings, binding.key = holder ∧ name ∈ binding.envVars := by
  obtain ⟨binding, hfind, rfl⟩ := Option.map_eq_some_iff.mp h
  exact ⟨binding, List.mem_of_find?_eq_some hfind, rfl, by simpa using List.find?_some hfind⟩

lemma registerVariable_eq_ok_iff {spec : Specification} {key : KeyName} {own next : List String}
    {name : String} (h : name ≠ "") : registerVariable spec key own name = .ok next ↔
      name ∉ spec.envVars ++ own ∧ next = own ++ [name] := by
  rw [registerVariable, if_neg h, List.mem_append, ← Specification.holder?_eq_none_iff.not_left]
  by_cases hown : name ∈ own
  · simp [hown]
  · cases spec.holder? name with
    | some holder => simp [hown]
    | none => simp [hown, eq_comm]

lemma declaredVariables_eq_ok_iff {spec : Specification} {key : Key} {names : List String}
    (h : spec.envVars.Nodup) : declaredVariables spec key = .ok names ↔
      (spec.envVars ++ key.envVars).Nodup ∧ names = key.envVars := by
  refine foldlM_eq_ok_iff (fun seen => seen.filter (· ≠ ""))
    (fun seen => (spec.envVars ++ seen.filter (· ≠ "")).Nodup) ?_ ?_ [] ?_
  · intro seen more hgood
    rw [List.filter_append, ← List.append_assoc] at hgood
    exact hgood.of_append_left
  · intro seen name next hgood
    by_cases hname : name = ""
    · have hfilter : (seen ++ [name]).filter (· ≠ "") = seen.filter (· ≠ "") := by simp [hname]
      rw [hfilter, registerVariable, if_pos hname, Except.ok.injEq, eq_comm]
      exact (and_iff_right hgood).symm
    · rw [registerVariable_eq_ok_iff hname]
      have hfilter : (seen ++ [name]).filter (· ≠ "") = seen.filter (· ≠ "") ++ [name] := by
        simp [hname]
      rw [hfilter, ← List.append_assoc, List.nodup_append_comm]
      exact and_congr_left' ((List.nodup_cons.trans (and_iff_left hgood)).symm)
  · simpa using h

/-! ### Leftover arguments -/

lemma Metadata.nonEmpty?_eq_some_iff {m : Metadata} {name text : String} :
    m.nonEmpty? name = some text ↔ m.get? name = some text ∧ text ≠ "" := by
  rw [nonEmpty?, Option.filter_eq_some_iff]
  simp

/-- Whether a key asks for leftover arguments. -/
def Key.AsksForRemaining (key : Key) : Prop := key.metadata.get? "args" = some "remaining"

instance (key : Key) : Decidable key.AsksForRemaining := inferInstanceAs (Decidable (_ = _))

lemma declaredRemaining_eq_ok_iff {key : Key} {remaining : Bool} :
    declaredRemaining key = .ok remaining ↔
      (key.AsksForRemaining → key.name.IsWildcard) ∧ remaining = decide key.AsksForRemaining := by
  have hasks : key.metadata.nonEmpty? "args" = some "remaining" ↔ key.AsksForRemaining := by
    rw [Metadata.nonEmpty?_eq_some_iff]
    exact and_iff_left (by decide)
  rw [declaredRemaining]
  by_cases h : key.AsksForRemaining
  · by_cases hname : key.name.IsWildcard
    · simp [hasks, h, hname, KeyName.kind, eq_comm]
    · simp [hasks, h, hname, KeyName.kind]
  · simp [hasks, h, eq_comm]

end DeclaredOptions
