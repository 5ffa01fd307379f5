import DeclaredOptions.Proofs.Compilation
import DeclaredOptions.Proofs.Declarations
import Mathlib.Tactic.Common

/-!
# Legal specifications

Compilation goes through the keys one by one and checks each declaration against those before it.
All checks together come to conditions on the whole list of keys (`LegalTogether`): entries are
legal by themselves, names of options and variables are pairwise distinct, and only keys that stand
for arrays collect leftover arguments. If they hold, the bindings are what the keys declare one by
one (`compile_eq_ok_iff`).
-/

namespace DeclaredOptions

open Steps

/-! ### Legal entries -/

lemma OptionName.fault?_eq_none_iff {name : OptionName} :
    name.fault? = none ↔ name ∉ [.short '-', .short 'h', .long "help"] := by
  unfold fault?
  split <;> simp_all

/-- What is asked of an entry that declares options, apart from names that are taken. -/
structure FieldEntry.IsLegal (entry : FieldEntry) (m : Metadata) : Prop
    extends entry.HasLegalSettings m where
  short : entry.value.toList.head? ∉ [some '-', some 'h']
  long : entry.facet? m .long ≠ some "help"

lemma FieldEntry.isLegal_iff {entry : FieldEntry} {m : Metadata} :
    entry.IsLegal m ↔ entry.HasLegalSettings m ∧
      ∀ name ∈ entry.optionNames m, name.fault? = none := by
  have hnames : (∀ name ∈ entry.optionNames m, name.fault? = none) ↔
      entry.value.toList.head? ∉ [some '-', some 'h'] ∧ entry.facet? m .long ≠ some "help" := by
    simp only [optionNames, OptionName.fault?_eq_none_iff]
    cases entry.value.toList.head? <;> cases entry.facet? m .long <;> simp [not_or]
  rw [hnames]
  constructor
  · rintro ⟨hsettings, hshort, hlong⟩
    exact ⟨hsettings, hshort, hlong⟩
  · rintro ⟨hsettings, hshort, hlong⟩
    exact ⟨hsettings, hshort, hlong⟩

/-! ### Legal keys -/

/-- The names of the options that a key declares. -/
def Key.optionNames (key : Key) : List OptionName :=
  (optionEntries key.metadata).flatMap fun entry => entry.optionNames key.metadata

lemma Key.optionNames_options (key : Key) :
    DeclaredOptions.optionNames key.options = key.optionNames := by
  simp [DeclaredOptions.optionNames, Key.options, Key.optionNames, FieldEntry.options,
    List.map_flatMap, OptionSettings.option, Function.comp_def]

/-- Keys that can declare their options and variables together. What entries they have is told by
`optionEntries_eq`. -/
structure LegalTogether (keys : List Key) : Prop where
  entries : ∀ key ∈ keys, ∀ entry ∈ optionEntries key.metadata, entry.IsLegal key.metadata
  optionNames : (keys.flatMap Key.optionNames).Nodup
  envVars : (keys.flatMap Key.envVars).Nodup
  remaining : ∀ key ∈ keys, key.AsksForRemaining → key.name.IsWildcard

/-- The binding that a key declares. -/
def Key.binding (key : Key) : Binding where
  key := key.name
  options := key.options
  envVars := key.envVars
  remaining := key.AsksForRemaining
  help := declaredHelp key.metadata

lemma Binding.isBound_iff {binding : Binding} : binding.isBound ↔
    binding.options ≠ [] ∨ binding.envVars ≠ [] ∨ binding.remaining := by
  simp only [isBound, Bool.or_eq_true, decide_eq_true_iff, or_assoc]

/-- Items that are left out do not show where they give nothing. -/
lemma flatMap_filter {α β : Type} {p : α → Bool} {f : α → List β} {items : List α}
    (h : ∀ a ∈ items, ¬p a → f a = []) : (items.filter p).flatMap f = items.flatMap f := by
  induction items with
  | nil => rfl
  | cons a items ih =>
    obtain ⟨ha, hrest⟩ := List.forall_mem_cons.mp h
    by_cases hp : p a
    · simp [hp, ih hrest]
    · simp [hp, ih hrest, ha hp]

namespace Specification

/-- The bindings that keys declare. -/
def ofKeys (keys : List Key) : Specification := ⟨(keys.map Key.binding).filter Binding.isBound⟩

lemma options_ofKeys (keys : List Key) :
    (ofKeys keys).options = OptionSpec.builtin ++ keys.flatMap Key.options := by
  rw [options, ofKeys, flatMap_filter, List.flatMap_map]
  · rfl
  · intro binding _ hbound
    by_contra hoptions
    exact hbound (Binding.isBound_iff.mpr (Or.inl hoptions))

lemma envVars_ofKeys (keys : List Key) : (ofKeys keys).envVars = keys.flatMap Key.envVars := by
  rw [envVars, ofKeys, flatMap_filter, List.flatMap_map]
  · rfl
  · intro binding _ hbound
    by_contra henvVars
    exact hbound (Binding.isBound_iff.mpr (Or.inr (Or.inl henvVars)))

lemma mem_bindings_ofKeys_iff {keys : List Key} {binding : Binding} :
    binding ∈ (ofKeys keys).bindings ↔ ∃ key ∈ keys, key.binding = binding ∧ binding.isBound := by
  simp only [ofKeys, List.mem_filter, List.mem_map, ← and_assoc, exists_and_right]

lemma ofKeys_concat (keys : List Key) (key : Key) : ofKeys (keys ++ [key]) =
    if key.binding.isBound then ⟨(ofKeys keys).bindings ++ [key.binding]⟩ else ofKeys keys := by
  by_cases hbound : key.binding.isBound <;> simp [ofKeys, hbound]

end Specification

/-! ### Compilation -/

/-- Names that are not reserved differ from those of the built-in help. -/
lemma nodup_builtin_append_iff {options : List OptionSpec}
    (h : ∀ option ∈ options, option.name.fault? = none) :
    (optionNames (OptionSpec.builtin ++ options)).Nodup ↔ (optionNames options).Nodup := by
  have hbuiltin : ∀ name ∈ optionNames OptionSpec.builtin, name ∉ optionNames options := by
    intro name hname hmem
    obtain ⟨option, hoption, rfl⟩ := List.mem_map.mp hmem
    have := OptionName.fault?_eq_none_iff.mp (h option hoption)
    simp_all [OptionSpec.builtin, OptionSpec.help, OptionName.helpShort, OptionName.helpLong]
  rw [optionNames, List.map_append, List.nodup_append']
  constructor
  · rintro ⟨_, hnodup, _⟩
    exact hnodup
  · intro hnodup
    exact ⟨by decide, hnodup, hbuiltin⟩

namespace LegalTogether

variable {keys : List Key} {key : Key}

lemma of_append {more : List Key} (h : LegalTogether (keys ++ more)) : LegalTogether keys := by
  obtain ⟨hentries, hnames, hvars, hremaining⟩ := h
  rw [List.flatMap_append] at hnames hvars
  exact ⟨fun key hkey => hentries key (List.mem_append_left _ hkey), hnames.of_append_left,
    hvars.of_append_left, fun key hkey => hremaining key (List.mem_append_left _ hkey)⟩

lemma fault?_eq_none (h : LegalTogether keys) :
    ∀ option ∈ keys.flatMap Key.options, option.name.fault? = none := by
  intro option hoption
  obtain ⟨key, hkey, hoption⟩ := List.mem_flatMap.mp hoption
  obtain ⟨entry, hentry, hoption⟩ := List.mem_flatMap.mp hoption
  obtain ⟨name, hname, rfl⟩ := List.mem_map.mp hoption
  exact (FieldEntry.isLegal_iff.mp (h.entries key hkey entry hentry)).2 name hname

lemma optionNames_flatMap (keys : List Key) :
    DeclaredOptions.optionNames (keys.flatMap Key.options) = keys.flatMap Key.optionNames := by
  simp only [DeclaredOptions.optionNames, List.map_flatMap, Key.optionNames_options]

/-- A key is legal after others just if it passes the checks against what they declare. -/
lemma concat_iff (h : LegalTogether keys) : LegalTogether (keys ++ [key]) ↔
    LegalEntries (OptionSpec.builtin ++ keys.flatMap Key.options) key (optionEntries key.metadata) ∧
      (keys.flatMap Key.envVars ++ key.envVars).Nodup ∧
      (key.AsksForRemaining → key.name.IsWildcard) := by
  have hflat {α : Type} (f : Key → List α) :
      (keys ++ [key]).flatMap f = keys.flatMap f ++ f key := by simp
  have hdistinct (hfault : ∀ option ∈ (keys ++ [key]).flatMap Key.options,
      option.name.fault? = none) :
      (DeclaredOptions.optionNames
        (OptionSpec.builtin ++ keys.flatMap Key.options ++ key.options)).Nodup ↔
        ((keys ++ [key]).flatMap Key.optionNames).Nodup := by
    rw [List.append_assoc, ← hflat, nodup_builtin_append_iff hfault, optionNames_flatMap]
  constructor
  · intro hboth
    have hentries := hboth.entries key (by simp)
    refine ⟨⟨fun entry hentry => (hentries entry hentry).toHasLegalSettings, ?_, ?_⟩, ?_,
      hboth.remaining key (by simp)⟩
    · have hfault := hboth.fault?_eq_none
      rw [hflat] at hfault
      exact (List.forall_mem_append.mp hfault).2
    · exact (hdistinct hboth.fault?_eq_none).mpr hboth.optionNames
    · rw [← hflat]
      exact hboth.envVars
  · rintro ⟨⟨hsettings, hfault, hnames⟩, henvVars, hremaining⟩
    have hentries : ∀ entry ∈ optionEntries key.metadata, entry.IsLegal key.metadata := by
      intro entry hentry
      refine FieldEntry.isLegal_iff.mpr ⟨hsettings entry hentry, fun name hname => ?_⟩
      exact hfault _ (List.mem_flatMap.mpr ⟨entry, hentry, List.mem_map_of_mem hname⟩)
    constructor
    · exact List.forall_mem_append.mpr ⟨h.entries, List.forall_mem_singleton.mpr hentries⟩
    · refine (hdistinct ?_).mp hnames
      rw [hflat]
      exact List.forall_mem_append.mpr ⟨h.fault?_eq_none, hfault⟩
    · rw [hflat]
      exact henvVars
    · exact List.forall_mem_append.mpr ⟨h.remaining, List.forall_mem_singleton.mpr hremaining⟩

end LegalTogether

namespace Specification

/-- The names of all options are distinct, those of the built-in help among them. -/
lemma nodup_options_ofKeys {keys : List Key} (h : LegalTogether keys) :
    (optionNames (ofKeys keys).options).Nodup := by
  rw [options_ofKeys, nodup_builtin_append_iff h.fault?_eq_none, LegalTogether.optionNames_flatMap]
  exact h.optionNames

lemma isDeclaredBy_iff {keys : List Key} {key : Key} (h : LegalTogether keys) {binding : Binding} :
    binding.IsDeclaredBy (ofKeys keys) key ↔
      LegalTogether (keys ++ [key]) ∧ binding = key.binding := by
  have hnames := nodup_options_ofKeys h
  have hvars : (ofKeys keys).envVars.Nodup := by
    rw [envVars_ofKeys]
    exact h.envVars
  rw [LegalTogether.concat_iff h, ← options_ofKeys, ← envVars_ofKeys]
  constructor
  · rintro ⟨hname, hoptions, henvVars, hremaining, hhelp⟩
    rw [declaredOptions_eq_ok_iff hnames] at hoptions
    rw [declaredVariables_eq_ok_iff hvars] at henvVars
    rw [declaredRemaining_eq_ok_iff] at hremaining
    refine ⟨⟨hoptions.1, henvVars.1, hremaining.1⟩, ?_⟩
    obtain ⟨key', options, envVars, remaining, help⟩ := binding
    simp only at hname hoptions henvVars hremaining hhelp
    rw [hname, hoptions.2, henvVars.2, hremaining.2, hhelp]
    rfl
  · rintro ⟨⟨hoptions, henvVars, hremaining⟩, rfl⟩
    exact ⟨rfl, (declaredOptions_eq_ok_iff hnames).mpr ⟨hoptions, rfl⟩,
      (declaredVariables_eq_ok_iff hvars).mpr ⟨henvVars, rfl⟩,
      declaredRemaining_eq_ok_iff.mpr ⟨hremaining, rfl⟩, rfl⟩

/-- Compilation succeeds just for keys that are legal together, and then the bindings are those that
the keys declare one by one. -/
lemma compile_eq_ok_iff {keys : KeySet} {spec : Specification} :
    compile keys = .ok spec ↔
      LegalTogether (keys.inSpace .spec) ∧ spec = ofKeys (keys.inSpace .spec) := by
  refine foldlM_eq_ok_iff ofKeys LegalTogether ?_ ?_ [] ?_
  · intro seen more
    exact LegalTogether.of_append
  · intro seen key next hseen
    rw [mapError_eq_ok_iff, addKey_eq_ok_iff]
    simp only [isDeclaredBy_iff hseen, ofKeys_concat]
    constructor
    · rintro ⟨binding, ⟨hlegal, rfl⟩, hnext⟩
      exact ⟨hlegal, hnext⟩
    · rintro ⟨hlegal, hnext⟩
      exact ⟨_, ⟨hlegal, rfl⟩, hnext⟩
  · exact ⟨by simp, by simp, by simp, by simp⟩

variable {keys : KeySet} {spec : Specification}

/-- Bindings stand in the order of their keys. -/
lemma pairwise_of_compile (h : compile keys = .ok spec) :
    spec.bindings.Pairwise fun a b => compare a.key b.key = .lt := by
  obtain ⟨_, rfl⟩ := compile_eq_ok_iff.mp h
  apply List.Pairwise.filter
  rw [List.pairwise_map]
  exact keys.pairwise_inSpace .spec

/-- Bindings are for `spec` keys. -/
lemma space_of_compile (h : compile keys = .ok spec) {binding : Binding}
    (hbinding : binding ∈ spec.bindings) : binding.key.space = .spec := by
  obtain ⟨_, rfl⟩ := compile_eq_ok_iff.mp h
  obtain ⟨key, hkey, rfl, _⟩ := mem_bindings_ofKeys_iff.mp hbinding
  exact (KeySet.mem_inSpace.mp hkey).2

/-- Leftover arguments are collected for whole arrays only. -/
lemma kind_of_remaining (h : compile keys = .ok spec) {binding : Binding}
    (hbinding : binding ∈ spec.bindings) (hremaining : binding.remaining) :
    binding.key.kind = .array := by
  obtain ⟨hlegal, rfl⟩ := compile_eq_ok_iff.mp h
  obtain ⟨key, hkey, rfl, _⟩ := mem_bindings_ofKeys_iff.mp hbinding
  exact if_pos (hlegal.remaining key hkey (by simpa [Key.binding] using hremaining))

/-- The specifications that compile are just the legal ones. -/
theorem exists_compile_eq_ok_iff (keys : KeySet) :
    (∃ spec, compile keys = .ok spec) ↔ LegalTogether (keys.inSpace .spec) := by
  simp only [compile_eq_ok_iff, exists_and_left, exists_eq, and_true]

/-- Keys with a switch that only has a long name, and with the settings of `other`. -/
def namingKeys (other : List (String × String)) : KeySet := .ofList Key.name [
  { name := ⟨.spec, ["all"], by decide⟩,
    metadata := .ofList Prod.fst
      [("opt/long", "all"), ("opt/arg", "none"), ("opt/flagvalue", "yes")] },
  { name := ⟨.spec, ["grade"], by decide⟩, metadata := .ofList Prod.fst other }]

/-- An option without argument may have a value of its own, also among several entries. -/
example : (compile (namingKeys [("opt", "#1"), ("opt/#0", "l"), ("opt/#1", "q"),
      ("opt/#1/arg", "none"), ("opt/#1/flagvalue", "0")])).map (optionNames ·.options) =
    .ok [.helpShort, .helpLong, .long "all", .short 'l', .short 'q'] := rfl

/-- The long name is taken by an entry that is not written. -/
example : compile (namingKeys [("opt", "a"), ("opt/long", "all")]) =
    .error (.illegalSpecification ⟨.spec, ["grade"], by decide⟩
      (.duplicateOption "--all" "spec/all")) := rfl

end Specification

end DeclaredOptions
