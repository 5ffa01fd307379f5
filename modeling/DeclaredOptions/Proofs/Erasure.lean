import DeclaredOptions.Proofs.Compilation
import DeclaredOptions.Proofs.Declarations
import DeclaredOptions.Proofs.FieldReading
import Mathlib.Data.List.TakeWhile
import Mathlib.Tactic.Common

/-!
# Specifications without presentation

Some metadata is for help texts only (`IsPresentation`). A bare key has empty texts there, and a
bare option or binding says nothing of its own in help texts. Compilation takes bare keys to the
bare specification, or to the same failure (`compile_essence`): each of its steps does, since no
name that decides anything is one of presentation.
-/

namespace DeclaredOptions

open Steps

/-! ### Metadata for help texts -/

/-- The names of metadata for help texts. In an array `opt/#` goes on with any index. -/
def IsPresentation (name : String) : Prop :=
  name ∈ ["opt/help", "description", "opt/nohelp", "opt/arg/help"] ∨
    "opt/#".toList <+: name.toList ∧
      ("/nohelp".toList <:+ name.toList ∨ "/arg/help".toList <:+ name.toList)

instance (name : String) : Decidable (IsPresentation name) :=
  inferInstanceAs (Decidable (_ ∨ _ ∧ (_ ∨ _)))

/-- All these names end in `p` or `n`. -/
lemma IsPresentation.getLast?_eq {name : String} (h : IsPresentation name) :
    name.toList.getLast? = some 'p' ∨ name.toList.getLast? = some 'n' := by
  rcases h with hmem | ⟨_, ⟨start, hstart⟩ | ⟨start, hstart⟩⟩
  · simp only [List.mem_cons, List.not_mem_nil, or_false] at hmem
    rcases hmem with rfl | rfl | rfl | rfl <;> decide
  · rw [← hstart]
    simp
  · rw [← hstart]
    simp

lemma not_isPresentation_of_getLast? {name : String} {c : Char}
    (h : name.toList.getLast? = some c) (hc : c ≠ 'p' ∧ c ≠ 'n') : ¬IsPresentation name := by
  intro hname
  rcases hname.getLast?_eq with hlast | hlast
  · cases h.symm.trans hlast
    exact hc.1 rfl
  · cases h.symm.trans hlast
    exact hc.2 rfl

namespace Metadata

/-- An entry with an empty text if it is for help texts. -/
def bareEntry (entry : String × String) : String × String :=
  (entry.1, if IsPresentation entry.1 then "" else entry.2)

lemma fst_bareEntry (entry : String × String) : (bareEntry entry).1 = entry.1 := rfl

/-- The metadata with empty texts in place of those for help texts. -/
def bare (m : Metadata) : Metadata := m.map bareEntry fst_bareEntry

variable {m : Metadata} {name : String}

lemma get?_bare (m : Metadata) (name : String) : m.bare.get? name =
    (m.get? name).map fun text => if IsPresentation name then "" else text := by
  rw [SortedMap.get?, SortedMap.get?, bare, SortedBy.find?_map, Option.map_map, Option.map_map]
  cases hfind : m.find? name with
  | none => rfl
  | some entry =>
    obtain rfl := SortedBy.key_of_find?_eq_some hfind
    rfl

lemma get?_bare_of_not (h : ¬IsPresentation name) : m.bare.get? name = m.get? name := by
  rw [get?_bare]
  simp [h]

lemma isSome_get?_bare (m : Metadata) (name : String) :
    (m.bare.get? name).isSome = (m.get? name).isSome := by
  rw [get?_bare, Option.isSome_map]

lemma nonEmpty?_bare_of_not (h : ¬IsPresentation name) :
    m.bare.nonEmpty? name = m.nonEmpty? name := by
  rw [nonEmpty?, nonEmpty?, get?_bare_of_not h]

lemma nonEmpty?_bare_of_isPresentation (h : IsPresentation name) :
    m.bare.nonEmpty? name = none := by
  rw [nonEmpty?, get?_bare]
  cases m.get? name <;> simp [h]

lemma below_bare (m : Metadata) (path : String) :
    m.bare.below path = (m.below path).map bareEntry := by
  simp only [below, SortedBy.atLeast, bare, SortedBy.map, List.dropWhile_map, List.takeWhile_map,
    Function.comp_def, bareEntry]

end Metadata

/-! ### Fields -/

/-- The name of an element ends in a digit. -/
lemma not_isPresentation_element (field : String) (n : Nat) :
    ¬IsPresentation (field ++ "/" ++ Index.name n) := by
  obtain ⟨c, hlast⟩ : ∃ c, (Nat.toDigits 10 n).getLast? = some c :=
    ⟨_, List.getLast?_eq_getLast_of_ne_nil Nat.toDigits_ne_nil⟩
  have hdigit : c.isDigit := Index.isDigit_of_mem_toDigits (List.mem_of_getLast? hlast)
  apply not_isPresentation_of_getLast? (c := c)
  · simp [Index.toList_name, List.getLast?_cons, hlast]
  · constructor <;> (rintro rfl; exact absurd hdigit (by decide))

namespace Field

variable {m : Metadata} {field : String}

lemma exists_name_of_mem_elements {entry : FieldEntry} (h : entry ∈ elements m field) :
    ∃ n, entry.base = field ++ "/" ++ Index.name n := by
  obtain ⟨⟨n, _, hname⟩, _⟩ := mem_elements_iff.mp h
  exact ⟨n, hname⟩

lemma base_of_mem_entries {entry : FieldEntry} (h : entry ∈ (read m field).entries) :
    entry.base = field ∨ ∃ n, entry.base = field ++ "/" ++ Index.name n := by
  unfold read at h
  split at h
  · cases h
  · split at h
    · exact Or.inr (exists_name_of_mem_elements h)
    · exact Or.inl (by rw [List.mem_singleton.mp h])

lemma elements_bare (m : Metadata) (field : String) : elements m.bare field = elements m field := by
  -- the filter looks at names, and no element has a name of presentation
  rw [elements, elements, Metadata.below_bare, List.filter_map, List.map_map]
  apply List.map_congr_left
  intro entry hentry
  obtain ⟨hbelow, hindex⟩ := List.mem_filter.mp hentry
  obtain ⟨n, _, hname⟩ := (isSome_parse?_iff (Metadata.mem_below_iff.mp hbelow).2).mp hindex
  have hnot : ¬IsPresentation entry.1 := hname ▸ not_isPresentation_element field n
  simp [Metadata.bareEntry, hnot]

lemma read_bare (h : ¬IsPresentation field) : read m.bare field = read m field := by
  simp only [read, Metadata.get?_bare_of_not h, Metadata.isSome_get?_bare, elements_bare]

end Field

/-! ### Options -/

/-- Whether an entry can be one of the field that declares options. -/
def FieldEntry.DeclaresOption (entry : FieldEntry) : Prop :=
  entry.base = "opt" ∨ ∃ n, entry.base = "opt" ++ "/" ++ Index.name n

lemma declaresOption_of_mem_optionEntries {m : Metadata} {entry : FieldEntry}
    (h : entry ∈ optionEntries m) : entry.DeclaresOption := by
  rw [optionEntries_eq] at h
  split at h
  · exact Or.inl (by rw [List.mem_singleton.mp h])
  · exact Field.base_of_mem_entries h

lemma optionEntries_bare (m : Metadata) : optionEntries m.bare = optionEntries m := by
  rw [optionEntries, optionEntries, Field.read_bare (by decide),
    Metadata.nonEmpty?_bare_of_not (by decide)]

namespace FieldEntry

variable {entry : FieldEntry} {m : Metadata}

/-- The other facets end in `g` or `e`, whatever the entry. -/
lemma facet?_bare (facet : Facet) (h : facet ≠ .placeholder ∧ facet ≠ .hidden) :
    entry.facet? m.bare facet = entry.facet? m facet := by
  obtain ⟨c, hlast, hc⟩ : ∃ c, facet.path.toList.getLast? = some c ∧ c ≠ 'p' ∧ c ≠ 'n' := by
    cases facet with
    | long | argument | flagValue => exact ⟨_, rfl, by decide⟩
    | placeholder => exact absurd rfl h.1
    | hidden => exact absurd rfl h.2
  apply Metadata.nonEmpty?_bare_of_not
  refine not_isPresentation_of_getLast? (c := c) ?_ hc
  simp [Facet.nameBelow, List.getLast?_cons, hlast]

lemma facet?_bare_eq_none (facet : Facet) (hentry : entry.DeclaresOption)
    (h : facet = .placeholder ∨ facet = .hidden) : entry.facet? m.bare facet = none := by
  apply Metadata.nonEmpty?_bare_of_isPresentation
  rcases hentry with hbase | ⟨n, hbase⟩
  · rcases h with rfl | rfl <;> (rw [hbase]; decide)
  · have hstart : "opt/#".toList <+: (facet.nameBelow entry.base).toList := by
      simp [hbase, Facet.nameBelow, Index.toList_name]
    refine Or.inr ⟨hstart, ?_⟩
    rcases h with rfl | rfl
    · exact Or.inr ⟨entry.base.toList, by simp [Facet.nameBelow, Facet.path]⟩
    · exact Or.inl ⟨entry.base.toList, by simp [Facet.nameBelow, Facet.path]⟩

lemma optionNames_bare (entry : FieldEntry) (m : Metadata) :
    entry.optionNames m.bare = entry.optionNames m := by
  rw [optionNames, optionNames, facet?_bare .long (by decide)]

end FieldEntry

/-- The settings without those for help texts. -/
def OptionSettings.bare (settings : OptionSettings) : OptionSettings :=
  { settings with placeholder := "ARG", hidden := false }

lemma OptionSettings.read_bare {entry : FieldEntry} (h : entry.DeclaresOption) (m : Metadata) :
    read m.bare entry = (read m entry).map bare := by
  simp only [read, FieldEntry.facet?_bare .argument (by decide),
    FieldEntry.facet?_bare .flagValue (by decide),
    FieldEntry.facet?_bare_eq_none .placeholder h (Or.inl rfl),
    FieldEntry.facet?_bare_eq_none .hidden h (Or.inr rfl)]
  cases entry.facet? m .argument with
  | none => cases entry.facet? m .flagValue <;> rfl
  | some label =>
    dsimp only
    cases ArgumentMode.ofLabel? label with
    | none => rfl
    | some mode =>
      cases entry.facet? m .flagValue with
      | none => rfl
      | some value =>
        simp only [ok_bind]
        split <;> rfl

/-- The option without what only help texts show. -/
def OptionSpec.bare (option : OptionSpec) : OptionSpec :=
  { option with placeholder := "ARG", hidden := false }

section

variable (option : OptionSpec)

@[simp] lemma OptionSpec.name_bare : option.bare.name = option.name := rfl

@[simp] lemma OptionSpec.mode_bare : option.bare.mode = option.mode := rfl

@[simp] lemma OptionSpec.flagValue_bare : option.bare.flagValue = option.flagValue := rfl

@[simp] lemma OptionSpec.owner_bare : option.bare.owner = option.owner := rfl

@[simp] lemma OptionSpec.kind_bare : option.bare.kind = option.kind := rfl

end

/-- The key with bare metadata. -/
def Key.bare (key : Key) : Key := { key with metadata := key.metadata.bare }

@[simp] lemma Key.name_bare (key : Key) : key.bare.name = key.name := rfl

@[simp] lemma Key.metadata_bare (key : Key) : key.bare.metadata = key.metadata.bare := rfl

section Declared

variable (taken own : List OptionSpec)

lemma find?_name_bare (options : List OptionSpec) (name : OptionName) :
    ((options.map OptionSpec.bare).find? fun option => option.name = name) =
      (options.find? fun option => option.name = name).map OptionSpec.bare := by
  rw [List.find?_map]
  rfl

lemma registerOption_bare (option : OptionSpec) :
    registerOption (taken.map .bare) (own.map .bare) option.bare =
      (registerOption taken own option).map (List.map OptionSpec.bare) := by
  unfold registerOption
  rw [← List.map_append, OptionSpec.name_bare, find?_name_bare]
  cases option.name.fault? with
  | some fault => rfl
  | none =>
    cases (taken ++ own).find? fun other => other.name = option.name with
    | some other => rfl
    | none => simp [Except.map]

lemma declareEntry_bare (key : Key) {entry : FieldEntry} (h : entry.DeclaresOption) :
    declareEntry (taken.map .bare) key.bare (own.map .bare) entry =
      (declareEntry taken key own entry).map (List.map OptionSpec.bare) := by
  unfold declareEntry
  rw [Key.metadata_bare, OptionSettings.read_bare h, FieldEntry.optionNames_bare]
  refine map_bind_comm fun settings => ?_
  exact foldlM_comm (fun name _ own =>
    registerOption_bare taken own (settings.option key.name name)) own

lemma declaredOptions_bare (key : Key) :
    declaredOptions (taken.map .bare) key.bare =
      (declaredOptions taken key).map (List.map OptionSpec.bare) := by
  unfold declaredOptions
  rw [Key.metadata_bare, optionEntries_bare]
  exact foldlM_comm (fun entry hentry own =>
    declareEntry_bare taken own key (declaresOption_of_mem_optionEntries hentry)) []

end Declared

/-! ### Variables and arguments -/

/-- The binding without what only help texts show. -/
def Binding.bare (binding : Binding) : Binding :=
  { binding with options := binding.options.map .bare, help := "" }

@[simp] lemma Binding.isBound_bare (binding : Binding) :
    binding.bare.isBound = binding.isBound := by
  cases hoptions : binding.options <;> simp [isBound, bare, hoptions]

namespace Specification

/-- The specification without what only help texts show. -/
def bare (spec : Specification) : Specification := ⟨spec.bindings.map .bare⟩

variable (spec : Specification) (key : Key)

lemma options_bare : spec.bare.options = spec.options.map .bare := by
  rw [options, options, List.map_append, bare, List.flatMap_map, List.map_flatMap]
  rfl

lemma holder?_bare (name : String) : spec.bare.holder? name = spec.holder? name := by
  rw [holder?, holder?, bare, List.find?_map, Option.map_map]
  rfl

lemma declaredVariables_bare :
    declaredVariables spec.bare key.bare = declaredVariables spec key := by
  have hstep : registerVariable spec.bare key.name = registerVariable spec key.name := by
    funext own name
    simp only [registerVariable, holder?_bare]
  rw [declaredVariables, declaredVariables, Key.metadata_bare, Field.read_bare (by decide),
    Key.name_bare, hstep]

lemma declaredRemaining_bare : declaredRemaining key.bare = declaredRemaining key := by
  rw [declaredRemaining, declaredRemaining, Key.metadata_bare,
    Metadata.nonEmpty?_bare_of_not (by decide), Key.name_bare]

lemma declaredHelp_bare (m : Metadata) : declaredHelp m.bare = "" := by
  rw [declaredHelp, Metadata.nonEmpty?_bare_of_isPresentation (by decide),
    Metadata.nonEmpty?_bare_of_isPresentation (by decide)]
  rfl

/-! ### Compilation -/

lemma addKey_bare : spec.bare.addKey key.bare = (spec.addKey key).map bare := by
  unfold addKey
  rw [options_bare, declaredOptions_bare, declaredVariables_bare, declaredRemaining_bare]
  refine map_bind_comm fun options => ?_
  cases declaredVariables spec key with
  | error fault => rfl
  | ok envVars =>
    cases declaredRemaining key with
    | error fault => rfl
    | ok remaining =>
      -- the binding declared by the bare key is the bare binding, bound or not as before
      let binding : Binding :=
        { key := key.name, options, envVars, remaining, help := declaredHelp key.metadata }
      have hbare : Binding.mk key.bare.name (options.map .bare) envVars remaining
          (declaredHelp key.bare.metadata) = binding.bare := by
        rw [Key.metadata_bare, declaredHelp_bare]
        rfl
      simp only [ok_bind, hbare, Binding.isBound_bare]
      show Except.ok (if binding.isBound then ⟨spec.bare.bindings ++ [binding.bare]⟩
          else spec.bare) =
        Except.ok (bare (if binding.isBound then ⟨spec.bindings ++ [binding]⟩ else spec))
      by_cases hbound : binding.isBound
      · rw [if_pos hbound, if_pos hbound]
        simp [bare]
      · rw [if_neg hbound, if_neg hbound]

end Specification

/-! ### Key sets -/

/-- A key without presentation. Only on `spec` keys metadata is for help texts. -/
def Key.essence (key : Key) : Key := if key.name.space = .spec then key.bare else key

@[simp] lemma Key.name_essence (key : Key) : key.essence.name = key.name := by
  rw [essence]
  split <;> rfl

@[simp] lemma Key.value_essence (key : Key) : key.essence.value = key.value := by
  rw [essence]
  split <;> rfl

lemma Key.essence_of_space_ne {key : Key} (h : key.name.space ≠ .spec) : key.essence = key :=
  if_neg h

/-- The keys without presentation. -/
def KeySet.essence (keys : KeySet) : KeySet := keys.map Key.essence Key.name_essence

variable (keys : KeySet)

lemma KeySet.find?_essence (name : KeyName) :
    keys.essence.find? name = (keys.find? name).map Key.essence :=
  keys.find?_map Key.name_essence name

lemma KeySet.inSpace_essence : keys.essence.inSpace .spec = (keys.inSpace .spec).map Key.bare := by
  have hspace : ((fun key : Key => decide (key.name.space = .spec)) ∘ Key.essence) =
      fun key => decide (key.name.space = .spec) := by
    funext key
    simp
  rw [inSpace, essence, SortedBy.map, List.filter_map, hspace]
  apply List.map_congr_left
  intro key hkey
  exact if_pos (by simpa using (List.mem_filter.mp hkey).2)

/-- Without presentation the keys compile to the bare specification, or fail in the same way. -/
lemma Specification.compile_essence : compile keys.essence = (compile keys).map bare := by
  unfold compile
  rw [KeySet.inSpace_essence, List.foldlM_map]
  refine foldlM_comm (g := bare) (fun key _ spec => ?_) (Specification.mk [])
  rw [addKey_bare]
  cases addKey spec key <;> rfl

end DeclaredOptions
