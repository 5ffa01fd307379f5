import DeclaredOptions.KeySet
import DeclaredOptions.Proofs.Places
import Mathlib.Data.Finmap

/-!
# Key sets as finite maps

A key set can be kept as a plain list of slots that is searched for places (`Slots.step`). However
it is changed, the slots are in strictly increasing order of names, and answers and look-ups are
those of a finite map from names to keys (`isFiniteMap_of_isSearch`). The map determines the key
set.
-/

namespace DeclaredOptions

open Std SortedBy

/-! ### Changes -/

/-- A change of a key that leaves its name. -/
inductive Edit
  | value (text : String)
  | metadata (entry text : String)
  deriving DecidableEq

/-- The key after an edit. -/
def Edit.apply : Edit → Key → Key
  | value text, key => { key with value := text }
  | metadata entry text, key => key.setMetadata entry text

@[simp] lemma Edit.name_apply (edit : Edit) (key : Key) : (edit.apply key).name = key.name := by
  cases edit <;> rfl

/-- What can be done to a key set. -/
inductive Change
  | append (key : Key)
  | extend (items : List Key)
  | remove (name : KeyName)
  | edit (name : KeyName) (edit : Edit)
  /-- Starts anew with some items. -/
  | collect (items : List Key)
  deriving DecidableEq

namespace Change

/-- Makes changes one after the other. Each of them answers the key that it finds. -/
def run {σ : Type} (step : σ → Change → Option Key × σ) (state : σ) :
    List Change → List (Option Key) × σ
  | [] => ([], state)
  | change :: changes =>
    let answered := step state change
    let rest := run step answered.2 changes
    (answered.1 :: rest.1, rest.2)

/-- Steps that answer alike and keep a relation make runs that do. -/
lemma run_simulates {σ τ : Type} {step : σ → Change → Option Key × σ}
    {step' : τ → Change → Option Key × τ} {Rel : σ → τ → Prop}
    (hstep : ∀ state state' change, Rel state state' →
      (step state change).1 = (step' state' change).1 ∧
        Rel (step state change).2 (step' state' change).2)
    {state : σ} {state' : τ} (h : Rel state state') (changes : List Change) :
    (run step state changes).1 = (run step' state' changes).1 ∧
      Rel (run step state changes).2 (run step' state' changes).2 := by
  induction changes generalizing state state' with
  | nil => exact ⟨rfl, h⟩
  | cons change changes ih =>
    obtain ⟨hanswer, hnext⟩ := hstep state state' change h
    obtain ⟨hanswers, hlast⟩ := ih hnext
    refine ⟨?_, hlast⟩
    rw [run, run, hanswer, hanswers]

lemma run_append {σ : Type} (step : σ → Change → Option Key × σ) (state : σ)
    (first second : List Change) : (run step state (first ++ second)).2 =
      (run step (run step state first).2 second).2 := by
  induction first generalizing state with
  | nil => rfl
  | cons change first ih => exact ih _

end Change

/-! ### Key sets -/

/-- A change of a key set. -/
def KeySet.step (keys : KeySet) : Change → Option Key × KeySet
  | .append key => (keys.find? key.name, keys.insert key)
  | .extend items => (none, keys.insertAll items)
  | .remove name => (keys.find? name, keys.erase name)
  | .edit name edit =>
    match keys.find? name with
    | some key => (some key, keys.insert (edit.apply key))
    | none => (none, keys)
  | .collect items => (none, .ofList Key.name items)

/-! ### Slots -/

namespace Slots

variable (search : KeyName → List Key → Place) (slots : List Key)

/-- The key of some name. -/
def lookup (name : KeyName) : Option Key :=
  match search name slots with
  | .found i => slots[i]?
  | .missing _ => none

/-- Puts a key in place of the one with its name, or between its neighbours. -/
def append (key : Key) : Option Key × List Key :=
  match search key.name slots with
  | .found i => (slots[i]?, slots.set i key)
  | .missing i => (none, slots.insertIdx i key)

/-- Puts keys into place one after the other. -/
def extend (items : List Key) : List Key :=
  items.foldl (fun slots key => (append search slots key).2) slots

/-- Takes the key of some name out. -/
def remove (name : KeyName) : Option Key × List Key :=
  match search name slots with
  | .found i => (slots[i]?, slots.eraseIdx i)
  | .missing _ => (none, slots)

/-- Edits the key of some name where it is. -/
def edit (name : KeyName) (edit : Edit) : Option Key × List Key :=
  match search name slots with
  | .found i => (slots[i]?, slots.modify i edit.apply)
  | .missing _ => (none, slots)

/-- A change of slots. -/
def step : Change → Option Key × List Key
  | .append key => append search slots key
  | .extend items => (none, extend search slots items)
  | .remove name => remove search slots name
  | .edit name change => edit search slots name change
  | .collect items => (none, extend search [] items)

/-- Whether a search finds the right places in sorted slots. -/
def IsSearch : Prop :=
  ∀ name (slots : List Key), slots.Pairwise (fun a b => compare a.name b.name = .lt) →
    Locates Key.name name slots (search name slots)

/-- The search that halves the range that is left. -/
def byHalves (name : KeyName) (slots : List Key) : Place :=
  bisect Key.name name slots 0 slots.length

lemma isSearch_byHalves : IsSearch byHalves := fun _ _ hslots => locates_bisect hslots

variable {search}

lemma search_cases (hsearch : IsSearch search) (keys : KeySet) (name : KeyName) :
    (∃ i, search name keys.toList = .found i ∧ Locates Key.name name keys.toList (.found i)) ∨
      ∃ i, search name keys.toList = .missing i ∧
        Locates Key.name name keys.toList (.missing i) := by
  have h := hsearch name keys.toList keys.increasing
  cases hplace : search name keys.toList with
  | found i => exact Or.inl ⟨i, rfl, hplace ▸ h⟩
  | missing i => exact Or.inr ⟨i, rfl, hplace ▸ h⟩

lemma lookup_toList (hsearch : IsSearch search) (keys : KeySet) (name : KeyName) :
    lookup search keys.toList name = keys.find? name := by
  rcases search_cases hsearch keys name with ⟨i, hplace, h⟩ | ⟨i, hplace, h⟩
  · obtain ⟨key, hfind, hget⟩ := h.exists_of_found
    simp only [lookup, hplace, hfind, hget]
  · simp only [lookup, hplace, h.find?_of_missing]

lemma append_toList (hsearch : IsSearch search) (keys : KeySet) (key : Key) :
    append search keys.toList key = (keys.find? key.name, (keys.insert key).toList) := by
  rcases search_cases hsearch keys key.name with ⟨i, hplace, h⟩ | ⟨i, hplace, h⟩
  · obtain ⟨old, hfind, hget⟩ := h.exists_of_found
    simp only [append, hplace, hfind, hget, h.toList_insert_of_found]
  · simp only [append, hplace, h.find?_of_missing, h.toList_insert_of_missing]

lemma extend_toList (hsearch : IsSearch search) (keys : KeySet) (items : List Key) :
    extend search keys.toList items = (keys.insertAll items).toList := by
  induction items generalizing keys with
  | nil => rfl
  | cons key items ih =>
    rw [extend, List.foldl_cons, append_toList hsearch]
    exact ih (keys.insert key)

lemma remove_toList (hsearch : IsSearch search) (keys : KeySet) (name : KeyName) :
    remove search keys.toList name = (keys.find? name, (keys.erase name).toList) := by
  rcases search_cases hsearch keys name with ⟨i, hplace, h⟩ | ⟨i, hplace, h⟩
  · obtain ⟨key, hfind, hget⟩ := h.exists_of_found
    simp only [remove, hplace, hfind, hget, h.toList_erase_of_found]
  · simp only [remove, hplace, h.find?_of_missing, h.erase_of_missing]

/-- The edited key has the name of the old one, so it takes the same place. -/
lemma edit_toList (hsearch : IsSearch search) (keys : KeySet) (name : KeyName) (change : Edit) :
    edit search keys.toList name change =
      ((keys.step (.edit name change)).1, (keys.step (.edit name change)).2.toList) := by
  rcases search_cases hsearch keys name with ⟨i, hplace, h⟩ | ⟨i, hplace, h⟩
  · obtain ⟨key, hfind, hget⟩ := h.exists_of_found
    rw [← key_of_find?_eq_some hfind, ← change.name_apply key] at h
    simp only [edit, KeySet.step, hplace, hfind, h.toList_insert_of_found, List.modify_eq_set, hget,
      Option.getD_some]
  · simp only [edit, KeySet.step, hplace, h.find?_of_missing]

/-- Slots change as the key set does. -/
lemma step_toList (hsearch : IsSearch search) (keys : KeySet) (change : Change) :
    step search keys.toList change = ((keys.step change).1, (keys.step change).2.toList) := by
  cases change with
  | append key => exact append_toList hsearch keys key
  | extend items => exact congrArg (none, ·) (extend_toList hsearch keys items)
  | remove name => exact remove_toList hsearch keys name
  | edit name change => exact edit_toList hsearch keys name change
  | collect items => exact congrArg (none, ·) (extend_toList hsearch ∅ items)

end Slots

/-! ### Maps -/

/-- Finite maps from names to keys. -/
abbrev KeyMap : Type := Finmap fun _ : KeyName => Key

namespace KeyMap

/-- Maps the names of keys to them, one after the other. -/
def extend (map : KeyMap) (items : List Key) : KeyMap :=
  items.foldl (fun map key => map.insert key.name key) map

/-- A change of a map. -/
def step (map : KeyMap) : Change → Option Key × KeyMap
  | .append key => (map.lookup key.name, map.insert key.name key)
  | .extend items => (none, map.extend items)
  | .remove name => (map.lookup name, map.erase name)
  | .edit name edit =>
    match map.lookup name with
    | some key => (some key, map.insert name (edit.apply key))
    | none => (none, map)
  | .collect items => (none, extend ∅ items)

end KeyMap

namespace KeySet

/-- Whether look-ups in a key set are those in a map. -/
def Represents (keys : KeySet) (map : KeyMap) : Prop :=
  ∀ name, keys.find? name = map.lookup name

variable {keys : KeySet} {map : KeyMap}

lemma represents_empty : Represents ∅ ∅ := fun _ => rfl

lemma Represents.insert (h : keys.Represents map) (key : Key) :
    Represents (keys.insert key) (map.insert key.name key) := by
  intro name
  by_cases hname : key.name = name
  · subst hname
    rw [find?_insert_self, Finmap.lookup_insert]
  · rw [find?_insert_of_ne keys hname, Finmap.lookup_insert_of_ne map (Ne.symm hname), h name]

lemma Represents.erase (h : keys.Represents map) (name : KeyName) :
    Represents (keys.erase name) (map.erase name) := by
  intro other
  by_cases hname : name = other
  · subst hname
    rw [find?_erase_self, Finmap.lookup_erase]
  · rw [find?_erase_of_ne keys hname, Finmap.lookup_erase_ne (Ne.symm hname), h other]

lemma Represents.extend (h : keys.Represents map) (items : List Key) :
    Represents (keys.insertAll items) (map.extend items) := by
  induction items generalizing keys map with
  | nil => exact h
  | cons key items ih => exact ih (h.insert key)

/-- A key set answers as its map does, and they go on together. -/
lemma Represents.step (h : keys.Represents map) (change : Change) :
    (keys.step change).1 = (map.step change).1 ∧
      Represents (keys.step change).2 (map.step change).2 := by
  cases change with
  | append key => exact ⟨h key.name, h.insert key⟩
  | extend items => exact ⟨rfl, h.extend items⟩
  | remove name => exact ⟨h name, h.erase name⟩
  | edit name edit =>
    rw [KeySet.step, KeyMap.step, ← h name]
    cases hfind : keys.find? name with
    | none => exact ⟨rfl, h⟩
    | some key =>
      have hname : (edit.apply key).name = name := by
        rw [edit.name_apply, key_of_find?_eq_some hfind]
      refine ⟨rfl, ?_⟩
      have hinsert := h.insert (edit.apply key)
      rwa [hname] at hinsert
  | collect items => exact ⟨rfl, represents_empty.extend items⟩

/-- The entries of the map are the keys, each under its name. -/
lemma Represents.entries_eq (h : keys.Represents map) :
    map.entries = keys.toList.map fun key => (⟨key.name, key⟩ : Sigma fun _ : KeyName => Key) := by
  have hnodup : keys.toList.Nodup := keys.increasing.imp fun hlt heq => by
    rw [heq] at hlt
    simp at hlt
  have hinjective : Function.Injective fun key : Key =>
      (⟨key.name, key⟩ : Sigma fun _ : KeyName => Key) := by
    intro key other hsame
    exact eq_of_heq (Sigma.mk.inj hsame).2
  have hnodup' := Multiset.coe_nodup.mpr (hnodup.map hinjective)
  refine (Multiset.Nodup.ext map.nodup_entries hnodup').mpr ?_
  rintro ⟨name, key⟩
  rw [← Finmap.lookup_eq_some_iff, ← h name, find?_eq_some_iff, Multiset.mem_coe, List.mem_map]
  constructor
  · rintro ⟨hkey, rfl⟩
    exact ⟨key, hkey, rfl⟩
  · rintro ⟨other, hother, hsame⟩
    cases hsame
    exact ⟨hother, rfl⟩

lemma Represents.size_eq (h : keys.Represents map) : keys.size = map.keys.card := by
  have hcard : map.keys.card = map.entries.card := Multiset.card_map _ _
  rw [hcard, h.entries_eq]
  simp [size]

/-- The map determines the key set. -/
lemma Represents.unique {keys' : KeySet} (h : keys.Represents map) (h' : keys'.Represents map) :
    keys = keys' := by
  apply ext_find?
  intro name
  rw [h name, h' name]

/-! ### The order of insertions -/

lemma insert_comm (keys : KeySet) {key other : Key} (h : key.name ≠ other.name) :
    (keys.insert key).insert other = (keys.insert other).insert key := by
  apply ext_find?
  intro name
  by_cases hname : key.name = name
  · subst hname
    rw [find?_insert_of_ne _ (Ne.symm h), find?_insert_self, find?_insert_self]
  · rw [find?_insert_of_ne (keys.insert other) hname]
    by_cases hother : other.name = name
    · subst hother
      rw [find?_insert_self, find?_insert_self]
    · rw [find?_insert_of_ne _ hother, find?_insert_of_ne _ hname, find?_insert_of_ne _ hother]

/-- Keys with distinct names can be inserted in any order. -/
lemma insertAll_perm (keys : KeySet) {items items' : List Key} (hperm : items.Perm items')
    (hnodup : (items.map Key.name).Nodup) : keys.insertAll items = keys.insertAll items' := by
  refine hperm.foldl_eq' (fun key hkey other hother keys => ?_) keys
  by_cases hname : key.name = other.name
  · rw [List.inj_on_of_nodup_map hnodup hkey hother hname]
  · exact insert_comm keys hname

lemma run_append_items (keys : KeySet) (items : List Key) :
    (Change.run step keys (items.map .append)).2 = keys.insertAll items := by
  induction items generalizing keys with
  | nil => rfl
  | cons key items ih => exact ih (keys.insert key)

end KeySet

/-! ### After any changes -/

section After

variable (search : KeyName → List Key → Place) (changes : List Change)

/-- The slots after changes, and what the changes answered. -/
def Slots.after : List (Option Key) × List Key := Change.run (Slots.step search) [] changes

/-- The key set after changes, and what the changes answered. -/
def KeySet.after : List (Option Key) × KeySet := Change.run KeySet.step ∅ changes

/-- The map after changes, and what the changes answered. -/
def KeyMap.after : List (Option Key) × KeyMap := Change.run KeyMap.step ∅ changes

/-- After some changes the slots are the key set, and the key set is a finite map. -/
structure IsFiniteMap : Prop where
  increasing : (Slots.after search changes).2.Pairwise fun a b => compare a.name b.name = .lt
  slots : Slots.after search changes = ((KeySet.after changes).1, (KeySet.after changes).2.toList)
  answers : (KeySet.after changes).1 = (KeyMap.after changes).1
  lookup : ∀ name, Slots.lookup search (Slots.after search changes).2 name =
    (KeyMap.after changes).2.lookup name
  find? : ∀ name, (KeySet.after changes).2.find? name = (KeyMap.after changes).2.lookup name
  size : (KeySet.after changes).2.size = (KeyMap.after changes).2.keys.card
  entries : (KeyMap.after changes).2.entries = (KeySet.after changes).2.toList.map fun key =>
    (⟨key.name, key⟩ : Sigma fun _ : KeyName => Key)

end After

section

variable {search : KeyName → List Key → Place}

/-- Slots are those of the key set after any changes. -/
lemma Slots.after_eq (hsearch : Slots.IsSearch search) (changes : List Change) :
    Slots.after search changes = ((KeySet.after changes).1, (KeySet.after changes).2.toList) := by
  have hstep : ∀ (slots : List Key) (keys : KeySet) (change : Change), slots = keys.toList →
      (Slots.step search slots change).1 = (keys.step change).1 ∧
        (Slots.step search slots change).2 = (keys.step change).2.toList := by
    rintro _ keys change rfl
    rw [Slots.step_toList hsearch]
    exact ⟨rfl, rfl⟩
  have hempty : [] = (∅ : KeySet).toList := rfl
  obtain ⟨hanswers, hslots⟩ := Change.run_simulates hstep hempty changes
  exact Prod.ext hanswers hslots

lemma KeySet.represents_after (changes : List Change) :
    (KeySet.after changes).1 = (KeyMap.after changes).1 ∧
      Represents (KeySet.after changes).2 (KeyMap.after changes).2 :=
  Change.run_simulates (fun _ _ change h => h.step change) represents_empty changes

/-- A key set is a finite map in canonical form. With a search that finds the right places in sorted
slots, the slots are in strictly increasing order of names after any changes, and answers, look-ups
and entries are those of the map. The map determines the key set, so keys with distinct names can
be appended in any order. -/
theorem isFiniteMap_of_isSearch (hsearch : Slots.IsSearch search) :
    (∀ changes, IsFiniteMap search changes) ∧
    (∀ changes changes', (KeyMap.after changes).2 = (KeyMap.after changes').2 →
      (KeySet.after changes).2 = (KeySet.after changes').2) ∧
    ∀ changes (items items' : List Key), items.Perm items' → (items.map Key.name).Nodup →
      (KeySet.after (changes ++ items.map .append)).2 =
        (KeySet.after (changes ++ items'.map .append)).2 := by
  refine ⟨?_, ?_, ?_⟩
  · intro changes
    have hslots := Slots.after_eq hsearch changes
    obtain ⟨hanswers, hfind⟩ := KeySet.represents_after changes
    constructor
    case increasing =>
      rw [hslots]
      exact (KeySet.after changes).2.increasing
    case slots => exact hslots
    case answers => exact hanswers
    case lookup =>
      intro name
      rw [hslots, Slots.lookup_toList hsearch, hfind name]
    case find? => exact hfind
    case size => exact hfind.size_eq
    case entries => exact hfind.entries_eq
  · intro changes changes' hmap
    have hfind := (KeySet.represents_after changes).2
    rw [hmap] at hfind
    exact hfind.unique (KeySet.represents_after changes').2
  · intro changes items items' hperm hnodup
    simp only [KeySet.after, Change.run_append, KeySet.run_append_items]
    exact KeySet.insertAll_perm _ hperm hnodup

/-- A key that is found in between two others. -/
def sampleChanges : List Change :=
  [.append { name := ⟨.user, ["b"], by decide⟩, value := "1" },
    .append { name := ⟨.spec, ["a"], by decide⟩ },
    .append { name := ⟨.user, ["a", "x"], by decide⟩ },
    .append { name := ⟨.user, ["b"], by decide⟩, value := "2" },
    .edit ⟨.user, ["a", "x"], by decide⟩ (.value "3"),
    .remove ⟨.spec, ["a"], by decide⟩]

theorem isFiniteMap_sample : Slots.IsSearch Slots.byHalves ∧
    IsFiniteMap Slots.byHalves sampleChanges ∧
    (Slots.after Slots.byHalves sampleChanges).1.map (Option.map Key.value) =
      [none, none, none, some "1", some "", some ""] ∧
    (Slots.after Slots.byHalves sampleChanges).2.map Key.value = ["3", "2"] := by
  have hsample := (isFiniteMap_of_isSearch Slots.isSearch_byHalves).1 sampleChanges
  refine ⟨Slots.isSearch_byHalves, hsample, ?_, ?_⟩
  · rw [hsample.slots]
    rfl
  · rw [hsample.slots]
    rfl

end

end DeclaredOptions
