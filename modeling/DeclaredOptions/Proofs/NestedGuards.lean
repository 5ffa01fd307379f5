import DeclaredOptions.Environment.Guard
import DeclaredOptions.Proofs.Filing
import Mathlib.Data.List.Induction
import Mathlib.Tactic.Common

/-!
# Nested guards

Changes and drops may follow each other in any way in which each drop is of the newest guard of its
variable. Then the environment is always what the changes with guards left make of the one at the
start (`Stacks`), as if the others had not been made. So a drop puts back what its change replaced,
and without guards the environment is that of the start (`isExact_of_nests`).
-/

namespace DeclaredOptions

namespace Environment

@[simp] lemma get?_assign_self (environment : Environment) (name : String)
    (value : Option String) : (environment.assign name value).get? name = value := by
  cases value with
  | some value => exact SortedMap.get?_set_self environment name value
  | none => exact SortedMap.get?_erase_self environment name

lemma get?_assign_of_ne (environment : Environment) {name other : String} (h : name ≠ other)
    (value : Option String) :
    (environment.assign name value).get? other = environment.get? other := by
  cases value with
  | some value => exact SortedMap.get?_set_of_ne environment h value
  | none => exact SortedMap.get?_erase_of_ne environment h

end Environment

namespace GuardedEnvironment

/-- Only the guard at the index is dropped. -/
lemma drop_append (environment : Environment) (earlier later : List Guard) (guard : Guard) :
    drop ⟨environment, earlier ++ guard :: later⟩ earlier.length =
      ⟨restore environment guard, earlier ++ later⟩ := by
  simp [drop, List.eraseIdx_append_of_length_le]

/-! ### Runs -/

/-- What can be done with a guarded environment. -/
inductive Action
  | change (name : String) (value : Option String)
  | changeAll (pairs : List (String × String))
  | drop (index : Nat)
  deriving DecidableEq, Repr

/-- A guarded environment after an action. -/
def step (guarded : GuardedEnvironment) : Action → GuardedEnvironment
  | .change name value => guarded.change name value
  | .changeAll pairs => guarded.changeAll pairs
  | .drop index => guarded.drop index

/-- A guarded environment after some actions. -/
def run (guarded : GuardedEnvironment) (actions : List Action) : GuardedEnvironment :=
  actions.foldl step guarded

/-- The guard at an index is the newest one of its variable. -/
def IsNewest (guards : List Guard) (index : Nat) : Prop :=
  ∃ guard ∈ guards[index]?, ∀ later ∈ guards.drop (index + 1), later.name ≠ guard.name

instance (guards : List Guard) (index : Nat) : Decidable (IsNewest guards index) :=
  inferInstanceAs (Decidable (∃ guard ∈ guards[index]?, _))

/-- An action drops no guard, or the newest one of a variable. -/
def Admits (guards : List Guard) : Action → Prop
  | .drop index => IsNewest guards index
  | _ => True

instance (guards : List Guard) : DecidablePred (Admits guards)
  | .drop index => inferInstanceAs (Decidable (IsNewest guards index))
  | .change _ _ => inferInstanceAs (Decidable True)
  | .changeAll _ => inferInstanceAs (Decidable True)

/-- Whenever a guard is dropped, it is the newest one of its variable. -/
def Nests (guarded : GuardedEnvironment) : List Action → Prop
  | [] => True
  | action :: actions => Admits guarded.guards action ∧ Nests (guarded.step action) actions

instance decidableNests : (guarded : GuardedEnvironment) → DecidablePred guarded.Nests
  | _, [] => inferInstanceAs (Decidable True)
  | guarded, action :: actions =>
    have := decidableNests (guarded.step action) actions
    inferInstanceAs (Decidable (Admits guarded.guards action ∧ _))

lemma nests_append {guarded : GuardedEnvironment} {earlier later : List Action} :
    guarded.Nests (earlier ++ later) ↔
      guarded.Nests earlier ∧ (guarded.run earlier).Nests later := by
  induction earlier generalizing guarded with
  | nil => simp [Nests, run]
  | cons action earlier ih =>
    rw [List.cons_append, Nests, Nests, ih, and_assoc]
    rfl

/-! ### Changes with guards left -/

/-- A change of a variable, with the environment just before it. -/
structure Replacement where
  name : String
  value : Option String
  before : Environment

/-- The guard of a change. -/
def Replacement.guard (change : Replacement) : Guard :=
  ⟨change.name, change.before.get? change.name⟩

/-- A guarded environment with the changes whose guards are left, oldest first. -/
structure History where
  guarded : GuardedEnvironment
  changes : List Replacement

namespace History

/-- A history that begins. -/
def start (environment : Environment) : History := ⟨⟨environment, []⟩, []⟩

/-- A change is kept with the environment that it is made in. -/
def change (history : History) (name : String) (value : Option String) : History where
  guarded := history.guarded.change name value
  changes := history.changes ++ [⟨name, value, history.guarded.environment⟩]

/-- Each of several changes is kept. -/
def changeAll (history : History) (pairs : List (String × String)) : History :=
  pairs.foldl (fun history pair => history.change pair.1 (some pair.2)) history

/-- A change goes with its guard. -/
def drop (history : History) (index : Nat) : History where
  guarded := history.guarded.drop index
  changes := history.changes.eraseIdx index

/-- A history after an action. -/
def step (history : History) : Action → History
  | .change name value => history.change name value
  | .changeAll pairs => history.changeAll pairs
  | .drop index => history.drop index

/-- A history after some actions. -/
def run (history : History) (actions : List Action) : History := actions.foldl step history

lemma guarded_changeAll (history : History) (pairs : List (String × String)) :
    (history.changeAll pairs).guarded = history.guarded.changeAll pairs := by
  induction pairs generalizing history with
  | nil => rfl
  | cons pair pairs ih => exact ih (history.change pair.1 (some pair.2))

lemma guarded_step (history : History) (action : Action) :
    (history.step action).guarded = history.guarded.step action := by
  cases action with
  | change name value => rfl
  | changeAll pairs => exact history.guarded_changeAll pairs
  | drop index => rfl

/-- A history is kept beside the guarded environment and does not touch it. -/
lemma guarded_run (history : History) (actions : List Action) :
    (history.run actions).guarded = history.guarded.run actions := by
  induction actions generalizing history with
  | nil => rfl
  | cons action actions ih =>
    have hnext := ih (history.step action)
    rw [guarded_step] at hnext
    exact hnext

end History

/-- What changes make of an environment. -/
def replay (start : Environment) (changes : List Replacement) : Environment :=
  changes.foldl (fun environment change => environment.assign change.name change.value) start

lemma replay_append (start : Environment) (earlier later : List Replacement) :
    replay start (earlier ++ later) = replay (replay start earlier) later := List.foldl_append

/-- Changes of other variables leave a variable as it is. -/
lemma get?_replay_of_ne (start : Environment) {changes : List Replacement} {name : String}
    (h : ∀ change ∈ changes, change.name ≠ name) :
    (replay start changes).get? name = start.get? name := by
  induction changes generalizing start with
  | nil => rfl
  | cons change changes ih =>
    obtain ⟨hchange, hchanges⟩ := List.forall_mem_cons.mp h
    exact (ih _ hchanges).trans (Environment.get?_assign_of_ne start hchange change.value)

/-- What changes make of a variable depends on this variable only. -/
lemma get?_replay_congr {start other : Environment} {name : String}
    (h : start.get? name = other.get? name) (changes : List Replacement) :
    (replay start changes).get? name = (replay other changes).get? name := by
  induction changes generalizing start other with
  | nil => exact h
  | cons change changes ih =>
    apply ih
    by_cases hname : change.name = name
    · subst hname
      rw [Environment.get?_assign_self, Environment.get?_assign_self]
    · rw [Environment.get?_assign_of_ne start hname, Environment.get?_assign_of_ne other hname, h]

/-- A change of another variable can be left out. -/
lemma get?_replay_of_name_ne (start : Environment) (earlier later : List Replacement)
    {change : Replacement} {name : String} (h : change.name ≠ name) :
    (replay start (earlier ++ change :: later)).get? name =
      (replay start (earlier ++ later)).get? name := by
  rw [replay_append, replay_append]
  exact get?_replay_congr (Environment.get?_assign_of_ne _ h change.value) later

/-- The environment is what the changes with guards left make of the one at the start, and each
guard recalls what the changes before its own make of its variable. -/
structure Stacks (start : Environment) (history : History) : Prop where
  environment_eq : history.guarded.environment = replay start history.changes
  guards_eq : history.guarded.guards = history.changes.map Replacement.guard
  before_eq : ∀ earlier change later, history.changes = earlier ++ change :: later →
    change.before.get? change.name = (replay start earlier).get? change.name

namespace Stacks

variable {start : Environment} {history : History}

lemma ofStart (environment : Environment) : Stacks environment (.start environment) := by
  constructor
  case environment_eq => rfl
  case guards_eq => rfl
  case before_eq =>
    intro earlier change later hsplit
    simp [History.start] at hsplit

lemma change (h : Stacks start history) (name : String) (value : Option String) :
    Stacks start (history.change name value) := by
  constructor
  case environment_eq =>
    rw [History.change, replay_append, ← h.environment_eq]
    rfl
  case guards_eq =>
    rw [History.change, List.map_append, ← h.guards_eq]
    rfl
  case before_eq =>
    intro earlier change later hsplit
    rcases List.eq_nil_or_concat later with rfl | ⟨later, last, rfl⟩
    · obtain ⟨rfl, hlast⟩ := List.append_inj' hsplit rfl
      cases hlast
      rw [h.environment_eq]
    · rw [List.concat_eq_append, ← List.cons_append, ← List.append_assoc] at hsplit
      exact h.before_eq earlier change later (List.append_inj' hsplit rfl).1

lemma changeAll (h : Stacks start history) (pairs : List (String × String)) :
    Stacks start (history.changeAll pairs) := by
  induction pairs generalizing history with
  | nil => exact h
  | cons pair pairs ih => exact ih (h.change pair.1 (some pair.2))

/-- A drop puts back what the change found, and the change is left out. -/
lemma drop_eq (h : Stacks start history) {earlier later : List Replacement}
    {change : Replacement} (hsplit : history.changes = earlier ++ change :: later) :
    history.drop earlier.length =
      ⟨⟨history.guarded.environment.assign change.name (change.before.get? change.name),
        (earlier ++ later).map Replacement.guard⟩, earlier ++ later⟩ := by
  have hguarded : history.guarded.drop earlier.length =
      ⟨history.guarded.environment.assign change.name (change.before.get? change.name),
        (earlier ++ later).map Replacement.guard⟩ := by
    have hguards : history.guarded = ⟨history.guarded.environment,
        earlier.map Replacement.guard ++ change.guard :: later.map Replacement.guard⟩ := by
      rw [← List.map_cons, ← List.map_append, ← hsplit, ← h.guards_eq]
    have hdrop := drop_append history.guarded.environment (earlier.map Replacement.guard)
      (later.map Replacement.guard) change.guard
    rw [← hguards, List.length_map, ← List.map_append] at hdrop
    exact hdrop
  have hchanges : history.changes.eraseIdx earlier.length = earlier ++ later := by
    simp [hsplit, List.eraseIdx_append_of_length_le]
  rw [History.drop, hguarded, hchanges]

/-- What other guards recall still stands when the newest guard of a variable is dropped: they were
created before it, or are those of other variables. -/
lemma before_eq_of_drop (h : Stacks start history) {earlier later first rest : List Replacement}
    {change other : Replacement} (hsplit : history.changes = earlier ++ change :: later)
    (hnewest : ∀ other ∈ later, other.name ≠ change.name)
    (hrest : earlier ++ later = first ++ other :: rest) :
    other.before.get? other.name = (replay start first).get? other.name := by
  -- for a change that came later, the one that goes is of another variable and can be left out
  have hlater (middle : List Replacement) (hsplit' : later = middle ++ other :: rest)
      (hfirst : first = earlier ++ middle) :
      other.before.get? other.name = (replay start first).get? other.name := by
    subst hsplit' hfirst
    have hne : change.name ≠ other.name := (hnewest other (by simp)).symm
    rw [← get?_replay_of_name_ne start earlier middle hne]
    exact h.before_eq _ other rest (by simp [hsplit])
  rcases List.append_eq_append_iff.mp hrest with
    ⟨middle, hfirst, hsplit'⟩ | ⟨middle, hfirst, hsplit'⟩
  · exact hlater middle hsplit' hfirst
  · cases middle with
    | nil => exact hlater [] hsplit'.symm (by simpa using hfirst.symm)
    | cons head middle =>
      obtain ⟨rfl, rfl⟩ := List.cons.inj hsplit'
      exact h.before_eq first other (middle ++ change :: later) (by simp [hsplit, hfirst])

/-- The variable that loses its newest guard gets back what the changes before make of it. -/
lemma drop (h : Stacks start history) {earlier later : List Replacement} {change : Replacement}
    (hsplit : history.changes = earlier ++ change :: later)
    (hnewest : ∀ other ∈ later, other.name ≠ change.name) :
    Stacks start (history.drop earlier.length) := by
  rw [h.drop_eq hsplit]
  constructor
  case environment_eq =>
    apply SortedMap.ext_get?
    intro name
    by_cases hname : change.name = name
    · subst hname
      rw [Environment.get?_assign_self, h.before_eq earlier change later hsplit, replay_append,
        get?_replay_of_ne _ hnewest]
    · rw [Environment.get?_assign_of_ne _ hname, h.environment_eq, hsplit,
        get?_replay_of_name_ne start earlier later hname]
  case guards_eq => rfl
  case before_eq =>
    intro first other rest hrest
    exact h.before_eq_of_drop hsplit hnewest hrest

/-- The newest guard of a variable is that of the last change of it. -/
lemma exists_of_isNewest (h : Stacks start history) {index : Nat}
    (hnewest : IsNewest history.guarded.guards index) :
    ∃ earlier change later, history.changes = earlier ++ change :: later ∧
      earlier.length = index ∧ ∀ other ∈ later, other.name ≠ change.name := by
  obtain ⟨guard, hguard, hnone⟩ := hnewest
  rw [h.guards_eq, Option.mem_def, List.getElem?_map, Option.map_eq_some_iff] at hguard
  obtain ⟨change, hchange, rfl⟩ := hguard
  obtain ⟨hindex, rfl⟩ := List.getElem?_eq_some_iff.mp hchange
  refine ⟨history.changes.take index, history.changes[index], history.changes.drop (index + 1),
    ?_, List.length_take_of_le (Nat.le_of_lt hindex), ?_⟩
  · rw [List.getElem_cons_drop, List.take_append_drop]
  · intro other hother
    apply hnone other.guard
    rw [h.guards_eq, ← List.map_drop]
    exact List.mem_map_of_mem hother

lemma step (h : Stacks start history) {action : Action}
    (hadmits : Admits history.guarded.guards action) : Stacks start (history.step action) := by
  cases action with
  | change name value => exact h.change name value
  | changeAll pairs => exact h.changeAll pairs
  | drop index =>
    obtain ⟨earlier, change, later, hsplit, rfl, hnone⟩ := h.exists_of_isNewest hadmits
    exact h.drop hsplit hnone

lemma run (h : Stacks start history) {actions : List Action}
    (hnests : history.guarded.Nests actions) : Stacks start (history.run actions) := by
  induction actions generalizing history with
  | nil => exact h
  | cons action actions ih =>
    obtain ⟨hadmits, hrest⟩ := hnests
    rw [← History.guarded_step] at hrest
    exact ih (h.step hadmits) hrest

/-- Dropping the guards that are left, the newest first, leads back to the start. -/
lemma dropAll_eq (h : Stacks start history) : history.guarded.dropAll = start := by
  -- the induction is on the changes, whose last one is always the newest of its variable
  obtain ⟨changes, hchanges⟩ : ∃ changes, history.changes = changes := ⟨_, rfl⟩
  induction changes using List.reverseRecOn generalizing history with
  | nil =>
    have hguards := h.guards_eq
    rw [hchanges, List.map_nil] at hguards
    rw [GuardedEnvironment.dropAll, hguards, h.environment_eq, hchanges]
    rfl
  | append_singleton changes change ih =>
    have hdropped := h.drop hchanges (by simp)
    have hrest := ih hdropped (by rw [h.drop_eq hchanges, List.append_nil])
    rw [h.drop_eq hchanges, List.append_nil] at hrest
    rw [← hrest, GuardedEnvironment.dropAll, GuardedEnvironment.dropAll, h.guards_eq, hchanges,
      List.map_append, List.reverse_append]
    rfl

end Stacks

/-! ### Restored environments -/

/-- Each drop gives a variable the value that it had just before the change of the guard, and leaves
the others. The environment is what the changes with guards left make of the one at the start, and
this is restored when all guards have been dropped, or if the others are dropped newest first. -/
structure IsExact (environment : Environment) (actions : List Action) : Prop where
  dropped : ∀ earlier index later, actions = earlier ++ .drop index :: later →
    ∃ change ∈ ((History.start environment).run earlier).changes[index]?,
      (run ⟨environment, []⟩ earlier).guards[index]? = some change.guard ∧
      (run ⟨environment, []⟩ (earlier ++ [.drop index])).environment.get? change.name =
        change.before.get? change.name ∧
      ∀ name, name ≠ change.name →
        (run ⟨environment, []⟩ (earlier ++ [.drop index])).environment.get? name =
          (run ⟨environment, []⟩ earlier).environment.get? name
  replayed : (run ⟨environment, []⟩ actions).environment =
    replay environment ((History.start environment).run actions).changes
  restored : (run ⟨environment, []⟩ actions).guards = [] →
    (run ⟨environment, []⟩ actions).environment = environment
  dropAll_eq : (run ⟨environment, []⟩ actions).dropAll = environment

lemma guarded_run_start (environment : Environment) (actions : List Action) :
    ((History.start environment).run actions).guarded = run ⟨environment, []⟩ actions :=
  (History.start environment).guarded_run actions

lemma run_concat (guarded : GuardedEnvironment) (actions : List Action) (action : Action) :
    guarded.run (actions ++ [action]) = (guarded.run actions).step action := List.foldl_append

/-- Guards that nest restore exactly. -/
theorem isExact_of_nests {environment : Environment} {actions : List Action}
    (h : Nests ⟨environment, []⟩ actions) : IsExact environment actions := by
  have hstacks := (Stacks.ofStart environment).run h
  have hdropAll := hstacks.dropAll_eq
  rw [guarded_run_start] at hdropAll
  constructor
  case dropped =>
    rintro earlier index later rfl
    obtain ⟨hearlier, hnewest, _⟩ := nests_append.mp h
    have hstacks' := (Stacks.ofStart environment).run hearlier
    rw [← guarded_run_start] at hnewest
    obtain ⟨before, change, after, hsplit, rfl, _⟩ := hstacks'.exists_of_isNewest hnewest
    have hdrop : (run ⟨environment, []⟩ (earlier ++ [.drop before.length])).environment =
        (run ⟨environment, []⟩ earlier).environment.assign change.name
          (change.before.get? change.name) := by
      rw [run_concat, ← guarded_run_start, ← History.guarded_step, History.step,
        hstacks'.drop_eq hsplit]
    refine ⟨change, by simp [hsplit], ?_, ?_, ?_⟩
    · rw [← guarded_run_start, hstacks'.guards_eq, hsplit]
      simp
    · rw [hdrop, Environment.get?_assign_self]
    · intro name hname
      rw [hdrop, Environment.get?_assign_of_ne _ hname.symm]
  case replayed =>
    rw [← guarded_run_start]
    exact hstacks.environment_eq
  case restored =>
    intro hguards
    rw [dropAll, hguards] at hdropAll
    exact hdropAll
  case dropAll_eq => exact hdropAll

/-- Guards of two variables; those of `LEVEL` nest, and that of `MODE` is dropped in between. -/
def sampleActions : List Action :=
  [.change "LEVEL" (some ""), .change "MODE" none, .changeAll [("LEVEL", "1"), ("LEVEL", "2")],
    .drop 3, .drop 1, .drop 1, .drop 0]

theorem isExact_sampleActions :
    Nests ⟨.set ∅ "MODE" "fast", []⟩ sampleActions ∧
    IsExact (.set ∅ "MODE" "fast") sampleActions ∧
    (run ⟨.set ∅ "MODE" "fast", []⟩ sampleActions).environment = .set ∅ "MODE" "fast" := by
  have hnests : Nests ⟨.set ∅ "MODE" "fast", []⟩ sampleActions := by decide
  have hexact := isExact_of_nests hnests
  exact ⟨hnests, hexact, hexact.restored rfl⟩

end GuardedEnvironment

end DeclaredOptions
