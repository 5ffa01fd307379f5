import DeclaredOptions.Environment
import DeclaredOptions.Text.Shown

/-!
# Guarded changes of an environment

Every change of a variable leaves a guard that remembers what the variable was before. Dropping the
guard puts that back. Guards of one variable nest: dropped in reverse order of their creation, each
of them restores exactly what its change replaced.
-/

namespace DeclaredOptions

namespace Environment

/-- Gives a variable a value, or none. -/
def assign (environment : Environment) (name : String) : Option String → Environment
  | some value => environment.set name value
  | none => environment.erase name

end Environment

/-- What a variable was before a change. -/
structure Guard where
  name : String
  previous : Option String
  deriving DecidableEq, Repr

namespace Guard

/-- A one-line description. -/
def describe (guard : Guard) : String :=
  "EnvVarGuard \x7b key: " ++ Text.shown guard.name ++ ", was_set: " ++
    (if guard.previous.isSome then "true" else "false") ++ " \x7d"

end Guard

/-- An environment with the guards of the changes made to it, oldest first. -/
structure GuardedEnvironment where
  environment : Environment
  guards : List Guard
  deriving DecidableEq

namespace GuardedEnvironment

/-- Gives a variable a value, or none, and guards the change. -/
def change (guarded : GuardedEnvironment) (name : String) (value : Option String) :
    GuardedEnvironment where
  environment := guarded.environment.assign name value
  guards := guarded.guards ++ [⟨name, guarded.environment.get? name⟩]

/-- Gives values to variables one after the other, with a guard for each. -/
def changeAll (guarded : GuardedEnvironment) (pairs : List (String × String)) :
    GuardedEnvironment :=
  pairs.foldl (fun guarded pair => guarded.change pair.1 (some pair.2)) guarded

/-- Restores what a guard remembers. -/
def restore (environment : Environment) (guard : Guard) : Environment :=
  environment.assign guard.name guard.previous

/-- Drops the guard at an index, if there is one. -/
def drop (guarded : GuardedEnvironment) (index : Nat) : GuardedEnvironment :=
  match guarded.guards[index]? with
  | some guard => ⟨restore guarded.environment guard, guarded.guards.eraseIdx index⟩
  | none => guarded

/-- The environment after all guards have been dropped, the newest first. -/
def dropAll (guarded : GuardedEnvironment) : Environment :=
  guarded.guards.reverse.foldl restore guarded.environment

end GuardedEnvironment

end DeclaredOptions
