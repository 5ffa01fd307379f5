import DeclaredOptions.Proofs.Effects
import Mathlib.Tactic.Common

/-!
# Calls that ask for help

Calls that follow each other on one error key leave help texts there just if one of them asked for
help (`Session.isSome_usage_iff`). The caller's own usage line replaces the generated one and stays
as it is. So it makes a help text also where nothing was asked for, and only without it a help text
tells that help was requested (`Session.tellsOfRequests_iff`).
-/

namespace DeclaredOptions.Session

/-- A call on some key set. Without settings of its own it has those that the error key asks for. -/
structure Call where
  keys : KeySet
  argv : List String
  envp : List String
  settings : Option Settings

variable {key : Key} {call : Call} {calls : List Call}

/-- The result of a call on an error key, and the error key after it. -/
def Call.answer (call : Call) (key : Key) : Except Failure Outcome × Key :=
  let session : Session := ⟨call.keys, key⟩
  let ended := match call.settings with
    | none => session.resolve call.argv call.envp
    | some settings => session.resolveWith call.argv call.envp settings
  (ended.1, ended.2.errorKey)

/-- The results of calls that follow each other on an error key, and the error key in the end. -/
def answers (key : Key) : List Call → List (Except Failure Outcome) × Key
  | [] => ([], key)
  | call :: calls =>
    let rest := answers (call.answer key).2 calls
    ((call.answer key).1 :: rest.1, rest.2)

/-! ### One call -/

lemma Call.answer_eq (call : Call) (key : Key) : ∃ settings, call.answer key =
    ((resolveWith ⟨call.keys, key⟩ call.argv call.envp settings).1,
      (resolveWith ⟨call.keys, key⟩ call.argv call.envp settings).2.errorKey) := by
  cases hsettings : call.settings with
  | none => exact ⟨.ofKey key, by simp only [answer, hsettings, resolve]⟩
  | some settings => exact ⟨settings, by simp only [answer, hsettings]⟩

/-- What one call does to the two usage lines of an error key. -/
structure Call.Marks (key : Key) (answer : Except Failure Outcome × Key) : Prop where
  own : answer.2.metadata.get? Help.ownUsageEntry = key.metadata.get? Help.ownUsageEntry
  usage : (answer.2.metadata.get? Help.usageEntry).isSome ↔
    (key.metadata.get? Help.usageEntry).isSome ∨ answer.1 = .ok .helpRequested

/-- The usage line is written just by a call that asks for help, and never the caller's own. -/
lemma Call.marks_answer (call : Call) (key : Key) : Call.Marks key (call.answer key) := by
  obtain ⟨settings, heq⟩ := call.answer_eq key
  rw [heq]
  have hends := ends_resolveWith ⟨call.keys, key⟩ call.argv call.envp settings
  generalize resolveWith ⟨call.keys, key⟩ call.argv call.envp settings = ended at hends ⊢
  obtain ⟨result, after⟩ := ended
  have hfailed (failure : Failure) : Call.Marks key (.error failure, failure.attach key) := by
    have hagrees := (failed_attach ⟨call.keys, key⟩ failure).errorKey
    constructor
    · exact hagrees.metadata _ (by decide)
    · simp [hagrees.metadata Help.usageEntry (by decide)]
  cases hends with
  | unread _ => exact hfailed _
  | refused _ _ _ => exact hfailed _
  | resolved _ _ _ => exact ⟨rfl, by simp⟩
  | help hread _ =>
    have hhelped := helped_attach call.argv (read_eq_ok_iff.mp hread).1
    obtain ⟨_, _, husage, _⟩ := hhelped.texts
    constructor
    · exact hhelped.errorKey.metadata _ (by decide)
    · exact iff_of_true (congrArg Option.isSome husage) (Or.inr rfl)

/-! ### Calls that follow each other -/

lemma get?_ownUsage_answers (key : Key) (calls : List Call) :
    (answers key calls).2.metadata.get? Help.ownUsageEntry =
      key.metadata.get? Help.ownUsageEntry := by
  induction calls generalizing key with
  | nil => rfl
  | cons call calls ih => rw [answers, ih, (call.marks_answer key).own]

lemma isSome_usage_iff (key : Key) (calls : List Call) :
    ((answers key calls).2.metadata.get? Help.usageEntry).isSome ↔
      (key.metadata.get? Help.usageEntry).isSome ∨ .ok .helpRequested ∈ (answers key calls).1 := by
  induction calls generalizing key with
  | nil => simp [answers]
  | cons call calls ih =>
    rw [answers, ih, (call.marks_answer key).usage, List.mem_cons, or_assoc,
      eq_comm (a := (call.answer key).1)]

/-- Calls leave a help text just if the caller has a usage line of its own or one of them asked for
help. -/
lemma isSome_message_iff (hfresh : key.metadata.get? Help.usageEntry = none)
    (calls : List Call) : (Help.message? (answers key calls).2).isSome ↔
      (key.metadata.get? Help.ownUsageEntry).isSome ∨
        .ok .helpRequested ∈ (answers key calls).1 := by
  have husage := isSome_usage_iff key calls
  rw [hfresh] at husage
  rw [Help.message?, Option.isSome_map, Option.isSome_or, get?_ownUsage_answers, Bool.or_eq_true,
    husage]
  simp

/-- A help text after some calls tells that one of them asked for help. -/
def TellsOfRequests (key : Key) : Prop :=
  ∀ calls, calls ≠ [] → (Help.message? (answers key calls).2).isSome →
    .ok .helpRequested ∈ (answers key calls).1

/-- A call that asks for nothing. -/
def idleCall : Call where
  keys := ∅
  argv := ["prog"]
  envp := []
  settings := none

lemma answers_idleCall (key : Key) : (answers key [idleCall]).1 = [.ok .resolved] := rfl

/-- On an error key without generated help texts, calls leave a help text just if the caller has a
usage line of its own or one of them asked for help. So help texts tell of requests just where the
caller has no usage line. -/
theorem tellsOfRequests_iff (hfresh : key.metadata.get? Help.usageEntry = none) :
    (∀ calls, (Help.message? (answers key calls).2).isSome ↔
      (key.metadata.get? Help.ownUsageEntry).isSome ∨
        .ok .helpRequested ∈ (answers key calls).1) ∧
    (TellsOfRequests key ↔ key.metadata.get? Help.ownUsageEntry = none) := by
  refine ⟨isSome_message_iff hfresh, ?_, ?_⟩
  · intro htells
    by_contra hown
    have hsome := (isSome_message_iff hfresh [idleCall]).mpr
      (Or.inl (Option.isSome_iff_ne_none.mpr hown))
    have hrequested := htells [idleCall] (by simp) hsome
    rw [answers_idleCall] at hrequested
    simp at hrequested
  · intro hown calls _ hsome
    have hcases := (isSome_message_iff hfresh calls).mp hsome
    rw [hown] at hcases
    simpa using hcases

/-- An error key on which calls leave help texts in any case. -/
def ownUsageKey : Key where
  name := ⟨.cascading, ["sw", "app"], by decide⟩
  metadata := .ofList Prod.fst [(Help.ownUsageEntry, "Usage: custom\n")]

/-- An error key that asks for posix mode. -/
def plainKey : Key where
  name := ⟨.cascading, ["sw", "app"], by decide⟩
  metadata := .ofList Prod.fst [("posixly", "1"), (Help.introductionEntry, "Does things.\n")]

/-- A call that asks for help. -/
def helpCall : Call := { idleCall with argv := ["prog", "--help"] }

theorem tellsOfRequests_plainKey : plainKey.metadata.get? Help.usageEntry = none ∧
    TellsOfRequests plainKey ∧
    (Help.message? (answers plainKey [idleCall]).2).isSome = false ∧
    (Help.message? (answers plainKey [idleCall, helpCall, idleCall]).2).isSome := by
  have hfresh : plainKey.metadata.get? Help.usageEntry = none := by decide
  obtain ⟨hiff, htells⟩ := tellsOfRequests_iff hfresh
  refine ⟨hfresh, htells.mpr (by decide), rfl, ?_⟩
  rw [hiff]
  exact Or.inr (List.mem_of_getElem? (i := 1) rfl)

/-- A call that asks for nothing leaves a help text. -/
theorem not_tellsOfRequests_ownUsageKey :
    ownUsageKey.metadata.get? Help.usageEntry = none ∧
    ownUsageKey.metadata.get? Help.optionsEntry = none ∧
    (answers ownUsageKey [idleCall]).1 = [.ok .resolved] ∧
    Help.message? (answers ownUsageKey [idleCall]).2 = some "Usage: custom\n" ∧
    ¬TellsOfRequests ownUsageKey := by
  have hmessage : Help.message? (answers ownUsageKey [idleCall]).2 = some "Usage: custom\n" := rfl
  refine ⟨by decide, by decide, rfl, hmessage, fun htells => ?_⟩
  have hrequested := htells [idleCall] (by simp) (by rw [hmessage]; rfl)
  rw [answers_idleCall] at hrequested
  simp at hrequested

end DeclaredOptions.Session
