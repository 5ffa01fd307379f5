import DeclaredOptions.CommandLine
import DeclaredOptions.Proofs.Steps
import Mathlib.Tactic.Common

/-!
# Occurrences that count

While a command line is read, each occurrence is checked against the log of those before it. Which
of them count, and whether one of them is refused, depends on the list of all occurrences alone
(`acceptAll_eq_ok_iff`). A long option is left out of the log after a short one of its single-valued
key, so the log tells of short options all that the list does.
-/

namespace DeclaredOptions.OptionLog

open Steps

variable {before log : OptionLog} {option : OptionSpec} {occurrence : Occurrence} {value : String}

lemma gives_iff {name : OptionName} :
    log.Gives name ↔ log.filter (·.option.name = name) ≠ [] := by
  simp [Gives]

/-! ### Options that come too late -/

/-- Whether an option counts for nothing after `log`. -/
def Ignores (log : OptionLog) (option : OptionSpec) : Prop :=
  !option.name.isShort ∧ log.ShortSupplied option

instance : Decidable (log.Ignores option) := inferInstanceAs (Decidable (_ ∧ _))

lemma ShortSupplied.mono {log' : OptionLog} (h : log.ShortSupplied option) (hsub : log ⊆ log') :
    log'.ShortSupplied option := by
  obtain ⟨hkind, howner, occurrence, hmem, hshort⟩ := h
  exact ⟨hkind, howner, occurrence, hsub hmem, hshort⟩

/-- The occurrences that count, each after those before it and all of `before`. -/
def counted (before : OptionLog) : List Occurrence → OptionLog
  | [] => []
  | occurrence :: rest =>
    if before.Ignores occurrence.option then counted (before ++ [occurrence]) rest
    else occurrence :: counted (before ++ [occurrence]) rest

@[simp] lemma counted_nil : counted before [] = [] := rfl

lemma counted_append (first second : List Occurrence) : counted before (first ++ second) =
    counted before first ++ counted (before ++ first) second := by
  induction first generalizing before with
  | nil => simp
  | cons occurrence first ih =>
    by_cases hignores : before.Ignores occurrence.option <;> simp [counted, hignores, ih]

lemma counted_concat (seen : List Occurrence) : counted [] (seen ++ [occurrence]) =
    if Ignores seen occurrence.option then counted [] seen
    else counted [] seen ++ [occurrence] := by
  rw [counted_append]
  by_cases hignores : Ignores seen occurrence.option <;> simp [counted, hignores]

/-- The first occurrence always counts. -/
@[simp] lemma counted_singleton : counted [] [occurrence] = [occurrence] := by
  simp [counted, Ignores, ShortSupplied]

/-- What may be ignored is long, so short options count wherever they stand. -/
lemma mem_counted_iff_of_isShort (hshort : occurrence.option.name.isShort)
    {occurrences : List Occurrence} : occurrence ∈ counted before occurrences ↔
      occurrence ∈ occurrences := by
  induction occurrences generalizing before with
  | nil => simp
  | cons other occurrences ih =>
    by_cases hignores : before.Ignores other.option
    · have hne : occurrence ≠ other := by
        rintro rfl
        simpa [hshort] using hignores.1
      simp [counted, hignores, ih, hne]
    · simp [counted, hignores, ih]

@[simp] lemma shortSupplied_counted_iff {seen : List Occurrence} :
    (counted [] seen).ShortSupplied option ↔ ShortSupplied seen option := by
  refine and_congr_right fun _ => and_congr_right fun _ => exists_congr fun occurrence => ?_
  apply and_congr_left
  rintro ⟨hshort, _⟩
  exact mem_counted_iff_of_isShort hshort

@[simp] lemma counted_ignores_iff {seen : List Occurrence} :
    (counted [] seen).Ignores option ↔ Ignores seen option := by
  simp [Ignores]

lemma not_ignores_of_isShort (hshort : option.name.isShort) : ¬log.Ignores option := by
  simp [Ignores, hshort]

lemma not_ignores_of_help (howner : option.owner = .help) : ¬log.Ignores option := by
  simp [Ignores, ShortSupplied, howner]

/-- Where a name is never ignored, all its occurrences count. -/
lemma filter_counted {occurrences : List Occurrence} {name : OptionName}
    (h : ∀ occurrence ∈ occurrences, occurrence.option.name = name →
      ¬Ignores (before ++ occurrences) occurrence.option) :
    (counted before occurrences).filter (·.option.name = name) =
      occurrences.filter (·.option.name = name) := by
  induction occurrences generalizing before with
  | nil => simp
  | cons occurrence occurrences ih =>
    have hrest : (counted (before ++ [occurrence]) occurrences).filter (·.option.name = name) =
        occurrences.filter (·.option.name = name) := by
      apply ih
      intro other hother hname
      simpa using h other (List.mem_cons_of_mem _ hother) hname
    by_cases hname : occurrence.option.name = name
    · -- what is ignored here would be ignored after all the others as well
      have hcounts : ¬before.Ignores occurrence.option := by
        rintro ⟨hlong, hsupplied⟩
        exact h occurrence List.mem_cons_self hname
          ⟨hlong, hsupplied.mono (List.subset_append_left _ _)⟩
      simp [counted, hcounts, hname, hrest]
    · by_cases hignores : before.Ignores occurrence.option <;>
        simp [counted, hignores, hname, hrest]

/-! ### Accepting occurrences -/

/-- No option of a single-valued key stands here twice. -/
def NoneTwice (log : OptionLog) : Prop :=
  log.Pairwise fun earlier later =>
    later.option.kind = .single → earlier.option.name ≠ later.option.name

instance (log : OptionLog) : Decidable log.NoneTwice :=
  inferInstanceAs (Decidable (List.Pairwise _ _))

@[simp] lemma noneTwice_singleton : NoneTwice [occurrence] := List.pairwise_singleton _ _

lemma checkRepeat_eq_ok_iff : log.checkRepeat option = .ok () ↔
    (option.kind = .single → ∀ occurrence ∈ log, occurrence.option.name ≠ option.name) := by
  unfold checkRepeat Gives
  split <;> simp_all

lemma accept_of_ignores (h : log.Ignores option) : log.accept option value = .ok log := if_pos h

lemma accept_of_not_ignores (h : ¬log.Ignores option) :
    log.accept option value = log.checkRepeat option >>= fun _ => .ok (log.add option value) :=
  if_neg h

lemma accept_eq_ok_iff {next : OptionLog} (h : ¬log.Ignores option) :
    log.accept option value = .ok next ↔
      log.checkRepeat option = .ok () ∧ next = log ++ [⟨option, value⟩] := by
  rw [accept_of_not_ignores h, bind_eq_ok_iff]
  constructor
  · rintro ⟨⟨⟩, hcheck, hnext⟩
    cases hnext
    exact ⟨hcheck, rfl⟩
  · rintro ⟨hcheck, rfl⟩
    exact ⟨(), hcheck, rfl⟩

lemma accept_of_isShort (hshort : option.name.isShort) : log.accept option value =
    log.checkRepeat option >>= fun _ => .ok (log.add option value) :=
  accept_of_not_ignores (not_ignores_of_isShort hshort)

/-- The check of a short option before its argument is read is the check that accepts it. -/
lemma checkRepeat_accept (hshort : option.name.isShort) :
    (log.checkRepeat option >>= fun _ => log.accept option value) = log.accept option value := by
  rw [accept_of_isShort hshort]
  cases log.checkRepeat option <;> rfl

/-- Accepts occurrences one after the other. -/
def acceptAll (log : OptionLog) (occurrences : List Occurrence) : Except Failure OptionLog :=
  occurrences.foldlM (fun log occurrence => log.accept occurrence.option occurrence.value) log

@[simp] lemma acceptAll_nil : log.acceptAll [] = .ok log := rfl

@[simp] lemma acceptAll_cons {occurrences : List Occurrence} :
    log.acceptAll (occurrence :: occurrences) =
      log.accept occurrence.option occurrence.value >>= (acceptAll · occurrences) :=
  List.foldlM_cons

@[simp] lemma acceptAll_singleton :
    log.acceptAll [occurrence] = log.accept occurrence.option occurrence.value :=
  bind_pure _

lemma acceptAll_append {first second : List Occurrence} :
    log.acceptAll (first ++ second) = log.acceptAll first >>= (acceptAll · second) :=
  List.foldlM_append

/-- Occurrences are accepted just if of those that count none stands twice, and those that count
make the log. -/
lemma acceptAll_eq_ok_iff {occurrences : List Occurrence} : acceptAll [] occurrences = .ok log ↔
    NoneTwice (counted [] occurrences) ∧ log = counted [] occurrences := by
  -- after some occurrences the log holds those of them that count
  refine foldlM_eq_ok_iff (counted []) (fun seen => NoneTwice (counted [] seen)) ?_ ?_ [] .nil
  · intro seen more h
    rw [counted_append] at h
    exact h.sublist (List.sublist_append_left _ _)
  · intro seen occurrence next hseen
    rw [counted_concat]
    by_cases hignores : Ignores seen occurrence.option
    · rw [accept_of_ignores (by simpa using hignores)]
      simp [hignores, hseen, eq_comm]
    · have hnew : NoneTwice (counted [] seen ++ [occurrence]) ↔
          (counted [] seen).checkRepeat occurrence.option = .ok () := by
        rw [NoneTwice, List.pairwise_append, checkRepeat_eq_ok_iff]
        constructor
        · rintro ⟨_, _, hall⟩ hkind other hother
          exact hall other hother occurrence (List.mem_singleton_self _) hkind
        · intro hcheck
          refine ⟨hseen, List.pairwise_singleton _ _, ?_⟩
          intro other hother later hlater hkind
          rw [List.mem_singleton] at hlater
          subst hlater
          exact hcheck hkind other hother
      rw [accept_eq_ok_iff (by simpa using hignores), if_neg hignores, hnew]

end DeclaredOptions.OptionLog
