import DeclaredOptions.Proofs.Effects
import DeclaredOptions.Proofs.Offers
import DeclaredOptions.Proofs.Tables
import DeclaredOptions.Proofs.Variables
import Mathlib.Tactic.Common

/-!
# What a call depends on

Of a key set a call reads the `spec` keys, and of `proc` keys the names and values. Of entries of an
environment it reads what the declared variables are given last. Sessions that agree in this much
(`Session.Alike`) answer alike, and they still agree afterwards (`alike_resolveWith`): they read the
same and their bindings find the same, so they stage the same keys or fail for the same reason.
-/

namespace DeclaredOptions

open Std Steps Staging

/-! ### Names and values of a namespace -/

namespace KeySet

/-- The names and values of the keys of one namespace, in order. -/
def contents (keys : KeySet) (space : Namespace) : List (KeyName × String) :=
  (keys.inSpace space).map fun key => (key.name, key.value)

variable {keys keys' : KeySet} {space : Namespace} {name : KeyName}

lemma mem_contents_iff {value : String} : (name, value) ∈ keys.contents space ↔
    (keys.find? name).map Key.value = some value ∧ name.space = space := by
  rw [contents, List.mem_map, Option.map_eq_some_iff]
  constructor
  · rintro ⟨key, hkey, hpair⟩
    obtain ⟨hfind, hspace⟩ := mem_inSpace.mp hkey
    cases hpair
    exact ⟨⟨key, hfind, rfl⟩, hspace⟩
  · rintro ⟨⟨key, hfind, rfl⟩, hspace⟩
    obtain rfl := SortedBy.key_of_find?_eq_some hfind
    exact ⟨key, mem_inSpace.mpr ⟨hfind, hspace⟩, rfl⟩

/-- The contents of a namespace are determined by the values that are looked up in it. -/
lemma contents_eq_iff : keys.contents space = keys'.contents space ↔
    ∀ name : KeyName, name.space = space →
      (keys.find? name).map Key.value = (keys'.find? name).map Key.value := by
  constructor
  · intro h name hspace
    ext value
    have hmem : (name, value) ∈ keys.contents space ↔ (name, value) ∈ keys'.contents space := by
      rw [h]
    rw [mem_contents_iff, mem_contents_iff] at hmem
    simpa [hspace] using hmem
  · intro h
    have hpairwise (keys : KeySet) : (keys.contents space).Pairwise fun a b =>
        compare (Prod.fst a) (Prod.fst b) = .lt :=
      List.pairwise_map.mpr (keys.pairwise_inSpace space)
    apply SortedBy.eq_of_mem_iff (hpairwise keys) (hpairwise keys')
    rintro ⟨name, value⟩
    rw [mem_contents_iff, mem_contents_iff]
    apply and_congr_left
    intro hspace
    rw [h name hspace]

end KeySet

/-! ### The same findings -/

/-- A binding finds the same if entries give its variables the same values. -/
lemma Inputs.resolve_ofEntries_congr {binding : Binding} {envp envp' : List String}
    (h : ∀ name ∈ binding.envVars, Environment.value? envp name = Environment.value? envp' name)
    (line : CommandLine) (separator : Char) :
    resolve ⟨line, Environment.ofEntries envp, separator⟩ binding =
      resolve ⟨line, Environment.ofEntries envp', separator⟩ binding := by
  apply resolve_congr
  · rfl
  · exact fun _ => rfl
  · apply List.map_congr_left
    intro name hname
    rw [ofVariable, ofVariable, Environment.get?_ofEntries, Environment.get?_ofEntries,
      h name hname]
  · rfl

namespace Staging

variable {store store' staged : KeySet} {inputs inputs' : Inputs} {bindings : List Binding}
  {binding : Binding} {value : Value}

lemma holds_iff {keys : KeySet} {name : KeyName} :
    Holds keys name ↔ ∃ value ∈ (keys.find? name).map Key.value, value ≠ "" := by
  simp [Holds]

lemma space_claimed (h : value.kind = binding.key.kind) :
    (claimed binding value).space = .proc := by
  cases value with
  | scalar text => rfl
  | array texts =>
    obtain ⟨parent, hparent⟩ := exists_parent h.symm
    rw [claimed, arrayName_eq hparent]
    exact space_of_parent hparent

/-- Of the store only matters which of the names that values claim are taken. -/
lemma resolveAll_congr
    (hinputs : ∀ binding ∈ bindings, inputs.resolve binding = inputs'.resolve binding)
    (hstore : ∀ binding ∈ bindings, ∀ value, inputs.finding? binding = some value →
      (Holds store (claimed binding value) ↔ Holds store' (claimed binding value))) :
    resolveAll store inputs staged bindings = resolveAll store' inputs' staged bindings := by
  induction bindings generalizing staged with
  | nil => rfl
  | cons binding bindings ih =>
    obtain ⟨hresolve, hinputs⟩ := List.forall_mem_cons.mp hinputs
    obtain ⟨hholds, hstore⟩ := List.forall_mem_cons.mp hstore
    rw [resolveAll, resolveAll, ← hresolve]
    cases hfound : inputs.resolve binding with
    | error failure => rfl
    | ok found =>
      cases found with
      | none => exact ih hinputs hstore
      | some resolution =>
        have hsame := hholds _ (Inputs.finding?_eq_some hfound)
        simp only [ok_bind, write_eq, ensureVacant, hsame]
        exact bind_congr fun _ => ih hinputs hstore

lemma written_congr (h : ∀ binding ∈ bindings, inputs.resolve binding = inputs'.resolve binding) :
    written inputs bindings = written inputs' bindings := by
  apply List.flatMap_congr
  intro binding hbinding
  rw [Inputs.finding?, Inputs.finding?, h binding hbinding]

end Staging

/-! ### Sessions that agree in what matters -/

namespace Session

/-- Sessions with the same `spec` keys, the same names and values of `proc` keys, and the same error
key. -/
structure Alike (first second : Session) : Prop where
  spec : first.keys.inSpace .spec = second.keys.inSpace .spec
  proc : first.keys.contents .proc = second.keys.contents .proc
  errorKey : first.errorKey = second.errorKey

variable {first second : Session} {argv envp envp' : List String} {settings : Settings}
  {spec : Specification} {inputs : Inputs}

/-- What is read from sessions that agree differs in the environment only. -/
lemma Alike.read (h : first.Alike second) (argv envp envp' : List String) (settings : Settings) :
    second.read argv envp' settings = (first.read argv envp settings).map fun (spec, inputs) =>
      (spec, { inputs with environment := Environment.ofEntries envp' }) := by
  have hcompile : Specification.compile second.keys = Specification.compile first.keys := by
    rw [Specification.compile, Specification.compile, h.spec]
  rw [Session.read, Session.read, hcompile]
  cases Specification.compile first.keys with
  | error failure => rfl
  | ok spec =>
    simp only [ok_bind]
    cases CommandLine.parse spec.options settings.posixly argv <;> rfl

/-- Filing `proc` keys leaves the other namespaces. -/
lemma inSpace_insertAll {keys : KeySet} {items : List Key} {space : Namespace}
    (hitems : ∀ key ∈ items, key.name.space = .proc) (hspace : space ≠ .proc) :
    KeySet.inSpace (keys.insertAll items) space = keys.inSpace space := by
  apply KeySet.inSpace_congr
  rintro name rfl
  have hnone : ∀ key ∈ items, key.name ≠ name := by
    rintro key hkey rfl
    exact hspace (hitems key hkey)
  rw [SortedBy.find?_insertAll, SortedBy.latest?_eq_none_iff.mpr hnone, Option.none_or]

/-- Sessions go on agreeing when the same `proc` keys are filed. -/
lemma Alike.insertAll (h : first.Alike second) {items : List Key}
    (hitems : ∀ key ∈ items, key.name.space = .proc) :
    Alike { first with keys := first.keys.insertAll items }
      { second with keys := second.keys.insertAll items } := by
  constructor
  · show KeySet.inSpace (first.keys.insertAll items) .spec =
      KeySet.inSpace (second.keys.insertAll items) .spec
    rw [inSpace_insertAll hitems (by decide), inSpace_insertAll hitems (by decide), h.spec]
  · apply KeySet.contents_eq_iff.mpr
    intro name hspace
    show ((first.keys.insertAll items).find? name).map Key.value =
      ((second.keys.insertAll items).find? name).map Key.value
    rw [SortedBy.find?_insertAll, SortedBy.find?_insertAll]
    cases SortedBy.latest? Key.name name items with
    | none => exact KeySet.contents_eq_iff.mp h.proc name hspace
    | some key => rfl
  · exact h.errorKey

lemma space_of_mem_written (hread : first.read argv envp settings = .ok (spec, inputs)) :
    ∀ key ∈ written inputs spec.bindings, key.name.space = .proc := by
  intro key hkey
  obtain ⟨binding, hbinding, value, hfound, hkey⟩ := mem_written_iff.mp hkey
  have hkind := (orderly_of_read hread).kind binding hbinding value hfound
  exact ((receives_iff hkind).mpr ⟨key, hkey, rfl⟩).space_eq

/-- Sessions that agree stage the same, or fail for the same reason. -/
lemma Alike.resolveAll (h : first.Alike second)
    (hread : first.read argv envp settings = .ok (spec, inputs)) {inputs' : Inputs}
    (hsame : ∀ binding ∈ spec.bindings, inputs.resolve binding = inputs'.resolve binding) :
    resolveAll first.keys inputs ∅ spec.bindings =
      resolveAll second.keys inputs' ∅ spec.bindings := by
  apply resolveAll_congr hsame
  intro binding hbinding value hfound
  have hspace := space_claimed ((orderly_of_read hread).kind binding hbinding value hfound)
  rw [holds_iff, holds_iff, KeySet.contents_eq_iff.mp h.proc _ hspace]

/-- Sessions go on agreeing when what they staged is committed. -/
lemma Alike.commit (h : first.Alike second)
    (hread : first.read argv envp settings = .ok (spec, inputs)) {inputs' : Inputs}
    (hsame : ∀ binding ∈ spec.bindings, inputs.resolve binding = inputs'.resolve binding)
    {staged : KeySet} (hrun : Run first.keys inputs ∅ spec.bindings staged)
    (hrun' : Run second.keys inputs' ∅ spec.bindings staged) :
    Alike { first with keys := first.keys.insertAll staged.toList }
      { second with keys := second.keys.insertAll staged.toList } := by
  rw [hrun.commit_eq, hrun'.commit_eq, ← written_congr hsame]
  exact h.insertAll (space_of_mem_written hread)

/-- Nothing irrelevant influences a call. Sessions that agree in what matters, with environments
that give the declared variables the same values, answer alike and agree afterwards. -/
theorem alike_resolveWith (h : first.Alike second)
    (henvp : ∀ spec, Specification.compile first.keys = .ok spec → ∀ name ∈ spec.envVars,
      Environment.value? envp name = Environment.value? envp' name)
    (argv : List String) (settings : Settings) :
    (first.resolveWith argv envp settings).1 = (second.resolveWith argv envp' settings).1 ∧
      (first.resolveWith argv envp settings).2.Alike
        (second.resolveWith argv envp' settings).2 := by
  rw [resolveWith_eq, resolveWith_eq second, h.read argv envp]
  cases hread : first.read argv envp settings with
  | error failure => exact ⟨rfl, h.spec, h.proc, congrArg failure.attach h.errorKey⟩
  | ok result =>
    obtain ⟨spec, inputs⟩ := result
    obtain ⟨hcompile, line, _, rfl⟩ := read_eq_ok_iff.mp hread
    simp only [Except.map]
    by_cases hhelp : line.HelpRequested
    · rw [if_pos hhelp, if_pos hhelp]
      exact ⟨rfl, h.spec, h.proc, congrArg (Help.attach spec (argv.headD "")) h.errorKey⟩
    · rw [if_neg hhelp, if_neg hhelp]
      have hsame : ∀ binding ∈ spec.bindings,
          Inputs.resolve ⟨line, Environment.ofEntries envp, settings.separator⟩ binding =
            Inputs.resolve ⟨line, Environment.ofEntries envp', settings.separator⟩ binding :=
        fun binding hbinding => Inputs.resolve_ofEntries_congr (fun name hname =>
          henvp spec hcompile name (List.mem_flatMap.mpr ⟨binding, hbinding, hname⟩)) _ _
      have hall := h.resolveAll hread hsame
      cases hfirst : resolveAll first.keys
          ⟨line, Environment.ofEntries envp, settings.separator⟩ ∅ spec.bindings with
      | error failure =>
        rw [← hall, hfirst]
        exact ⟨rfl, h.spec, h.proc, congrArg failure.attach h.errorKey⟩
      | ok staged =>
        have hrun := resolveAll_eq_ok_iff.mp hfirst
        rw [hall] at hfirst
        rw [hfirst]
        exact ⟨rfl, h.commit hread hsame hrun (resolveAll_eq_ok_iff.mp hfirst)⟩

/-- A level to be given, one that was resolved before, and some key that means nothing here. -/
def levelSession (other : Key) (metadata : Metadata) : Session where
  keys := .ofList Key.name [
    { name := Specification.levelBinding.key,
      metadata := .ofList Prod.fst [("opt", "l"), ("env", "LEVEL")] },
    { name := ⟨.proc, ["mode"], by decide⟩, value := "fast", metadata }, other]
  errorKey := { name := .root .cascading }

theorem alike_levelSession :
    let first := levelSession { name := ⟨.user, ["level"], by decide⟩, value := "1" } ∅
    let second := levelSession { name := ⟨.cascading, ["a"], by decide⟩ }
      (.ofList Prod.fst [("note", "")])
    first.Alike second ∧
      (first.resolveWith ["prog"] ["A=1", "LEVEL=3"] {}).1 =
        (second.resolveWith ["prog"] ["LEVEL=2", "none", "LEVEL=3"] {}).1 ∧
      (first.resolveWith ["prog"] ["A=1", "LEVEL=3"] {}).2.Alike
        (second.resolveWith ["prog"] ["LEVEL=2", "none", "LEVEL=3"] {}).2 := by
  intro first second
  have halike : first.Alike second := ⟨rfl, rfl, rfl⟩
  refine ⟨halike, alike_resolveWith halike ?_ ["prog"] {}⟩
  intro spec hcompile name hname
  have henvVars : spec.envVars = ["LEVEL"] := by
    cases hcompile
    rfl
  rw [henvVars, List.mem_singleton] at hname
  subst hname
  rfl

end Session

end DeclaredOptions
