import DeclaredOptions.Program.Run
import DeclaredOptions.Proofs.Compilation
import DeclaredOptions.Proofs.Effects
import DeclaredOptions.Proofs.JsonLayout
import DeclaredOptions.Proofs.ProgramArguments
import DeclaredOptions.Proofs.Utf8Text
import Mathlib.Tactic.Common

/-!
# The program and the library agree

The program reports what a call of the library does on the keys of the document, with the command
line after the first `--` and an error key that carries what the options ask for
(`Program.agrees_run`). Whatever stands in that command line is left to the call, also what looks
like an option of the program.
-/

namespace DeclaredOptions

open Std Steps

/-! ### What options ask for -/

namespace Given

/-- The text of the error key's name. -/
def errorKeyText (given : Given) : String := (given.value? .errorKey).getD "/sw/app"

/-- The metadata that options ask for. -/
def entry? (given : Given) : String → Option String
  | "posixly" => (given.value? .posixly).map fun _ => "1"
  | "help/usage" => given.value? .usage
  | "help/prefix" => given.value? .introduction
  | _ => none

/-- The error key has the name that options ask for, no value, and just the metadata that they ask
for. -/
structure IsErrorKey (given : Given) (key : Key) : Prop where
  name : KeyName.parse given.errorKeyText = .ok key.name
  value : key.value = ""
  metadata : ∀ entry, key.metadata.get? entry = given.entry? entry

/-- The settings that options ask for. -/
def settings (given : Given) : Settings where
  posixly := (given.value? .posixly).isSome
  separator := ((given.value? .separator).bind fun value => value.toList.head?).getD ':'

/-- The format that options ask for. -/
def format (given : Given) : Format :=
  ((given.value? .format).bind Format.ofWord?).getD .text

end Given

/-! ### What is written -/

namespace Program

/-- Why a program reports nothing. -/
inductive Stop
  | refused (refusal : Refusal)
  | hindered (obstacle : Obstacle)
  deriving DecidableEq, Repr

/-- What the program writes, given its arguments, the documents under their paths and the entries of
the environment. -/
def run (documents : String → Option (List UInt8)) (arguments envp : List String) :
    Except Stop Written := do
  let request ← (Request.parse arguments).mapError .refused
  let report ← (request.perform (documents request.document) envp).mapError .hindered
  return report.write request.format

/-- An output says in some format what has a form as text and a form as JSON. The JSON is indented,
has a line break at the end, and is read back. -/
def Writes (text : String) (value : Json) : Format → String → Prop
  | .text, output => output = text
  | .json, output => output = value.indented 0 ++ "\n" ∧ Json.parse? output = some value

/-- What is written tells how a call ended: on the output all keys of the `proc` namespace in the
order of their names or the help text, on the error output the sentence of a failure. JSON names the
kind of a failure too. -/
inductive Reports (format : Format) : Except Failure Outcome × Session → Written → Prop
  | resolved {session : Session} {keys : List Key} {output : String}
      (hincreasing : keys.Pairwise fun a b => compare a.name b.name = .lt)
      (hmem : ∀ key, key ∈ keys ↔
        session.keys.find? key.name = some key ∧ key.name.space = .proc)
      (houtput : Writes
        (String.join (keys.map fun key => key.name.display ++ " = " ++ key.value ++ "\n"))
        (.object [Report.member "outcome" "resolved",
          (some "keys", .array (keys.map fun key => .object
            [Report.member "name" key.name.display, Report.member "value" key.value]))])
        format output) :
      Reports format (.ok .resolved, session) ⟨0, output, ""⟩
  | help {session : Session} {text output : String}
      (htext : Help.message? session.errorKey = some text)
      (houtput : Writes text
        (.object [Report.member "outcome" "help", Report.member "text" text]) format output) :
      Reports format (.ok .helpRequested, session) ⟨1, output, ""⟩
  | failed {failure : Failure} {session : Session} {output : String}
      (houtput : Writes (failure.message ++ "\n")
        (.object [Report.member "outcome" "failed", Report.member "kind" failure.label,
          Report.member "reason" failure.message]) format output) :
      Reports format (.error failure, session) ⟨2, "", output⟩

/-- What the program should do with a document that holds `keys`: say what is wrong with the name
of the error key, or report what the library does with the error key and the settings that the
options ask for. -/
inductive Agrees (given : Given) (keys : KeySet) (argv envp : List String) :
    Except Stop Written → Prop
  | invalid {fault : NameFault} (hname : KeyName.parse given.errorKeyText = .error fault) :
      Agrees given keys argv envp (.error (.hindered (.invalidErrorKey fault)))
  | reported {errorKey : Key} {written : Written} (hkey : given.IsErrorKey errorKey)
      (hreports : Reports given.format
        (Session.resolveWith ⟨keys, errorKey⟩ argv envp given.settings) written) :
      Agrees given keys argv envp (.ok written)

/-! ### Reports -/

lemma isPlain_toJson (report : Report) : Json.IsPlain report.toJson := by
  have hmember (name value : String) : (Report.member name value).1.isSome ∧
      Json.IsPlain (Report.member name value).2 := ⟨rfl, Json.isPlain_text value⟩
  cases report with
  | resolved keys =>
    have hkey (key : Key) : Json.IsPlain (.object
        [Report.member "name" key.name.display, Report.member "value" key.value]) := by
      apply Json.isPlain_object
      simp [hmember]
    have hkeys : Json.IsPlain (.array (keys.map fun key => .object
        [Report.member "name" key.name.display, Report.member "value" key.value])) := by
      apply Json.isPlain_array
      rw [List.forall_mem_map]
      exact fun key _ => hkey key
    apply Json.isPlain_object
    simp [hmember, hkeys]
  | help text =>
    apply Json.isPlain_object
    simp [hmember]
  | failed failure =>
    apply Json.isPlain_object
    simp [hmember]

lemma writes_render (report : Report) (format : Format) :
    Writes report.toText report.toJson format (report.render format) := by
  cases format with
  | text => rfl
  | json => exact ⟨rfl, (isPlain_toJson report).parse?_indented⟩

/-- What is written about a call reports it. A call that asks for help leaves a help text. -/
lemma reports_write (session : Session) (argv envp : List String) (settings : Settings)
    (format : Format) : Reports format (session.resolveWith argv envp settings)
      ((Report.ofCall (session.resolveWith argv envp settings)).write format) := by
  have hends := session.ends_resolveWith argv envp settings
  generalize session.resolveWith argv envp settings = ended at hends ⊢
  obtain ⟨result, after⟩ := ended
  cases hends with
  | unread hread => exact .failed (writes_render (.failed _) format)
  | refused hread hhelp hrefused => exact .failed (writes_render (.failed _) format)
  | help hread hhelp =>
    have hhelped := Session.helped_attach argv (Session.read_eq_ok_iff.mp hread).1
    obtain ⟨text, htext⟩ := Option.isSome_iff_exists.mp hhelped.isSome_message
    rw [Report.ofCall, htext]
    exact .help htext (writes_render (.help text) format)
  | resolved hread hhelp hrun =>
    exact .resolved (KeySet.pairwise_inSpace _ .proc) (fun _ => KeySet.mem_inSpace)
      (writes_render (.resolved _) format)

/-! ### Requests -/

end Program

/-- The request that options make. -/
def Given.request (given : Given) (document : String) (argv : List String) : Request where
  document
  errorKey := given.errorKeyText
  posixly := (given.value? .posixly).isSome
  separator := (given.value? .separator).bind fun value => value.toList.head?
  usage := given.value? .usage
  introduction := given.value? .introduction
  format := given.format
  debug := (given.value? .debug).isSome
  argv

namespace Request

variable {given : Given} {document : String} {arguments argv : List String} {errorKey : Key}

/-- Options make the same request in any order, and however they are spelled. -/
lemma parse_of_isSpelledBy (hlegal : given.IsLegal) (hspelled : given.IsSpelledBy arguments)
    (hdocument : given.value? .document = some document) (hargv : argv ≠ []) :
    parse (arguments ++ "--" :: argv) = .ok (given.request document argv) := by
  have hread : readArguments [] (arguments ++ "--" :: argv) = .ok (given.reverse, argv) :=
    Given.readArguments_eq_ok_iff.mpr
      ⟨hlegal.reverse, .dashes (by rwa [List.reverse_reverse])⟩
  have hrequest : ofGiven? given.reverse argv = some (given.request document argv) := by
    simp only [ofGiven?, Given.value?_reverse hlegal.once, hdocument]
    rfl
  rw [parse, hread]
  show (if argv = [] then _ else _) = _
  rw [if_neg hargv, hrequest]

@[simp] lemma name_setIfGiven (key : Key) (name : String) (value : Option String) :
    (setIfGiven key name value).name = key.name := by
  cases value <;> rfl

@[simp] lemma value_setIfGiven (key : Key) (name : String) (value : Option String) :
    (setIfGiven key name value).value = key.value := by
  cases value <;> rfl

lemma get?_setIfGiven (key : Key) (name : String) (value : Option String) (entry : String) :
    (setIfGiven key name value).metadata.get? entry =
      if entry = name then value.or (key.metadata.get? entry) else key.metadata.get? entry := by
  cases value with
  | none => simp [setIfGiven]
  | some text =>
    show (key.metadata.set name text).get? entry = _
    by_cases hentry : entry = name
    · rw [hentry, SortedMap.get?_set_self, if_pos rfl, Option.some_or]
    · rw [SortedMap.get?_set_of_ne _ (Ne.symm hentry), if_neg hentry]

/-- The error key is made as the options ask. -/
lemma isErrorKey_of_toErrorKey
    (h : (given.request document argv).toErrorKey = .ok errorKey) : given.IsErrorKey errorKey := by
  obtain ⟨name, hname, hkey⟩ := bind_eq_ok_iff.mp h
  cases hkey
  constructor
  · simp only [name_setIfGiven]
    exact hname
  · simp only [value_setIfGiven]
  · intro entry
    have hposixly : (if (given.request document argv).posixly then some "1" else none) =
        (given.value? .posixly).map fun _ => "1" := by
      show (if (given.value? .posixly).isSome then _ else _) = _
      cases given.value? .posixly <;> rfl
    have hnone : (∅ : Metadata).get? entry = none := rfl
    simp only [get?_setIfGiven, hposixly, hnone, Option.or_none]
    by_cases hintroduction : entry = Help.introductionEntry
    · subst hintroduction
      exact Option.or_none
    by_cases husage : entry = Help.ownUsageEntry
    · subst husage
      exact Option.or_none
    rw [if_neg hintroduction, if_neg husage]
    by_cases hentry : entry = "posixly"
    · subst hentry
      rfl
    rw [if_neg hentry, Given.entry?]
    exacts [hentry, husage, hintroduction]

/-- Only an invalid name keeps the error key from being made. -/
lemma parse_of_toErrorKey {fault : NameFault}
    (h : (given.request document argv).toErrorKey = .error fault) :
    KeyName.parse given.errorKeyText = .error fault := by
  rcases bind_eq_error_iff.mp h with hname | ⟨name, _, hkey⟩
  · exact hname
  · cases hkey

/-- The call has the settings that the options ask for: one of them through the error key. -/
lemma settings_eq (h : given.IsErrorKey errorKey) :
    (given.request document argv).settings errorKey = given.settings := by
  have hposixly : Settings.posixly (.ofKey errorKey) = (given.value? .posixly).isSome := by
    rw [Settings.ofKey, h.metadata, Given.entry?]
    cases given.value? .posixly <;> rfl
  rw [settings, hposixly]
  rfl

end Request

namespace Program

variable {given : Given} {path text : String} {keys : KeySet} {arguments argv : List String}
  {documents : String → Option (List UInt8)}

/-! ### Agreement -/

/-- Once options and document are read, a run makes the error key and calls the library with it. -/
lemma run_eq (envp : List String) (hlegal : given.IsLegal) (hspelled : given.IsSpelledBy arguments)
    (hpath : given.value? .document = some path)
    (hdocument : documents path = some (Utf8.encode text))
    (hkeys : Document.read? text = some keys) (hargv : argv ≠ []) :
    run documents (arguments ++ "--" :: argv) envp =
      match (given.request path argv).toErrorKey with
      | .error fault => .error (.hindered (.invalidErrorKey fault))
      | .ok errorKey => .ok ((Report.ofCall (Session.resolveWith ⟨keys, errorKey⟩ argv envp
          ((given.request path argv).settings errorKey))).write given.format) := by
  have hload : Request.load (documents path) = .ok keys := by
    rw [Request.load, hdocument, Option.bind_some, Utf8.decode?_encode]
    simp only [hkeys]
  rw [run, Request.parse_of_isSpelledBy hlegal hspelled hpath hargv]
  show (Except.mapError Stop.hindered
    ((given.request path argv).perform (documents path) envp) >>= _) = _
  rw [Request.perform, hload]
  cases (given.request path argv).toErrorKey <;> rfl

/-- Whatever the options before the first `--` ask for, in any order, and whatever stands after it,
if the document holds keys then the program agrees with the library on them. -/
theorem agrees_run (documents : String → Option (List UInt8)) (envp : List String)
    (hlegal : given.IsLegal) (hspelled : given.IsSpelledBy arguments)
    (hpath : given.value? .document = some path)
    (hdocument : documents path = some (Utf8.encode text))
    (hkeys : Document.read? text = some keys) (hargv : argv ≠ []) :
    Agrees given keys argv envp (run documents (arguments ++ "--" :: argv) envp) := by
  rw [run_eq envp hlegal hspelled hpath hdocument hkeys hargv]
  cases herrorKey : (given.request path argv).toErrorKey with
  | error fault => exact .invalid (Request.parse_of_toErrorKey herrorKey)
  | ok errorKey =>
    have hkey := Request.isErrorKey_of_toErrorKey herrorKey
    simp only [Request.settings_eq hkey]
    exact .reported hkey (reports_write _ argv envp given.settings given.format)

/-- An option that takes a value and can be set by a variable, and an array of all that is left. -/
def levelDocument : String :=
  "[[\"spec/sw/app/level\", \"\", \x7b\"opt\": \"l\", \"env\": \"LEVEL\"\x7d],\n" ++
  " \x7b\"name\": \"spec/sw/app/files/#\", \"meta\": \x7b\"args\": \"remaining\"\x7d\x7d]\n"

/-- The keys of the document. -/
def levelKeys : KeySet := (Document.read? levelDocument).getD ∅

/-- Options whose values look like options, the document among them. -/
def levelGiven : Given := [(.usage, "--spec=other.json"), (.posixly, ""), (.introduction, "-"),
  (.document, "spec.json"), (.separator, ","), (.format, "text"), (.errorKey, "user/diagnostics")]

def levelArguments : List String := ["--usage=--spec=other.json", "--posixly", "--help-prefix", "-",
  "--spec", "spec.json", "--env-separator=,", "--format", "text", "--error-key=user/diagnostics"]

/-- A command line with `--` and with options of the program. -/
def levelArgv : List String := ["app", "-l", "2", "--", "--format=json", "--help", "--"]

theorem agrees_levelRun :
    let documents path := if path = "spec.json" then some (Utf8.encode levelDocument) else none
    levelGiven.IsLegal ∧ levelGiven.IsSpelledBy levelArguments ∧
      levelGiven.value? .document = some "spec.json" ∧
      documents "spec.json" = some (Utf8.encode levelDocument) ∧
      Document.read? levelDocument = some levelKeys ∧ levelArgv ≠ [] ∧
      Agrees levelGiven levelKeys levelArgv ["LEVEL=1"]
        (run documents (levelArguments ++ "--" :: levelArgv) ["LEVEL=1"]) := by
  intro documents
  have hlegal : levelGiven.IsLegal := ⟨by decide, by decide⟩
  have hspelled : levelGiven.IsSpelledBy levelArguments :=
    .assigned (by decide) _ <| .flag rfl <| .apart (by decide) rfl <| .apart (by decide) rfl <|
      .assigned (by decide) _ <| .apart (by decide) rfl <| .assigned (by decide) _ .nil
  have hpath : levelGiven.value? .document = some "spec.json" := rfl
  have hdocument : documents "spec.json" = some (Utf8.encode levelDocument) := if_pos rfl
  have hkeys : Document.read? levelDocument = some levelKeys := by decide +kernel
  have hargv : levelArgv ≠ [] := by decide
  exact ⟨hlegal, hspelled, hpath, hdocument, hkeys, hargv,
    agrees_run documents ["LEVEL=1"] hlegal hspelled hpath hdocument hkeys hargv⟩

/-- What stands after the first `--` is none of the program's business. -/
example : run (fun _ => some (Utf8.encode levelDocument)) (levelArguments ++ "--" :: levelArgv) [] =
    .ok ⟨0, "proc/sw/app/files = #2\nproc/sw/app/files/#0 = --format=json\n" ++
      "proc/sw/app/files/#1 = --help\nproc/sw/app/files/#2 = --\nproc/sw/app/level = 2\n", ""⟩ := by
  decide +kernel

/-- Only JSON names the kind of a failure: in a report as text the word for it does not occur. -/
theorem exists_unnamed_kind : ∃ failure written,
    (Session.resolveWith ⟨∅, { name := (KeyName.root .cascading).child "sw/app" }⟩
      ["app", "--bogus"] [] {}).1 = .error failure ∧
    run (fun _ => some (Utf8.encode "[]")) ["--spec=spec.json", "--", "app", "--bogus"] [] =
      .ok written ∧
    ¬failure.label.toList <:+: written.errorOutput.toList := by
  refine ⟨.unknownOption "--bogus", ⟨2, "", "Unknown option: --bogus.\n"⟩, ?_, ?_, ?_⟩
  · decide +kernel
  · decide +kernel
  · decide +kernel

end Program

end DeclaredOptions
