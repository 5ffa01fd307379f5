import DeclaredOptions.Json.Reader
import DeclaredOptions.Proofs.Literals
import Mathlib.Data.List.Forall2
import Mathlib.Tactic.Common

/-!
# Written values are read back

A text divides into tokens piece by piece where no word stands at a seam (`Divides`), and tokens
spell a value if they deliver it wherever a value is awaited (`Spells`). Arrays and objects are read
alike, part by part between their brackets (`Enclosure.isSpelled`). So values that are made of texts
by arrays and objects are read back from their form on one line (`IsSpelled.parse?_compact`).
-/

namespace DeclaredOptions.Json

/-! ### Dividing a text into tokens -/

/-- Whether a text reads as some tokens, whatever follows it. -/
def Divides (cs : List Char) (tokens : List Token) : Prop :=
  ∀ rest, Token.scan .nothing (cs ++ rest) = (Token.scan .nothing rest).map (tokens ++ ·)

namespace Divides

variable {cs more : List Char} {tokens others : List Token}

lemma nil : Divides [] [] := by
  intro rest
  exact (Option.map_id' : (Token.scan .nothing rest).map _ = _).symm

lemma append (h : Divides cs tokens) (hmore : Divides more others) :
    Divides (cs ++ more) (tokens ++ others) := by
  intro rest
  rw [List.append_assoc, h, hmore, Option.map_map]
  congr 1
  funext last
  exact (List.append_assoc tokens others last).symm

lemma mark {c : Char} (hblank : ¬Token.IsBlank c) (hmark : Token.IsMark c) :
    Divides [c] [.mark c] := by
  intro rest
  rw [List.singleton_append, Token.scan, if_neg hblank, if_pos hmark]
  rfl

lemma literal (text : String) : Divides (literal (some text)).toList [.text (some text)] :=
  Token.scan_write text

lemma comma : Divides [','] [.mark ','] := mark (by decide) (by decide)

/-- Parts with a comma between them, and perhaps blanks after it. -/
lemma intercalate {sep : List Char} {parts : List (List Char)} {divided : List (List Token)}
    (hsep : Divides sep [.mark ',']) (h : List.Forall₂ Divides parts divided) :
    Divides (sep.intercalate parts) ([.mark ','].intercalate divided) := by
  induction h with
  | nil => exact nil
  | cons hpart hparts ih =>
    cases hparts with
    | nil => simpa using hpart
    | cons hnext hparts =>
      rw [List.intercalate_cons_cons, List.intercalate_cons_cons]
      exact (hpart.append hsep).append ih

end Divides

/-! ### Spelled values -/

/-- Where a value is awaited. -/
inductive Awaits : List Frame → Expected → Prop
  | value (frames : List Frame) : Awaits frames .value
  | firstItem (items : List Json) (frames : List Frame) : Awaits (.array items :: frames) .firstItem

/-- A value starts alike in an array that is still empty and where any value is awaited. -/
lemma step_of_awaits {frames : List Frame} {expected : Expected} (h : Awaits frames expected)
    {token : Token} {reading : Reading} (hstart : startValue frames token = some reading) :
    step (frames, expected) token = some reading := by
  cases h with
  | value => exact hstart
  | firstItem items frames =>
    show (startValue _ token).or (close _ token) = _
    rw [hstart, Option.some_or]

/-- Whether the form on one line divides into the tokens, and they deliver the value where one is
awaited. -/
structure Spells (tokens : List Token) (value : Json) : Prop where
  divides : Divides value.compact.toList tokens
  delivers : ∀ frames expected, Awaits frames expected →
    tokens.foldlM step (frames, expected) = deliver value frames

/-- Whether some tokens spell the value. -/
def IsSpelled (value : Json) : Prop := ∃ tokens, Spells tokens value

/-- What is spelled is read back. -/
lemma IsSpelled.parse?_compact {value : Json} (h : IsSpelled value) :
    parse? value.compact = some value := by
  obtain ⟨tokens, hdivides, hdelivers⟩ := h
  have htokens : Token.ofText value.compact = some tokens := by
    have hscan := hdivides []
    rw [List.append_nil] at hscan
    rw [Token.ofText, hscan, Token.scan, Option.map_some, List.append_nil]
  rw [parse?, htokens, Option.bind_some, ofTokens?, hdelivers _ _ (.value [])]
  rfl

lemma isSpelled_text (content : String) : IsSpelled (.text (some content)) := by
  refine ⟨[.text (some content)], .literal content, ?_⟩
  intro frames expected h
  rw [List.foldlM_cons]
  cases h with
  | value => exact bind_pure (deliver (.text (some content)) frames)
  | firstItem items frames => rfl

/-! ### Parts between brackets -/

lemma divides_bracketed {first last : Char} {parts : List String} {divided : List (List Token)}
    (hfirst : Divides [first] [.mark first]) (hlast : Divides [last] [.mark last])
    (h : List.Forall₂ Divides (parts.map String.toList) divided) :
    Divides (bracketed (.singleton first) (.singleton last) parts).toList
      (.mark first :: ([.mark ','].intercalate divided ++ [.mark last])) := by
  have htext : (bracketed (.singleton first) (.singleton last) parts).toList =
      [first] ++ ([','].intercalate (parts.map String.toList) ++ [last]) := by
    simp [bracketed]
  rw [htext]
  exact hfirst.append ((Divides.comma.intercalate h).append hlast)

/-- How values are written and read that have their parts between brackets. -/
structure Enclosure (α : Type) where
  whole : List α → Json
  text : α → String
  first : Char
  last : Char
  /-- What is open while the parts are read; it holds those seen so far, last first. -/
  frame : List α → Frame
  start : Expected
  next : Expected
  compact_whole : ∀ parts, (whole parts).compact =
    bracketed (.singleton first) (.singleton last) (parts.map text)
  divides_first : Divides [first] [.mark first]
  divides_last : Divides [last] [.mark last]
  startValue_first : ∀ frames,
    startValue frames (.mark first) = some (frame [] :: frames, start)
  step_comma : ∀ seen frames,
    step (frame seen :: frames, .separator) (.mark ',') = some (frame seen :: frames, next)
  step_last : ∀ seen frames,
    step (frame seen :: frames, .separator) (.mark last) = deliver (whole seen.reverse) frames
  step_last_empty : ∀ frames,
    step (frame [] :: frames, start) (.mark last) = deliver (whole []) frames

namespace Enclosure

variable {α : Type} {enclosure : Enclosure α} {frames : List Frame} {expected : Expected}

/-- Whether tokens are those of a part and are read into the innermost frame. -/
structure SpellsPart (enclosure : Enclosure α) (part : α) (tokens : List Token) : Prop where
  divides : Divides (enclosure.text part).toList tokens
  enters : ∀ expected ∈ [enclosure.start, enclosure.next], ∀ seen frames,
    tokens.foldlM step (enclosure.frame seen :: frames, expected) =
      some (enclosure.frame (part :: seen) :: frames, .separator)

variable {parts : List (α × List Token)}

/-- Parts with a comma between them are read into the frame one after the other. -/
lemma foldlM_parts (hne : parts ≠ []) (h : ∀ part ∈ parts, enclosure.SpellsPart part.1 part.2)
    (hexpected : expected ∈ [enclosure.start, enclosure.next]) (seen : List α) :
    ([Token.mark ','].intercalate (parts.map Prod.snd)).foldlM step
        (enclosure.frame seen :: frames, expected) =
      some (enclosure.frame ((parts.map Prod.fst).reverse ++ seen) :: frames, .separator) := by
  induction parts generalizing expected seen with
  | nil => exact absurd rfl hne
  | cons part parts ih =>
    obtain ⟨hpart, hparts⟩ := List.forall_mem_cons.mp h
    have hread := hpart.enters expected hexpected seen frames
    cases parts with
    | nil => simpa using hread
    | cons other parts =>
      have hrest := ih (by simp) hparts (by simp : enclosure.next ∈ _) (part.1 :: seen)
      rw [List.map_cons] at hrest
      rw [List.map_cons, List.map_cons, List.intercalate_cons_cons, List.append_assoc,
        List.foldlM_append, hread, Option.bind_eq_bind, Option.bind_some, List.singleton_append,
        List.foldlM_cons, enclosure.step_comma, Option.bind_eq_bind, Option.bind_some, hrest]
      simp

/-- The parts of a whole between its brackets deliver it. -/
lemma delivers_parts (h : ∀ part ∈ parts, enclosure.SpellsPart part.1 part.2)
    (hawaits : Awaits frames expected) :
    (.mark enclosure.first :: ([.mark ','].intercalate (parts.map Prod.snd) ++
        [.mark enclosure.last])).foldlM step (frames, expected) =
      deliver (enclosure.whole (parts.map Prod.fst)) frames := by
  have hlast (reading : Reading) : [Token.mark enclosure.last].foldlM step reading =
      step reading (.mark enclosure.last) := bind_pure _
  rw [List.foldlM_cons, step_of_awaits hawaits (enclosure.startValue_first frames),
    Option.bind_eq_bind, Option.bind_some]
  by_cases hnil : parts = []
  · subst hnil
    exact (hlast _).trans (enclosure.step_last_empty frames)
  · rw [List.foldlM_append, foldlM_parts hnil h List.mem_cons_self, Option.bind_eq_bind,
      Option.bind_some, List.append_nil, hlast, enclosure.step_last, List.reverse_reverse]

/-- The form of a whole divides like its parts. -/
lemma divides_parts (h : ∀ part ∈ parts, enclosure.SpellsPart part.1 part.2) :
    Divides (enclosure.whole (parts.map Prod.fst)).compact.toList
      (.mark enclosure.first :: ([.mark ','].intercalate (parts.map Prod.snd) ++
        [.mark enclosure.last])) := by
  have hdivided : List.Forall₂ Divides
      (((parts.map Prod.fst).map enclosure.text).map String.toList) (parts.map Prod.snd) := by
    rw [List.map_map, List.map_map, List.forall₂_map_left_iff, List.forall₂_map_right_iff,
      List.forall₂_same]
    exact fun part hpart => (h part hpart).divides
  rw [enclosure.compact_whole]
  exact divides_bracketed enclosure.divides_first enclosure.divides_last hdivided

/-- Parts that can be spelled can be listed with their tokens. -/
lemma exists_parts {items : List α} (h : ∀ a ∈ items, ∃ tokens, enclosure.SpellsPart a tokens) :
    ∃ parts : List (α × List Token), parts.map Prod.fst = items ∧
      ∀ part ∈ parts, enclosure.SpellsPart part.1 part.2 := by
  induction items with
  | nil => exact ⟨[], rfl, by simp⟩
  | cons a items ih =>
    obtain ⟨⟨tokens, htokens⟩, hitems⟩ := List.forall_mem_cons.mp h
    obtain ⟨parts, rfl, hparts⟩ := ih hitems
    exact ⟨(a, tokens) :: parts, rfl, List.forall_mem_cons.mpr ⟨htokens, hparts⟩⟩

/-- A whole is spelled if its parts are. -/
lemma isSpelled (enclosure : Enclosure α) {items : List α}
    (h : ∀ a ∈ items, ∃ tokens, enclosure.SpellsPart a tokens) :
    IsSpelled (enclosure.whole items) := by
  obtain ⟨parts, rfl, hparts⟩ := exists_parts h
  exact ⟨_, divides_parts hparts, fun _ _ => delivers_parts hparts⟩

end Enclosure

/-! ### Arrays and objects -/

lemma compactItems_eq (items : List Json) : compactItems items = items.map compact := by
  induction items with
  | nil => rfl
  | cons item items ih => rw [compactItems, ih, List.map_cons]

/-- Arrays hold values. -/
def arrays : Enclosure Json where
  whole := .array
  text := compact
  first := '['
  last := ']'
  frame := .array
  start := .firstItem
  next := .value
  compact_whole items := by rw [compact, compactItems_eq]; rfl
  divides_first := .mark (by decide) (by decide)
  divides_last := .mark (by decide) (by decide)
  startValue_first _ := rfl
  step_comma _ _ := rfl
  step_last _ _ := rfl
  step_last_empty _ := rfl

lemma isSpelled_array {items : List Json} (h : ∀ item ∈ items, IsSpelled item) :
    IsSpelled (.array items) := by
  refine arrays.isSpelled fun item hitem => ?_
  obtain ⟨tokens, hdivides, hdelivers⟩ := h item hitem
  refine ⟨tokens, hdivides, fun expected hexpected seen frames => ?_⟩
  refine hdelivers (.array seen :: frames) expected ?_
  rcases List.mem_pair.mp hexpected with rfl | rfl
  · exact .firstItem seen frames
  · exact .value _

lemma compactMembers_eq (members : List (Option String × Json)) :
    compactMembers members = members.map fun member =>
      Json.literal member.1 ++ ":" ++ member.2.compact := by
  induction members with
  | nil => rfl
  | cons member members ih => rw [compactMembers, ih, List.map_cons]

/-- Objects hold values under names. -/
def objects : Enclosure (Option String × Json) where
  whole := .object
  text member := Json.literal member.1 ++ ":" ++ member.2.compact
  first := '\x7b'
  last := '\x7d'
  frame := .object
  start := .firstMember
  next := .name
  compact_whole members := by rw [compact, compactMembers_eq]; rfl
  divides_first := .mark (by decide) (by decide)
  divides_last := .mark (by decide) (by decide)
  startValue_first _ := rfl
  step_comma _ _ := rfl
  step_last _ _ := rfl
  step_last_empty _ := rfl

lemma isSpelled_object {members : List (Option String × Json)}
    (hnames : ∀ member ∈ members, member.1.isSome) (h : ∀ member ∈ members, IsSpelled member.2) :
    IsSpelled (.object members) := by
  refine objects.isSpelled fun member hmember => ?_
  obtain ⟨tokens, hdivides, hdelivers⟩ := h member hmember
  obtain ⟨name, hname⟩ := Option.isSome_iff_exists.mp (hnames member hmember)
  obtain ⟨name, value⟩ := member
  subst hname
  refine ⟨[.text (some name)] ++ [.mark ':'] ++ tokens, ?_, ?_⟩
  · show Divides (Json.literal (some name) ++ ":" ++ value.compact).toList _
    rw [String.toList_append, String.toList_append]
    exact ((Divides.literal name).append (.mark (by decide) (by decide))).append hdivides
  · intro expected hexpected seen frames
    have hstart : step (.object seen :: frames, expected) (.text (some name)) =
        some (.object seen :: frames, .colon (some name)) := by
      rcases List.mem_pair.mp hexpected with rfl | rfl <;> rfl
    rw [List.append_assoc, List.singleton_append, List.singleton_append, List.foldlM_cons]
    refine (congrArg (· >>= _) hstart).trans ?_
    exact hdelivers (.member seen (some name) :: frames) .value (.value _)

end DeclaredOptions.Json
