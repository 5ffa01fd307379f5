import DeclaredOptions.Proofs.JsonText
import Mathlib.Tactic.Common

/-!
# Indented values are read back

The indented form of a value differs from that on one line only in blanks between tokens, if the
value is made of texts by arrays and objects (`IsLaidOut`). So it is read as the same value
(`IsPlain.parse?_indented`).
-/

namespace DeclaredOptions.Json

/-! ### Blanks -/

namespace Divides

variable {cs : List Char} {tokens : List Token}

lemma blank {c : Char} (hblank : Token.IsBlank c) (h : Divides cs tokens) :
    Divides (c :: cs) tokens := by
  intro rest
  rw [List.cons_append, Token.scan, if_pos hblank, h]

lemma newLine (depth : Nat) : Divides (newLine depth).toList [] := by
  have hblanks (n : Nat) : Divides (List.replicate n ' ') [] := by
    induction n with
    | zero => exact nil
    | succ n ih => exact blank (c := ' ') (by decide) ih
  have htext : (Json.newLine depth).toList = '\n' :: List.replicate (2 * depth) ' ' := by
    simp [Json.newLine]
  rw [htext]
  exact blank (by decide) (hblanks _)

end Divides

/-! ### Parts between brackets -/

/-- Lines of their own for the parts change no token. -/
lemma divides_stacked {first last : Char} {parts : List String} {divided : List (List Token)}
    (hfirst : Divides [first] [.mark first]) (hlast : Divides [last] [.mark last]) (depth : Nat)
    (h : List.Forall₂ Divides (parts.map String.toList) divided) :
    Divides (stacked depth (.singleton first) (.singleton last) parts).toList
      (.mark first :: ([.mark ','].intercalate divided ++ [.mark last])) := by
  cases parts with
  | nil =>
    cases h
    simpa [stacked] using hfirst.append hlast
  | cons part parts =>
    have hsep : Divides ("," ++ newLine (depth + 1)).toList [.mark ','] := by
      rw [String.toList_append]
      exact Divides.comma.append (.newLine _)
    have htext : (stacked depth (.singleton first) (.singleton last) (part :: parts)).toList =
        ([first] ++ (newLine (depth + 1)).toList) ++
          ((("," ++ newLine (depth + 1)).toList.intercalate ((part :: parts).map String.toList) ++
            (newLine depth).toList) ++ [last]) := by
      simp [stacked]
    have hopen := hfirst.append (.newLine (depth + 1))
    have hparts := (hsep.intercalate h).append (.newLine depth)
    rw [htext]
    simpa using hopen.append (hparts.append hlast)

/-! ### Values -/

/-- Whether both forms of the value divide into the same tokens. -/
def IsLaidOut (value : Json) : Prop :=
  ∃ tokens, Divides value.compact.toList tokens ∧
    ∀ depth, Divides (value.indented depth).toList tokens

lemma isLaidOut_text (content : String) : IsLaidOut (.text (some content)) :=
  ⟨_, .literal content, fun _ => .literal content⟩

/-- What is laid out part by part has tokens for all parts. -/
lemma exists_forall₂ {α : Type} {line : α → String} {lines : Nat → α → String} {items : List α}
    (h : ∀ a ∈ items, ∃ tokens, Divides (line a).toList tokens ∧
      ∀ depth, Divides (lines depth a).toList tokens) :
    ∃ divided, List.Forall₂ Divides ((items.map line).map String.toList) divided ∧
      ∀ depth, List.Forall₂ Divides ((items.map (lines depth)).map String.toList) divided := by
  induction items with
  | nil => exact ⟨[], .nil, fun _ => .nil⟩
  | cons a items ih =>
    obtain ⟨⟨tokens, hline, hlines⟩, hitems⟩ := List.forall_mem_cons.mp h
    obtain ⟨divided, hrest, hrests⟩ := ih hitems
    exact ⟨tokens :: divided, .cons hline hrest, fun depth => .cons (hlines depth) (hrests depth)⟩

lemma indentedItems_eq (depth : Nat) (items : List Json) :
    indentedItems depth items = items.map (indented depth) := by
  induction items with
  | nil => rfl
  | cons item items ih => rw [indentedItems, ih, List.map_cons]

lemma indented_array (depth : Nat) (items : List Json) : (array items).indented depth =
    stacked depth (.singleton '[') (.singleton ']') (items.map (indented (depth + 1))) := by
  rw [indented, indentedItems_eq]
  rfl

lemma isLaidOut_array {items : List Json} (h : ∀ item ∈ items, IsLaidOut item) :
    IsLaidOut (.array items) := by
  obtain ⟨divided, hline, hlines⟩ := exists_forall₂ h
  refine ⟨.mark '[' :: ([.mark ','].intercalate divided ++ [.mark ']']), ?_, fun depth => ?_⟩
  · rw [show (array items).compact = _ from arrays.compact_whole items]
    exact divides_bracketed arrays.divides_first arrays.divides_last hline
  · rw [indented_array]
    exact divides_stacked arrays.divides_first arrays.divides_last depth (hlines (depth + 1))

lemma indentedMembers_eq (depth : Nat) (members : List (Option String × Json)) :
    indentedMembers depth members = members.map fun member =>
      Json.literal member.1 ++ ": " ++ member.2.indented depth := by
  induction members with
  | nil => rfl
  | cons member members ih => rw [indentedMembers, ih, List.map_cons]

lemma indented_object (depth : Nat) (members : List (Option String × Json)) :
    (object members).indented depth = stacked depth (.singleton '\x7b') (.singleton '\x7d')
      (members.map fun member =>
        Json.literal member.1 ++ ": " ++ member.2.indented (depth + 1)) := by
  rw [indented, indentedMembers_eq]
  rfl

/-- A member with a blank after the colon has the same tokens as one without. -/
lemma divides_member {name : String} {value : Json} (h : IsLaidOut value) :
    ∃ tokens, Divides (literal (some name) ++ ":" ++ value.compact).toList tokens ∧
      ∀ depth, Divides (literal (some name) ++ ": " ++ value.indented depth).toList tokens := by
  obtain ⟨tokens, hline, hlines⟩ := h
  have hcolon : Divides [':'] [.mark ':'] := .mark (by decide) (by decide)
  have hspaced : Divides [':', ' '] [.mark ':'] := hcolon.append (.blank (by decide) .nil)
  refine ⟨[.text (some name)] ++ [.mark ':'] ++ tokens, ?_, fun depth => ?_⟩
  · rw [String.toList_append, String.toList_append]
    exact ((Divides.literal name).append hcolon).append hline
  · rw [String.toList_append, String.toList_append]
    exact ((Divides.literal name).append hspaced).append (hlines depth)

lemma isLaidOut_object {members : List (Option String × Json)}
    (hnames : ∀ member ∈ members, member.1.isSome) (h : ∀ member ∈ members, IsLaidOut member.2) :
    IsLaidOut (.object members) := by
  have hmembers : ∀ member ∈ members, ∃ tokens,
      Divides (literal member.1 ++ ":" ++ member.2.compact).toList tokens ∧
        ∀ depth, Divides (literal member.1 ++ ": " ++ member.2.indented depth).toList tokens := by
    intro member hmember
    obtain ⟨name, hname⟩ := Option.isSome_iff_exists.mp (hnames member hmember)
    rw [hname]
    exact divides_member (h member hmember)
  obtain ⟨divided, hline, hlines⟩ := exists_forall₂ hmembers
  refine ⟨.mark '\x7b' :: ([.mark ','].intercalate divided ++ [.mark '\x7d']), ?_,
    fun depth => ?_⟩
  · rw [show (object members).compact = _ from objects.compact_whole members]
    exact divides_bracketed objects.divides_first objects.divides_last hline
  · rw [indented_object]
    exact divides_stacked objects.divides_first objects.divides_last depth (hlines (depth + 1))

/-! ### Reading back -/

/-- Whether a value is read back from both of its forms. -/
structure IsPlain (value : Json) : Prop where
  spelled : IsSpelled value
  laidOut : IsLaidOut value

lemma isPlain_text (content : String) : IsPlain (.text (some content)) :=
  ⟨isSpelled_text content, isLaidOut_text content⟩

lemma isPlain_array {items : List Json} (h : ∀ item ∈ items, IsPlain item) :
    IsPlain (.array items) where
  spelled := isSpelled_array fun item hitem => (h item hitem).spelled
  laidOut := isLaidOut_array fun item hitem => (h item hitem).laidOut

lemma isPlain_object {members : List (Option String × Json)}
    (h : ∀ member ∈ members, member.1.isSome ∧ IsPlain member.2) : IsPlain (.object members) where
  spelled := isSpelled_object (fun member hmember => (h member hmember).1)
    fun member hmember => (h member hmember).2.spelled
  laidOut := isLaidOut_object (fun member hmember => (h member hmember).1)
    fun member hmember => (h member hmember).2.laidOut

/-- A plain value is read back from its indented form, also with a line break at the end. -/
lemma IsPlain.parse?_indented {value : Json} (h : IsPlain value) :
    parse? (value.indented 0 ++ "\n") = some value := by
  obtain ⟨tokens, hline, hlines⟩ := h.laidOut
  have hcompact : Token.ofText value.compact = some tokens := by
    simpa [Token.ofText, Token.scan] using hline []
  have hindented : Token.ofText (value.indented 0 ++ "\n") = some tokens := by
    have hend : Token.scan .nothing ['\n'] = some [] := rfl
    simpa [Token.ofText, hend] using hlines 0 ['\n']
  have hparse := h.spelled.parse?_compact
  rw [parse?, hcompact] at hparse
  rw [parse?, hindented, hparse]

end DeclaredOptions.Json
