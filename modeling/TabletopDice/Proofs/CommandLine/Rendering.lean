import Mathlib.Data.List.Forall2
import TabletopDice.CommandLine.Chat

/-!
# How replies look

Each reply is printed as its text and a line for each row of its keyboard. `Prints` tells so without
the functions that render replies, and `prints_renderReplies` shows that they print just that.
-/

namespace TabletopDice.CommandLine

open Dialogue

/-! ### Lines -/

/-- Labels side by side: each in brackets, a blank between two of them. -/
inductive SideBySide : List String → String → Prop
  | nil : SideBySide [] ""
  | last (label : String) : SideBySide [label] ("[" ++ label ++ "]")
  | cons (label : String) {labels : List String} {text : String} (more : labels ≠ [])
      (h : SideBySide labels text) : SideBySide (label :: labels) ("[" ++ label ++ "] " ++ text)

/-- A row of buttons takes one line, which begins with two blanks. -/
inductive RowLine (labels : List String) : String → Prop
  | mk {text : String} (h : SideBySide labels text) : RowLine labels ("  " ++ text)

/-- The lines of a reply: its text and, below it, the rows of its keyboard. A button that belongs to
its message is labelled with its data too. -/
inductive Shown : Reply → List String → Prop
  | bare (text : String) : Shown ⟨text, none⟩ [text]
  | remove (text : String) : Shown ⟨text, some .remove⟩ [text]
  | inline (text : String) {rows : List (List Button)} {lines : List String}
      (below : List.Forall₂ RowLine (rows.map (·.map fun b => b.text ++ ": " ++ b.data)) lines) :
      Shown ⟨text, some (.inline rows)⟩ (text :: lines)
  | reply (text : String) {rows : List (List String)} {lines : List String}
      (below : List.Forall₂ RowLine rows lines) : Shown ⟨text, some (.reply rows)⟩ (text :: lines)

def unlines (lines : List String) : String :=
  String.join (lines.map (· ++ "\n"))

/-- The text is all that is printed for the replies, one after the other. -/
inductive Prints : List Reply → String → Prop
  | nil : Prints [] ""
  | cons {r : Reply} {lines : List String} {rest : List Reply} {text : String} (shown : Shown r lines)
      (h : Prints rest text) : Prints (r :: rest) (unlines lines ++ text)

/-! ### Rendered replies -/

theorem sideBySide_intercalate (labels : List String) :
    SideBySide labels (" ".intercalate (labels.map fun label => "[" ++ label ++ "]")) := by
  induction labels with
  | nil => exact .nil
  | cons label labels ih =>
    cases labels with
    | nil => exact .last label
    | cons next labels =>
      have spaced : "[" ++ label ++ "]" ++ " " = "[" ++ label ++ "] " := by
        rw [String.append_assoc]
        rfl
      rw [List.map_cons, List.map_cons, String.intercalate_cons_cons, spaced]
      exact .cons label (List.cons_ne_nil next labels) ih

theorem unlines_cons (line : String) (lines : List String) :
    unlines (line :: lines) = line ++ "\n" ++ unlines lines := by
  rw [unlines, List.map_cons, String.join_cons, ← unlines]

theorem join_renderRow (rows : List (List String)) :
    ∃ lines, List.Forall₂ RowLine rows lines ∧ String.join (rows.map renderRow) = unlines lines := by
  induction rows with
  | nil => exact ⟨[], .nil, rfl⟩
  | cons row rows ih =>
    obtain ⟨lines, below, joined⟩ := ih
    refine ⟨_, .cons (.mk (sideBySide_intercalate row)) below, ?_⟩
    rw [List.map_cons, String.join_cons, joined, unlines_cons]
    rfl

theorem renderReply_shown (r : Reply) : ∃ lines, Shown r lines ∧ renderReply r = unlines lines := by
  obtain ⟨text, keyboard⟩ := r
  unfold renderReply
  match keyboard with
  | none => exact ⟨_, .bare text, (unlines_cons text []).symm⟩
  | some .remove => exact ⟨_, .remove text, (unlines_cons text []).symm⟩
  | some (.inline rows) =>
    obtain ⟨lines, below, joined⟩ := join_renderRow
      (rows.map fun row => row.map fun b => b.text ++ ": " ++ b.data)
    refine ⟨_, .inline text below, ?_⟩
    rw [unlines_cons, ← joined, List.map_map]
    rfl
  | some (.reply rows) =>
    obtain ⟨lines, below, joined⟩ := join_renderRow rows
    refine ⟨_, .reply text below, ?_⟩
    rw [unlines_cons, ← joined]
    rfl

theorem prints_renderReplies (replies : List Reply) : Prints replies (renderReplies replies) := by
  induction replies with
  | nil => exact .nil
  | cons r rest ih =>
    obtain ⟨lines, shown, rendered⟩ := renderReply_shown r
    rw [renderReplies, List.map_cons, String.join_cons, rendered]
    exact .cons shown ih

end TabletopDice.CommandLine
