import TabletopDice.Dialogue.QuickChoice
import TabletopDice.Dialogue.Reply
import TabletopDice.Roller.Basic

/-!
# Sessions

A session is what one chat is doing, and the roller it draws from. `Session.step` handles one input:
the replies it sends, and the session afterwards. An input whose roll fails sends nothing.
-/

namespace TabletopDice.Dialogue

def formulaText (e : Engine) (text : String) : Roll String :=
  match e.evaluate text with
  | .ok evaluation => return (← evaluation).text
  | .error _ => return Formula.usage

/-- What a text that names no quick roll is told. -/
def noSuchDie : String := "Бросок Неверный выбор куба = 0"

def quickText (e : Engine) (text : String) : Roll String :=
  match QuickChoice.ofText? text with
  | some choice => return (← choice.roll e).text
  | none => return noSuchDie

def textReplies (e : Engine) (text : String) : Mode → Roll (List Reply)
  | .idle => return [.startFirst]
  | .awaitingFormula =>
    if isBack text then return [.keyboardRemoved, .chooseMode]
    else return [⟨← formulaText e text, none⟩, .nextFormula]
  | .quickRoll =>
    if isBack text then return [.keyboardRemoved, .chooseMode]
    else return [⟨← quickText e text, none⟩, .chooseDie]

/-- The replies to an input, in the order in which they are sent. -/
def replies (e : Engine) (mode : Mode) : Input → Roll (List Reply)
  | .start => return [.chooseMode]
  | .choice .formula => return [.firstFormula]
  | .choice .quickRoll => return [.chooseDie]
  | .command _ => return []
  | .text text => textReplies e text mode

/-- A chat and the roller it draws from. -/
structure Session (σ : Type) where
  mode : Mode := .idle
  roller : σ

namespace Session

variable {σ ε : Type} [Roller σ ε]

/-- Handles an input. Where the roller fails, the chat goes on as before. -/
def step (e : Engine) (s : Session σ) (input : Input) : Except ε (List Reply) × Session σ :=
  match (replies e s.mode input).run s.roller with
  | (.ok sent, roller) => (.ok sent, ⟨s.mode.after input, roller⟩)
  | (.error cause, roller) => (.error cause, ⟨s.mode, roller⟩)

def run (e : Engine) (s : Session σ) : List Input → List (Except ε (List Reply)) × Session σ
  | [] => ([], s)
  | input :: rest =>
    let (sent, s) := s.step e input
    let (more, s) := s.run e rest
    (sent :: more, s)

end Session

end TabletopDice.Dialogue
