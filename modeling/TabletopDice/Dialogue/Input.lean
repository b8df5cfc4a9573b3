import TabletopDice.Text.Blank

/-!
# What a chat participant does

A participant starts the bot, presses a button of the main menu, or sends a text. `Mode.after` says
what the chat is doing afterwards: only menu choices and the back text change it.
-/

namespace TabletopDice.Dialogue

inductive Mode where
  | idle
  | awaitingFormula
  | quickRoll
  deriving DecidableEq

inductive Choice where
  | formula
  | quickRoll
  deriving DecidableEq

namespace Choice

def data : Choice → String
  | formula => "explosive_dice"
  | quickRoll => "regular_fate_dice"

def ofData? (data : String) : Option Choice :=
  [formula, quickRoll].find? (·.data == data)

def mode : Choice → Mode
  | formula => .awaitingFormula
  | quickRoll => .quickRoll

end Choice

inductive Input where
  | start
  | choice (c : Choice)
  | command (text : String)
  | text (text : String)
  deriving DecidableEq

/-- A message is a command if it begins with a slash; all that begin with "/start" start the bot. -/
def Input.ofText (text : String) : Input :=
  if "/start".toList.isPrefixOf text.toList then start
  else if ['/'].isPrefixOf text.toList then command text
  else .text text

/-- The text that leaves a mode, and its button. -/
def back : String := "Назад"

def isBack (text : String) : Bool :=
  Text.trim text == back

/-- What the chat is doing after an input. -/
def Mode.after (mode : Mode) : Input → Mode
  | .choice c => c.mode
  | .text t => if isBack t then idle else mode
  | _ => mode

end TabletopDice.Dialogue
