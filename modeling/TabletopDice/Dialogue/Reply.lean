import TabletopDice.Dialogue.Input

/-!
# What a chat is sent

A reply is a text, possibly with a keyboard. A reply keyboard stays until another one or `remove`
takes its place; an inline keyboard belongs to its message.
-/

namespace TabletopDice.Dialogue

structure Button where
  text : String
  data : String
  deriving DecidableEq

inductive Keyboard where
  | inline (rows : List (List Button))
  | reply (rows : List (List String))
  | remove
  deriving DecidableEq

structure Reply where
  text : String
  keyboard : Option Keyboard := none
  deriving DecidableEq

def Choice.button : Choice → Button
  | c@formula => ⟨"Взрывные/Ввод", c.data⟩
  | c@quickRoll => ⟨"1Dx/Судьба", c.data⟩

def menuButtons : List (List Button) :=
  [[Choice.formula.button, Choice.quickRoll.button]]

def formulaKeys : List (List String) :=
  [["1", "2", "3", "4", "5"],
   ["6", "7", "8", "9", "0"],
   ["d", "f", "!", "+", "-"],
   [back]]

def diceKeys : List (List String) :=
  [["1d4", "1d6", "1d8"],
   ["1d10", "1d12", "1d20"],
   ["1d100", "Судьба"],
   [back]]

namespace Reply

def chooseMode : Reply :=
  ⟨"🎲 Выбери режим:", some (.inline menuButtons)⟩

def firstFormula : Reply :=
  ⟨"Введи формулу (2d6+1d8-1 или 1d20!):", some (.reply formulaKeys)⟩

def nextFormula : Reply :=
  ⟨"Введи формулу:", some (.reply formulaKeys)⟩

def chooseDie : Reply :=
  ⟨"Выбери куб для броска:", some (.reply diceKeys)⟩

def keyboardRemoved : Reply :=
  ⟨"Клавиатура убрана", some .remove⟩

def startFirst : Reply :=
  ⟨"Используй /start для начала", none⟩

end Reply

end TabletopDice.Dialogue
