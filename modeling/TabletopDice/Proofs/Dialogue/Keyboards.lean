import TabletopDice.Proofs.Dialogue.Replies

/-!
# The keyboard in front of a participant

A chat shows the last reply keyboard it was sent, until that is removed. Nothing but the replies
changes it, and still it always is the keyboard of the mode: `keyboard_matches_mode`.
-/

namespace TabletopDice.Dialogue

open Roll

abbrev Keys := List (List String)

/-- The reply keyboard in a chat after a reply to it. -/
def Keys.afterReply (shown : Option Keys) (r : Reply) : Option Keys :=
  match r.keyboard with
  | some (.reply keys) => some keys
  | some .remove => none
  | some (.inline _) => shown
  | none => shown

/-- The reply keyboard in a chat after an answer. An input whose roll fails sends nothing. -/
def Keys.afterAnswer {ε : Type} (shown : Option Keys) : Except ε (List Reply) → Option Keys
  | .ok sent => sent.foldl Keys.afterReply shown
  | .error _ => shown

def Mode.keys : Mode → Option Keys
  | idle => none
  | awaitingFormula => some formulaKeys
  | quickRoll => some diceKeys

theorem formulaKeys_ne_diceKeys : formulaKeys ≠ diceKeys := by
  decide

theorem afterReply_replies {e : Engine} {mode : Mode} {input : Input} {F : List UInt16}
    {U : List UnitDraw} {sent : List Reply} (h : Draws (replies e mode input) F U sent) :
    sent.foldl Keys.afterReply mode.keys = (mode.after input).keys := by
  cases input with
  | start =>
    obtain ⟨-, -, rfl⟩ := draws_done_iff.mp h
    rfl
  | choice c =>
    cases c with
    | formula =>
      obtain ⟨-, -, rfl⟩ := draws_done_iff.mp h
      rfl
    | quickRoll =>
      obtain ⟨-, -, rfl⟩ := draws_done_iff.mp h
      rfl
  | command text =>
    obtain ⟨-, -, rfl⟩ := draws_done_iff.mp h
    rfl
  | text text =>
    rcases textReplies_draws h with ⟨rfl, rfl⟩ | ⟨-, leaves, rfl⟩ | ⟨rfl, stays, told, -, rfl⟩ |
      ⟨rfl, stays, told, -, rfl⟩
    · rw [Mode.after_idle_text]
      rfl
    · rw [Mode.after_text_back leaves]
      rfl
    · rw [Mode.after_text stays]
      rfl
    · rw [Mode.after_text stays]
      rfl

namespace Session

variable {σ ε : Type} [Roller σ ε]

theorem step_keys (e : Engine) (s : Session σ) (input : Input) :
    Keys.afterAnswer s.mode.keys (s.step e input).1 = (s.step e input).2.mode.keys := by
  rcases step_cases e s input with ⟨sent, r, ran, same⟩ | ⟨cause, r, -, same⟩
  · rw [same]
    exact afterReply_replies (draws_drawn ran)
  · rw [same]
    rfl

theorem run_keys (e : Engine) (s : Session σ) (inputs : List Input) :
    (s.run e inputs).1.foldl Keys.afterAnswer s.mode.keys = (s.run e inputs).2.mode.keys := by
  induction inputs generalizing s with
  | nil => rfl
  | cons input rest ih =>
    rw [run, List.foldl_cons, step_keys]
    exact ih (s.step e input).2

theorem run_take (e : Engine) (s : Session σ) (inputs : List Input) (n : Nat) :
    (s.run e (inputs.take n)).1 = (s.run e inputs).1.take n := by
  induction inputs generalizing s n with
  | nil => simp [run]
  | cons input rest ih =>
    cases n with
    | zero => rfl
    | succ n => simp [run, ih]

/-- From an idle chat without a reply keyboard, whatever the inputs and the roller are: after each
input there is no reply keyboard exactly if the chat is idle, the formula keyboard exactly if it
awaits formulas, and the dice keyboard exactly if it rolls dice. -/
theorem keyboard_matches_mode (e : Engine) (r : σ) (inputs : List Input) (n : Nat) :
    let shown := ((run e ⟨.idle, r⟩ inputs).1.take n).foldl Keys.afterAnswer none
    let mode := (run e ⟨.idle, r⟩ (inputs.take n)).2.mode
    (shown = none ↔ mode = .idle) ∧ (shown = some formulaKeys ↔ mode = .awaitingFormula) ∧
      (shown = some diceKeys ↔ mode = .quickRoll) := by
  intro shown mode
  have matched : shown = mode.keys := by
    have := run_keys e ⟨.idle, r⟩ (inputs.take n)
    rw [run_take] at this
    exact this
  rw [matched]
  have differ := formulaKeys_ne_diceKeys
  cases mode with
  | idle => simp [Mode.keys]
  | awaitingFormula => simp [Mode.keys, differ]
  | quickRoll => simp [Mode.keys, differ.symm]

end Session

end TabletopDice.Dialogue
