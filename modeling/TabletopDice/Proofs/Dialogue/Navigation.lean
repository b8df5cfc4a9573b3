import TabletopDice.Proofs.Dialogue.Replies

/-!
# Where a chat gets to

Menu choices and back texts navigate. The last one of a run says what the chat is doing after it,
whatever else it was sent and whatever was rolled: `Session.run_mode_navigated`.
-/

namespace TabletopDice.Dialogue

open Roll

def Input.destination? : Input → Option Mode
  | choice c => some c.mode
  | text t => if Text.trim t = back then some .idle else none
  | start => none
  | command _ => none

variable {mode dest : Mode} {input : Input}

theorem Input.destination?_text (t : String) :
    (text t).destination? = if Text.trim t = back then some .idle else none := rfl

theorem Mode.after_eq_destination (mode : Mode) (input : Input) :
    mode.after input = input.destination?.getD mode := by
  cases input with
  | start => rfl
  | choice c => rfl
  | command t => rfl
  | text t =>
    rw [Input.destination?_text]
    by_cases leaves : Text.trim t = back
    · rw [Mode.after_text_back leaves, if_pos leaves]
      rfl
    · rw [Mode.after_text leaves, if_neg leaves]
      rfl

theorem replies_of_destination (h : input.destination? = some dest) (e : Engine) (mode : Mode) :
    ∃ sent, replies e mode input = done sent := by
  cases input with
  | start => cases h
  | choice c =>
    cases c with
    | formula => exact ⟨_, rfl⟩
    | quickRoll => exact ⟨_, rfl⟩
  | command t => cases h
  | text t =>
    rw [Input.destination?_text] at h
    split at h
    next leaves =>
      by_cases idle : mode = .idle
      · rw [idle]
        exact ⟨_, rfl⟩
      · exact ⟨_, textReplies_back idle leaves⟩
    next => cases h

namespace Session

variable {σ ε : Type} [Roller σ ε]

theorem step_mode (e : Engine) (s : Session σ) (input : Input) :
    (s.step e input).2.mode = input.destination?.getD s.mode := by
  rcases step_cases e s input with ⟨sent, r, -, same⟩ | ⟨cause, r, failed, same⟩
  · rw [same]
    exact Mode.after_eq_destination _ _
  -- To navigate takes no roll, so an input whose roll fails goes nowhere.
  · rw [same]
    cases there : input.destination? with
    | none => rfl
    | some dest =>
      obtain ⟨sent, answer⟩ := replies_of_destination there e s.mode
      rw [answer] at failed
      cases failed

theorem run_mode (e : Engine) (s : Session σ) (inputs : List Input) :
    (s.run e inputs).2.mode = (inputs.filterMap Input.destination?).getLast?.getD s.mode := by
  induction inputs generalizing s with
  | nil => rfl
  | cons input rest ih =>
    rw [run, ih, step_mode, List.filterMap_cons]
    cases input.destination? with
    | none => rfl
    | some dest => rw [List.getLast?_cons, Option.getD_some, Option.getD_some]

/-- After a run, the mode is where its last menu choice or back text goes, or the one it started in.
No other input changes it, and none whose roll fails; the engine and the roller play no part. -/
theorem run_mode_navigated {σ' ε' : Type} [Roller σ' ε'] (e e' : Engine) (s : Session σ)
    (s' : Session σ') (inputs : List Input) :
    (s.run e inputs).2.mode = (inputs.filterMap Input.destination?).getLast?.getD s.mode ∧
      (∀ input, input.destination? = none → (s.step e input).2.mode = s.mode) ∧
      (∀ input cause, (s.step e input).1 = .error cause → (s.step e input).2.mode = s.mode) ∧
      (s'.mode = s.mode → (s'.run e' inputs).2.mode = (s.run e inputs).2.mode) := by
  refine ⟨run_mode e s inputs, ?_, ?_, ?_⟩
  · intro input stays
    rw [step_mode, stays]
    rfl
  · intro input cause failed
    rcases step_cases e s input with ⟨sent, r, -, same⟩ | ⟨cause', r, -, same⟩
    · rw [same] at failed
      cases failed
    · rw [same]
  · intro same
    rw [run_mode, run_mode, same]

theorem run_mode_navigated_failed_roll :
    let s : Session Predetermined := ⟨.quickRoll, ⟨[], []⟩⟩
    let s' : Session Predetermined := ⟨.quickRoll, ⟨[3, 4], []⟩⟩
    let inputs : List Input := [.text " Назад\n", .choice .formula, .text "2d6", .start]
    (s.run {} inputs).2.mode = .awaitingFormula ∧
      (s.step {} (.text "1d20")).1 = .error .dice ∧
      (s.step {} (.text "1d20")).2.mode = .quickRoll ∧
      (s.step {} (.command "/help")).2.mode = .quickRoll ∧
      (s'.run {} inputs).2.mode = (s.run {} inputs).2.mode := by
  intro s s' inputs
  obtain ⟨last, stays, failed, same⟩ := run_mode_navigated {} {} s s' inputs
  have destinations : (inputs.filterMap Input.destination?).getLast?.getD s.mode =
      .awaitingFormula := by decide +kernel
  have panics : (s.step {} (.text "1d20")).1 = .error .dice := by rfl
  exact ⟨last.trans destinations, panics, failed _ _ panics, stays (.command "/help") rfl, same rfl⟩

end Session

end TabletopDice.Dialogue
