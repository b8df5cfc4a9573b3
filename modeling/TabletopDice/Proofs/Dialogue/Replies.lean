import TabletopDice.Dialogue.Session
import TabletopDice.Proofs.Rolling.Draws

/-!
# What an input is answered

A step sends what the replies to its input come to (`step_cases`). Only texts draw anything, and
`textReplies_draws` says what they can be answered.
-/

namespace TabletopDice.Dialogue

open Roll

variable {e : Engine} {mode : Mode} {text : String} {F : List UInt16} {U : List UnitDraw}
  {sent : List Reply}

theorem isBack_iff : isBack text = true ↔ Text.trim text = back := by
  simp [isBack]

theorem Mode.after_text_back (h : Text.trim text = back) :
    mode.after (.text text) = .idle :=
  if_pos (isBack_iff.mpr h)

theorem Mode.after_text (h : Text.trim text ≠ back) :
    mode.after (.text text) = mode :=
  if_neg (mt isBack_iff.mp h)

theorem Mode.after_idle_text (text : String) : Mode.idle.after (.text text) = .idle :=
  ite_self _

theorem textReplies_back (entered : mode ≠ .idle) (leaves : Text.trim text = back) :
    textReplies e text mode = done [.keyboardRemoved, .chooseMode] := by
  have is := isBack_iff.mpr leaves
  cases mode with
  | idle => exact absurd rfl entered
  | awaitingFormula => exact if_pos is
  | quickRoll => exact if_pos is

theorem textReplies_formula (stays : Text.trim text ≠ back) :
    textReplies e text .awaitingFormula =
      formulaText e text >>= fun told => done [⟨told, none⟩, .nextFormula] :=
  if_neg (mt isBack_iff.mp stays)

theorem textReplies_quick (stays : Text.trim text ≠ back) :
    textReplies e text .quickRoll =
      quickText e text >>= fun told => done [⟨told, none⟩, .chooseDie] :=
  if_neg (mt isBack_iff.mp stays)

theorem textReplies_draws (h : Draws (textReplies e text mode) F U sent) :
    (mode = .idle ∧ sent = [.startFirst]) ∨
      (mode ≠ .idle ∧ Text.trim text = back ∧ sent = [.keyboardRemoved, .chooseMode]) ∨
      (mode = .awaitingFormula ∧ Text.trim text ≠ back ∧
        ∃ told, Draws (formulaText e text) F U told ∧ sent = [⟨told, none⟩, .nextFormula]) ∨
      (mode = .quickRoll ∧ Text.trim text ≠ back ∧
        ∃ told, Draws (quickText e text) F U told ∧ sent = [⟨told, none⟩, .chooseDie]) := by
  by_cases idle : mode = .idle
  · subst idle
    obtain ⟨-, -, rfl⟩ := draws_done_iff.mp h
    exact .inl ⟨rfl, rfl⟩
  · by_cases leaves : Text.trim text = back
    · rw [textReplies_back idle leaves] at h
      obtain ⟨-, -, rfl⟩ := draws_done_iff.mp h
      exact .inr (.inl ⟨idle, leaves, rfl⟩)
    · cases mode with
      | idle => exact absurd rfl idle
      | awaitingFormula =>
        rw [textReplies_formula leaves] at h
        exact .inr (.inr (.inl ⟨rfl, leaves, draws_bind_done_iff.mp h⟩))
      | quickRoll =>
        rw [textReplies_quick leaves] at h
        exact .inr (.inr (.inr ⟨rfl, leaves, draws_bind_done_iff.mp h⟩))

/-! ### Steps -/

namespace Session

variable {σ ε : Type} [Roller σ ε] {s : Session σ} {input : Input}

/-- An answered input changes the mode, and one whose roll fails does not. -/
theorem step_cases (e : Engine) (s : Session σ) (input : Input) :
    (∃ sent r, (replies e s.mode input).run s.roller = (.ok sent, r) ∧
        s.step e input = (.ok sent, ⟨s.mode.after input, r⟩)) ∨
      ∃ cause r, (replies e s.mode input).run s.roller = (.error cause, r) ∧
        s.step e input = (.error cause, ⟨s.mode, r⟩) := by
  unfold step
  cases ran : (replies e s.mode input).run s.roller with
  | mk answer r =>
    cases answer with
    | ok sent => exact .inl ⟨sent, r, rfl, rfl⟩
    | error cause => exact .inr ⟨cause, r, rfl, rfl⟩

theorem run_of_step_ok (h : (s.step e input).1 = .ok sent) :
    ∃ r, (replies e s.mode input).run s.roller = (.ok sent, r) := by
  rcases step_cases e s input with ⟨sent', r, ran, same⟩ | ⟨cause, r, -, same⟩
  · rw [same] at h
    obtain rfl := Except.ok.inj h
    exact ⟨r, ran⟩
  · rw [same] at h
    cases h

end Session

end TabletopDice.Dialogue
