import TabletopDice.Proofs.Dialogue.RollTexts

/-!
# Inputs that are ignored or refused

Some inputs start nothing in a mode (`Mode.Ignores`). They draw nothing and leave the session as it
is, so a run may do without any of them: `ignored_leaves_no_trace`.
-/

namespace TabletopDice.Dialogue

open Roll

/-- Whether an input leaves a mode alone and asks for no roll in it. -/
def Mode.Ignores : Mode → Input → Prop
  | _, .start => True
  | _, .command _ => True
  | _, .choice _ => False
  | idle, .text _ => True
  | awaitingFormula, .text text =>
    Text.trim text ≠ back ∧ ∃ why, Formula.parse text = .error why
  | quickRoll, .text text =>
    Text.trim text ≠ back ∧ ∀ choice, ¬ QuickChoice.Names (Text.trim text) choice

variable {e : Engine} {mode : Mode} {input : Input} {text : String} {F : List UInt16}
  {U : List UnitDraw} {sent : List Reply}

theorem Mode.Ignores.after (h : mode.Ignores input) : mode.after input = mode := by
  cases input with
  | start => rfl
  | choice c => exact h.elim
  | command text => rfl
  | text text =>
    cases mode with
    | idle => exact Mode.after_idle_text text
    | awaitingFormula => exact Mode.after_text h.1
    | quickRoll => exact Mode.after_text h.1

theorem textReplies_of_rejected {why : Formula.Rejection} (stays : Text.trim text ≠ back)
    (rejected : Formula.parse text = .error why) :
    textReplies e text .awaitingFormula = done [⟨Formula.usage, none⟩, .nextFormula] := by
  rw [textReplies_formula stays, formulaText_of_rejected rejected, done_bind]

theorem textReplies_of_unnamed (stays : Text.trim text ≠ back)
    (unnamed : ∀ choice, ¬ QuickChoice.Names (Text.trim text) choice) :
    textReplies e text .quickRoll = done [⟨noSuchDie, none⟩, .chooseDie] := by
  rw [textReplies_quick stays, quickText_of_unnamed unnamed, done_bind]

theorem Mode.Ignores.replies (h : mode.Ignores input) (e : Engine) :
    ∃ sent, replies e mode input = done sent := by
  cases input with
  | start => exact ⟨_, rfl⟩
  | choice c => exact h.elim
  | command text => exact ⟨_, rfl⟩
  | text text =>
    unfold replies
    cases mode with
    | idle => exact ⟨_, rfl⟩
    | awaitingFormula =>
      obtain ⟨stays, why, rejected⟩ := h
      exact ⟨_, textReplies_of_rejected stays rejected⟩
    | quickRoll => exact ⟨_, textReplies_of_unnamed h.1 h.2⟩

structure Turn (ε : Type) where
  mode : Mode
  input : Input
  answer : Except ε (List Reply)

def Turn.Ignored {ε : Type} (t : Turn ε) : Prop :=
  t.mode.Ignores t.input

/-- The second list is the first without some of the items that may be dropped. -/
inductive Thinned {α : Type} (Drops : α → Prop) : List α → List α → Prop
  | nil : Thinned Drops [] []
  | keep (a : α) {l kept : List α} (h : Thinned Drops l kept) : Thinned Drops (a :: l) (a :: kept)
  | drop {a : α} {l kept : List α} (dropped : Drops a) (h : Thinned Drops l kept) :
      Thinned Drops (a :: l) kept

namespace Session

variable {σ ε : Type} [Roller σ ε] {s : Session σ}

def turns (e : Engine) (s : Session σ) : List Input → List (Turn ε)
  | [] => []
  | input :: rest => ⟨s.mode, input, (s.step e input).1⟩ :: (s.step e input).2.turns e rest

theorem turns_input (e : Engine) (s : Session σ) (inputs : List Input) :
    (s.turns e inputs).map Turn.input = inputs := by
  induction inputs generalizing s with
  | nil => rfl
  | cons input rest ih => rw [turns, List.map_cons, ih]

theorem turns_answer (e : Engine) (s : Session σ) (inputs : List Input) :
    (s.turns e inputs).map Turn.answer = (s.run e inputs).1 := by
  induction inputs generalizing s with
  | nil => rfl
  | cons input rest ih => rw [turns, List.map_cons, ih, run]

theorem step_of_ignores (h : s.mode.Ignores input) : (s.step e input).2 = s := by
  obtain ⟨sent, answer⟩ := h.replies e
  rw [step, answer, Roll.run]
  rw [h.after]

theorem run_thinned {inputs : List Input} {kept : List (Turn ε)}
    (h : Thinned Turn.Ignored (s.turns e inputs) kept) :
    s.run e (kept.map Turn.input) = (kept.map Turn.answer, (s.run e inputs).2) := by
  induction inputs generalizing s kept with
  | nil =>
    cases h with
    | nil => rfl
  | cons input rest ih =>
    cases h with
    | keep turn h =>
      simp only [List.map_cons, run]
      rw [ih h]
    | drop ignored h =>
      -- The rest of the run starts where this input came.
      have still : (s.step e input).2 = s := step_of_ignores ignored
      have after : (s.run e (input :: rest)).2 = ((s.step e input).2.run e rest).2 := rfl
      rw [after]
      rw [still] at h ⊢
      exact ih h

theorem usage_ne_nextFormula : Formula.usage ≠ Reply.nextFormula.text := by
  decide

theorem noSuchDie_ne_chooseDie : noSuchDie ≠ Reply.chooseDie.text := by
  decide

def Told (e : Engine) (s : Session σ) (text told : String) : Prop :=
  ∃ sent, (s.step e (.text text)).1 = .ok sent ∧ told ∈ sent.map Reply.text

theorem draws_of_told {told : String} (h : s.Told e text told) :
    ∃ sent, told ∈ sent.map Reply.text ∧
      Draws (textReplies e text s.mode) ((replies e s.mode (.text text)).drawn s.roller).faces
        ((replies e s.mode (.text text)).drawn s.roller).units sent := by
  obtain ⟨sent, answered, member⟩ := h
  obtain ⟨r, ran⟩ := run_of_step_ok answered
  exact ⟨sent, member, draws_drawn ran⟩

theorem told_of_done {told : String} (h : textReplies e text s.mode = done sent)
    (member : told ∈ sent.map Reply.text) : s.Told e text told := by
  refine ⟨sent, ?_, member⟩
  rw [step, replies, h]
  rfl

/-- A text that is answered in two replies is told a refusal exactly if it is refused, as long as no
roll and no second reply reads like one. -/
theorem told_refusal_iff {first : Roll String} {next : Reply} {refusal : String} {Refused : Prop}
    (answer : textReplies e text s.mode = first >>= fun told => done [⟨told, none⟩, next])
    (refuses : Refused → first = done refusal)
    (rolls : ∀ {F U told}, Draws first F U told → Refused ∨ beginsRoll told = true)
    (noRoll : beginsRoll refusal = false) (noNext : refusal ≠ next.text) :
    s.Told e text refusal ↔ Refused := by
  constructor
  · intro h
    obtain ⟨sent, member, drawn⟩ := draws_of_told h
    rw [answer] at drawn
    obtain ⟨told, first, rfl⟩ := draws_bind_done_iff.mp drawn
    have same : refusal = told := by
      simpa [noNext] using member
    rcases rolls first with refused | begins
    · exact refused
    · rw [← same, noRoll] at begins
      cases begins
  · intro refused
    rw [refuses refused, done_bind] at answer
    exact told_of_done answer List.mem_cons_self

theorem told_usage_iff (formulas : s.mode = .awaitingFormula) (stays : Text.trim text ≠ back) :
    s.Told e text Formula.usage ↔ ∃ why, Formula.parse text = .error why := by
  have answer := textReplies_formula (e := e) stays
  rw [← formulas] at answer
  apply told_refusal_iff answer
  · rintro ⟨why, rejected⟩
    exact formulaText_of_rejected rejected
  · intro F U told drawn
    rcases formulaText_draws drawn with ⟨why, rejected, -⟩ | ⟨f, -, begins, -⟩
    · exact .inl ⟨why, rejected⟩
    · exact .inr begins
  · exact beginsRoll_usage
  · exact usage_ne_nextFormula

theorem told_noSuchDie_iff (quick : s.mode = .quickRoll) (stays : Text.trim text ≠ back) :
    s.Told e text noSuchDie ↔ ∀ choice, ¬ QuickChoice.Names (Text.trim text) choice := by
  have answer := textReplies_quick (e := e) stays
  rw [← quick] at answer
  apply told_refusal_iff answer
  · exact quickText_of_unnamed
  · intro F U told drawn
    rcases quickText_draws drawn with ⟨unnamed, -⟩ | ⟨choice, -, begins, -⟩
    · exact .inl unnamed
    · exact .inr begins
  · exact beginsRoll_noSuchDie
  · exact noSuchDie_ne_chooseDie

theorem drew_of_told {E : Evaluation} (h : s.Told e text E.text) :
    (replies e s.mode (.text text)).drawn s.roller ≠ ⟨[], []⟩ := by
  obtain ⟨sent, member, drawn⟩ := draws_of_told h
  obtain ⟨r, member, same⟩ := List.mem_map.mp member
  have drew := textReplies_drew drawn member (same ▸ E.beginsRoll_text)
  intro nothing
  rw [nothing] at drew
  simp at drew

/-- What a session ignores or refuses leaves it as it is, and may be left out of any run. Texts are
told so exactly if they are refused, and told a roll only if that drew. -/
structure LeavesNoTrace (e : Engine) (s : Session σ) : Prop where
  turns : ∀ inputs, (s.turns e inputs).map Turn.input = inputs ∧
    (s.turns e inputs).map Turn.answer = (s.run e inputs).1
  still : ∀ input, s.mode.Ignores input → (s.step e input).2 = s
  deletable : ∀ inputs kept, Thinned Turn.Ignored (s.turns e inputs) kept →
    s.run e (kept.map Turn.input) = (kept.map Turn.answer, (s.run e inputs).2)
  usage : ∀ text, s.mode = .awaitingFormula → Text.trim text ≠ back →
    (s.Told e text Formula.usage ↔ ∃ why, Formula.parse text = .error why)
  noSuchDie : ∀ text, s.mode = .quickRoll → Text.trim text ≠ back →
    (s.Told e text noSuchDie ↔ ∀ choice, ¬ QuickChoice.Names (Text.trim text) choice)
  drew : ∀ text (E : Evaluation), s.Told e text E.text →
    (replies e s.mode (.text text)).drawn s.roller ≠ ⟨[], []⟩

theorem ignored_leaves_no_trace (e : Engine) (s : Session σ) : s.LeavesNoTrace e where
  turns inputs := ⟨turns_input e s inputs, turns_answer e s inputs⟩
  still _ := step_of_ignores
  deletable _ _ := run_thinned
  usage _ := told_usage_iff
  noSuchDie _ := told_noSuchDie_iff
  drew _ _ := drew_of_told

theorem ignored_leaves_no_trace_formula :
    let s : Session Predetermined := ⟨.awaitingFormula, ⟨[5, 3], []⟩⟩
    let all : List Input := [.text "2x6", .command "/help", .text "2d6"]
    s.run {} [.text "2d6"] = ((s.run {} all).1.drop 2, (s.run {} all).2) := by
  intro s all
  have rejected : ∃ why, Formula.parse "2x6" = .error why := ⟨_, rfl⟩
  have stays : Text.trim "2x6" ≠ back := by decide +kernel
  exact (ignored_leaves_no_trace {} s).deletable all _
    (.drop ⟨stays, rejected⟩ (.drop trivial (.keep _ .nil)))

end Session

end TabletopDice.Dialogue
