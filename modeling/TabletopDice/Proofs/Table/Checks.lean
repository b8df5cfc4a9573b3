import TabletopDice.Table
import TabletopDice.Proofs.Dialogue.Ignored

/-!
# Checks at a table

A check goes as the evaluation of its formula, whose total is compared with the difficulty. A check
that is denied and a text that is no formula draw nothing, so a table may be served without them:
`check_rolls_as_evaluated`.
-/

namespace TabletopDice

open Roll

/-! ### Verdicts -/

structure Verdict.Compares (v : Verdict) : Prop where
  success : v.success = true ↔ v.difficulty ≤ v.evaluation.total
  nonneg : v.success = true ↔ 0 ≤ v.margin
  zero : v.margin = 0 ↔ v.evaluation.total = v.difficulty
  margin : v.margin.toInt = max Int64.minValue.toInt
    (min (v.evaluation.total.toInt - v.difficulty.toInt) Int64.maxValue.toInt)

theorem Verdict.success_iff (v : Verdict) :
    v.success = true ↔ v.difficulty ≤ v.evaluation.total :=
  decide_eq_true_iff

theorem Verdict.compares (v : Verdict) : v.Compares := by
  have margin := Score.toInt_sub v.evaluation.total v.difficulty
  have least : Int64.minValue.toInt = -9223372036854775808 := rfl
  have greatest : Int64.maxValue.toInt = 9223372036854775807 := rfl
  refine ⟨v.success_iff, ?_, ?_, margin⟩
  · rw [v.success_iff, Int64.le_iff_toInt_le, Int64.le_iff_toInt_le, Verdict.margin, margin,
      Int64.toInt_zero]
    omega
  · rw [← Int64.toInt_inj, ← Int64.toInt_inj, Verdict.margin, margin, Int64.toInt_zero]
    omega

theorem Verdict.success_lower {E : Evaluation} {d d' : Score} (h : (⟨E, d⟩ : Verdict).success = true)
    (lower : d' ≤ d) : (⟨E, d'⟩ : Verdict).success = true := by
  rw [success_iff] at h ⊢
  exact Int64.le_trans lower h

/-! ### Checks -/

section Checks

variable {c : Check} {e : Engine} {gate : Gate} {p : Participant} {raw : String} {f : Formula}
  {why : Formula.Rejection}

theorem Check.roll_of_ok (parsed : Formula.parse raw = .ok f) :
    c.roll e raw = .ok (e.roll f >>= fun E => done ⟨E, c.difficulty⟩) := by
  rw [roll, e.evaluate_of_ok parsed]
  rfl

theorem Check.roll_of_error (rejected : Formula.parse raw = .error why) :
    c.roll e raw = .error why := by
  rw [roll, e.evaluate_of_error rejected]
  rfl

theorem Check.rollAs_of_denied (denied : gate p = false) :
    c.rollAs gate p e raw = .error (.denied p) :=
  if_neg (by simp [denied])

theorem Check.rollAs_of_admitted (admitted : gate p = true) :
    c.rollAs gate p e raw = (c.roll e raw).mapError .formula :=
  if_pos admitted

namespace Request

theorem answer_evaluate_of_ok (parsed : Formula.parse raw = .ok f) :
    (evaluate raw).answer e = e.roll f >>= fun E => done (.evaluation E) := by
  unfold answer
  dsimp only
  rw [e.evaluate_of_ok parsed]
  rfl

theorem answer_evaluate_of_error (rejected : Formula.parse raw = .error why) :
    (evaluate raw).answer e = done (.rejected why) := by
  unfold answer
  dsimp only
  rw [e.evaluate_of_error rejected]
  rfl

theorem answer_check_of_ok (parsed : Formula.parse raw = .ok f) :
    (check c raw).answer e = e.roll f >>= fun E => done (.verdict ⟨E, c.difficulty⟩) := by
  unfold answer
  dsimp only
  rw [Check.roll_of_ok parsed]
  exact Roll.bind_assoc _ _ _

theorem answer_check_of_error (rejected : Formula.parse raw = .error why) :
    (check c raw).answer e = done (.refused (.formula why)) := by
  unfold answer
  dsimp only
  rw [Check.roll_of_error rejected]
  rfl

theorem answer_checkAs_of_denied (denied : gate p = false) :
    (checkAs c gate p raw).answer e = done (.refused (.denied p)) := by
  unfold answer
  dsimp only
  rw [Check.rollAs_of_denied denied]
  rfl

theorem answer_checkAs_of_admitted (admitted : gate p = true) :
    (checkAs c gate p raw).answer e = (check c raw).answer e := by
  unfold answer
  dsimp only
  rw [Check.rollAs_of_admitted admitted]
  cases c.roll e raw with
  | error why => rfl
  | ok verdict => rfl

end Request

end Checks

/-! ### Requests that are turned down -/

/-- Whether the answer is that the request is denied or no formula. -/
def Answer.TurnsDown : Answer → Prop
  | rejected _ => True
  | refused _ => True
  | _ => False

def Request.TurnedDown : Request → Prop
  | evaluate raw => ∃ why, Formula.parse raw = .error why
  | check _ raw => ∃ why, Formula.parse raw = .error why
  | checkAs _ gate p raw => gate p = false ∨ ∃ why, Formula.parse raw = .error why
  | _ => False

theorem Formula.parses_of_not_rejected {raw : String}
    (h : ¬ ∃ why, Formula.parse raw = .error why) : ∃ f, Formula.parse raw = .ok f := by
  cases parsed : Formula.parse raw with
  | error why => exact absurd ⟨why, parsed⟩ h
  | ok f => exact ⟨f, rfl⟩

namespace Request

variable {e : Engine} {request : Request} {F : List UInt16} {U : List UnitDraw} {a : Answer}

theorem answer_of_turnedDown (h : request.TurnedDown) (e : Engine) :
    ∃ a : Answer, a.TurnsDown ∧ request.answer e = done a := by
  cases request with
  | evaluate raw =>
    obtain ⟨why, rejected⟩ := h
    exact ⟨.rejected why, trivial, answer_evaluate_of_error rejected⟩
  | check c raw =>
    obtain ⟨why, rejected⟩ := h
    exact ⟨.refused (.formula why), trivial, answer_check_of_error rejected⟩
  | checkAs c gate p raw =>
    -- The gate is asked before the text is looked at.
    cases admitted : gate p with
    | false => exact ⟨.refused (.denied p), trivial, answer_checkAs_of_denied admitted⟩
    | true =>
      obtain denied | ⟨why, rejected⟩ := h
      · rw [admitted] at denied
        cases denied
      · rw [answer_checkAs_of_admitted admitted]
        exact ⟨.refused (.formula why), trivial, answer_check_of_error rejected⟩
  | _ => exact h.elim

theorem not_turnsDown_of_bind {α : Type} {r : Roll α} {answer : α → Answer}
    (serves : ∀ x, ¬ (answer x).TurnsDown)
    (drawn : Draws (r >>= fun x => done (answer x)) F U a) : ¬ a.TurnsDown := by
  obtain ⟨x, -, rfl⟩ := draws_bind_done_iff.mp drawn
  exact serves x

theorem not_turnsDown_check {c : Check} {raw : String} {f : Formula}
    (parsed : Formula.parse raw = .ok f) (drawn : Draws ((check c raw).answer e) F U a) :
    ¬ a.TurnsDown := by
  rw [answer_check_of_ok parsed] at drawn
  exact not_turnsDown_of_bind (fun _ => id) drawn

theorem not_turnsDown (h : ¬ request.TurnedDown) (drawn : Draws (request.answer e) F U a) :
    ¬ a.TurnsDown := by
  cases request with
  | evaluate raw =>
    obtain ⟨f, parsed⟩ := Formula.parses_of_not_rejected h
    rw [answer_evaluate_of_ok parsed] at drawn
    exact not_turnsDown_of_bind (fun _ => id) drawn
  | check c raw =>
    obtain ⟨f, parsed⟩ := Formula.parses_of_not_rejected h
    exact not_turnsDown_check parsed drawn
  | checkAs c gate p raw =>
    obtain ⟨admitted, accepted⟩ := not_or.mp h
    obtain ⟨f, parsed⟩ := Formula.parses_of_not_rejected accepted
    rw [answer_checkAs_of_admitted (by simpa using admitted)] at drawn
    exact not_turnsDown_check parsed drawn
  | _ => exact not_turnsDown_of_bind (fun _ => id) drawn

section Runs

variable {σ ε : Type} [Roller σ ε] {s s' : σ}

theorem run_of_turnedDown (h : request.TurnedDown) (e : Engine) (s : σ) :
    ∃ a : Answer, a.TurnsDown ∧ (request.answer e).run s = (.ok a, s) := by
  obtain ⟨a, down, answer⟩ := answer_of_turnedDown h e
  exact ⟨a, down, by rw [answer, Roll.run]⟩

theorem turnsDown_iff (h : (request.answer e).run s = (.ok a, s')) :
    a.TurnsDown ↔ request.TurnedDown := by
  constructor
  · intro down
    by_contra served
    exact not_turnsDown served (draws_drawn h) down
  · intro turned
    obtain ⟨b, down, answer⟩ := run_of_turnedDown turned e s
    rw [h] at answer
    cases answer
    exact down

/-! ### Tables without what is turned down -/

def Dismissed (t : Request × Except ε Answer) : Prop :=
  ∃ a : Answer, t.2 = .ok a ∧ a.TurnsDown

theorem serve_cons (e : Engine) (s : σ) (request : Request) (rest : List Request) :
    serve e s (request :: rest) =
      (((request.answer e).run s).1 :: (serve e ((request.answer e).run s).2 rest).1,
        (serve e ((request.answer e).run s).2 rest).2) :=
  rfl

theorem length_serve (e : Engine) (s : σ) (requests : List Request) :
    (serve e s requests).1.length = requests.length := by
  induction requests generalizing s with
  | nil => rfl
  | cons request rest ih => rw [serve_cons, List.length_cons, List.length_cons, ih]

theorem run_of_dismissed (h : Dismissed (request, ((request.answer e).run s).1)) :
    ((request.answer e).run s).2 = s := by
  obtain ⟨a, answered, down⟩ := h
  have ran : (request.answer e).run s = (.ok a, ((request.answer e).run s).2) :=
    Prod.ext answered rfl
  obtain ⟨b, -, still⟩ := run_of_turnedDown ((turnsDown_iff ran).mp down) e s
  rw [still]

theorem serve_thinned {requests : List Request} {kept : List (Request × Except ε Answer)}
    (h : Dialogue.Thinned Dismissed (requests.zip (serve e s requests).1) kept) :
    serve e s (kept.map Prod.fst) = (kept.map Prod.snd, (serve e s requests).2) := by
  induction requests generalizing s kept with
  | nil =>
    cases h with
    | nil => rfl
  | cons request rest ih =>
    rw [serve_cons, List.zip_cons_cons] at h
    rw [serve_cons]
    cases h with
    | keep answered h =>
      rw [List.map_cons, serve_cons, ih h]
      rfl
    | drop dismissed h =>
      -- The rest is served by the roller that was there before.
      have still := run_of_dismissed dismissed
      rw [still] at h ⊢
      exact ih h

end Runs

end Request

/-! ### A check goes as its evaluation -/

section Served

variable {σ ε : Type} [Roller σ ε]

theorem Request.run_check_iff {c : Check} {e : Engine} {raw : String} {s s' : σ} {v : Verdict} :
    ((check c raw).answer e).run s = (.ok (.verdict v), s') ↔
      ∃ f E, Formula.parse raw = .ok f ∧ (e.roll f).run s = (.ok E, s') ∧
        v = ⟨E, c.difficulty⟩ := by
  cases parsed : Formula.parse raw with
  | error why =>
    rw [answer_check_of_error parsed, Roll.run]
    simp
  | ok f =>
    rw [answer_check_of_ok parsed, run_bind_done_iff]
    simp

/-- How a check of a text, and the same check asked for by a participant, are served. -/
structure Check.Served (c : Check) (e : Engine) (s : σ) (gate : Gate) (p : Participant)
    (raw : String) : Prop where
  denied : gate p = false → c.rollAs gate p e raw = .error (.denied p) ∧
    ((Request.checkAs c gate p raw).answer e).run s = (.ok (.refused (.denied p)), s)
  admitted : gate p = true → c.rollAs gate p e raw = (c.roll e raw).mapError .formula ∧
    (Request.checkAs c gate p raw).answer e = (Request.check c raw).answer e
  rejected : ∀ why, Formula.parse raw = .error why → c.roll e raw = .error why ∧
    ((Request.check c raw).answer e).run s = (.ok (.refused (.formula why)), s)
  rolled : ∀ f, Formula.parse raw = .ok f →
    ∃ (evaluation : Roll Evaluation) (verdict : Roll Verdict),
      e.evaluate raw = .ok evaluation ∧ c.roll e raw = .ok verdict ∧
      verdict.run s =
        ((evaluation.run s).1.map fun E => ⟨E, c.difficulty⟩, (evaluation.run s).2)
  lower : ∀ d ≤ c.difficulty, ∀ (v : Verdict) (s' : σ),
    ((Request.check c raw).answer e).run s = (.ok (.verdict v), s') → v.success = true →
    ((Request.check ⟨d⟩ raw).answer e).run s = (.ok (.verdict ⟨v.evaluation, d⟩), s') ∧
      (⟨v.evaluation, d⟩ : Verdict).success = true

theorem Check.served (c : Check) (e : Engine) (s : σ) (gate : Gate) (p : Participant)
    (raw : String) : c.Served e s gate p raw where
  denied denied := by
    rw [Request.answer_checkAs_of_denied denied]
    exact ⟨rollAs_of_denied denied, rfl⟩
  admitted admitted :=
    ⟨rollAs_of_admitted admitted, Request.answer_checkAs_of_admitted admitted⟩
  rejected why rejected := by
    rw [Request.answer_check_of_error rejected]
    exact ⟨roll_of_error rejected, rfl⟩
  rolled f parsed :=
    ⟨e.roll f, _, e.evaluate_of_ok parsed, roll_of_ok parsed, run_bind_done (e.roll f) _ s⟩
  lower d lower v s' ran success := by
    obtain ⟨f, E, parsed, rolled, rfl⟩ := Request.run_check_iff.mp ran
    exact ⟨Request.run_check_iff.mpr ⟨f, E, parsed, rolled, rfl⟩,
      Verdict.success_lower success lower⟩

/-- A table answers every request, turns down those that are denied or no formula, and may do
without any of these. -/
structure Request.Serves (e : Engine) (s : σ) : Prop where
  answered : ∀ requests, (serve e s requests).1.length = requests.length
  turnsDown : ∀ (request : Request) (a : Answer) (s' : σ),
    (request.answer e).run s = (.ok a, s') → (a.TurnsDown ↔ request.TurnedDown)
  deletable : ∀ requests kept,
    Dialogue.Thinned Dismissed (requests.zip (serve e s requests).1) kept →
    serve e s (kept.map Prod.fst) = (kept.map Prod.snd, (serve e s requests).2)

theorem check_rolls_as_evaluated (e : Engine) (s : σ) :
    (∀ c gate p raw, Check.Served c e s gate p raw) ∧ (∀ v : Verdict, v.Compares) ∧
      Request.Serves e s := by
  refine ⟨fun c gate p raw => c.served e s gate p raw, Verdict.compares, ?_⟩
  exact {
    answered := Request.length_serve e s
    turnsDown := fun _ _ _ => Request.turnsDown_iff
    deletable := fun _ _ => Request.serve_thinned }

theorem check_rolls_as_evaluated_dismissed :
    let s : Predetermined := ⟨[12], []⟩
    let all : List Request :=
      [.checkAs ⟨10⟩ (· == 7) 8 "1d20", .evaluate "1q20", .check ⟨15⟩ "1d20-1"]
    Request.serve {} s [.check ⟨15⟩ "1d20-1"] =
      ((Request.serve {} s all).1.drop 2, (Request.serve {} s all).2) := by
  intro s all
  obtain ⟨-, -, serves⟩ := check_rolls_as_evaluated {} s
  refine serves.deletable all _ (.drop ?denied (.drop ?rejected (.keep _ .nil)))
  case denied => exact ⟨.refused (.denied 8), rfl, trivial⟩
  case rejected => exact ⟨.rejected _, rfl, trivial⟩

end Served

end TabletopDice
