import TabletopDice.Roll.Basic

/-!
# Rollers

A roller of type `σ` hands out random values and goes on as another roller; it may also fail with a
cause of type `ε`. `Roll.run` answers everything a roll asks for from one roller.
-/

namespace TabletopDice

class Roller (σ : Type) (ε : outParam Type) where
  /-- The face of a die, and the roller after it. -/
  rollDie : UInt16 → σ → Except ε UInt16 × σ
  /-- A number of the unit interval, and the roller after it. -/
  rollUnit : σ → Except ε UnitDraw × σ

/-- The result of a roll and the roller after it. Where the roller fails, the roll ends with the
cause, and what was drawn before stays drawn. -/
def Roll.run {α σ ε : Type} [Roller σ ε] : Roll α → σ → Except ε α × σ
  | .done a, s => (.ok a, s)
  | .die sides next, s =>
    match Roller.rollDie sides s with
    | (.ok face, s) => (next face).run s
    | (.error e, s) => (.error e, s)
  | .unit next, s =>
    match Roller.rollUnit s with
    | (.ok u, s) => (next u).run s
    | (.error e, s) => (.error e, s)

/-- The result of a roll and the roller after it, where the roller never fails. -/
def Roll.draw {α σ : Type} [Roller σ Empty] (r : Roll α) (s : σ) : α × σ :=
  match r.run s with
  | (.ok a, s) => (a, s)

theorem Roll.run_bind {α β σ ε : Type} [Roller σ ε] (r : Roll α) (f : α → Roll β) (s : σ) :
    (r >>= f).run s =
      match r.run s with
      | (.ok a, s) => (f a).run s
      | (.error e, s) => (.error e, s) := by
  induction r generalizing s with
  | done => rfl
  | die sides next ih =>
    simp only [die_bind, run]
    split <;> simp_all
  | unit next ih =>
    simp only [unit_bind, run]
    split <;> simp_all

end TabletopDice
