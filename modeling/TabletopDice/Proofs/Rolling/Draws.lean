import TabletopDice.Roller.Predetermined

/-!
# What a roll draws

`Draws r F U a` says that `r` comes to `a` by drawing the faces `F` and the units `U`. It is what a
run on any roller leaves behind (`draws_drawn`), and all that a predetermined roller needs to repeat
it (`Draws.replay`).
-/

namespace TabletopDice.Roll

variable {α β : Type} {r : Roll α} {F : List UInt16} {U : List UnitDraw} {a : α}

/-- `r` comes to `a` by drawing faces and units in order, and nothing else. -/
inductive Draws : Roll α → List UInt16 → List UnitDraw → α → Prop
  | done (a : α) : Draws (done a) [] [] a
  | die {sides : UInt16} {next : UInt16 → Roll α} {face : UInt16} {F : List UInt16}
      {U : List UnitDraw} {a : α} (h : Draws (next face) F U a) :
      Draws (die sides next) (face :: F) U a
  | unit {next : UnitDraw → Roll α} {u : UnitDraw} {F : List UInt16} {U : List UnitDraw} {a : α}
      (h : Draws (next u) F U a) : Draws (unit next) F (u :: U) a

theorem draws_done_iff {b : α} : Draws (done b) F U a ↔ F = [] ∧ U = [] ∧ a = b := by
  constructor
  · rintro ⟨⟩
    exact ⟨rfl, rfl, rfl⟩
  · rintro ⟨rfl, rfl, rfl⟩
    exact .done a

/-- What a roll in two parts draws is what its parts draw, one after the other. -/
theorem draws_bind_iff {f : α → Roll β} {b : β} :
    Draws (r >>= f) F U b ↔
      ∃ a F₁ F₂ U₁ U₂, F = F₁ ++ F₂ ∧ U = U₁ ++ U₂ ∧ Draws r F₁ U₁ a ∧ Draws (f a) F₂ U₂ b := by
  constructor
  · intro h
    induction r generalizing F U with
    | done a => exact ⟨a, [], F, [], U, rfl, rfl, .done a, h⟩
    | die sides next ih =>
      cases h with
      | die h =>
        obtain ⟨a, F₁, F₂, U₁, U₂, rfl, rfl, first, second⟩ := ih _ h
        exact ⟨a, _ :: F₁, F₂, U₁, U₂, rfl, rfl, .die first, second⟩
    | unit next ih =>
      cases h with
      | unit h =>
        obtain ⟨a, F₁, F₂, U₁, U₂, rfl, rfl, first, second⟩ := ih _ h
        exact ⟨a, F₁, F₂, _ :: U₁, U₂, rfl, rfl, .unit first, second⟩
  · rintro ⟨a, F₁, F₂, U₁, U₂, rfl, rfl, first, second⟩
    induction first with
    | done a => exact second
    | die _ ih => exact .die (ih second)
    | unit _ ih => exact .unit (ih second)

theorem draws_bind_done_iff {f : α → β} {b : β} :
    Draws (r >>= fun a => done (f a)) F U b ↔ ∃ a, Draws r F U a ∧ b = f a := by
  constructor
  · intro h
    obtain ⟨a, F₁, F₂, U₁, U₂, rfl, rfl, first, second⟩ := draws_bind_iff.mp h
    obtain ⟨rfl, rfl, rfl⟩ := draws_done_iff.mp second
    rw [List.append_nil, List.append_nil]
    exact ⟨a, first, rfl⟩
  · rintro ⟨a, first, rfl⟩
    exact draws_bind_iff.mpr ⟨a, F, [], U, [], (List.append_nil F).symm, (List.append_nil U).symm,
      first, .done _⟩

theorem draws_oneDie_bind_iff {sides : UInt16} {f : UInt16 → Roll α} :
    Draws (oneDie sides >>= f) F U a ↔ ∃ face F', F = face :: F' ∧ Draws (f face) F' U a := by
  constructor
  · intro h
    cases h with
    | die h => exact ⟨_, _, rfl, h⟩
  · rintro ⟨face, F', rfl, h⟩
    exact .die h

theorem draws_oneUnit_bind_iff {f : UnitDraw → Roll α} :
    Draws (oneUnit >>= f) F U a ↔ ∃ u U', U = u :: U' ∧ Draws (f u) F U' a := by
  constructor
  · intro h
    cases h with
    | unit h => exact ⟨_, _, rfl, h⟩
  · rintro ⟨u, U', rfl, h⟩
    exact .unit h

/-! ### Runs -/

section Runs

variable {σ ε : Type} [Roller σ ε] {s s' : σ}

theorem run_bind_ok_iff {f : α → Roll β} {b : β} :
    (r >>= f).run s = (.ok b, s') ↔
      ∃ a s₁, r.run s = (.ok a, s₁) ∧ (f a).run s₁ = (.ok b, s') := by
  rw [run_bind]
  cases r.run s with
  | mk answer s₁ =>
    cases answer with
    | error cause => simp
    | ok a =>
      constructor
      · intro second
        exact ⟨a, s₁, rfl, second⟩
      · rintro ⟨_, _, ⟨⟩, second⟩
        exact second

theorem run_bind_done_iff {f : α → β} {b : β} :
    (r >>= fun a => done (f a)).run s = (.ok b, s') ↔ ∃ a, r.run s = (.ok a, s') ∧ b = f a := by
  rw [run_bind_ok_iff]
  constructor
  · rintro ⟨a, s₁, first, second⟩
    cases second
    exact ⟨a, first, rfl⟩
  · rintro ⟨a, first, rfl⟩
    exact ⟨a, s', first, rfl⟩

theorem run_bind_error_iff {f : α → Roll β} {cause : ε} :
    (r >>= f).run s = (.error cause, s') ↔
      r.run s = (.error cause, s') ∨
        ∃ a s₁, r.run s = (.ok a, s₁) ∧ (f a).run s₁ = (.error cause, s') := by
  rw [run_bind]
  cases r.run s with
  | mk answer s₁ =>
    cases answer with
    | error cause => simp
    | ok a => simp [and_assoc]

theorem run_bind_done_error_iff {f : α → β} {cause : ε} :
    (r >>= fun a => done (f a)).run s = (.error cause, s') ↔ r.run s = (.error cause, s') := by
  rw [run_bind_error_iff]
  simp [run]

theorem run_bind_done (r : Roll α) (f : α → β) (s : σ) :
    (r >>= fun a => done (f a)).run s = ((r.run s).1.map f, (r.run s).2) := by
  rw [run_bind]
  cases r.run s with
  | mk answer s₁ =>
    cases answer with
    | error cause => rfl
    | ok a => rfl

/-- What a roller hands out while it answers a roll, up to where it fails. -/
def drawn (r : Roll α) (s : σ) : Predetermined :=
  match r with
  | done _ => ⟨[], []⟩
  | die sides next =>
    match Roller.rollDie sides s with
    | (.ok face, s) =>
      let later := (next face).drawn s
      { later with faces := face :: later.faces }
    | (.error _, _) => ⟨[], []⟩
  | unit next =>
    match Roller.rollUnit s with
    | (.ok u, s) =>
      let later := (next u).drawn s
      { later with units := u :: later.units }
    | (.error _, _) => ⟨[], []⟩

theorem draws_drawn (h : r.run s = (.ok a, s')) :
    Draws r (r.drawn s).faces (r.drawn s).units a := by
  induction r generalizing s with
  | done b =>
    cases h
    exact .done a
  | die sides next ih =>
    rw [run] at h
    rw [drawn]
    generalize Roller.rollDie sides s = answer at h ⊢
    obtain ⟨cause | face, s₁⟩ := answer
    · cases h
    · exact .die (ih face h)
  | unit next ih =>
    rw [run] at h
    rw [drawn]
    generalize Roller.rollUnit s = answer at h ⊢
    obtain ⟨cause | u, s₁⟩ := answer
    · cases h
    · exact .unit (ih u h)

theorem drawn_bind_done (r : Roll α) (f : α → β) (s : σ) :
    (r >>= fun a => done (f a)).drawn s = r.drawn s := by
  induction r generalizing s with
  | done a => rfl
  | die sides next ih =>
    rw [die_bind, drawn, drawn]
    generalize Roller.rollDie sides s = answer
    obtain ⟨cause | face, s₁⟩ := answer
    · rfl
    · simp only [ih]
  | unit next ih =>
    rw [unit_bind, drawn, drawn]
    generalize Roller.rollUnit s = answer
    obtain ⟨cause | u, s₁⟩ := answer
    · rfl
    · simp only [ih]

end Runs

/-! ### Runs on predetermined values -/

/-- A predetermined roller that starts with the values drawn repeats the roll and keeps the rest. -/
theorem Draws.replay (h : Draws r F U a) (X : List UInt16) (Y : List UnitDraw) :
    r.run (⟨F ++ X, U ++ Y⟩ : Predetermined) = (.ok a, ⟨X, Y⟩) := by
  induction h with
  | done a => rfl
  | die _ ih => exact ih
  | unit _ ih => exact ih

theorem Draws.run_short_faces (h : Draws r F U a) {F' : List UInt16} (starts : F' <+: F)
    (short : F' ≠ F) (Y : List UnitDraw) :
    (r.run (⟨F', U ++ Y⟩ : Predetermined)).1 = .error .dice := by
  induction h generalizing F' with
  | done a => exact absurd (List.prefix_nil.mp starts) short
  | die h ih =>
    cases F' with
    | nil => rfl
    | cons face F' =>
      obtain ⟨rfl, more⟩ := List.cons_prefix_cons.mp starts
      exact ih more fun same => short (same ▸ rfl)
  | unit h ih => exact ih starts short

theorem Draws.run_short_units (h : Draws r F U a) {U' : List UnitDraw} (starts : U' <+: U)
    (short : U' ≠ U) (X : List UInt16) :
    (r.run (⟨F ++ X, U'⟩ : Predetermined)).1 = .error .units := by
  induction h generalizing U' with
  | done a => exact absurd (List.prefix_nil.mp starts) short
  | die h ih => exact ih starts short
  | unit h ih =>
    cases U' with
    | nil => rfl
    | cons u U' =>
      obtain ⟨rfl, more⟩ := List.cons_prefix_cons.mp starts
      exact ih more fun same => short (same ▸ rfl)

end TabletopDice.Roll
