import TabletopDice.Proofs.Rolling.Limits

/-!
# Rolls of fair dice

A die is fair as far as it shows one of its sides. `Permits r a` says that `r` can come to `a` with
fair dice. A run on fair dice comes to no more than that (`permits_of_run`), and predetermined
values lead to all of it (`Permits.exists_run`).
-/

namespace TabletopDice

def OnDie (sides face : UInt16) : Prop :=
  1 ≤ face ∧ face ≤ sides

instance (sides face : UInt16) : Decidable (OnDie sides face) :=
  inferInstanceAs (Decidable (_ ∧ _))

namespace Roll

variable {α β : Type} {r : Roll α} {a : α} {F : List UInt16} {U : List UnitDraw}

/-- Whether every die that a roller answers for a roll shows one of its sides. -/
def Fair {σ ε : Type} [Roller σ ε] (r : Roll α) (s : σ) : Prop :=
  match r with
  | done _ => True
  | die sides next =>
    match Roller.rollDie sides s with
    | (.ok face, s) => OnDie sides face ∧ (next face).Fair s
    | (.error _, _) => True
  | unit next =>
    match Roller.rollUnit s with
    | (.ok u, s) => (next u).Fair s
    | (.error _, _) => True

instance decidableFair {σ ε : Type} [Roller σ ε] : (r : Roll α) → (s : σ) → Decidable (r.Fair s)
  | done _, _ => .isTrue trivial
  | die sides next, s =>
    match answer : Roller.rollDie sides s with
    | (.ok face, s₁) =>
      have := decidableFair (next face) s₁
      decidable_of_iff (OnDie sides face ∧ (next face).Fair s₁) (by rw [Fair, answer])
    | (.error _, _) => .isTrue (by rw [Fair, answer]; trivial)
  | unit next, s =>
    match answer : Roller.rollUnit s with
    | (.ok u, s₁) =>
      have := decidableFair (next u) s₁
      decidable_of_iff ((next u).Fair s₁) (by rw [Fair, answer])
    | (.error _, _) => .isTrue (by rw [Fair, answer]; trivial)

/-- `r` can come to `a` while every die shows one of its sides. -/
inductive Permits : Roll α → α → Prop
  | done (a : α) : Permits (done a) a
  | die {sides face : UInt16} {next : UInt16 → Roll α} {a : α} (on : OnDie sides face)
      (h : Permits (next face) a) : Permits (die sides next) a
  | unit {u : UnitDraw} {next : UnitDraw → Roll α} {a : α} (h : Permits (next u) a) :
      Permits (unit next) a

theorem permits_of_run {σ ε : Type} [Roller σ ε] {s s' : σ} (fair : r.Fair s)
    (ran : r.run s = (.ok a, s')) : r.Permits a := by
  induction r generalizing s with
  | done b =>
    cases ran
    exact .done a
  | die sides next ih =>
    rw [run] at ran
    rw [Fair] at fair
    generalize Roller.rollDie sides s = answer at ran fair
    obtain ⟨cause | face, s₁⟩ := answer
    · cases ran
    · exact .die fair.1 (ih face fair.2 ran)
  | unit next ih =>
    rw [run] at ran
    rw [Fair] at fair
    generalize Roller.rollUnit s = answer at ran fair
    obtain ⟨cause | u, s₁⟩ := answer
    · cases ran
    · exact .unit (ih u fair ran)

theorem Permits.exists_run (h : r.Permits a) :
    ∃ p : Predetermined, r.Fair p ∧ r.run p = (.ok a, ⟨[], []⟩) := by
  induction h with
  | done a => exact ⟨⟨[], []⟩, trivial, rfl⟩
  | @die sides face next a on _ ih =>
    obtain ⟨p, fair, ran⟩ := ih
    exact ⟨{ p with faces := face :: p.faces }, ⟨on, fair⟩, ran⟩
  | @unit u next a _ ih =>
    obtain ⟨p, fair, ran⟩ := ih
    exact ⟨{ p with units := u :: p.units }, fair, ran⟩

theorem permits_done_iff {b : α} : (Roll.done b).Permits a ↔ a = b := by
  constructor
  · rintro ⟨⟩
    rfl
  · rintro rfl
    exact .done a

theorem permits_bind_iff {f : α → Roll β} {b : β} :
    (r >>= f).Permits b ↔ ∃ a, r.Permits a ∧ (f a).Permits b := by
  constructor
  · intro h
    induction r with
    | done a => exact ⟨a, .done a, h⟩
    | die sides next ih =>
      cases h with
      | die on h =>
        obtain ⟨a, first, second⟩ := ih _ h
        exact ⟨a, .die on first, second⟩
    | unit next ih =>
      cases h with
      | unit h =>
        obtain ⟨a, first, second⟩ := ih _ h
        exact ⟨a, .unit first, second⟩
  · rintro ⟨a, first, second⟩
    induction first with
    | done a => exact second
    | die on _ ih => exact .die on (ih second)
    | unit _ ih => exact .unit (ih second)

theorem permits_bind_done_iff {f : α → β} {b : β} :
    (r >>= fun a => Roll.done (f a)).Permits b ↔ ∃ a, r.Permits a ∧ b = f a := by
  simp only [permits_bind_iff, permits_done_iff]

theorem permits_mapM_iff {f : α → Roll β} {l : List α} {out : List β} :
    (l.mapM f).Permits out ↔ List.Forall₂ (fun a b => (f a).Permits b) l out := by
  induction l generalizing out with
  | nil =>
    rw [List.mapM_nil, List.forall₂_nil_left_iff]
    exact permits_done_iff
  | cons a l ih =>
    rw [List.mapM_cons, List.forall₂_cons_left_iff, permits_bind_iff]
    constructor
    · rintro ⟨b, first, h⟩
      obtain ⟨bs, others, rfl⟩ := permits_bind_done_iff.mp h
      exact ⟨b, bs, first, ih.mp others, rfl⟩
    · rintro ⟨b, bs, first, others, rfl⟩
      exact ⟨b, first, permits_bind_done_iff.mpr ⟨bs, ih.mpr others, rfl⟩⟩

theorem Permits.exists_draws (h : r.Permits a) : ∃ F U, Draws r F U a := by
  induction h with
  | done a => exact ⟨[], [], .done a⟩
  | die _ _ ih =>
    obtain ⟨F, U, draws⟩ := ih
    exact ⟨_ :: F, U, .die draws⟩
  | unit _ ih =>
    obtain ⟨F, U, draws⟩ := ih
    exact ⟨F, _ :: U, .unit draws⟩

/-! ### Rolls of dice alone, and of none -/

theorem OnlyDice.permits_iff {sides : UInt16} (only : OnlyDice sides r) :
    r.Permits a ↔ ∃ F, Draws r F [] a ∧ ∀ face ∈ F, OnDie sides face := by
  constructor
  · intro h
    induction only with
    | done b =>
      obtain rfl := permits_done_iff.mp h
      exact ⟨[], .done a, by simp⟩
    | die _ ih =>
      cases h with
      | die on h =>
        obtain ⟨F, draws, fair⟩ := ih _ h
        exact ⟨_ :: F, .die draws, List.forall_mem_cons.mpr ⟨on, fair⟩⟩
  · rintro ⟨F, draws, fair⟩
    induction only generalizing F with
    | done b =>
      obtain ⟨-, -, rfl⟩ := draws_done_iff.mp draws
      exact .done a
    | die _ ih =>
      cases draws with
      | die draws =>
        rw [List.forall_mem_cons] at fair
        exact .die fair.1 (ih _ _ draws fair.2)

theorem Draws.permits (h : Draws r F U a) (noFaces : F = []) : r.Permits a := by
  induction h with
  | done a => exact .done a
  | die _ _ => cases noFaces
  | unit _ ih => exact .unit (ih noFaces)

end Roll

end TabletopDice
