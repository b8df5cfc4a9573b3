import TabletopDice.Proofs.Rolling.Chains
import TabletopDice.Proofs.Rolling.Terms

/-!
# Limits on extra rolls

Two limits on the extra rolls of a die lead to the same evaluation, on any roller, as long as no die
gets to the lower one: `Engine.roll_under_limits`.
-/

namespace TabletopDice

/-! ### Rolls of one kind of die -/

namespace Roll

variable {α β σ ε : Type} [Roller σ ε] {r : Roll α} {s s' : σ} {sides : UInt16} {a : α}

/-- Every die of the roll has the given sides, and it draws no units. -/
inductive OnlyDice (sides : UInt16) : Roll α → Prop
  | done (a : α) : OnlyDice sides (done a)
  | die {next : UInt16 → Roll α} (h : ∀ face, OnlyDice sides (next face)) :
      OnlyDice sides (die sides next)

theorem OnlyDice.oneDie : OnlyDice sides (oneDie sides) :=
  .die fun face => .done face

theorem OnlyDice.bind {f : α → Roll β} (h : OnlyDice sides r) (h' : ∀ a, OnlyDice sides (f a)) :
    OnlyDice sides (r >>= f) := by
  induction h with
  | done a => exact h' a
  | die _ ih => exact .die ih

theorem OnlyDice.run_of_draws {r' : Roll β} {U : List UnitDraw} {b : β} (h : OnlyDice sides r)
    (h' : OnlyDice sides r') (ran : r.run s = (.ok a, s'))
    (draws : Draws r' (r.drawn s).faces U b) : r'.run s = (.ok b, s') := by
  induction h generalizing r' s with
  | done a =>
    cases h' with
    | done b' =>
      obtain ⟨-, -, rfl⟩ := draws_done_iff.mp draws
      cases ran
      rfl
    | die h' => cases draws
  | die h ih =>
    rw [run] at ran
    rw [drawn] at draws
    cases answered : Roller.rollDie sides s with
    | mk answer s₁ =>
      rw [answered] at ran draws
      cases answer with
      | error cause => cases ran
      | ok face =>
        cases h' with
        | done b' => cases draws
        | die h' =>
          cases draws with
          | die draws =>
            rw [run, answered]
            exact ih face (h' face) ran draws

theorem mapM_run_of {f g : α → Roll β} {P Q : β → Prop}
    (each : ∀ {a b} {s s' : σ}, (f a).run s = (.ok b, s') → P b → (g a).run s = (.ok b, s') ∧ Q b)
    {l : List α} {out : List β} (ran : (l.mapM f).run s = (.ok out, s')) (holds : ∀ b ∈ out, P b) :
    (l.mapM g).run s = (.ok out, s') ∧ ∀ b ∈ out, Q b := by
  induction l generalizing s out with
  | nil =>
    rw [List.mapM_nil] at ran ⊢
    cases ran
    exact ⟨rfl, by simp⟩
  | cons a l ih =>
    rw [List.mapM_cons] at ran ⊢
    obtain ⟨b, s₁, first, ran⟩ := run_bind_ok_iff.mp ran
    obtain ⟨bs, others, rfl⟩ := run_bind_done_iff.mp ran
    rw [List.forall_mem_cons] at holds
    obtain ⟨first, one⟩ := each first holds.1
    obtain ⟨others, rest⟩ := ih others holds.2
    exact ⟨run_bind_ok_iff.mpr ⟨b, s₁, first, run_bind_done_iff.mpr ⟨bs, others, rfl⟩⟩,
      List.forall_mem_cons.mpr ⟨one, rest⟩⟩

end Roll

open Roll

/-! ### Dice under two limits -/

section Limits

variable {σ ε : Type} [Roller σ ε] {s s' : σ} {m n : UInt16}

namespace Dice

variable {d : Dice} {t : DiceThrow}

theorem rollChain_onlyDice (sides : UInt16) (extra : Nat) (faces : List UInt16) :
    OnlyDice sides (rollChain sides extra faces) := by
  induction extra generalizing faces with
  | zero =>
    rw [rollChain_zero]
    exact OnlyDice.oneDie.bind fun face => .done _
  | succ extra ih =>
    rw [rollChain]
    refine OnlyDice.oneDie.bind fun face => ?_
    split
    · exact ih _
    · exact .done _

theorem rollOne_onlyDice (d : Dice) (extra : Nat) (faces : List UInt16) :
    OnlyDice d.sides (d.rollOne extra faces) := by
  unfold rollOne
  split
  · exact rollChain_onlyDice _ _ _
  · exact OnlyDice.oneDie.bind fun face => .done _

theorem rollMany_onlyDice (d : Dice) (extra n : Nat) (faces : List UInt16) (capped : Bool) :
    OnlyDice d.sides (d.rollMany extra n faces capped) := by
  induction n generalizing faces capped with
  | zero => exact .done _
  | succ n ih => exact (rollOne_onlyDice _ _ _).bind fun _ => ih _ _

theorem roll_onlyDice (d : Dice) (m : UInt16) : OnlyDice d.sides (d.roll m) :=
  (rollMany_onlyDice _ _ _ _ _).bind fun _ => .done _

/-- A throw in which no die was cut off comes about under any limit that its dice keep to. -/
theorem roll_run_of_chains {chains : List (List UInt16)} (ran : (d.roll m).run s = (.ok t, s'))
    (divides : d.Chains m.toNat t.faces chains) (uncut : ∀ c ∈ chains, d.cutsOff m.toNat c = false)
    (few : ∀ c ∈ chains, c.length ≤ n.toNat + 1) :
    (d.roll n).run s = (.ok t, s') ∧ d.Chains n.toNat t.faces chains ∧ t.capped = false := by
  have draws := draws_drawn ran
  obtain ⟨-, chains', divides', rfl⟩ := roll_draws_iff.mp draws
  obtain rfl := divides.unique divides'
  have keeps (c : List UInt16) (member : c ∈ chains) :=
    (divides.shown c member).of_length_le (uncut c member) (few c member)
  have divides : d.Chains n.toNat ((d.roll m).drawn s).faces chains :=
    ⟨divides.count, divides.joined, fun c member => (keeps c member).1⟩
  have capped : chains.any (d.cutsOff m.toNat) = false :=
    List.any_eq_false.mpr fun c member => Bool.eq_false_iff.mp (uncut c member)
  have capped' : chains.any (d.cutsOff n.toNat) = false :=
    List.any_eq_false.mpr fun c member => Bool.eq_false_iff.mp (keeps c member).2
  refine ⟨?_, divides, capped⟩
  apply (roll_onlyDice d m).run_of_draws (roll_onlyDice d n) ran
  exact roll_draws_iff.mpr ⟨rfl, chains, divides, by rw [capped, capped']⟩

end Dice

/-- Whether each die of a throw under the limit `m` was rolled at most `n` times more. -/
def DiceThrow.ExtraWithin (m n : UInt16) (t : DiceThrow) : Prop :=
  ∃ chains, t.dice.Chains m.toNat t.faces chains ∧ ∀ chain ∈ chains, chain.length ≤ n.toNat + 1

theorem Dice.roll_run_of_uncapped {d : Dice} {t : DiceThrow} (lt : m < n)
    (ran : (d.roll m).run s = (.ok t, s')) (uncapped : t.capped = false) :
    (d.roll n).run s = (.ok t, s') ∧ t.ExtraWithin n m := by
  obtain ⟨-, chains, divides, rfl⟩ := roll_draws_iff.mp (draws_drawn ran)
  have short (c : List UInt16) (member : c ∈ chains) := (divides.shown c member).length.2
  have uncut : ∀ c ∈ chains, d.cutsOff m.toNat c = false := by simpa using uncapped
  have few : ∀ c ∈ chains, c.length ≤ n.toNat + 1 := by
    intro c member
    have := short c member
    have := UInt16.lt_iff_toNat_lt.mp lt
    omega
  obtain ⟨ran, divides, -⟩ := roll_run_of_chains ran divides uncut few
  exact ⟨ran, chains, divides, short⟩

theorem Dice.roll_run_of_extraWithin {d : Dice} {t : DiceThrow} (lt : m < n)
    (ran : (d.roll n).run s = (.ok t, s')) (within : t.ExtraWithin n m) :
    (d.roll m).run s = (.ok t, s') ∧ t.capped = false := by
  obtain ⟨-, same, -⟩ := roll_draws (draws_drawn ran)
  obtain ⟨chains, divides, few⟩ := within
  rw [same] at divides
  have uncut : ∀ c ∈ chains, d.cutsOff n.toNat c = false := by
    intro c member
    apply cutsOff_of_length_le
    have := few c member
    have := UInt16.lt_iff_toNat_lt.mp lt
    omega
  obtain ⟨ran, -, capped⟩ := roll_run_of_chains ran divides uncut few
  exact ⟨ran, capped⟩

/-! ### Formulas under two limits -/

def TermOutcome.EachThrow (P : DiceThrow → Prop) (o : TermOutcome) : Prop :=
  ∀ t, o.outcome = .dice t → P t

def Evaluation.EachThrow (P : DiceThrow → Prop) (E : Evaluation) : Prop :=
  ∀ o ∈ E.terms, o.EachThrow P

theorem Evaluation.capped_eq_false_iff {E : Evaluation} :
    E.capped = false ↔ E.EachThrow (·.capped = false) := by
  unfold capped EachThrow
  rw [List.any_eq_false]
  refine forall₂_congr fun o _ => ?_
  unfold TermOutcome.capped TermOutcome.EachThrow
  cases o.outcome <;> simp

namespace Engine

variable {e : Engine} {P Q : DiceThrow → Prop}

theorem rollSigned_run_of
    (dice : ∀ {d : Dice} {t : DiceThrow} {s s' : σ}, (d.roll m).run s = (.ok t, s') → P t →
      (d.roll n).run s = (.ok t, s') ∧ Q t)
    {t : SignedTerm} {o : TermOutcome} {s s' : σ}
    (ran : ((e.withMaxExplosions m).rollSigned t).run s = (.ok o, s')) (holds : o.EachThrow P) :
    ((e.withMaxExplosions n).rollSigned t).run s = (.ok o, s') ∧ o.EachThrow Q := by
  obtain ⟨sign, term⟩ := t
  obtain ⟨outcome, rolled, rfl⟩ := run_bind_done_iff.mp ran
  cases term with
  | dice d =>
    obtain ⟨t, thrown, rfl⟩ := run_bind_done_iff.mp rolled
    obtain ⟨again, after⟩ := dice thrown (holds t rfl)
    refine ⟨run_bind_done_iff.mpr ⟨_, run_bind_done_iff.mpr ⟨t, again, rfl⟩, rfl⟩, ?_⟩
    rintro t' ⟨⟩
    exact after
  | fate count =>
    refine ⟨run_bind_done_iff.mpr ⟨outcome, rolled, rfl⟩, ?_⟩
    obtain ⟨t, -, rfl⟩ := run_bind_done_iff.mp rolled
    rintro t' ⟨⟩
  | flat value =>
    refine ⟨run_bind_done_iff.mpr ⟨outcome, rolled, rfl⟩, ?_⟩
    cases rolled
    rintro t' ⟨⟩

theorem roll_run_of
    (dice : ∀ {d : Dice} {t : DiceThrow} {s s' : σ}, (d.roll m).run s = (.ok t, s') → P t →
      (d.roll n).run s = (.ok t, s') ∧ Q t)
    {f : Formula} {E : Evaluation} (ran : ((e.withMaxExplosions m).roll f).run s = (.ok E, s'))
    (holds : E.EachThrow P) :
    ((e.withMaxExplosions n).roll f).run s = (.ok E, s') ∧ E.EachThrow Q := by
  rw [roll_eq_mapM] at ran ⊢
  obtain ⟨outcomes, rolled, rfl⟩ := run_bind_done_iff.mp ran
  obtain ⟨again, after⟩ := mapM_run_of (rollSigned_run_of dice) rolled holds
  exact ⟨run_bind_done_iff.mpr ⟨outcomes, again, rfl⟩, after⟩

/-- Of two limits, the lower one comes to an evaluation without being hit exactly if the higher one
comes to it with no more extra rolls of any die than the lower one allows. The roller is left the
same. -/
theorem roll_under_limits (lt : m < n) (e : Engine) (f : Formula) (E : Evaluation) (s s' : σ) :
    ((e.withMaxExplosions m).roll f).run s = (.ok E, s') ∧ E.capped = false ↔
      ((e.withMaxExplosions n).roll f).run s = (.ok E, s') ∧ E.EachThrow (·.ExtraWithin n m) := by
  rw [Evaluation.capped_eq_false_iff]
  constructor
  · rintro ⟨ran, uncapped⟩
    exact roll_run_of (Dice.roll_run_of_uncapped lt) ran uncapped
  · rintro ⟨ran, within⟩
    exact roll_run_of (Dice.roll_run_of_extraWithin lt) ran within

theorem roll_under_limits_once :
    let f : Formula := ⟨.dice ⟨2, 6, true⟩, [⟨.plus, .fate 1⟩, ⟨.minus, .dice ⟨1, 4, false⟩⟩]⟩
    let s : Predetermined := ⟨[6, 2, 5, 4, 3], [⟨0⟩]⟩
    (1 : UInt16) < 3 ∧
      ∃ E, ((Engine.withMaxExplosions {} 1).roll f).run s = (.ok E, ⟨[3], []⟩) ∧ E.capped = false ∧
        ((Engine.withMaxExplosions {} 3).roll f).run s = (.ok E, ⟨[3], []⟩) ∧
        E.EachThrow (·.ExtraWithin 3 1) := by
  intro f s
  obtain ⟨E, ran, uncapped⟩ : ∃ E, ((Engine.withMaxExplosions {} 1).roll f).run s =
      (.ok E, ⟨[3], []⟩) ∧ E.capped = false := ⟨_, rfl, rfl⟩
  have lt : (1 : UInt16) < 3 := by decide
  exact ⟨lt, E, ran, uncapped, (roll_under_limits lt {} f E s _).mp ⟨ran, uncapped⟩⟩

end Engine

end Limits

end TabletopDice
