import Mathlib.Algebra.BigOperators.Group.List.Basic
import Mathlib.Algebra.Ring.Int.Defs
import TabletopDice.Proofs.Rolling.Terms

/-!
# Exact totals

Scores stop at the ends of their range, and sums of faces wrap around there. A term has few enough
faces, and a formula of up to 32768 terms has few enough of these, that no sum gets there:
`roll_total_exact`.
-/

namespace TabletopDice

open Roll

/-! ### Sums in whole numbers -/

def faceSum (faces : List UInt16) : Int :=
  (faces.map fun face => (face.toNat : Int)).sum

def FateDie.worth : FateDie → Int
  | minus => -1
  | blank => 0
  | plus => 1

def fateSum (dice : List FateDie) : Int :=
  (dice.map FateDie.worth).sum

theorem faceSum_append (faces faces' : List UInt16) :
    faceSum (faces ++ faces') = faceSum faces + faceSum faces' := by
  simp [faceSum]

theorem fateSum_append (dice dice' : List FateDie) :
    fateSum (dice ++ dice') = fateSum dice + fateSum dice' := by
  simp [fateSum]

def Outcome.sum : Outcome → Int
  | dice t => faceSum t.faces
  | fate t => fateSum t.dice
  | flat value => value.toNat

def TermOutcome.signedSum (t : TermOutcome) : Int :=
  match t.sign with
  | .plus => t.outcome.sum
  | .minus => -t.outcome.sum

def exactTotal (outcomes : List TermOutcome) : Int :=
  (outcomes.map TermOutcome.signedSum).sum

/-! ### Sums that stay in range -/

theorem natAbs_sum_le {b : Nat} {l : List Int} (small : ∀ n ∈ l, n.natAbs ≤ b) :
    l.sum.natAbs ≤ l.length * b := by
  induction l with
  | nil => simp
  | cons n l ih =>
    have first := small n List.mem_cons_self
    have others := ih fun m member => small m (List.mem_cons_of_mem n member)
    rw [List.sum_cons, List.length_cons, Nat.succ_mul]
    omega

def ExactInRange (add : Score → Score → Score) : Prop :=
  ∀ a b : Score, (a.toInt + b.toInt).natAbs < 2 ^ 63 → (add a b).toInt = a.toInt + b.toInt

theorem exactInRange_wrapping : ExactInRange (· + ·) := by
  intro a b small
  rw [Int64.toInt_add]
  apply Int.bmod_eq_of_le <;> omega

theorem exactInRange_saturating : ExactInRange Score.add := by
  intro a b small
  apply Score.toInt_clamp_of_mem
  · rw [Int64.toInt_minValue]
    omega
  · rw [Int64.toInt_maxValue]
    omega

theorem toInt_foldl {α : Type} {add : Score → Score → Score} (exact : ExactInRange add)
    {score : α → Score} {worth : α → Int} {b : Nat} {l : List α}
    (same : ∀ a ∈ l, (score a).toInt = worth a ∧ (worth a).natAbs ≤ b) {start : Score}
    (room : start.toInt.natAbs + l.length * b < 2 ^ 63) :
    (l.foldl (fun sum a => add sum (score a)) start).toInt = start.toInt + (l.map worth).sum := by
  -- Each item takes at most `b` of the room that is left, so every sum on the way stays in range.
  induction l generalizing start with
  | nil => simp
  | cons a l ih =>
    obtain ⟨first, small⟩ := same a List.mem_cons_self
    rw [List.length_cons, Nat.succ_mul] at room
    have sum : (add start (score a)).toInt = start.toInt + worth a := by
      rw [exact, first]
      omega
    rw [List.foldl_cons, ih fun x member => same x (List.mem_cons_of_mem a member), sum,
      List.map_cons, List.sum_cons, Int.add_assoc]
    rw [sum]
    omega

/-! ### Single terms -/

section Terms

variable {F : List UInt16} {U : List UnitDraw} {e : Engine} {o : Outcome} {t : TermOutcome}

/-- As many faces as 65535 dice can show with 65535 extra rolls each. -/
def maxFaces : Nat := 65535 * 65536

def maxTerm : Nat := maxFaces * 65535

/-- Whether an outcome shows no more than any term can. -/
def Outcome.Small : Outcome → Prop
  | dice t => t.faces.length ≤ maxFaces
  | fate t => t.dice.length ≤ 65535
  | flat _ => True

theorem Dice.length_faces_le {d : Dice} {m : UInt16} {t : DiceThrow} (h : Draws (d.roll m) F U t) :
    t.faces.length ≤ maxFaces := by
  obtain ⟨-, -, faces⟩ := Dice.roll_draws h
  have length := (Dice.roll_length h).2
  have count : d.count.toNat ≤ 65535 := by
    have := d.count.toNat_lt
    omega
  have extra : m.toNat + 1 ≤ 65536 := by
    have := m.toNat_lt
    omega
  have most := Nat.mul_le_mul count extra
  rw [faces]
  unfold maxFaces
  omega

theorem FateThrow.length_dice_le {count : UInt16} {t : FateThrow} (h : Draws (roll count) F U t) :
    t.dice.length ≤ 65535 := by
  obtain ⟨-, length, dice⟩ := FateThrow.roll_draws h
  have := count.toNat_lt
  rw [dice, List.length_map]
  omega

theorem Engine.small_of_draws {t : Term} (h : Draws (e.rollTerm t) F U o) : o.Small := by
  cases t with
  | dice d =>
    obtain ⟨throw, drawn, rfl⟩ := draws_bind_done_iff.mp h
    exact Dice.length_faces_le drawn
  | fate count =>
    obtain ⟨throw, drawn, rfl⟩ := draws_bind_done_iff.mp h
    exact FateThrow.length_dice_le drawn
  | flat value =>
    obtain ⟨rfl, rfl, rfl⟩ := draws_done_iff.mp h
    trivial

theorem faceSum_natAbs_le (faces : List UInt16) :
    (faceSum faces).natAbs ≤ faces.length * 65535 := by
  have small : ∀ n ∈ faces.map fun face => (face.toNat : Int), n.natAbs ≤ 65535 := by
    intro n member
    obtain ⟨face, -, rfl⟩ := List.mem_map.mp member
    have := face.toNat_lt
    omega
  simpa [faceSum] using natAbs_sum_le small

theorem fateSum_natAbs_le (dice : List FateDie) : (fateSum dice).natAbs ≤ dice.length := by
  have small : ∀ n ∈ dice.map FateDie.worth, n.natAbs ≤ 1 := by
    intro n member
    obtain ⟨die, -, rfl⟩ := List.mem_map.mp member
    cases die <;> decide
  simpa [fateSum] using natAbs_sum_le small

theorem DiceThrow.total_toInt {t : DiceThrow} (small : t.faces.length ≤ maxFaces) :
    t.total.toInt = faceSum t.faces := by
  have same : ∀ face ∈ t.faces, (Int64.ofNat face.toNat).toInt = (face.toNat : Int) ∧
      (face.toNat : Int).natAbs ≤ 65535 := by
    intro face member
    have := face.toNat_lt
    exact ⟨Int64.toInt_ofNat_of_lt (by omega), by omega⟩
  have room : (0 : Score).toInt.natAbs + t.faces.length * 65535 < 2 ^ 63 := by
    rw [maxFaces] at small
    rw [Int64.toInt_zero]
    omega
  rw [total, toInt_foldl exactInRange_wrapping same room, Int64.toInt_zero, Int.zero_add, faceSum]

theorem FateThrow.total_toInt {t : FateThrow} (small : t.dice.length ≤ 65535) :
    t.total.toInt = fateSum t.dice := by
  have same : ∀ die ∈ t.dice, die.value.toInt = die.worth ∧ die.worth.natAbs ≤ 1 := by
    intro die member
    cases die <;> decide
  have room : (0 : Score).toInt.natAbs + t.dice.length * 1 < 2 ^ 63 := by
    rw [Int64.toInt_zero]
    omega
  rw [total, toInt_foldl exactInRange_wrapping same room, Int64.toInt_zero, Int.zero_add, fateSum]

/-- Every sum over the first faces or fate dice of an outcome is exact, so none leaves the range of
scores. -/
def Outcome.SumsExactly : Outcome → Prop
  | dice t => ∀ part, part <+: t.faces →
      (DiceThrow.total { t with faces := part }).toInt = faceSum part
  | fate t => ∀ part, part <+: t.dice → (FateThrow.total ⟨part⟩).toInt = fateSum part
  | flat value => (Outcome.flat value).total.toInt = value.toNat

theorem Outcome.Small.sumsExactly (small : o.Small) : o.SumsExactly := by
  cases o with
  | dice t =>
    intro part starts
    exact DiceThrow.total_toInt (Nat.le_trans starts.length_le small)
  | fate t =>
    intro part starts
    exact FateThrow.total_toInt (Nat.le_trans starts.length_le small)
  | flat value =>
    have := value.toNat_lt
    exact Int64.toInt_ofNat_of_lt (by omega)

theorem Outcome.SumsExactly.total_toInt (h : o.SumsExactly) : o.total.toInt = o.sum := by
  cases o with
  | dice t => exact h t.faces (List.prefix_refl _)
  | fate t => exact h t.dice (List.prefix_refl _)
  | flat value => exact h

theorem Outcome.Small.natAbs_sum_le (small : o.Small) : o.sum.natAbs ≤ maxTerm := by
  cases o with
  | dice t =>
    have most := faceSum_natAbs_le t.faces
    have few : t.faces.length ≤ maxFaces := small
    change (faceSum t.faces).natAbs ≤ maxTerm
    exact Nat.le_trans most (Nat.mul_le_mul_right 65535 few)
  | fate t =>
    have most := fateSum_natAbs_le t.dice
    have few : t.dice.length ≤ 65535 := small
    change (fateSum t.dice).natAbs ≤ maxTerm
    unfold maxTerm maxFaces
    omega
  | flat value =>
    have := value.toNat_lt
    change (value.toNat : Int).natAbs ≤ maxTerm
    unfold maxTerm maxFaces
    omega

theorem TermOutcome.natAbs_signedSum (t : TermOutcome) :
    t.signedSum.natAbs = t.outcome.sum.natAbs := by
  unfold signedSum
  split
  · rfl
  · exact Int.natAbs_neg _

theorem TermOutcome.contribution_toInt (small : t.outcome.Small) :
    t.contribution.toInt = t.signedSum := by
  have sum := small.sumsExactly.total_toInt
  have most := small.natAbs_sum_le
  unfold maxTerm maxFaces at most
  unfold contribution signedSum
  cases t.sign with
  | plus => exact sum
  | minus =>
    change (Score.neg t.outcome.total).toInt = -t.outcome.sum
    rw [Score.neg, sum]
    apply Score.toInt_clamp_of_mem
    · rw [Int64.toInt_minValue]
      omega
    · rw [Int64.toInt_maxValue]
      omega

end Terms

/-! ### Whole formulas -/

section Formulas

variable {F : List UInt16} {U : List UnitDraw} {e : Engine} {f : Formula}
  {outcomes : List TermOutcome}

theorem Evaluation.total_toInt (small : ∀ t ∈ outcomes, t.outcome.Small)
    (few : outcomes.length ≤ 32768) :
    (Evaluation.ofTerms f outcomes).total.toInt = exactTotal outcomes := by
  have same : ∀ t ∈ outcomes, t.contribution.toInt = t.signedSum ∧
      t.signedSum.natAbs ≤ maxTerm := by
    intro t member
    refine ⟨TermOutcome.contribution_toInt (small t member), ?_⟩
    rw [t.natAbs_signedSum]
    exact (small t member).natAbs_sum_le
  have room : (0 : Score).toInt.natAbs + outcomes.length * maxTerm < 2 ^ 63 := by
    have most := Nat.mul_le_mul_right maxTerm few
    have below : 32768 * maxTerm < 2 ^ 63 := by decide
    rw [Int64.toInt_zero]
    omega
  rw [ofTerms]
  change (outcomes.foldl (fun total t => Score.add total t.contribution) 0).toInt = _
  rw [toInt_foldl exactInRange_saturating same room, Int64.toInt_zero, Int.zero_add, exactTotal]

theorem exactTotal_perm {outcomes' : List TermOutcome} (h : outcomes.Perm outcomes') :
    exactTotal outcomes = exactTotal outcomes' :=
  (h.map TermOutcome.signedSum).sum_eq

theorem Engine.small_of_roll {E : Evaluation} (h : Draws (e.roll f) F U E) :
    E.terms.length = f.terms.length ∧ ∀ t ∈ E.terms, t.outcome.Small := by
  obtain ⟨outcomes, rfl, each⟩ := roll_outcomes h
  refine ⟨each.length_eq.symm, ?_⟩
  change ∀ t ∈ outcomes, t.outcome.Small
  clear h
  generalize f.terms = terms at each
  induction each with
  | nil => simp
  | cons first _ ih =>
    obtain ⟨-, F, U, drawn⟩ := first
    exact List.forall_mem_cons.mpr ⟨small_of_draws drawn, ih⟩

/-- No sum on the way to the total of an evaluation leaves the range of scores: not over the first
faces or fate dice of a term, and not over the first terms. -/
structure Evaluation.Exact (E : Evaluation) : Prop where
  total : E.total.toInt = exactTotal E.terms
  sums : ∀ t ∈ E.terms, t.outcome.SumsExactly
  contributions : ∀ t ∈ E.terms, t.contribution.toInt = t.signedSum
  parts : ∀ g part, part <+: E.terms → (Evaluation.ofTerms g part).total.toInt = exactTotal part
  /-- So the order of the terms does not matter. -/
  reordered : ∀ g outcomes, outcomes.Perm E.terms → (Evaluation.ofTerms g outcomes).total = E.total

theorem Evaluation.exact_ofTerms (small : ∀ t ∈ outcomes, t.outcome.Small)
    (few : outcomes.length ≤ 32768) : (Evaluation.ofTerms f outcomes).Exact where
  total := total_toInt small few
  sums t member := (small t member).sumsExactly
  contributions t member := TermOutcome.contribution_toInt (small t member)
  parts g part starts :=
    total_toInt (fun t member => small t (starts.mem member)) (Nat.le_trans starts.length_le few)
  reordered g outcomes' perm := by
    have total : (Evaluation.ofTerms g outcomes').total.toInt = exactTotal outcomes' :=
      total_toInt (fun t member => small t (perm.mem_iff.mp member))
        (Nat.le_trans (Nat.le_of_eq perm.length_eq) few)
    rw [← Int64.toInt_inj, total, exactTotal_perm perm]
    exact (total_toInt small few).symm

theorem Engine.exact_of_draws {E : Evaluation} (few : f.terms.length ≤ 32768)
    (h : Draws (e.roll f) F U E) : E.Exact := by
  obtain ⟨same, small⟩ := small_of_roll h
  obtain ⟨outcomes, rfl, -⟩ := roll_outcomes h
  exact Evaluation.exact_ofTerms small (same.trans_le few)

/-- The total of up to 32768 terms is the sum of what they show, whatever faces were drawn. -/
theorem Engine.roll_total_exact {σ ε : Type} [Roller σ ε] {E : Evaluation} {s s' : σ}
    (few : f.terms.length ≤ 32768) (h : (e.roll f).run s = (.ok E, s')) : E.Exact :=
  exact_of_draws few (draws_drawn h)

theorem Engine.roll_total_exact_foreign_faces :
    let f : Formula :=
      ⟨.dice ⟨2, 6, true⟩, [⟨.minus, .dice ⟨1, 20, false⟩⟩, ⟨.plus, .flat 4294967295⟩]⟩
    let s : Predetermined := ⟨[6, 65535, 3, 65535, 1], []⟩
    f.terms.length ≤ 32768 ∧ ∃ E, (Engine.roll {} f).run s = (.ok E, ⟨[1], []⟩) ∧ E.Exact := by
  intro f s
  obtain ⟨E, ran⟩ : ∃ E, (Engine.roll {} f).run s = (.ok E, ⟨[1], []⟩) := ⟨_, rfl⟩
  exact ⟨by decide, E, ran, roll_total_exact (by decide) ran⟩

end Formulas

end TabletopDice
