import TabletopDice.Proofs.Rolling.Fair
import TabletopDice.Proofs.Rolling.Structure
import TabletopDice.Proofs.Totals.Exact
import TabletopDice.Roller.Highest

/-!
# The least and the greatest total

A formula alone says between which totals fair dice stay, and no closer bounds hold for it:
`Engine.roll_total_within_span`.
-/

namespace TabletopDice

open Roll

structure Span where
  lo : Int
  hi : Int

namespace Span

def single (n : Int) : Span :=
  ⟨n, n⟩

def neg (s : Span) : Span :=
  ⟨-s.hi, -s.lo⟩

def add (s s' : Span) : Span :=
  ⟨s.lo + s'.lo, s.hi + s'.hi⟩

def sum (spans : List Span) : Span :=
  spans.foldr add (single 0)

/-- `s` is the least span that holds all numbers with the property `P`. -/
structure Fits (s : Span) (P : Int → Prop) : Prop where
  holds : ∀ n, P n → s.lo ≤ n ∧ n ≤ s.hi
  lo : P s.lo
  hi : P s.hi

variable {s s' : Span} {P Q : Int → Prop}

theorem Fits.congr (h : s.Fits P) (same : ∀ n, P n ↔ Q n) : s.Fits Q :=
  funext (fun n => propext (same n)) ▸ h

theorem fits_single {n : Int} (only : ∀ k, P k → k = n) (has : P n) : (single n).Fits P where
  holds k h := by
    rw [only k h]
    exact ⟨Int.le_refl n, Int.le_refl n⟩
  lo := has
  hi := has

theorem Fits.neg (h : s.Fits P) : s.neg.Fits fun n => P (-n) where
  holds n within := by
    have := h.holds (-n) within
    change -s.hi ≤ n ∧ n ≤ -s.lo
    omega
  lo := by
    change P (- -s.hi)
    rw [Int.neg_neg]
    exact h.hi
  hi := by
    change P (- -s.lo)
    rw [Int.neg_neg]
    exact h.lo

theorem Fits.add (h : s.Fits P) (h' : s'.Fits Q) :
    (s.add s').Fits fun n => ∃ a b, P a ∧ Q b ∧ n = a + b where
  holds := by
    rintro n ⟨a, b, first, second, rfl⟩
    have := h.holds a first
    have := h'.holds b second
    change s.lo + s'.lo ≤ a + b ∧ a + b ≤ s.hi + s'.hi
    omega
  lo := ⟨s.lo, s'.lo, h.lo, h'.lo, rfl⟩
  hi := ⟨s.hi, s'.hi, h.hi, h'.hi, rfl⟩

theorem fits_sum {α β : Type} {R : α → β → Prop} {worth : β → Int} {span : α → Span} {l : List α}
    (each : ∀ a ∈ l, (span a).Fits fun n => ∃ b, R a b ∧ worth b = n) :
    (sum (l.map span)).Fits fun n => ∃ out, List.Forall₂ R l out ∧ (out.map worth).sum = n := by
  induction l with
  | nil =>
    refine fits_single ?_ ⟨[], .nil, rfl⟩
    rintro n ⟨out, nothing, rfl⟩
    rw [List.forall₂_nil_left_iff.mp nothing]
    rfl
  | cons a l ih =>
    rw [List.forall_mem_cons] at each
    refine (each.1.add (ih each.2)).congr fun n => ?_
    constructor
    · rintro ⟨_, _, ⟨b, first, rfl⟩, ⟨out, others, rfl⟩, rfl⟩
      exact ⟨b :: out, .cons first others, rfl⟩
    · rintro ⟨out, all, rfl⟩
      obtain ⟨b, bs, first, others, rfl⟩ := List.forall₂_cons_left_iff.mp all
      exact ⟨_, _, ⟨b, first, rfl⟩, ⟨bs, others, rfl⟩, rfl⟩

end Span

/-! ### Dice -/

theorem faceSum_replicate (n : Nat) (face : UInt16) :
    faceSum (List.replicate n face) = n * face.toNat := by
  simp [faceSum]

theorem faceSum_flatten_replicate (n : Nat) (faces : List UInt16) :
    faceSum (List.replicate n faces).flatten = n * faceSum faces := by
  induction n with
  | zero => simp [faceSum]
  | succ n ih =>
    rw [List.replicate_succ, List.flatten_cons, faceSum_append, ih, Int.natCast_succ, Int.add_mul,
      Int.one_mul, Int.add_comm]

theorem faceSum_within {sides : UInt16} {faces : List UInt16}
    (fair : ∀ face ∈ faces, OnDie sides face) :
    (faces.length : Int) ≤ faceSum faces ∧ faceSum faces ≤ faces.length * sides.toNat := by
  induction faces with
  | nil => simp [faceSum]
  | cons face faces ih =>
    rw [List.forall_mem_cons] at fair
    obtain ⟨⟨least, most⟩, fair⟩ := fair
    have least : 1 ≤ face.toNat := UInt16.le_iff_toNat_le.mp least
    have most : face.toNat ≤ sides.toNat := UInt16.le_iff_toNat_le.mp most
    have others := ih fair
    change _ ≤ (face.toNat : Int) + faceSum faces ∧ (face.toNat : Int) + faceSum faces ≤ _
    rw [List.length_cons, Int.natCast_succ, Int.add_mul, Int.one_mul]
    omega

namespace Dice

variable {d : Dice} {m : UInt16} {t : DiceThrow} {chain : List UInt16}

/-- The sums that fair dice can show under the limit `m`. A die with one side explodes whenever it
can. -/
def span (d : Dice) (m : UInt16) : Span :=
  let count : Int := d.count.toNat
  let sides : Int := d.sides.toNat
  let rolls : Int := m.toNat + 1
  if d.explode = false then ⟨count, count * sides⟩
  else if d.sides = 1 then .single (count * rolls)
  else ⟨count, count * sides * rolls⟩

theorem roll_permits_iff :
    (d.roll m).Permits t ↔
      ∃ chains F, d.Chains m.toNat F chains ∧ (∀ face ∈ F, OnDie d.sides face) ∧
        t = ⟨d, F, chains.any (d.cutsOff m.toNat)⟩ := by
  rw [(roll_onlyDice d m).permits_iff]
  constructor
  · rintro ⟨F, draws, fair⟩
    obtain ⟨-, chains, divides, rfl⟩ := roll_draws_iff.mp draws
    exact ⟨chains, F, divides, fair, rfl⟩
  · rintro ⟨chains, F, divides, fair, rfl⟩
    exact ⟨F, roll_draws_iff.mpr ⟨rfl, chains, divides, rfl⟩, fair⟩

theorem permits_repeated (shown : d.Shows m.toNat chain)
    (fair : ∀ face ∈ chain, OnDie d.sides face) {n : Int} (sum : faceSum chain = n) :
    ∃ t, (d.roll m).Permits t ∧ faceSum t.faces = d.count.toNat * n := by
  have each {c : List UInt16} (member : c ∈ List.replicate d.count.toNat chain) : c = chain :=
    List.eq_of_mem_replicate member
  have divides : d.Chains m.toNat (List.replicate d.count.toNat chain).flatten
      (List.replicate d.count.toNat chain) := by
    refine ⟨List.length_replicate, rfl, fun c member => ?_⟩
    rw [each member]
    exact shown
  refine ⟨_, roll_permits_iff.mpr ⟨_, _, divides, ?_, rfl⟩, ?_⟩
  · intro face member
    obtain ⟨c, member, shows⟩ := List.mem_flatten.mp member
    exact fair face (each member ▸ shows)
  · rw [faceSum_flatten_replicate, sum]

theorem onDie_one (sided : 1 ≤ d.sides) : ∀ face ∈ [(1 : UInt16)], OnDie d.sides face := by
  intro face member
  rw [List.mem_singleton.mp member]
  exact ⟨UInt16.le_refl 1, sided⟩

theorem onDie_highest (sided : 1 ≤ d.sides) (n : Nat) :
    ∀ face ∈ List.replicate n d.sides, OnDie d.sides face := by
  intro face member
  rw [List.eq_of_mem_replicate member]
  exact ⟨sided, UInt16.le_refl _⟩

theorem span_fits_plain (sided : 1 ≤ d.sides) (plain : d.explode = false) :
    (Span.mk d.count.toNat (d.count.toNat * d.sides.toNat)).Fits
      fun n => ∃ t, (d.roll m).Permits t ∧ faceSum t.faces = n where
  holds := by
    rintro n ⟨t, permits, rfl⟩
    obtain ⟨chains, F, divides, fair, rfl⟩ := roll_permits_iff.mp permits
    have within := faceSum_within fair
    rw [divides.length_of_plain plain] at within
    exact within
  lo := by
    have shown : d.Shows m.toNat [1] := by simp [Shows, plain]
    simpa using permits_repeated shown (onDie_one sided) (n := 1) rfl
  hi := by
    have shown : d.Shows m.toNat (List.replicate 1 d.sides) := by simp [Shows, plain]
    have sum : faceSum (List.replicate 1 d.sides) = d.sides.toNat := by
      rw [faceSum_replicate, Int.natCast_one, Int.one_mul]
    exact permits_repeated shown (onDie_highest sided 1) sum

theorem chain_of_one_side (single : d.sides = 1) (explodes : d.explode = true)
    (shown : d.Shows m.toNat chain) (fair : ∀ face ∈ chain, OnDie d.sides face) :
    chain = List.replicate (m.toNat + 1) d.sides := by
  have shown : Chain d.sides m.toNat chain := by simpa [Shows, explodes] using shown
  cases shown with
  | ends _ lower =>
    obtain ⟨least, most⟩ := fair _ (List.mem_append_right _ List.mem_cons_self)
    rw [single] at most lower
    exact absurd (UInt16.le_antisymm most least) lower
  | cut => rfl

theorem span_fits_single (single : d.sides = 1) (explodes : d.explode = true) :
    (Span.single (d.count.toNat * (m.toNat + 1))).Fits
      fun n => ∃ t, (d.roll m).Permits t ∧ faceSum t.faces = n := by
  have sum : faceSum (List.replicate (m.toNat + 1) d.sides) = m.toNat + 1 := by
    rw [faceSum_replicate, single]
    simp
  apply Span.fits_single
  · rintro n ⟨t, permits, rfl⟩
    obtain ⟨chains, F, divides, fair, rfl⟩ := roll_permits_iff.mp permits
    have cut : chains = List.replicate d.count.toNat (List.replicate (m.toNat + 1) d.sides) := by
      refine List.eq_replicate_iff.mpr ⟨divides.count, fun chain member => ?_⟩
      apply chain_of_one_side single explodes (divides.shown chain member)
      intro face shows
      exact fair face (divides.joined ▸ List.mem_flatten.mpr ⟨chain, member, shows⟩)
    change faceSum F = _
    rw [← divides.joined, cut, faceSum_flatten_replicate, sum]
  · have shown : d.Shows m.toNat (List.replicate (m.toNat + 1) d.sides) := by
      simpa [Shows, explodes] using Chain.cut
    have sided : 1 ≤ d.sides := single ▸ UInt16.le_refl 1
    exact permits_repeated shown (onDie_highest sided _) sum

theorem span_fits_exploding (sided : 1 ≤ d.sides) (several : d.sides ≠ 1)
    (explodes : d.explode = true) :
    (Span.mk d.count.toNat (d.count.toNat * d.sides.toNat * (m.toNat + 1))).Fits
      fun n => ∃ t, (d.roll m).Permits t ∧ faceSum t.faces = n where
  holds := by
    rintro n ⟨t, permits, rfl⟩
    obtain ⟨chains, F, divides, fair, rfl⟩ := roll_permits_iff.mp permits
    obtain ⟨least, most⟩ := faceSum_within fair
    obtain ⟨fewest, longest⟩ := divides.length_faces
    have longest := Nat.mul_le_mul_right d.sides.toNat longest
    have same : d.count.toNat * (m.toNat + 1) * d.sides.toNat =
        d.count.toNat * d.sides.toNat * (m.toNat + 1) := Nat.mul_right_comm _ _ _
    constructor
    · change (d.count.toNat : Int) ≤ faceSum F
      omega
    · change faceSum F ≤ (d.count.toNat : Int) * d.sides.toNat * (m.toNat + 1)
      rw [same] at longest
      exact Int.le_trans most (by exact_mod_cast longest)
  lo := by
    have lower : (1 : UInt16) ≠ d.sides := several.symm
    have shown : d.Shows m.toNat [1] := by
      simpa [Shows, explodes] using Chain.ends (Nat.zero_le m.toNat) lower
    simpa using permits_repeated shown (onDie_one sided) (n := 1) rfl
  hi := by
    have shown : d.Shows m.toNat (List.replicate (m.toNat + 1) d.sides) := by
      simpa [Shows, explodes] using Chain.cut
    have sum : faceSum (List.replicate (m.toNat + 1) d.sides) =
        d.sides.toNat * (m.toNat + 1) := by
      rw [faceSum_replicate, Int.mul_comm, Int.natCast_succ]
    have permits := permits_repeated shown (onDie_highest sided _) sum
    rwa [← Int.mul_assoc] at permits

theorem span_fits (sided : 1 ≤ d.sides) :
    (d.span m).Fits fun n => ∃ t, (d.roll m).Permits t ∧ faceSum t.faces = n := by
  unfold span
  split
  next plain => exact span_fits_plain sided plain
  next explodes =>
    rw [Bool.not_eq_false] at explodes
    split
    next single => exact span_fits_single single explodes
    next several => exact span_fits_exploding sided several explodes

end Dice

/-! ### Fate dice -/

namespace FateThrow

theorem permits_repeated (count : UInt16) (u : UnitDraw) :
    ∃ t, (roll count).Permits t ∧
      fateSum t.dice = count.toNat * (FateDie.ofUnit u).worth := by
  have draws : Draws (roll count) [] (List.replicate count.toNat u) _ :=
    roll_draws_iff.mpr ⟨rfl, List.length_replicate, rfl⟩
  refine ⟨_, draws.permits rfl, ?_⟩
  simp [fateSum]

theorem span_fits (count : UInt16) :
    (Span.mk (-count.toNat) count.toNat).Fits
      fun n => ∃ t, (roll count).Permits t ∧ fateSum t.dice = n where
  holds := by
    rintro n ⟨t, permits, rfl⟩
    obtain ⟨F, U, draws⟩ := permits.exists_draws
    obtain ⟨-, length, dice⟩ := roll_draws draws
    have most := fateSum_natAbs_le t.dice
    rw [dice, List.length_map, length] at most
    rw [dice]
    dsimp only
    omega
  lo := by
    have minus : (FateDie.ofUnit ⟨0⟩).worth = -1 := by decide
    simpa [minus] using permits_repeated count ⟨0⟩
  hi := by
    have plus : (FateDie.ofUnit Highest.highUnit).worth = 1 := by decide
    simpa [plus] using permits_repeated count Highest.highUnit

end FateThrow

/-! ### Formulas -/

def Term.span (m : UInt16) : Term → Span
  | dice d => d.span m
  | fate count => ⟨-count.toNat, count.toNat⟩
  | flat value => .single value.toNat

def SignedTerm.span (m : UInt16) (t : SignedTerm) : Span :=
  match t.sign with
  | .plus => t.term.span m
  | .minus => (t.term.span m).neg

/-- The totals between which a formula stays with fair dice, each exploding die of which may be
rolled `m` times more. -/
def Formula.span (f : Formula) (m : UInt16) : Span :=
  .sum (f.terms.map (SignedTerm.span m))

namespace Engine

variable {e : Engine} {f : Formula}

theorem permits_sum_iff {α : Type} {r : Roll α} (outcome : α → Outcome) {n : Int} :
    (∃ o, (r >>= fun a => done (outcome a)).Permits o ∧ o.sum = n) ↔
      ∃ a, r.Permits a ∧ (outcome a).sum = n := by
  simp only [permits_bind_done_iff]
  constructor
  · rintro ⟨o, ⟨a, permits, rfl⟩, sum⟩
    exact ⟨a, permits, sum⟩
  · rintro ⟨a, permits, sum⟩
    exact ⟨_, ⟨a, permits, rfl⟩, sum⟩

theorem rollTerm_span_fits {t : Term} (proper : t.Proper) :
    (t.span e.maxExplosions).Fits fun n => ∃ o, (e.rollTerm t).Permits o ∧ o.sum = n := by
  cases t with
  | dice d => exact (d.span_fits proper.2).congr fun n => (permits_sum_iff .dice).symm
  | fate count => exact (FateThrow.span_fits count).congr fun n => (permits_sum_iff .fate).symm
  | flat value =>
    refine Span.fits_single ?_ ⟨_, .done _, rfl⟩
    rintro n ⟨o, permits, rfl⟩
    rw [permits_done_iff.mp permits]
    rfl

theorem rollSigned_permits_iff {t : SignedTerm} {o : TermOutcome} :
    (e.rollSigned t).Permits o ↔ o.sign = t.sign ∧ (e.rollTerm t.term).Permits o.outcome := by
  rw [rollSigned]
  constructor
  · intro h
    obtain ⟨outcome, permits, rfl⟩ := permits_bind_done_iff.mp h
    exact ⟨rfl, permits⟩
  · rintro ⟨sign, permits⟩
    exact permits_bind_done_iff.mpr ⟨o.outcome, permits, sign ▸ rfl⟩

theorem rollSigned_span_fits {t : SignedTerm} (proper : t.term.Proper) :
    (t.span e.maxExplosions).Fits fun n => ∃ o, (e.rollSigned t).Permits o ∧ o.signedSum = n := by
  obtain ⟨sign, t⟩ := t
  have fits := rollTerm_span_fits (e := e) proper
  cases sign with
  | plus =>
    refine fits.congr fun n => ?_
    constructor
    · rintro ⟨o, permits, sum⟩
      exact ⟨⟨.plus, o⟩, rollSigned_permits_iff.mpr ⟨rfl, permits⟩, sum⟩
    · rintro ⟨⟨sign, o⟩, permits, sum⟩
      obtain ⟨rfl, permits⟩ := rollSigned_permits_iff.mp permits
      exact ⟨o, permits, sum⟩
  | minus =>
    refine fits.neg.congr fun n => ?_
    constructor
    · rintro ⟨o, permits, sum⟩
      refine ⟨⟨.minus, o⟩, rollSigned_permits_iff.mpr ⟨rfl, permits⟩, ?_⟩
      exact Int.neg_eq_comm.mp sum.symm
    · rintro ⟨⟨sign, o⟩, permits, sum⟩
      obtain ⟨rfl, permits⟩ := rollSigned_permits_iff.mp permits
      exact ⟨o, permits, (Int.neg_eq_comm.mp sum).symm⟩

theorem roll_span_fits (proper : ∀ t ∈ f.terms, t.term.Proper) :
    (f.span e.maxExplosions).Fits fun n =>
      ∃ E, (e.roll f).Permits E ∧ exactTotal E.terms = n := by
  have fits : (f.span e.maxExplosions).Fits fun n => ∃ outcomes,
      List.Forall₂ (fun t o => (e.rollSigned t).Permits o) f.terms outcomes ∧
        exactTotal outcomes = n :=
    Span.fits_sum fun t member => rollSigned_span_fits (proper t member)
  refine fits.congr fun n => ?_
  rw [roll_eq_mapM]
  constructor
  · rintro ⟨outcomes, each, sum⟩
    exact ⟨_, permits_bind_done_iff.mpr ⟨outcomes, permits_mapM_iff.mpr each, rfl⟩, sum⟩
  · rintro ⟨E, permits, sum⟩
    obtain ⟨outcomes, each, rfl⟩ := permits_bind_done_iff.mp permits
    exact ⟨outcomes, permits_mapM_iff.mp each, sum⟩

/-- Whether some predetermined fair faces lead to the total. -/
def CanTotal (e : Engine) (f : Formula) (total : Int) : Prop :=
  ∃ (p p' : Predetermined) (E : Evaluation),
    (e.roll f).Fair p ∧ (e.roll f).run p = (.ok E, p') ∧ E.total.toInt = total

theorem total_of_permits {E : Evaluation} (few : f.terms.length ≤ 32768)
    (permits : (e.roll f).Permits E) : E.total.toInt = exactTotal E.terms := by
  obtain ⟨F, U, draws⟩ := permits.exists_draws
  exact (exact_of_draws few draws).total

theorem canTotal_of_permits {total : Int} (few : f.terms.length ≤ 32768)
    (h : ∃ E, (e.roll f).Permits E ∧ exactTotal E.terms = total) : e.CanTotal f total := by
  obtain ⟨E, permits, sum⟩ := h
  obtain ⟨p, fair, ran⟩ := permits.exists_run
  exact ⟨p, _, E, fair, ran, (total_of_permits few permits).trans sum⟩

/-- On fair dice the total of a parsed formula lies in the span of the formula, whatever the roller
and its units are, and both ends of the span can be reached. -/
theorem roll_total_within_span {raw : String} (parsed : Formula.parse raw = .ok f)
    (few : f.terms.length ≤ 32768) (e : Engine) :
    let span := f.span e.maxExplosions
    (∀ {σ ε : Type} [Roller σ ε] (s s' : σ) (E : Evaluation), (e.roll f).Fair s →
      (e.roll f).run s = (.ok E, s') → span.lo ≤ E.total.toInt ∧ E.total.toInt ≤ span.hi) ∧
      e.CanTotal f span.lo ∧ e.CanTotal f span.hi := by
  have fits := roll_span_fits (e := e) (Grammar.wellFormed_of_parse parsed).proper
  refine ⟨?_, canTotal_of_permits few fits.lo, canTotal_of_permits few fits.hi⟩
  intro σ ε _ s s' E fair ran
  have permits := permits_of_run fair ran
  rw [total_of_permits few permits]
  exact fits.holds _ ⟨E, permits, rfl⟩

theorem roll_total_within_span_one_sided :
    let e : Engine := Engine.withMaxExplosions {} 1
    let f : Formula := ⟨.dice ⟨1, 6, true⟩, [⟨.minus, .dice ⟨2, 1, true⟩⟩, ⟨.plus, .fate 3⟩]⟩
    let p : Predetermined := ⟨[6, 2, 1, 1, 1, 1], [⟨0⟩, ⟨0⟩, ⟨0⟩]⟩
    Formula.parse "1d6!-2d1!+3f" = .ok f ∧ f.terms.length ≤ 32768 ∧ (e.roll f).Fair p ∧
      (∃ E, (e.roll f).run p = (.ok E, ⟨[], []⟩) ∧ -6 ≤ E.total.toInt ∧ E.total.toInt ≤ 11) ∧
      e.CanTotal f (-6) ∧ e.CanTotal f 11 := by
  intro e f p
  have parsed : Formula.parse "1d6!-2d1!+3f" = .ok f := by decide +kernel
  have few : f.terms.length ≤ 32768 := by decide
  have fair : (e.roll f).Fair p := by decide
  obtain ⟨E, ran⟩ : ∃ E, (e.roll f).run p = (.ok E, ⟨[], []⟩) := ⟨_, rfl⟩
  obtain ⟨within, least, greatest⟩ := roll_total_within_span parsed few e
  exact ⟨parsed, few, fair, ⟨E, ran, within p _ E fair ran⟩, least, greatest⟩

end Engine

end TabletopDice
