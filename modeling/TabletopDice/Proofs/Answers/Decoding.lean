import TabletopDice.Proofs.Answers.ReadOff
import TabletopDice.Proofs.Rolling.Terms

/-!
# Reading answers back

The text of an evaluation lists what was rolled, with the same few marks between terms, between fate
dice and on fate dice. It still can be taken apart in one way only: `Evaluation.text_unambiguous`.
-/

namespace TabletopDice

open Grammar Roll

/-! ### Outcomes -/

theorem DiceThrow.toList_describe (t : DiceThrow) :
    (t.describe none).toList =
      ", ".toList.intercalate (t.faces.map fun face => (Text.Decimal.ofNat face.toNat).toList) ++
        (" [d".toList ++ ((Text.Decimal.ofNat t.dice.sides.toNat).toList ++
          (markText t.dice.explode ++ [']']))) := by
  have mark : t.dice.mark.toList = markText t.dice.explode := by
    unfold Dice.mark markText
    split <;> rfl
  simp [describe, mark, Function.comp_def]

theorem mark_bracket_inj {a b : Bool} {x y : List Char}
    (same : markText a ++ ([']'] ++ x) = markText b ++ ([']'] ++ y)) : a = b ∧ x = y := by
  cases a with
  | true =>
    cases b with
    | true => exact ⟨rfl, List.append_cancel_left (List.append_cancel_left same)⟩
    | false => cases (List.cons.inj same).1
  | false =>
    cases b with
    | true => cases (List.cons.inj same).1
    | false => exact ⟨rfl, List.append_cancel_left (List.append_cancel_left same)⟩

theorem readOff_dice :
    ReadOff (fun t : DiceThrow => (t.describe none).toList) (·.faces ≠ []) (fun _ => True)
      fun t t' => t.faces = t'.faces ∧ t.dice.sides = t'.dice.sides ∧
        t.dice.explode = t'.dice.explode := by
  intro t t' x y filled filled' _ _ same
  have faces := (readOff_face.ahead fun _ (h : Ahead [", ", " ["] _) => h.noDigit (by decide))
    |>.intercalate (by decide)
  simp only [DiceThrow.toList_describe, List.append_assoc] at same
  have bracket (z : List Char) : Ahead [" ["] (" [d".toList ++ z) :=
    ⟨" [", List.mem_singleton_self _, 'd' :: z, rfl⟩
  obtain ⟨facesSame, same⟩ :=
    faces ⟨filled, fun _ _ => trivial⟩ ⟨filled', fun _ _ => trivial⟩ (bracket _) (bracket _) same
  have noDigit (mark : Bool) (z : List Char) : NoDigit (markText mark ++ ([']'] ++ z)) :=
    noDigit_mark_append (noDigit_cons.mpr rfl)
  obtain ⟨sides, same⟩ := readOff_face trivial trivial (noDigit _ _) (noDigit _ _)
    (List.append_cancel_left same)
  obtain ⟨explode, rest⟩ := mark_bracket_inj same
  exact ⟨⟨List.forall₂_eq_eq_eq ▸ facesSame, sides, explode⟩, rest⟩

theorem readOff_fateDie :
    ReadOff (fun die : FateDie => die.glyph.toList) (fun _ => True) (fun _ => True) (· = ·) := by
  intro a b x y _ _ _ _ same
  have length (die : FateDie) : die.glyph.toList.length = 3 := by
    cases die <;> rfl
  obtain ⟨glyphs, rest⟩ := List.append_inj same ((length a).trans (length b).symm)
  refine ⟨?_, rest⟩
  cases a <;> cases b <;> simp_all [FateDie.glyph]

/-- What stands behind a term: another one, or the total. -/
def termEnds : List String :=
  [Evaluation.termSeparator, " = "]

theorem FateThrow.toList_describe (t : FateThrow) :
    t.describe.toList = " , ".toList.intercalate (t.dice.map fun die => die.glyph.toList) := by
  simp [describe, Function.comp_def]

theorem readOff_fate :
    ReadOff (fun t : FateThrow => t.describe.toList) (·.dice ≠ []) (Ahead termEnds)
      fun t t' => t.dice = t'.dice := by
  intro t t' x y filled filled' hx hy same
  have dice := (readOff_fateDie.ahead fun _ (_ : Ahead (" , " :: termEnds) _) => trivial)
    |>.intercalate (by decide)
  simp only [FateThrow.toList_describe] at same
  obtain ⟨diceSame, rest⟩ :=
    dice ⟨filled, fun _ _ => trivial⟩ ⟨filled', fun _ _ => trivial⟩ hx hy same
  exact ⟨List.forall₂_eq_eq_eq ▸ diceSame, rest⟩

def TermOutcome.Filled (o : TermOutcome) : Prop :=
  match o.outcome with
  | .dice t => t.faces ≠ []
  | .fate t => t.dice ≠ []
  | .flat _ => True

/-- Whether two outcomes are of one kind and show the same. The sign of a throw is not shown. -/
def TermOutcome.ShowsSame (o o' : TermOutcome) : Prop :=
  match o.outcome, o'.outcome with
  | .dice t, .dice t' =>
    t.faces = t'.faces ∧ t.dice.sides = t'.dice.sides ∧ t.dice.explode = t'.dice.explode
  | .fate t, .fate t' => t.dice = t'.dice
  | .flat v, .flat v' => o.sign = o'.sign ∧ v = v'
  | _, _ => False

inductive Opening where
  | digit
  | blank
  | sign

def Opening.of (c : Char) : Opening :=
  if c.isDigit then digit else if c = ' ' then blank else sign

def Outcome.opening : Outcome → Opening
  | dice _ => .digit
  | fate _ => .blank
  | flat _ => .sign

theorem TermOutcome.toList_describe_flat (sign : Sign) (value : UInt32) :
    (describe ⟨sign, .flat value⟩ none).toList =
      sign.symbol :: (Text.Decimal.ofNat value.toNat).toList := by
  simp [describe]

theorem TermOutcome.opening_describe {o : TermOutcome} (filled : o.Filled) :
    (o.describe none).toList.head?.map Opening.of = some o.outcome.opening := by
  obtain ⟨sign, outcome⟩ := o
  cases outcome with
  | dice t =>
    change (t.describe none).toList.head?.map Opening.of = some .digit
    cases faces : t.faces with
    | nil => exact absurd faces filled
    | cons face faces' =>
      obtain ⟨c, cs, digits, digit⟩ := ofNat_eq_cons face.toNat
      rw [t.toList_describe, faces, intercalate_cons, digits]
      simp [Opening.of, digit]
  | fate t =>
    change t.describe.toList.head?.map Opening.of = some .blank
    cases dice : t.dice with
    | nil => exact absurd dice filled
    | cons die dice' =>
      rw [t.toList_describe, dice, intercalate_cons]
      cases die <;> rfl
  | flat value =>
    rw [toList_describe_flat]
    cases sign <;> rfl

theorem eq_of_heads {β : Type} {class? : Char → β} {a b x y : List Char} {p q : β}
    (ha : a.head?.map class? = some p) (hb : b.head?.map class? = some q)
    (same : a ++ x = b ++ y) : p = q := by
  cases a with
  | nil => cases ha
  | cons c a =>
    cases b with
    | nil => cases hb
    | cons d b =>
      obtain ⟨rfl, -⟩ := List.cons.inj same
      exact Option.some.inj (ha.symm.trans hb)

theorem noDigit_of_termEnds {cs : List Char} (h : Ahead termEnds cs) : NoDigit cs :=
  h.noDigit (by decide)

theorem readOff_outcome :
    ReadOff (fun o : TermOutcome => (o.describe none).toList) TermOutcome.Filled (Ahead termEnds)
      TermOutcome.ShowsSame := by
  intro o o' x y filled filled' hx hy same
  have openings := eq_of_heads (TermOutcome.opening_describe filled)
    (TermOutcome.opening_describe filled') same
  -- Outcomes of two kinds begin otherwise, so only those of one kind are left to compare.
  obtain ⟨sign, outcome⟩ := o
  obtain ⟨sign', outcome'⟩ := o'
  cases outcome with
  | dice t =>
    cases outcome' with
    | dice t' => exact readOff_dice filled filled' trivial trivial same
    | fate t' => cases openings
    | flat v' => cases openings
  | fate t =>
    cases outcome' with
    | dice t' => cases openings
    | fate t' => exact readOff_fate filled filled' hx hy same
    | flat v' => cases openings
  | flat v =>
    cases outcome' with
    | dice t' => cases openings
    | fate t' => cases openings
    | flat v' =>
      simp only [TermOutcome.toList_describe_flat] at same
      obtain ⟨signs, same⟩ := List.cons.inj same
      obtain ⟨values, rest⟩ := readOff_ofNat trivial trivial (noDigit_of_termEnds hx)
        (noDigit_of_termEnds hy) same
      exact ⟨⟨symbol_inj signs, UInt32.toNat_inj.mp values⟩, rest⟩

theorem readOff_rolls :
    ReadOff (fun os : List TermOutcome => Evaluation.termSeparator.toList.intercalate
        (os.map fun o => (o.describe none).toList))
      (fun os => os ≠ [] ∧ ∀ o ∈ os, o.Filled) (Ahead [" = "])
      (List.Forall₂ TermOutcome.ShowsSame) :=
  readOff_outcome.intercalate (by decide)

/-! ### Evaluations -/

/-- The result line of an evaluation. Without fate dice, and for a sum without a name, there is
none. -/
def Evaluation.shownLabel (E : Evaluation) : Option String :=
  E.fateLabel.filter (· ≠ "")

def labelLine : Option String → List Char
  | none => []
  | some label => "\nРезультат: ".toList ++ label.toList

def Evaluation.rollLine (E : Evaluation) (limit : Option Nat) : String :=
  "Бросок " ++ String.intercalate termSeparator (E.rolls limit) ++ " = " ++
    Text.Decimal.ofInt E.total.toInt

theorem Evaluation.toList_describe (E : Evaluation) (limit : Option Nat) :
    (E.describe limit).toList = (E.rollLine limit).toList ++ labelLine E.shownLabel := by
  have label : (if E.fateLabel.getD "" = "" then "" else
      "\nРезультат: " ++ E.fateLabel.getD "").toList = labelLine E.shownLabel := by
    unfold shownLabel
    cases E.fateLabel with
    | none => rfl
    | some label =>
      rw [Option.getD_some, Option.filter_some]
      by_cases empty : label = ""
      · rw [if_pos empty, if_neg (by simp [empty])]
        rfl
      · rw [if_neg empty, if_pos (by simp [empty]), String.toList_append]
        rfl
  unfold describe rollLine
  rw [String.toList_append, label]

theorem Evaluation.toList_text (E : Evaluation) :
    E.text.toList = "Бросок ".toList ++
      (termSeparator.toList.intercalate (E.terms.map fun o => (o.describe none).toList) ++
        (" = ".toList ++
          ((Text.Decimal.ofInt E.total.toInt).toList ++ labelLine E.shownLabel))) := by
  rw [text, toList_describe, rollLine]
  simp only [String.toList_append, rolls, String.toList_intercalate, List.map_map,
    Function.comp_def, List.append_assoc]

theorem labelLine_inj {label label' : Option String} (same : labelLine label = labelLine label') :
    label = label' := by
  cases label with
  | none =>
    cases label' with
    | none => rfl
    | some label' => exact (List.cons_ne_nil _ _ same.symm).elim
  | some label =>
    cases label' with
    | none => exact (List.cons_ne_nil _ _ same).elim
    | some label' =>
      have same := List.append_cancel_left same
      rw [String.toList_inj.mp same]

theorem noDigit_labelLine (label : Option String) : NoDigit (labelLine label) := by
  cases label with
  | none => exact atTermEnd_nil.noDigit
  | some label => exact noDigit_cons.mpr rfl

/-! ### Evaluations of formulas -/

section Evaluations

variable {F : List UInt16} {U : List UnitDraw} {e : Engine} {f : Formula} {E E' : Evaluation}

theorem Engine.filled_of_draws {t : Term} {sign : Sign} {o : Outcome}
    (h : Draws (e.rollTerm t) F U o) (proper : t.Proper) : TermOutcome.Filled ⟨sign, o⟩ := by
  cases t with
  | dice d =>
    obtain ⟨throw, drawn, rfl⟩ := draws_bind_done_iff.mp h
    obtain ⟨-, -, faces⟩ := Dice.roll_draws drawn
    have length := (Dice.roll_length drawn).1
    have count : 1 ≤ d.count.toNat := UInt16.le_iff_toNat_le.mp proper.1
    rw [← faces] at length
    exact List.ne_nil_of_length_pos (by omega)
  | fate n =>
    obtain ⟨throw, drawn, rfl⟩ := draws_bind_done_iff.mp h
    obtain ⟨-, length, dice⟩ := FateThrow.roll_draws drawn
    have count : 1 ≤ n.toNat := UInt16.le_iff_toNat_le.mp proper
    have shown : throw.dice.length = n.toNat := by rw [dice, List.length_map, length]
    exact List.ne_nil_of_length_pos (by omega)
  | flat value =>
    obtain ⟨-, -, rfl⟩ := draws_done_iff.mp h
    trivial

theorem Engine.filled_of_roll (h : Draws (e.roll f) F U E) (wellFormed : f.WellFormed) :
    E.terms ≠ [] ∧ ∀ o ∈ E.terms, o.Filled := by
  obtain ⟨outcomes, rfl, each⟩ := roll_outcomes h
  constructor
  · intro nothing
    have length := each.length_eq
    change outcomes = [] at nothing
    rw [nothing] at length
    cases length
  · change ∀ o ∈ outcomes, o.Filled
    have proper := wellFormed.proper
    clear h
    generalize f.terms = terms at each proper
    induction each with
    | nil => simp
    | cons first _ ih =>
      obtain ⟨-, F, U, drawn⟩ := first
      rw [List.forall_mem_cons] at proper
      exact List.forall_mem_cons.mpr ⟨filled_of_draws drawn proper.1, ih proper.2⟩

theorem Evaluation.text_inj (hE : E.terms ≠ [] ∧ ∀ o ∈ E.terms, o.Filled)
    (hE' : E'.terms ≠ [] ∧ ∀ o ∈ E'.terms, o.Filled) (same : E.text = E'.text) :
    List.Forall₂ TermOutcome.ShowsSame E.terms E'.terms ∧ E.total = E'.total ∧
      E.shownLabel = E'.shownLabel := by
  have same := congrArg String.toList same
  rw [E.toList_text, E'.toList_text] at same
  have equals (cs : List Char) : Ahead [" = "] (" = ".toList ++ cs) :=
    ⟨" = ", List.mem_singleton_self _, cs, rfl⟩
  obtain ⟨terms, same⟩ := readOff_rolls hE hE' (equals _) (equals _) (List.append_cancel_left same)
  obtain ⟨totals, labels⟩ := readOff_ofInt trivial trivial (noDigit_labelLine _)
    (noDigit_labelLine _) (List.append_cancel_left same)
  exact ⟨terms, Int64.toInt_inj.mp totals, labelLine_inj labels⟩

/-- Evaluations of formula texts with one answer, on whatever engines and rollers, rolled the same
kinds of terms, with the same faces, fate dice and modifiers, total and result line. -/
theorem Evaluation.text_unambiguous {σ σ' ε ε' : Type} [Roller σ ε] [Roller σ' ε'] {e' : Engine}
    {f' : Formula} {raw raw' : String} (parsed : Formula.parse raw = .ok f)
    (parsed' : Formula.parse raw' = .ok f') {s₁ s₂ : σ} {s₁' s₂' : σ'}
    (ran : (e.roll f).run s₁ = (.ok E, s₂)) (ran' : (e'.roll f').run s₁' = (.ok E', s₂'))
    (same : E.text = E'.text) :
    E.terms.length = E'.terms.length ∧ List.Forall₂ TermOutcome.ShowsSame E.terms E'.terms ∧
      E.total = E'.total ∧ E.shownLabel = E'.shownLabel := by
  have filled := Engine.filled_of_roll (draws_drawn ran) (wellFormed_of_parse parsed)
  have filled' := Engine.filled_of_roll (draws_drawn ran') (wellFormed_of_parse parsed')
  obtain ⟨terms, rest⟩ := text_inj filled filled' same
  exact ⟨terms.length_eq, terms, rest⟩

theorem Evaluation.text_unambiguous_same_faces :
    let f : Formula := ⟨.dice ⟨1, 6, true⟩, [⟨.plus, .fate 1⟩]⟩
    let f' : Formula := ⟨.dice ⟨2, 6, true⟩, [⟨.minus, .fate 1⟩]⟩
    let s : Predetermined := ⟨[6, 2], [⟨0x3FE0000000000000⟩]⟩
    Formula.parse "1d6! + 1f" = .ok f ∧ Formula.parse "2d6! - 1f" = .ok f' ∧
      ∃ E E', (Engine.roll {} f).run s = (.ok E, ⟨[], []⟩) ∧
        ((Engine.withMaxExplosions {} 0).roll f').run s = (.ok E', ⟨[], []⟩) ∧ E.text = E'.text ∧
        E.terms.length = E'.terms.length ∧ List.Forall₂ TermOutcome.ShowsSame E.terms E'.terms ∧
        E.total = E'.total ∧ E.shownLabel = E'.shownLabel := by
  intro f f' s
  have parsed : Formula.parse "1d6! + 1f" = .ok f := by decide +kernel
  have parsed' : Formula.parse "2d6! - 1f" = .ok f' := by decide +kernel
  obtain ⟨E, E', ran, ran', same⟩ : ∃ E E', (Engine.roll {} f).run s = (.ok E, ⟨[], []⟩) ∧
      ((Engine.withMaxExplosions {} 0).roll f').run s = (.ok E', ⟨[], []⟩) ∧ E.text = E'.text :=
    ⟨_, _, rfl, rfl, by decide +kernel⟩
  exact ⟨parsed, parsed', E, E', ran, ran', same,
    text_unambiguous parsed parsed' ran ran' same⟩

end Evaluations

end TabletopDice
