import TabletopDice.Proofs.Dialogue.TypedChoices
import TabletopDice.Proofs.Totals.Exact

/-!
# Quick dice

A text that is rolled as one die is the formula of that die, unless a plus stands before the sides:
no formula has a plus there. Any other text draws nothing, the names of fate dice apart:
`rolled_die_as_formula`.
-/

namespace TabletopDice

open Roll

theorem Evaluation.total_single (f : Formula) (d : Dice) (face : UInt16) :
    (ofTerms f [⟨.plus, .dice ⟨d, [face], false⟩⟩]).total.toInt = face.toNat := by
  have small : ∀ t ∈ [(⟨.plus, .dice ⟨d, [face], false⟩⟩ : TermOutcome)], t.outcome.Small := by
    rw [List.forall_mem_singleton]
    change [face].length ≤ maxFaces
    rw [List.length_singleton]
    decide
  rw [total_toInt small (by simp)]
  simp [exactTotal, TermOutcome.signedSum, Outcome.sum, faceSum]

namespace Dialogue

open Text Grammar

variable {e : Engine} {text : String} {sides : UInt16}

/-! ### Single dice -/

def dieText (sides face : UInt16) : String :=
  "Бросок " ++ Decimal.ofNat face.toNat ++ " [d" ++ Decimal.ofNat sides.toNat ++ "] = " ++
    Decimal.ofNat face.toNat

theorem text_single (f : Formula) (sides face : UInt16) :
    (Evaluation.ofTerms f [⟨.plus, .dice ⟨⟨1, sides, false⟩, [face], false⟩⟩]).text =
      dieText sides face := by
  have total := Evaluation.total_single f ⟨1, sides, false⟩ face
  have label : (Evaluation.ofTerms f
      [⟨.plus, .dice ⟨⟨1, sides, false⟩, [face], false⟩⟩]).fateLabel = none := rfl
  unfold Evaluation.text Evaluation.describe
  delta dieText
  rw [total, label]
  simp [Evaluation.rolls, Evaluation.ofTerms, TermOutcome.describe, DiceThrow.describe, Dice.mark,
    Decimal.ofInt, String.append_assoc]

theorem quickDie_text (e : Engine) (pos : 0 < sides) :
    (e.quickDie sides >>= fun E => done E.text) =
      .die sides fun face => .done (dieText sides face) := by
  have rolled : e.quickDie sides = .die sides fun face => .done (.ofTerms
      ⟨.dice ⟨1, sides, false⟩, []⟩ [⟨.plus, .dice ⟨⟨1, sides, false⟩, [face], false⟩⟩]) := by
    rw [Engine.quickDie, Engine.max_one_of_pos pos]
    rfl
  simp only [rolled, die_bind, done_bind, text_single]

theorem quickFate_eq_unit (e : Engine) : ∃ next, e.quickFate = .unit next := by
  have throws : ∃ next, FateThrow.roll e.fateCount = .unit next := by
    unfold FateThrow.roll
    cases count : e.fateCount.toNat with
    | zero =>
      have pos := UInt16.lt_iff_toNat_lt.mp e.fateCount_pos
      rw [count] at pos
      cases pos
    | succ n => exact ⟨_, rfl⟩
  obtain ⟨next, throws⟩ := throws
  simp only [Engine.quickFate, Engine.roll, Formula.terms, Engine.rollTerms, Engine.rollTerm,
    throws]
  exact ⟨_, rfl⟩

/-! ### Texts that are rolled as one die -/

/-- In quick roll mode the text is answered with the face of one die that has these sides. -/
def RollsDie (e : Engine) (text : String) (sides : UInt16) : Prop :=
  replies e .quickRoll (.text text) =
    .die sides fun face => .done [⟨dieText sides face, none⟩, .chooseDie]

theorem replies_quick (stays : trim text ≠ back) :
    replies e .quickRoll (.text text) =
      quickText e text >>= fun told => done [⟨told, none⟩, .chooseDie] :=
  textReplies_quick stays

theorem rollsDie_of_names (named : QuickChoice.Names (trim text) (.die sides)) :
    RollsDie e text sides := by
  rw [RollsDie, replies_quick named.ne_back, quickText_of_names named, QuickChoice.roll,
    quickDie_text e named.sides_pos]
  rfl

theorem names_of_rollsDie (h : RollsDie e text sides) :
    QuickChoice.Names (trim text) (.die sides) := by
  unfold RollsDie at h
  by_cases leaves : trim text = back
  · rw [replies, textReplies_back (by decide) leaves] at h
    cases h
  cases read : QuickChoice.ofText? text with
  | none =>
    rw [replies_quick leaves, quickText_of_unnamed (QuickChoice.ofText?_eq_none_iff.mp read)] at h
    cases h
  | some choice =>
    have named := QuickChoice.ofText?_eq_some_iff.mp read
    cases choice with
    | die other =>
      have rolled : RollsDie e text other := rollsDie_of_names named
      rw [rolled] at h
      obtain ⟨rfl, -⟩ := Roll.die.inj h
      exact named
    | fate =>
      obtain ⟨next, unit⟩ := quickFate_eq_unit e
      rw [replies_quick leaves, quickText_of_names named, QuickChoice.roll, unit] at h
      cases h

theorem rollsDie_iff : RollsDie e text sides ↔ QuickChoice.Names (trim text) (.die sides) :=
  ⟨names_of_rollsDie, rollsDie_of_names⟩

/-! ### Dice as formulas -/

def PlusSigned (text : String) : Prop :=
  "1d+".toList <+: (trim text).toList

theorem parse_plain_die {number : Numeral} (counts : number.Counts)
    (same : (trim text).toList = '1' :: 'd' :: number.run) :
    Formula.parse text = .ok ⟨.dice ⟨1, .ofNat number.value, false⟩, []⟩ := by
  let tree : FormulaTree := ⟨.dice (.ofNat 1) number false, []⟩
  have one : (Numeral.ofNat 1).run = ['1'] := by decide
  have chars : tree.text = '1' :: 'd' :: number.run := by
    simp [tree, FormulaTree.text, TermTree.text, rollText, markText, one]
  have compacted : (Formula.compact (trim text)).toList = tree.text := by
    rw [toList_compact, same, ← chars]
    exact compactChars_eq_self fun c => FormulaTree.isFormulaChar_of_mem
  rw [← parse_trim]
  apply parse_eq_ok_iff.mpr
  refine ⟨tree, trivial, ⟨⟨by decide, counts⟩, List.forall_mem_nil _⟩, compacted.symm, ?_⟩
  simp [tree, FormulaTree.formula, TermTree.term, Numeral.value_ofNat]

theorem rejected_of_plusSigned (signed : PlusSigned text) :
    ∃ why, Formula.parse text = .error why := by
  obtain ⟨rest, same⟩ := signed
  have compacted : (Formula.compact (trim text)).toList =
      '1' :: 'd' :: '+' :: Formula.compactChars rest := by
    rw [toList_compact, ← same, Formula.compactChars_append]
    rfl
  rw [← parse_trim]
  refine ⟨_, parse_of_none ?_⟩
  -- No run of digits is there for the sides, and the count of a die is followed by no other letter.
  rw [compacted]
  rfl

theorem plusSigned_or_parse (named : QuickChoice.Names (trim text) (.die sides)) :
    PlusSigned text ∨
      ¬ PlusSigned text ∧ Formula.parse text = .ok ⟨.dice ⟨1, sides, false⟩, []⟩ := by
  obtain ⟨plus, number, counts, rfl, same⟩ :=
    QuickChoice.sides?_eq_some_iff.mp (QuickChoice.names_die_iff.mp named)
  cases plus with
  | true => exact .inl ⟨number.run, same⟩
  | false =>
    have plain : ¬ PlusSigned text := by
      intro signed
      obtain ⟨rest, signed⟩ := signed
      rw [← same] at signed
      exact run_ne_cons number rfl rest (List.cons.inj (List.cons.inj signed).2).2.symm
    exact .inr ⟨plain, parse_plain_die counts same.symm⟩

variable {σ ε : Type} [Roller σ ε]

/-- A text that is rolled as one die is the formula of that die, unless a plus stands before the
sides; then it is no formula. A text that is rolled as no die, is no name of fate dice and does not
lead back is told that it names no die, and nothing is drawn for it. -/
theorem rolled_die_as_formula (e : Engine) (r : σ) (text : String) :
    (∀ sides, RollsDie e text sides →
      (PlusSigned text ∧ ∃ why, Formula.parse text = .error why) ∨
        (¬ PlusSigned text ∧ Formula.parse text = .ok ⟨.dice ⟨1, sides, false⟩, []⟩)) ∧
      ((∀ sides, ¬ RollsDie e text sides) → trim text ∉ QuickChoice.fateTexts →
        trim text ≠ back →
          replies e .quickRoll (.text text) = .done [⟨noSuchDie, none⟩, .chooseDie] ∧
            (⟨.quickRoll, r⟩ : Session σ).step e (.text text) =
              (.ok [⟨noSuchDie, none⟩, .chooseDie], ⟨.quickRoll, r⟩)) := by
  constructor
  · intro sides rolls
    rcases plusSigned_or_parse (rollsDie_iff.mp rolls) with signed | plain
    · exact .inl ⟨signed, rejected_of_plusSigned signed⟩
    · exact .inr plain
  · intro rollsNone noFate stays
    have unnamed (choice : QuickChoice) : ¬ QuickChoice.Names (trim text) choice := by
      cases choice with
      | die sides => exact fun named => rollsNone sides (rollsDie_iff.mpr named)
      | fate => exact fun named => noFate (QuickChoice.names_fate_iff.mp named)
    have refused : replies e .quickRoll (.text text) = .done [⟨noSuchDie, none⟩, .chooseDie] := by
      rw [replies_quick stays, quickText_of_unnamed unnamed, done_bind]
    refine ⟨refused, ?_⟩
    rw [Session.step, refused, Roll.run, Mode.after_text stays]

theorem rolled_die_as_formula_zeros :
    RollsDie {} " 1d07\n" 7 ∧ Formula.parse " 1d07\n" = .ok ⟨.dice ⟨1, 7, false⟩, []⟩ := by
  have rolls : RollsDie {} " 1d07\n" 7 :=
    rollsDie_of_names (QuickChoice.ofText?_eq_some_iff.mp (by decide +kernel))
  have plain : ¬ PlusSigned " 1d07\n" := by
    unfold PlusSigned
    decide +kernel
  rcases (rolled_die_as_formula {} (⟨[], []⟩ : Predetermined) " 1d07\n").1 7 rolls with signed | read
  · exact absurd signed.1 plain
  · exact ⟨rolls, read.2⟩

theorem rolls_plus_signed_die :
    ¬ ∀ text sides, RollsDie {} text sides →
      Formula.parse text = .ok ⟨.dice ⟨1, sides, false⟩, []⟩ := by
  intro all
  have rolls : RollsDie {} "1d+5" 5 :=
    rollsDie_of_names (QuickChoice.ofText?_eq_some_iff.mp (by decide +kernel))
  obtain ⟨why, rejected⟩ : ∃ why, Formula.parse "1d+5" = .error why := ⟨_, rfl⟩
  rw [all "1d+5" 5 rolls] at rejected
  cases rejected

end Dialogue

end TabletopDice
