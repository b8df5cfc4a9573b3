import TabletopDice.Proofs.Grammar.Acceptance

/-!
# Written formulas

`Formula.text` writes the numbers of a formula without leading zeros. A formula stands for itself
again exactly if it is well-formed; the text of any other one is rejected: `parse_text`.
-/

namespace TabletopDice

/-- Whether there is a die to roll in each throw, and a side for it to show. -/
def Term.Proper : Term → Prop
  | .dice d => 1 ≤ d.count ∧ 1 ≤ d.sides
  | .fate count => 1 ≤ count
  | .flat _ => True

/-- A formula that starts with a throw and has only proper terms. -/
structure Formula.WellFormed (f : Formula) : Prop where
  lead_ne_flat : ∀ value, f.lead ≠ .flat value
  proper : ∀ t ∈ f.terms, t.term.Proper

namespace Grammar

open Formula

/-! ### The tree of a written formula -/

def Numeral.ofNat (n : Nat) : Numeral where
  run := Nat.toDigits 10 n
  isDigit _ := Nat.isDigit_of_mem_toDigits (by decide) (by decide)
  ne_nil := Nat.toDigits_ne_nil

theorem Numeral.value_ofNat (n : Nat) : (ofNat n).value = n := by
  have run : (Text.Decimal.ofNat n).toList = (ofNat n).run := by simp [Text.Decimal.ofNat, ofNat]
  rw [value, ← run, Text.Decimal.value_ofNat]

theorem Numeral.counts_ofNat (n : UInt16) : (ofNat n.toNat).Counts ↔ 1 ≤ n := by
  have := n.toNat_lt
  rw [Counts, value_ofNat, UInt16.le_iff_toNat_le, UInt16.toNat_one]
  omega

theorem Numeral.modifies_ofNat (n : UInt32) : (ofNat n.toNat).Modifies := by
  have := n.toNat_lt
  rw [Modifies, value_ofNat]
  omega

def writtenTerm : Term → TermTree
  | .dice d => .dice (.ofNat d.count.toNat) (.ofNat d.sides.toNat) d.explode
  | .fate count => .fate (.ofNat count.toNat) .none false
  | .flat value => .flat (.ofNat value.toNat)

def writtenSigned (t : SignedTerm) : SignedTree :=
  ⟨t.sign, writtenTerm t.term⟩

def written (f : Formula) : FormulaTree :=
  ⟨writtenTerm f.lead, f.rest.map writtenSigned⟩

theorem toList_term_text (t : Term) : t.text.toList = (writtenTerm t).text := by
  cases t with
  | dice d =>
    obtain ⟨count, sides, explode⟩ := d
    cases explode <;>
      simp [Term.text, Dice.text, Dice.mark, Text.Decimal.ofNat, writtenTerm, TermTree.text,
        rollText, markText, Numeral.ofNat]
  | fate count =>
    simp [Term.text, Text.Decimal.ofNat, writtenTerm, TermTree.text, rollText, markText,
      Numeral.ofNat]
  | flat value =>
    simp [Term.text, Text.Decimal.ofNat, writtenTerm, TermTree.text, Numeral.ofNat]

theorem toList_signedTerm_text (t : SignedTerm) : t.text.toList = (writtenSigned t).text := by
  simp [SignedTerm.text, SignedTree.text, writtenSigned, toList_term_text]

theorem toList_text (f : Formula) : f.text.toList = (written f).text := by
  simp [Formula.text, FormulaTree.text, written, toList_term_text, toList_signedTerm_text,
    List.flatMap_map]

theorem term_writtenTerm (t : Term) : (writtenTerm t).term = t := by
  cases t <;> simp [writtenTerm, TermTree.term, Numeral.value_ofNat]

theorem formula_written (f : Formula) : (written f).formula = f := by
  have rest : (f.rest.map writtenSigned).map SignedTree.term = f.rest := by
    rw [List.map_map]
    exact List.map_id'' (fun t => by
      simp [SignedTree.term, writtenSigned, term_writtenTerm]) f.rest
  rw [FormulaTree.formula, written, rest, term_writtenTerm]

theorem leads_writtenTerm (t : Term) : (writtenTerm t).Leads ↔ ∀ value, t ≠ .flat value := by
  cases t <;> simp [writtenTerm, TermTree.Leads]

theorem inRange_writtenTerm (t : Term) : (writtenTerm t).InRange ↔ t.Proper := by
  cases t with
  | dice d => exact and_congr (Numeral.counts_ofNat _) (Numeral.counts_ofNat _)
  | fate count => exact Numeral.counts_ofNat _
  | flat value => exact iff_of_true (Numeral.modifies_ofNat value) trivial

/-- The written form of a formula is one of the grammar exactly if the formula is well-formed. -/
theorem wellFormed_iff (f : Formula) :
    f.WellFormed ↔ (written f).Shaped ∧ (written f).InRange := by
  have rest : (∀ s ∈ (written f).rest, s.tree.InRange) ↔ ∀ t ∈ f.rest, t.term.Proper := by
    simp [written, writtenSigned, inRange_writtenTerm]
  rw [FormulaTree.Shaped, FormulaTree.InRange, rest, written, leads_writtenTerm,
    inRange_writtenTerm]
  constructor
  · rintro ⟨lead, proper⟩
    exact ⟨lead, proper ⟨.plus, f.lead⟩ List.mem_cons_self,
      fun t member => proper t (List.mem_cons_of_mem _ member)⟩
  · rintro ⟨lead, leadProper, restProper⟩
    refine ⟨lead, fun t member => ?_⟩
    rcases List.mem_cons.mp member with rfl | member
    · exact leadProper
    · exact restProper t member

theorem derives_text_iff {f g : Formula} :
    (∃ t : FormulaTree, t.Derives f.text.toList g) ↔ f.WellFormed ∧ f = g := by
  rw [wellFormed_iff, toList_text]
  constructor
  · rintro ⟨t, shaped, range, text, rfl⟩
    obtain rfl := FormulaTree.text_inj text
    exact ⟨⟨shaped, range⟩, (formula_written f).symm⟩
  · rintro ⟨⟨shaped, range⟩, rfl⟩
    exact ⟨written f, shaped, range, rfl, formula_written f⟩

/-! ### Derived formulas -/

theorem Numeral.one_le_of_counts {n : Numeral} (h : n.Counts) : 1 ≤ UInt16.ofNat n.value := by
  rw [UInt16.le_iff_toNat_le, UInt16.toNat_ofNat_of_lt' (Nat.lt_succ_of_le h.2)]
  exact h.1

theorem TermTree.proper_term {t : TermTree} (h : t.InRange) : t.term.Proper := by
  cases t with
  | dice count sides mark =>
    exact ⟨Numeral.one_le_of_counts h.1, Numeral.one_le_of_counts h.2⟩
  | fate count sides mark => exact Numeral.one_le_of_counts h
  | flat value => trivial

theorem FormulaTree.Derives.wellFormed {t : FormulaTree} {cs : List Char} {f : Formula}
    (h : t.Derives cs f) : f.WellFormed := by
  obtain ⟨shaped, ⟨lead, rest⟩, _, rfl⟩ := h
  constructor
  · intro value flat
    obtain ⟨leadTree, restTrees⟩ := t
    cases leadTree with
    | dice count sides mark => cases flat
    | fate count sides mark => cases flat
    | flat n => exact shaped
  · intro s member
    rcases List.mem_cons.mp member with rfl | member
    · exact TermTree.proper_term lead
    · obtain ⟨tree, treeMember, rfl⟩ := List.mem_map.mp member
      exact TermTree.proper_term (rest tree treeMember)

/-! ### Writing and parsing -/

theorem compact_text (f : Formula) : compact f.text = f.text := by
  rw [← String.toList_inj, toList_compact, toList_text]
  exact compactChars_eq_self fun c => FormulaTree.isFormulaChar_of_mem

theorem parse_text_eq_ok_iff {f g : Formula} :
    parse f.text = .ok g ↔ f.WellFormed ∧ f = g := by
  rw [parse_eq_ok_iff, compact_text, derives_text_iff]

theorem parse_text_eq_error_iff {f : Formula} :
    (∃ why, parse f.text = .error ⟨f.text, why⟩) ↔ ¬ f.WellFormed := by
  constructor
  · rintro ⟨why, rejected⟩ wellFormed
    rw [parse_text_eq_ok_iff.mpr ⟨wellFormed, rfl⟩] at rejected
    cases rejected
  · intro illFormed
    refine ⟨reason (compact f.text).toList, parse_eq_error_iff.mpr ⟨?_, by rw [compact_text]⟩⟩
    intro t g derives
    rw [compact_text] at derives
    exact illFormed (derives_text_iff.mp ⟨t, derives⟩).1

theorem wellFormed_of_parse {raw : String} {f : Formula} (h : parse raw = .ok f) :
    f.WellFormed := by
  obtain ⟨t, derives⟩ := parse_eq_ok_iff.mp h
  exact derives.wellFormed

/-- Writing and parsing undo each other exactly on well-formed formulas, and parsing gives no
others. -/
theorem parse_text (f : Formula) :
    (parse f.text = .ok f ↔ f.WellFormed) ∧
      ((∃ why, parse f.text = .error ⟨f.text, why⟩) ↔ ¬ f.WellFormed) ∧
      ∀ raw, parse raw = .ok f → f.WellFormed ∧ parse f.text = .ok f := by
  refine ⟨?_, parse_text_eq_error_iff, ?_⟩
  · rw [parse_text_eq_ok_iff]
    exact and_iff_left rfl
  · intro raw parsed
    have wellFormed := wellFormed_of_parse parsed
    exact ⟨wellFormed, parse_text_eq_ok_iff.mpr ⟨wellFormed, rfl⟩⟩

theorem parse_text_fate :
    parse " 04F - 7" = .ok ⟨.fate 4, [⟨.minus, .flat 7⟩]⟩ ∧
      Formula.WellFormed ⟨.fate 4, [⟨.minus, .flat 7⟩]⟩ ∧
      parse (Formula.text ⟨.fate 4, [⟨.minus, .flat 7⟩]⟩) = .ok ⟨.fate 4, [⟨.minus, .flat 7⟩]⟩ := by
  have parsed : parse " 04F - 7" = .ok ⟨.fate 4, [⟨.minus, .flat 7⟩]⟩ := by
    decide +kernel
  exact ⟨parsed, (parse_text _).2.2 _ parsed⟩

end Grammar

end TabletopDice
