import TabletopDice.Formula.Parse
import TabletopDice.Proofs.Grammar.Compaction
import TabletopDice.Proofs.Grammar.Reading

/-!
# Which texts are formulas

The compact form keeps the characters of formulas as they are, so a raw text is accepted exactly if
its compact form has a derivation: `parse_accepts_grammar`.
-/

namespace TabletopDice.Grammar

open Formula

variable {cs : List Char}

theorem ascii_of_isFormulaChar {c : Char} (h : isFormulaChar c = true) : c.toNat < 0x80 := by
  simp only [isFormulaChar, Bool.or_eq_true, beq_iff_eq] at h
  rcases h with ((((digit | rfl) | rfl) | rfl) | rfl) | rfl
  · have range : 48 ≤ c.toNat ∧ c.toNat ≤ 57 := Char.isDigit_iff_toNat.mp digit
    omega
  all_goals decide

theorem settled_of_isFormulaChar {c : Char} (h : isFormulaChar c = true) : Settled c := by
  have table : ∀ n < 0x80, isFormulaChar (Char.ofNat n) = true → Settled (Char.ofNat n) := by
    decide +kernel
  have ascii := ascii_of_isFormulaChar h
  exact forall_ascii (p := fun c => isFormulaChar c = true → Settled c) table ascii h

theorem compactChars_eq_self (h : ∀ c ∈ cs, isFormulaChar c = true) : compactChars cs = cs :=
  compactChars_of_settled fun c member => settled_of_isFormulaChar (h c member)

theorem toList_compact (raw : String) : (compact raw).toList = compactChars raw.toList := by
  simp [compact]

theorem parse_congr {raw raw' : String} (h : compact raw = compact raw') :
    parse raw = parse raw' := by
  unfold parse
  dsimp only
  rw [h]

theorem parse_trim (raw : String) : parse (Text.trim raw) = parse raw :=
  parse_congr (compact_trim raw)

theorem parse_of_some {raw : String} {f : Formula}
    (h : whole? readFormula? (compact raw).toList = some f) : parse raw = .ok f := by
  unfold parse
  dsimp only
  rw [h]

theorem parse_of_none {raw : String} (h : whole? readFormula? (compact raw).toList = none) :
    parse raw = .error ⟨compact raw, reason (compact raw).toList⟩ := by
  unfold parse
  dsimp only
  rw [h]

theorem parse_eq_ok_iff {raw : String} {f : Formula} :
    parse raw = .ok f ↔ ∃ t : FormulaTree, t.Derives (compact raw).toList f := by
  rw [← whole?_readFormula?_iff]
  constructor
  · intro h
    cases read : whole? readFormula? (compact raw).toList with
    | some g =>
      rw [parse_of_some read] at h
      exact congrArg some (Except.ok.inj h)
    | none =>
      rw [parse_of_none read] at h
      cases h
  · exact parse_of_some

theorem parse_eq_error_iff {raw : String} {r : Rejection} :
    parse raw = .error r ↔
      (∀ (t : FormulaTree) (f : Formula), ¬ t.Derives (compact raw).toList f) ∧
        r = ⟨compact raw, reason (compact raw).toList⟩ := by
  constructor
  · intro h
    have no (t : FormulaTree) (f : Formula) : ¬ t.Derives (compact raw).toList f := by
      intro derives
      rw [parse_eq_ok_iff.mpr ⟨t, derives⟩] at h
      cases h
    cases read : whole? readFormula? (compact raw).toList with
    | some g =>
      rw [parse_of_some read] at h
      cases h
    | none =>
      rw [parse_of_none read] at h
      exact ⟨no, (Except.error.inj h).symm⟩
  · rintro ⟨no, rfl⟩
    apply parse_of_none
    rw [Option.eq_none_iff_forall_ne_some]
    intro f read
    obtain ⟨t, derives⟩ := whole?_readFormula?_iff.mp read
    exact no t f derives

/-- A text is parsed exactly if it has a derivation, into the formula that is derived; it has one
derivation at most, and without one it is rejected. -/
theorem parse_accepts_grammar (raw : String) :
    (∀ f, parse raw = .ok f ↔ ∃ t : FormulaTree, t.Derives (compact raw).toList f) ∧
      (∀ text : List Char, {t : FormulaTree | ∃ f, t.Derives text f}.Subsingleton) ∧
      ((∃ why, parse raw = .error ⟨compact raw, why⟩) ↔
        ∀ (t : FormulaTree) (f : Formula), ¬ t.Derives (compact raw).toList f) := by
  refine ⟨fun f => parse_eq_ok_iff, ?_, ?_⟩
  · rintro text t ⟨f, derives⟩ t' ⟨f', derives'⟩
    exact FormulaTree.text_inj (derives.text_eq.trans derives'.text_eq.symm)
  · constructor
    · rintro ⟨why, rejected⟩
      exact (parse_eq_error_iff.mp rejected).1
    · intro no
      exact ⟨_, parse_eq_error_iff.mpr ⟨no, rfl⟩⟩

end TabletopDice.Grammar
