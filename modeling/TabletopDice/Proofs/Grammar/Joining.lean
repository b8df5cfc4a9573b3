import TabletopDice.Proofs.Grammar.Acceptance

/-!
# Joining formulas

Two formula texts with a sign between them are a formula text again: its terms are those of both
texts, the first of the second text under the sign (`parse_join`).
-/

namespace TabletopDice

/-- The terms of `g` behind those of `f`, the first of them under `s`. -/
def Formula.join (f : Formula) (s : Sign) (g : Formula) : Formula :=
  ⟨f.lead, f.rest ++ ⟨s, g.lead⟩ :: g.rest⟩

theorem Formula.terms_join (f : Formula) (s : Sign) (g : Formula) :
    (f.join s g).terms = f.terms ++ g.terms.modifyHead ({ · with sign := s }) := by
  simp [join, terms]

namespace Grammar

open Formula

theorem FormulaTree.Derives.join {t t' : FormulaTree} {cs cs' : List Char} {f g : Formula}
    (h : t.Derives cs f) (s : Sign) (h' : t'.Derives cs' g) :
    FormulaTree.Derives ⟨t.lead, t.rest ++ ⟨s, t'.lead⟩ :: t'.rest⟩ (cs ++ s.symbol :: cs')
      (f.join s g) := by
  obtain ⟨shaped, ⟨lead, rest⟩, rfl, rfl⟩ := h
  obtain ⟨-, ⟨lead', rest'⟩, rfl, rfl⟩ := h'
  refine ⟨shaped, ⟨lead, ?_⟩, ?_, ?_⟩
  · intro signed member
    rcases List.mem_append.mp member with member | member
    · exact rest signed member
    rcases List.mem_cons.mp member with rfl | member
    · exact lead'
    · exact rest' signed member
  · simp [FormulaTree.text, SignedTree.text]
  · simp [FormulaTree.formula, Formula.join, SignedTree.term]

theorem compact_join (a : String) (s : Sign) (b : String) :
    (compact (a ++ s.symbol.toString ++ b)).toList =
      (compact a).toList ++ s.symbol :: (compact b).toList := by
  have sign (cs : List Char) : compactChars (s.symbol :: cs) = s.symbol :: compactChars cs := by
    cases s <;> rfl
  simp [toList_compact, compactChars_append, sign]

theorem parse_join {a b : String} {f g : Formula} (ha : parse a = .ok f) (s : Sign)
    (hb : parse b = .ok g) : parse (a ++ s.symbol.toString ++ b) = .ok (f.join s g) := by
  obtain ⟨t, derives⟩ := parse_eq_ok_iff.mp ha
  obtain ⟨t', derives'⟩ := parse_eq_ok_iff.mp hb
  have joined := derives.join s derives'
  rw [← compact_join] at joined
  exact parse_eq_ok_iff.mpr ⟨_, joined⟩

end Grammar

end TabletopDice
