import TabletopDice.Proofs.Grammar.Acceptance
import TabletopDice.Proofs.Rejection.Expectations
import TabletopDice.Proofs.Rejection.Farthest

/-!
# The reason for a rejection

A rejection points at a place in the compact form. `rejection_diagnosis` says that no formula goes
on from there as the text does, and that formulas go on from there as the rejection says.
-/

namespace TabletopDice.Grammar

open Formula

variable {cs x y : List Char}

def byteSize (cs : List Char) : Nat :=
  (String.ofList cs).utf8ByteSize

theorem byteSize_concat (cs : List Char) (c : Char) :
    byteSize (cs ++ [c]) = byteSize cs + c.utf8Size := by
  rw [byteSize, String.ofList_append, String.utf8ByteSize_append]
  congr 1
  exact String.utf8ByteSize_singleton

def PointsAt (why : Reason) (before : List Char) : List Char → Prop
  | c :: _ =>
    why.found = some c ∧ why.start = byteSize before ∧ why.stop = byteSize (before ++ [c])
  | [] => why.found = none ∧ why.start = byteSize before ∧ why.stop = byteSize before

/-- What a reason says about a text that goes on with `after` behind `before`. -/
structure Diagnosis (why : Reason) (before after : List Char) : Prop where
  points : PointsAt why before after
  alphabet : ∀ c ∈ before, isFormulaChar c = true
  /-- No formula goes on as the text does. -/
  stuck : ∀ c ∈ after.head?, ∀ raw f, parse raw = .ok f →
    ¬ before ++ [c] <+: raw.toList ∧ ¬ before ++ [c] <+: (compact raw).toList
  /-- With other numbers, `before` starts a formula. -/
  shaped : ∃ t : FormulaTree, t.Shaped ∧ before <+: t.text
  /-- A formula goes on with what is expected. -/
  literal : ∀ c, .literal c ∈ why.expected →
    ∃ u f, parse (String.ofList (before ++ c :: u)) = .ok f
  endOfInput : .endOfInput ∈ why.expected → ∃ f, parse (String.ofList before) = .ok f

/-! ### What the farthest attempt promises -/

theorem farthest_splits (cs : List Char) :
    ∃ x, x ++ (farthest cs (formulaAttempts cs)).left = cs ∧ (∃ u, FormulaShape (x ++ u)) ∧
      ∀ e ∈ (farthest cs (formulaAttempts cs)).expected, Continues FormulaText x e := by
  have best := farthest_of cs (formulaAttempts cs)
  generalize farthest cs (formulaAttempts cs) = place at best
  have split : ∃ x, x ++ place.left = cs ∧ ∃ u, FormulaShape (x ++ u) := by
    rcases best.reached with all | ⟨a, tried, left⟩
    · exact ⟨[], all, _, (leadShape_digits .none).formulaShape⟩
    · obtain ⟨x, text, shape, -⟩ := formulaAttempts_justified a tried
      exact ⟨x, left ▸ text, shape⟩
  obtain ⟨x, text, shape⟩ := split
  refine ⟨x, text, shape, fun e member => ?_⟩
  -- Attempts at one place have the same text before them.
  obtain ⟨a, tried, looked, same⟩ := best.looked e member
  obtain ⟨y, text', -, continues⟩ := formulaAttempts_justified a tried
  obtain ⟨rfl, -⟩ := List.append_inj' (text'.trans text.symm) same
  exact continues e looked

theorem FormulaText.parses (h : FormulaText cs) : ∃ f, parse (String.ofList cs) = .ok f := by
  obtain ⟨t, shaped, range, rfl⟩ := h
  refine ⟨t.formula, parse_eq_ok_iff.mpr ⟨t, shaped, range, ?_, rfl⟩⟩
  rw [toList_compact, String.toList_ofList]
  exact (compactChars_eq_self fun c member => t.isFormulaChar_of_mem member).symm

theorem FormulaShape.isFormulaChar_of_mem (h : FormulaShape cs) {c : Char} (member : c ∈ cs) :
    isFormulaChar c = true := by
  obtain ⟨t, -, rfl⟩ := h
  exact t.isFormulaChar_of_mem member

theorem no_formula_past {c : Char} {l : List Char}
    (text : x ++ c :: l = cs) (left : (farthest cs (formulaAttempts cs)).left = c :: l)
    (v : List Char) : whole? readFormula? (x ++ [c] ++ v) = none := by
  apply whole?_readFormula?_sight (l := l)
  intro a tried
  have upTo := (farthest_of cs (formulaAttempts cs)).upTo
  rw [left, ← text] at upTo
  have reach := upTo a (by simpa using tried)
  exact reach

/-- So no text that is a formula starts that way, and neither does its compact form. -/
theorem no_formula_starts {c : Char} {l : List Char} (settled : ∀ d ∈ cs, Settled d)
    (text : x ++ c :: l = cs) (left : (farthest cs (formulaAttempts cs)).left = c :: l)
    {raw : String} {f : Formula} (accepted : parse raw = .ok f) :
    ¬ x ++ [c] <+: raw.toList ∧ ¬ x ++ [c] <+: (compact raw).toList := by
  have read := whole?_readFormula?_iff.mpr (parse_eq_ok_iff.mp accepted)
  have kept : compactChars (x ++ [c]) = x ++ [c] := by
    apply compactChars_of_settled
    intro d member
    apply settled
    rw [← text]
    rcases List.mem_append.mp member with old | new
    · exact List.mem_append_left _ old
    · rw [List.mem_singleton.mp new]
      exact List.mem_append_right _ List.mem_cons_self
  constructor
  · rintro ⟨v, starts⟩
    rw [toList_compact, ← starts, compactChars_append, kept, no_formula_past text left] at read
    cases read
  · rintro ⟨v, starts⟩
    rw [← starts, no_formula_past text left] at read
    cases read

theorem pointsAt_reason (text : x ++ (farthest cs (formulaAttempts cs)).left = cs) :
    PointsAt (reason cs) x (farthest cs (formulaAttempts cs)).left := by
  unfold reason
  dsimp only
  generalize farthest cs (formulaAttempts cs) = place at text ⊢
  subst text
  have before : (x ++ place.left).take ((x ++ place.left).length - place.left.length) = x := by
    rw [List.length_append, Nat.add_sub_cancel, List.take_left]
  rw [before]
  cases place.left with
  | nil => exact ⟨rfl, rfl, rfl⟩
  | cons c l => exact ⟨rfl, rfl, (byteSize_concat x c).symm⟩

/-- A rejection of a raw text points at a place in its compact form where no formula goes on as the
text does, but formulas go on as it says. -/
theorem rejection_diagnosis {raw : String} {r : Rejection} (h : parse raw = .error r) :
    r.formula = compact raw ∧
      ∃ before after, before ++ after = (compact raw).toList ∧
        Diagnosis r.reason before after := by
  obtain ⟨-, rfl⟩ := parse_eq_error_iff.mp h
  have settled : ∀ c ∈ (compact raw).toList, Settled c := by
    rw [toList_compact]
    exact fun c => settled_of_mem_compactChars
  generalize (compact raw).toList = cs at settled ⊢
  obtain ⟨x, text, ⟨u, shape⟩, continues⟩ := farthest_splits cs
  refine ⟨rfl, x, _, text, pointsAt_reason text, ?_, ?_, ?_, ?_, ?_⟩
  · exact fun c member => shape.isFormulaChar_of_mem (List.mem_append_left u member)
  · intro c found raw' f accepted
    obtain ⟨l, left⟩ := List.head?_eq_some_iff.mp found
    rw [left] at text
    exact no_formula_starts settled text left accepted
  · obtain ⟨t, shaped, text'⟩ := shape
    exact ⟨t, shaped, u, text'.symm⟩
  · intro c expected
    obtain ⟨u, formula⟩ := continues _ expected
    obtain ⟨f, accepted⟩ := formula.parses
    exact ⟨u, f, accepted⟩
  · intro expected
    exact (continues _ expected).parses

/-- A die without sides is not named: the text just goes on in the wrong way behind it. -/
theorem rejection_diagnosis_no_sides :
    parse "2d6+1d0+5" = .error ⟨"2d6+1d0+5", ⟨7, 8, some '+', []⟩⟩ ∧
      ∃ before after, before ++ after = (compact "2d6+1d0+5").toList ∧
        Diagnosis ⟨7, 8, some '+', []⟩ before after := by
  have rejected : parse "2d6+1d0+5" = .error ⟨"2d6+1d0+5", ⟨7, 8, some '+', []⟩⟩ := by
    decide +kernel
  exact ⟨rejected, (rejection_diagnosis rejected).2⟩

end TabletopDice.Grammar
