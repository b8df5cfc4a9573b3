import TabletopDice.Proofs.Rejection.Sight

/-!
# What attempts promise

What lies before an attempt starts a text of the right shape, and with any one of the things that
were looked for it starts a formula: `formulaAttempts_justified`.
-/

namespace TabletopDice.Grammar

open Formula

variable {cs rest : List Char}

/-! ### Languages -/

def LeadShape (cs : List Char) : Prop :=
  ∃ t : TermTree, t.Leads ∧ t.text = cs

def LeadText (cs : List Char) : Prop :=
  ∃ t : TermTree, t.Leads ∧ t.InRange ∧ t.text = cs

def TermShape (cs : List Char) : Prop :=
  ∃ t : TermTree, t.text = cs

def TermText (cs : List Char) : Prop :=
  ∃ t : TermTree, t.InRange ∧ t.text = cs

def FormulaShape (cs : List Char) : Prop :=
  ∃ t : FormulaTree, t.Shaped ∧ t.text = cs

def FormulaText (cs : List Char) : Prop :=
  ∃ t : FormulaTree, t.Shaped ∧ t.InRange ∧ t.text = cs

theorem LeadShape.formulaShape (h : LeadShape cs) : FormulaShape cs := by
  obtain ⟨t, leads, rfl⟩ := h
  exact ⟨⟨t, []⟩, leads, by simp [FormulaTree.text]⟩

theorem LeadText.formulaText (h : LeadText cs) : FormulaText cs := by
  obtain ⟨t, leads, range, rfl⟩ := h
  exact ⟨⟨t, []⟩, leads, ⟨range, by simp⟩, by simp [FormulaTree.text]⟩

theorem FormulaText.shape (h : FormulaText cs) : FormulaShape cs := by
  obtain ⟨t, shaped, -, text⟩ := h
  exact ⟨t, shaped, text⟩

theorem FormulaShape.snoc {x : List Char} (h : FormulaShape cs) (s : Sign) (term : TermShape x) :
    FormulaShape (cs ++ s.symbol :: x) := by
  obtain ⟨t, shaped, rfl⟩ := h
  obtain ⟨tree, rfl⟩ := term
  exact ⟨⟨t.lead, t.rest ++ [⟨s, tree⟩]⟩, shaped, by simp [FormulaTree.text, SignedTree.text]⟩

theorem FormulaText.snoc {x : List Char} (h : FormulaText cs) (s : Sign) (term : TermText x) :
    FormulaText (cs ++ s.symbol :: x) := by
  obtain ⟨t, shaped, ⟨lead, ranges⟩, rfl⟩ := h
  obtain ⟨tree, range, rfl⟩ := term
  refine ⟨⟨t.lead, t.rest ++ [⟨s, tree⟩]⟩, shaped, ⟨lead, ?_⟩,
    by simp [FormulaTree.text, SignedTree.text]⟩
  intro signed member
  rcases List.mem_append.mp member with old | new
  · exact ranges signed old
  · rw [List.mem_singleton.mp new]
    exact range

/-! ### Justified attempts -/

/-- `x`, followed by what is expected there, starts an accepted text. -/
def Continues (accepted : List Char → Prop) (x : List Char) : Expected → Prop
  | .literal c => ∃ u, accepted (x ++ c :: u)
  | .endOfInput => accepted x

/-- What lies before an attempt at `cs` starts a text of the right shape, and goes on to an accepted
one with what was looked for. -/
def Justified (shape accepted : List Char → Prop) (cs : List Char) (a : Attempt) : Prop :=
  ∃ x, x ++ a.left = cs ∧ (∃ u, shape (x ++ u)) ∧ ∀ e ∈ a.expected, Continues accepted x e

section Lift

variable {shape shape' accepted accepted' : List Char → Prop}

theorem Justified.lift {a : Attempt} (x : List Char) (hs : ∀ y, shape y → shape' (x ++ y))
    (ha : ∀ y, accepted y → accepted' (x ++ y)) (h : Justified shape accepted cs a) :
    Justified shape' accepted' (x ++ cs) a := by
  obtain ⟨y, rfl, ⟨u, shaped⟩, continues⟩ := h
  refine ⟨x ++ y, List.append_assoc x y a.left, ⟨u, ?_⟩, fun e member => ?_⟩
  · rw [List.append_assoc]
    exact hs _ shaped
  · cases e with
    | literal c =>
      obtain ⟨v, goesOn⟩ := continues _ member
      refine ⟨v, ?_⟩
      rw [List.append_assoc]
      exact ha _ goesOn
    | endOfInput => exact ha _ (continues _ member)

theorem justified_digitsEnd {x left u : List Char} (text : x ++ left = cs) (h : shape (x ++ u)) :
    Justified shape accepted cs (.digitsEnd left) :=
  ⟨x, text, ⟨u, h⟩, by simp [Attempt.digitsEnd]⟩

theorem justified_literal {x left u : List Char} {c : Char} (text : x ++ left = cs)
    (h : accepted (x ++ c :: u)) (sub : ∀ y, accepted y → shape y) :
    Justified shape accepted cs (.literal left c) := by
  refine ⟨x, text, ⟨c :: u, sub _ h⟩, fun e member => ?_⟩
  obtain rfl : e = .literal c := by simpa [Attempt.literal, eq_comm] using member
  exact ⟨u, h⟩

end Lift

/-! ### Single terms -/

def Digits.thenOne (r : Digits) : Numeral where
  run := r.run ++ ['1']
  isDigit c member := by
    rcases List.mem_append.mp member with old | new
    · exact r.isDigit c old
    · rw [List.mem_singleton.mp new]
      rfl
  ne_nil := by simp

def Numeral.one : Numeral :=
  Digits.thenOne .none

theorem Numeral.one_counts : one.Counts := by
  decide

theorem Numeral.one_modifies : one.Modifies := by
  decide

theorem positive?_frontNumeral {n : UInt16} (h : positive? (digitRun cs) = some n) :
    (frontNumeral cs (ne_nil_of_positive? h)).Counts :=
  (positive?_eq_some_iff.mp h).1

theorem LeadText.shape (h : LeadText cs) : LeadShape cs := by
  obtain ⟨t, leads, -, text⟩ := h
  exact ⟨t, leads, text⟩

theorem LeadText.dice {count sides : Numeral} (mark : Bool) (hc : count.Counts)
    (hs : sides.Counts) : LeadText (rollText count 'd' sides.toDigits mark) :=
  ⟨.dice count sides mark, trivial, ⟨hc, hs⟩, rfl⟩

theorem LeadText.fate {count : Numeral} (sides : Digits) (mark : Bool) (hc : count.Counts) :
    LeadText (rollText count 'f' sides mark) :=
  ⟨.fate count sides mark, trivial, hc, rfl⟩

theorem leadShape_digits (r : Digits) : LeadShape (r.run ++ ['1', 'd', '1']) :=
  ⟨.dice r.thenOne .one false, trivial, by
    simp [TermTree.text, rollText, Digits.thenOne, Numeral.one, markText]⟩

theorem markAttempts_justified {shape accepted : List Char → Prop} {x : List Char}
    (sub : ∀ y, accepted y → shape y) (h : accepted (x ++ ['!'])) (text : x ++ rest = cs) :
    ∀ a ∈ markAttempts rest, Justified shape accepted cs a := by
  intro a member
  unfold markAttempts at member
  split at member
  · simp at member
  · rw [List.mem_singleton.mp member]
    exact justified_literal text h sub

theorem front_letter {letter : Char} {sidesOn : List Char}
    (h : past? letter (pastDigits cs) = some sidesOn) :
    (digitRun cs ++ letter :: digitRun sidesOn) ++ pastDigits sidesOn = cs := by
  rw [List.append_assoc, List.cons_append, digitRun_append_pastDigits, ← past?_eq_some_iff.mp h,
    digitRun_append_pastDigits]

theorem diceAttempts_justified :
    ∀ a ∈ diceAttempts cs, Justified LeadShape LeadText cs a := by
  have front := digitRun_append_pastDigits cs
  rw [diceAttempts]
  refine List.forall_mem_cons.mpr
    ⟨justified_digitsEnd front (leadShape_digits (frontDigits cs)), ?_⟩
  cases count : positive? (digitRun cs) with
  | none => exact List.forall_mem_nil _
  | some n =>
    have counts := positive?_frontNumeral count
    cases letter : past? 'd' (pastDigits cs) with
    | none =>
      have goesOn : LeadText (digitRun cs ++ 'd' :: ['1']) :=
        LeadText.dice false counts Numeral.one_counts
      exact List.forall_mem_cons.mpr
        ⟨justified_literal front goesOn fun _ => LeadText.shape, List.forall_mem_nil _⟩
    | some sidesOn =>
      have shaped : LeadShape ((digitRun cs ++ 'd' :: digitRun sidesOn) ++ ['1']) :=
        ⟨.dice (frontNumeral cs (ne_nil_of_positive? count)) (frontDigits sidesOn).thenOne false,
          trivial, by simp [TermTree.text, rollText, frontNumeral, frontDigits, Digits.thenOne,
            markText]⟩
      refine List.forall_mem_cons.mpr ⟨justified_digitsEnd (front_letter letter) shaped, ?_⟩
      cases sides : positive? (digitRun sidesOn) with
      | none => exact List.forall_mem_nil _
      | some m =>
        have marked : LeadText ((digitRun cs ++ 'd' :: digitRun sidesOn) ++ ['!']) := by
          rw [List.append_assoc]
          exact LeadText.dice true counts (positive?_frontNumeral sides)
        exact markAttempts_justified (fun _ => LeadText.shape) marked (front_letter letter)

theorem fateAttempts_justified :
    ∀ a ∈ fateAttempts cs, Justified LeadShape LeadText cs a := by
  have front := digitRun_append_pastDigits cs
  rw [fateAttempts]
  refine List.forall_mem_cons.mpr
    ⟨justified_digitsEnd front (leadShape_digits (frontDigits cs)), ?_⟩
  cases count : positive? (digitRun cs) with
  | none => exact List.forall_mem_nil _
  | some n =>
    have counts := positive?_frontNumeral count
    cases letter : past? 'f' (pastDigits cs) with
    | none =>
      have goesOn : LeadText (digitRun cs ++ 'f' :: []) :=
        LeadText.fate .none false counts
      exact List.forall_mem_cons.mpr
        ⟨justified_literal front goesOn fun _ => LeadText.shape, List.forall_mem_nil _⟩
    | some sidesOn =>
      have fate (mark : Bool) :
          LeadText ((digitRun cs ++ 'f' :: digitRun sidesOn) ++ markText mark) := by
        rw [List.append_assoc]
        exact LeadText.fate (frontDigits sidesOn) mark counts
      exact List.forall_mem_cons.mpr
        ⟨justified_digitsEnd (front_letter letter) (fate false).shape,
          markAttempts_justified (fun _ => LeadText.shape) (fate true) (front_letter letter)⟩

theorem leadAttempts_justified :
    ∀ a ∈ leadAttempts cs, Justified LeadShape LeadText cs a := by
  refine List.forall_mem_append.mpr ⟨diceAttempts_justified, ?_⟩
  split
  · exact List.forall_mem_nil _
  · exact fateAttempts_justified

theorem flatAttempts_justified :
    ∀ a ∈ flatAttempts cs, Justified TermShape TermText cs a := by
  have shaped : TermShape (digitRun cs ++ ['1']) := ⟨.flat (frontDigits cs).thenOne, rfl⟩
  exact List.forall_mem_cons.mpr
    ⟨justified_digitsEnd (digitRun_append_pastDigits cs) shaped, List.forall_mem_nil _⟩

theorem termAttempts_justified :
    ∀ a ∈ termAttempts cs, Justified TermShape TermText cs a := by
  have lead : ∀ a ∈ leadAttempts cs, Justified TermShape TermText cs a := by
    intro a member
    refine (leadAttempts_justified a member).lift [] ?_ ?_
    · rintro y ⟨t, -, text⟩
      exact ⟨t, text⟩
    · rintro y ⟨t, -, range, text⟩
      exact ⟨t, range, text⟩
  refine List.forall_mem_append.mpr ⟨lead, ?_⟩
  split
  · exact List.forall_mem_nil _
  · exact flatAttempts_justified

/-! ### Formulas -/

variable {pre : List Char}

theorem FormulaText.snoc_one (h : FormulaText pre) (s : Sign) :
    FormulaText (pre ++ s.symbol :: ['1']) :=
  h.snoc s ⟨.flat .one, Numeral.one_modifies, rfl⟩

theorem signAttempts_justified (h : FormulaText pre) :
    ∀ a ∈ signAttempts cs, Justified FormulaShape FormulaText (pre ++ cs) a := by
  intro a member
  obtain ⟨s, rfl⟩ := mem_signAttempts member
  exact justified_literal rfl (h.snoc_one s) fun _ => FormulaText.shape

theorem signedTermAttempts_justified (h : FormulaText pre) :
    ∀ a ∈ signedTermAttempts cs, Justified FormulaShape FormulaText (pre ++ cs) a := by
  refine List.forall_mem_append.mpr ⟨signAttempts_justified h, ?_⟩
  cases signed : readSign? cs with
  | none => exact List.forall_mem_nil _
  | some p =>
    obtain ⟨s, termOn⟩ := p
    intro a member
    have text : pre ++ cs = (pre ++ [s.symbol]) ++ termOn := by
      rw [readSign?_eq_some_iff.mp signed, List.append_assoc]
      rfl
    rw [text]
    refine (termAttempts_justified a member).lift (pre ++ [s.symbol]) ?_ ?_
    · intro y term
      rw [List.append_assoc]
      exact h.shape.snoc s term
    · intro y term
      rw [List.append_assoc]
      exact h.snoc s term

theorem restAttempts_justified {before : List Attempt} (h : FormulaText pre)
    (hb : ∀ a ∈ before, Justified FormulaShape FormulaText (pre ++ cs) a) :
    ∀ a ∈ restAttempts before cs, Justified FormulaShape FormulaText (pre ++ cs) a := by
  fun_induction restAttempts before cs generalizing pre with
  | case1 before cs t rest read ih =>
    have signed : ∀ a ∈ signedTermAttempts cs, Justified FormulaShape FormulaText (pre ++ cs) a :=
      signedTermAttempts_justified h
    obtain ⟨s, range, -, rfl⟩ := readSignedTerm?_sound read
    have longer : FormulaText (pre ++ s.text) := h.snoc s.sign ⟨s.tree, range, rfl⟩
    rw [← List.append_assoc] at signed ⊢
    exact ih longer signed
  | case2 before cs read =>
    refine List.forall_mem_append.mpr
      ⟨List.forall_mem_append.mpr ⟨hb, signedTermAttempts_justified h⟩, ?_⟩
    split
    · exact List.forall_mem_nil _
    · refine List.forall_mem_cons.mpr ⟨⟨pre, rfl, ⟨[], ?_⟩, ?_⟩, List.forall_mem_nil _⟩
      · rw [List.append_nil]
        exact h.shape
      · intro e member
        obtain rfl : e = .endOfInput := by simpa [eq_comm] using member
        exact h

theorem formulaAttempts_justified :
    ∀ a ∈ formulaAttempts cs, Justified FormulaShape FormulaText cs a := by
  have lead : ∀ a ∈ leadAttempts cs, Justified FormulaShape FormulaText cs a := fun a member =>
    (leadAttempts_justified a member).lift [] (fun _ => LeadShape.formulaShape)
      fun _ => LeadText.formulaText
  rw [formulaAttempts]
  cases read : readLead? cs with
  | none => exact lead
  | some p =>
    obtain ⟨term, rest⟩ := p
    obtain ⟨t, leads, range, -, text⟩ := readLead?_sound read
    have start : FormulaText t.text := LeadText.formulaText ⟨t, leads, range, rfl⟩
    rw [← text] at lead ⊢
    exact restAttempts_justified start lead

end TabletopDice.Grammar
