import Mathlib.Data.Set.Subsingleton
import TabletopDice.Formula.Basic

/-!
# The grammar of formulas

A formula text is a lead and any number of signed terms. A derivation is a tree that keeps all that
a text may choose: leading zeros, and the sides and the mark of fate dice, which mean nothing.
`FormulaTree.text_inj` shows that a text has at most one.
-/

namespace TabletopDice.Grammar

@[ext]
structure Digits where
  run : List Char
  isDigit : ∀ c ∈ run, c.isDigit = true

def Digits.none : Digits :=
  ⟨[], List.forall_mem_nil _⟩

@[simp] theorem Digits.run_none : none.run = [] := rfl

@[ext]
structure Numeral extends Digits where
  ne_nil : run ≠ []

namespace Numeral

def value (n : Numeral) : Nat :=
  Text.Decimal.value n.run

def Counts (n : Numeral) : Prop :=
  1 ≤ n.value ∧ n.value ≤ 65535

def Modifies (n : Numeral) : Prop :=
  n.value ≤ 4294967295

instance (n : Numeral) : Decidable n.Counts :=
  inferInstanceAs (Decidable (_ ∧ _))

instance (n : Numeral) : Decidable n.Modifies :=
  inferInstanceAs (Decidable (_ ≤ _))

end Numeral

def markText (mark : Bool) : List Char :=
  if mark then ['!'] else []

/-- A count, the letter of a kind of dice, and what may follow it. -/
def rollText (count : Numeral) (letter : Char) (sides : Digits) (mark : Bool) : List Char :=
  count.run ++ letter :: (sides.run ++ markText mark)

inductive TermTree where
  | dice (count sides : Numeral) (mark : Bool)
  | fate (count : Numeral) (sides : Digits) (mark : Bool)
  | flat (value : Numeral)

namespace TermTree

def text : TermTree → List Char
  | dice count sides mark => rollText count 'd' sides.toDigits mark
  | fate count sides mark => rollText count 'f' sides mark
  | flat value => value.run

def term : TermTree → Term
  | dice count sides mark => .dice ⟨.ofNat count.value, .ofNat sides.value, mark⟩
  | fate count _ _ => .fate (.ofNat count.value)
  | flat value => .flat (.ofNat value.value)

def InRange : TermTree → Prop
  | dice count sides _ => count.Counts ∧ sides.Counts
  | fate count _ _ => count.Counts
  | flat value => value.Modifies

def Leads : TermTree → Prop
  | flat _ => False
  | _ => True

end TermTree

@[ext]
structure SignedTree where
  sign : Sign
  tree : TermTree

namespace SignedTree

def text (s : SignedTree) : List Char :=
  s.sign.symbol :: s.tree.text

def term (s : SignedTree) : SignedTerm :=
  ⟨s.sign, s.tree.term⟩

end SignedTree

@[ext]
structure FormulaTree where
  lead : TermTree
  rest : List SignedTree

namespace FormulaTree

def text (t : FormulaTree) : List Char :=
  t.lead.text ++ t.rest.flatMap SignedTree.text

def formula (t : FormulaTree) : Formula :=
  ⟨t.lead.term, t.rest.map SignedTree.term⟩

/-- Whether the tree has the shape of a formula, whatever its numbers are. -/
def Shaped (t : FormulaTree) : Prop :=
  t.lead.Leads

def InRange (t : FormulaTree) : Prop :=
  t.lead.InRange ∧ ∀ s ∈ t.rest, s.tree.InRange

/-- `t` derives the formula `f` from the text `cs`. -/
structure Derives (t : FormulaTree) (cs : List Char) (f : Formula) : Prop where
  shaped : t.Shaped
  inRange : t.InRange
  text_eq : t.text = cs
  formula_eq : t.formula = f

end FormulaTree

/-! ### The characters of formulas -/

def isFormulaChar (c : Char) : Bool :=
  c.isDigit || c == 'd' || c == 'f' || c == '!' || c == '+' || c == '-'

theorem Digits.isFormulaChar_of_mem {r : Digits} {c : Char} (h : c ∈ r.run) :
    isFormulaChar c = true := by
  simp [isFormulaChar, r.isDigit c h]

theorem isFormulaChar_of_mem_mark {mark : Bool} {c : Char} (h : c ∈ markText mark) :
    isFormulaChar c = true := by
  cases mark with
  | false => simp [markText] at h
  | true =>
    obtain rfl : c = '!' := by simpa [markText] using h
    rfl

theorem isFormulaChar_of_mem_roll {count : Numeral} {letter : Char} {sides : Digits} {mark : Bool}
    {c : Char} (hl : isFormulaChar letter = true) (h : c ∈ rollText count letter sides mark) :
    isFormulaChar c = true := by
  simp only [rollText, List.mem_append, List.mem_cons] at h
  rcases h with h | rfl | h | h
  · exact Digits.isFormulaChar_of_mem h
  · exact hl
  · exact Digits.isFormulaChar_of_mem h
  · exact isFormulaChar_of_mem_mark h

theorem TermTree.isFormulaChar_of_mem {t : TermTree} {c : Char} (h : c ∈ t.text) :
    isFormulaChar c = true := by
  cases t with
  | dice count sides mark => exact isFormulaChar_of_mem_roll rfl h
  | fate count sides mark => exact isFormulaChar_of_mem_roll rfl h
  | flat value => exact Digits.isFormulaChar_of_mem h

theorem SignedTree.isFormulaChar_of_mem {s : SignedTree} {c : Char} (h : c ∈ s.text) :
    isFormulaChar c = true := by
  rcases List.mem_cons.mp h with rfl | h
  · cases s.sign <;> rfl
  · exact TermTree.isFormulaChar_of_mem h

theorem FormulaTree.isFormulaChar_of_mem {t : FormulaTree} {c : Char} (h : c ∈ t.text) :
    isFormulaChar c = true := by
  rcases List.mem_append.mp h with h | h
  · exact TermTree.isFormulaChar_of_mem h
  · obtain ⟨s, _, h⟩ := List.mem_flatMap.mp h
    exact SignedTree.isFormulaChar_of_mem h

/-! ### Where runs of digits and terms end -/

theorem ne_of_isDigit {c x : Char} (digit : c.isDigit = true) (other : x.isDigit = false) :
    c ≠ x := by
  rintro rfl
  rw [digit] at other
  cases other

theorem run_ne_cons (n : Numeral) {c : Char} (h : c.isDigit = false) (rest : List Char) :
    n.run ≠ c :: rest := by
  intro same
  exact ne_of_isDigit (n.isDigit c (same ▸ List.mem_cons_self)) h rfl

theorem head?_run_ne (n : Numeral) {c : Char} (h : c.isDigit = false) : n.run.head? ≠ some c := by
  intro front
  obtain ⟨rest, same⟩ := List.head?_eq_some_iff.mp front
  exact run_ne_cons n h rest same

/-- No digit stands at the front of a text. -/
def NoDigit (cs : List Char) : Prop :=
  ∀ c ∈ cs.head?, c.isDigit = false

/-- A term may end in front of a text: a sign is at its front, or nothing. -/
def AtTermEnd (cs : List Char) : Prop :=
  ∀ c ∈ cs.head?, c = '+' ∨ c = '-'

theorem noDigit_cons {c : Char} {cs : List Char} : NoDigit (c :: cs) ↔ c.isDigit = false := by
  simp [NoDigit]

theorem AtTermEnd.noDigit {cs : List Char} (h : AtTermEnd cs) : NoDigit cs := by
  intro c hc
  rcases h c hc with rfl | rfl <;> rfl

theorem AtTermEnd.head_ne {cs rest : List Char} {c : Char} (h : AtTermEnd cs) (plus : c ≠ '+')
    (minus : c ≠ '-') : cs ≠ c :: rest := by
  rintro rfl
  rcases h c rfl with rfl | rfl
  · exact plus rfl
  · exact minus rfl

theorem noDigit_mark_append {mark : Bool} {rest : List Char} (h : NoDigit rest) :
    NoDigit (markText mark ++ rest) := by
  cases mark with
  | false => exact h
  | true => exact noDigit_cons.mpr rfl

theorem atTermEnd_symbol (s : Sign) (cs : List Char) : AtTermEnd (s.symbol :: cs) := by
  intro c hc
  obtain rfl : s.symbol = c := by simpa using hc
  cases s with
  | plus => exact .inl rfl
  | minus => exact .inr rfl

theorem atTermEnd_nil : AtTermEnd [] := by
  simp [AtTermEnd]

theorem atTermEnd_flatMap (l : List SignedTree) : AtTermEnd (l.flatMap SignedTree.text) := by
  cases l with
  | nil => exact atTermEnd_nil
  | cons s l => exact atTermEnd_symbol s.sign _

/-! ### A text has at most one derivation -/

theorem takeWhile_run {r : Digits} {rest : List Char} (h : NoDigit rest) :
    (r.run ++ rest).takeWhile Char.isDigit = r.run := by
  rw [List.takeWhile_append_of_pos r.isDigit]
  cases rest with
  | nil => simp
  | cons c rest => simp [noDigit_cons.mp h]

theorem dropWhile_run {r : Digits} {rest : List Char} (h : NoDigit rest) :
    (r.run ++ rest).dropWhile Char.isDigit = rest := by
  rw [List.dropWhile_append_of_pos r.isDigit]
  cases rest with
  | nil => rfl
  | cons c rest => simp [noDigit_cons.mp h]

theorem Digits.append_inj {a b : Digits} {x y : List Char} (hx : NoDigit x) (hy : NoDigit y)
    (h : a.run ++ x = b.run ++ y) : a = b ∧ x = y := by
  have runs := congrArg (List.takeWhile Char.isDigit) h
  have rests := congrArg (List.dropWhile Char.isDigit) h
  rw [takeWhile_run hx, takeWhile_run hy] at runs
  rw [dropWhile_run hx, dropWhile_run hy] at rests
  exact ⟨Digits.ext runs, rests⟩

theorem Numeral.append_inj {a b : Numeral} {x y : List Char} (hx : NoDigit x) (hy : NoDigit y)
    (h : a.run ++ x = b.run ++ y) : a = b ∧ x = y := by
  obtain ⟨same, rests⟩ := Digits.append_inj hx hy h
  exact ⟨Numeral.ext (congrArg Digits.run same), rests⟩

theorem mark_append_inj {a b : Bool} {x y : List Char} (hx : AtTermEnd x) (hy : AtTermEnd y)
    (h : markText a ++ x = markText b ++ y) : a = b ∧ x = y := by
  cases a <;> cases b
  · exact ⟨rfl, h⟩
  · exact (hx.head_ne (by decide) (by decide) h).elim
  · exact (hy.head_ne (by decide) (by decide) h.symm).elim
  · exact ⟨rfl, (List.cons.inj h).2⟩

theorem roll_append_inj {c c' : Numeral} {l l' : Char} {s s' : Digits} {m m' : Bool}
    {x y : List Char} (hl : l.isDigit = false) (hl' : l'.isDigit = false) (hx : AtTermEnd x)
    (hy : AtTermEnd y) (h : rollText c l s m ++ x = rollText c' l' s' m' ++ y) :
    c = c' ∧ l = l' ∧ s = s' ∧ m = m' ∧ x = y := by
  simp only [rollText, List.append_assoc, List.cons_append] at h
  obtain ⟨rfl, letters⟩ := Numeral.append_inj (noDigit_cons.mpr hl) (noDigit_cons.mpr hl') h
  obtain ⟨rfl, sides⟩ := List.cons.inj letters
  obtain ⟨rfl, marks⟩ := Digits.append_inj (noDigit_mark_append hx.noDigit)
    (noDigit_mark_append hy.noDigit) sides
  obtain ⟨rfl, rfl⟩ := mark_append_inj hx hy marks
  exact ⟨rfl, rfl, rfl, rfl, rfl⟩

theorem roll_append_ne {c v : Numeral} {l : Char} {s : Digits} {m : Bool} {x y : List Char}
    (letter : l.isDigit = false) (plus : l ≠ '+') (minus : l ≠ '-')
    (hy : AtTermEnd y) : rollText c l s m ++ x ≠ v.run ++ y := by
  intro h
  simp only [rollText, List.append_assoc, List.cons_append] at h
  obtain ⟨_, h⟩ := Numeral.append_inj (noDigit_cons.mpr letter) hy.noDigit h
  exact hy.head_ne plus minus h.symm

theorem TermTree.append_inj {t t' : TermTree} {x y : List Char} (hx : AtTermEnd x)
    (hy : AtTermEnd y) (h : t.text ++ x = t'.text ++ y) : t = t' ∧ x = y := by
  cases t with
  | dice c s m =>
    cases t' with
    | dice c' s' m' =>
      obtain ⟨rfl, _, sides, rfl, rfl⟩ := roll_append_inj rfl rfl hx hy h
      obtain rfl : s = s' := Numeral.ext (congrArg Digits.run sides)
      exact ⟨rfl, rfl⟩
    | fate c' s' m' =>
      obtain ⟨_, letters, _⟩ := roll_append_inj rfl rfl hx hy h
      exact absurd letters (by decide)
    | flat v => exact (roll_append_ne rfl (by decide) (by decide) hy h).elim
  | fate c s m =>
    cases t' with
    | dice c' s' m' =>
      obtain ⟨_, letters, _⟩ := roll_append_inj rfl rfl hx hy h
      exact absurd letters (by decide)
    | fate c' s' m' =>
      obtain ⟨rfl, _, rfl, rfl, rfl⟩ := roll_append_inj rfl rfl hx hy h
      exact ⟨rfl, rfl⟩
    | flat v => exact (roll_append_ne rfl (by decide) (by decide) hy h).elim
  | flat v =>
    cases t' with
    | dice c' s' m' => exact (roll_append_ne rfl (by decide) (by decide) hx h.symm).elim
    | fate c' s' m' => exact (roll_append_ne rfl (by decide) (by decide) hx h.symm).elim
    | flat v' =>
      obtain ⟨rfl, rfl⟩ := Numeral.append_inj hx.noDigit hy.noDigit h
      exact ⟨rfl, rfl⟩

theorem symbol_inj {a b : Sign} (h : a.symbol = b.symbol) : a = b := by
  cases a <;> cases b <;> first | rfl | exact absurd h (by decide)

theorem flatMap_text_inj {l l' : List SignedTree}
    (h : l.flatMap SignedTree.text = l'.flatMap SignedTree.text) : l = l' := by
  induction l generalizing l' with
  | nil =>
    cases l' with
    | nil => rfl
    | cons s' l' => exact absurd h (by simp [SignedTree.text])
  | cons s l ih =>
    cases l' with
    | nil => exact absurd h (by simp [SignedTree.text])
    | cons s' l' =>
      simp only [List.flatMap_cons, SignedTree.text, List.cons_append] at h
      obtain ⟨signs, terms⟩ := List.cons.inj h
      obtain ⟨trees, rests⟩ :=
        TermTree.append_inj (atTermEnd_flatMap l) (atTermEnd_flatMap l') terms
      obtain rfl : s = s' := SignedTree.ext (symbol_inj signs) trees
      rw [ih rests]

theorem FormulaTree.text_inj {t t' : FormulaTree} (h : t.text = t'.text) : t = t' := by
  obtain ⟨leads, rests⟩ := TermTree.append_inj (atTermEnd_flatMap _) (atTermEnd_flatMap _) h
  exact FormulaTree.ext leads (flatMap_text_inj rests)

end TabletopDice.Grammar
