import TabletopDice.Formula.Reader
import TabletopDice.Proofs.Grammar.Derivation

/-!
# Readers and derivations

The readers take their choices in a fixed order and never go back on them. Still nothing is missed:
in front of a sign or the end of a text, the term that is written there is the one that is read
(`readTerm?_text`). `whole?_readFormula?_iff` puts both directions together for whole texts.
-/

namespace TabletopDice.Grammar

open Formula

variable {cs rest : List Char}

/-! ### Numbers -/

theorem positive?_eq_some_iff {run : List Char} {n : UInt16} :
    positive? run = some n ↔
      (1 ≤ Text.Decimal.value run ∧ Text.Decimal.value run ≤ 65535) ∧
        UInt16.ofNat (Text.Decimal.value run) = n := by
  have size : UInt16.size = 65536 := rfl
  simp only [positive?, Option.ite_none_right_eq_some, Option.some.injEq, size]
  constructor
  · rintro ⟨⟨pos, lt⟩, rfl⟩
    exact ⟨⟨pos, by omega⟩, rfl⟩
  · rintro ⟨⟨pos, le⟩, rfl⟩
    exact ⟨⟨pos, by omega⟩, rfl⟩

theorem positive?_nil : positive? [] = none := rfl

theorem modifier?_eq_some_iff {run : List Char} {n : UInt32} :
    modifier? run = some n ↔
      run ≠ [] ∧ Text.Decimal.value run ≤ 4294967295 ∧
        UInt32.ofNat (Text.Decimal.value run) = n := by
  have size : UInt32.size = 4294967296 := rfl
  simp only [modifier?, Option.ite_none_right_eq_some, Option.some.injEq, size]
  constructor
  · rintro ⟨⟨ne, lt⟩, rfl⟩
    exact ⟨ne, by omega, rfl⟩
  · rintro ⟨ne, le, rfl⟩
    exact ⟨⟨ne, by omega⟩, rfl⟩

theorem Numeral.positive?_run {n : Numeral} (h : n.Counts) :
    positive? n.run = some (.ofNat n.value) :=
  positive?_eq_some_iff.mpr ⟨h, rfl⟩

theorem Numeral.modifier?_run {n : Numeral} (h : n.Modifies) :
    modifier? n.run = some (.ofNat n.value) :=
  modifier?_eq_some_iff.mpr ⟨n.ne_nil, h, rfl⟩

/-! ### The front of a text -/

theorem digitRun_append_pastDigits (cs : List Char) : digitRun cs ++ pastDigits cs = cs :=
  List.takeWhile_append_dropWhile

theorem noDigit_pastDigits (cs : List Char) : NoDigit (pastDigits cs) := by
  intro c hc
  have := List.head?_dropWhile_not Char.isDigit cs
  rw [show (cs.dropWhile Char.isDigit).head? = some c from hc] at this
  simpa using this

theorem isDigit_of_mem_digitRun {c : Char} (h : c ∈ digitRun cs) : c.isDigit = true :=
  List.all_eq_true.mp List.all_takeWhile c h

def frontDigits (cs : List Char) : Digits :=
  ⟨digitRun cs, fun _ => isDigit_of_mem_digitRun⟩

def frontNumeral (cs : List Char) (h : digitRun cs ≠ []) : Numeral :=
  ⟨frontDigits cs, h⟩

theorem digitRun_append {n : Digits} (h : NoDigit rest) : digitRun (n.run ++ rest) = n.run :=
  takeWhile_run h

theorem pastDigits_append {n : Digits} (h : NoDigit rest) : pastDigits (n.run ++ rest) = rest :=
  dropWhile_run h

theorem past?_eq_some_iff {c : Char} : past? c cs = some rest ↔ cs = c :: rest := by
  cases cs with
  | nil => simp [past?]
  | cons x cs => simp [past?]

theorem past?_eq_none_iff {c : Char} : past? c cs = none ↔ ∀ rest, cs ≠ c :: rest := by
  rw [Option.eq_none_iff_forall_ne_some]
  simp only [ne_eq, past?_eq_some_iff]

theorem past?_cons (c : Char) (cs : List Char) : past? c (c :: cs) = some cs :=
  past?_eq_some_iff.mpr rfl

theorem mark_append_pastMark (cs : List Char) :
    markText (past? '!' cs).isSome ++ pastMark cs = cs := by
  unfold pastMark
  cases h : past? '!' cs with
  | none => rfl
  | some rest => exact (past?_eq_some_iff.mp h).symm

theorem past?_mark_append {mark : Bool} (h : AtTermEnd rest) :
    (past? '!' (markText mark ++ rest)).isSome = mark := by
  cases mark with
  | true => rfl
  | false =>
    rw [show markText false ++ rest = rest from rfl,
      past?_eq_none_iff.mpr fun _ => h.head_ne (by decide) (by decide)]
    rfl

theorem pastMark_mark_append {mark : Bool} (h : AtTermEnd rest) :
    pastMark (markText mark ++ rest) = rest := by
  have split := mark_append_pastMark (markText mark ++ rest)
  rw [past?_mark_append h] at split
  exact List.append_cancel_left split

/-! ### What is read is written there -/

theorem ne_nil_of_positive? {run : List Char} {n : UInt16} (h : positive? run = some n) :
    run ≠ [] := by
  rintro rfl
  simp [positive?_nil] at h

theorem rollText_front {letter : Char} {sidesOn : List Char} (ne : digitRun cs ≠ [])
    (h : past? letter (pastDigits cs) = some sidesOn) :
    rollText (frontNumeral cs ne) letter (frontDigits sidesOn)
      (past? '!' (pastDigits sidesOn)).isSome ++ pastMark (pastDigits sidesOn) = cs := by
  have after : digitRun sidesOn ++ (markText (past? '!' (pastDigits sidesOn)).isSome ++
      pastMark (pastDigits sidesOn)) = sidesOn := by
    rw [mark_append_pastMark, digitRun_append_pastDigits]
  simp only [rollText, List.append_assoc, List.cons_append]
  rw [show (frontDigits sidesOn).run = digitRun sidesOn from rfl, after, ← past?_eq_some_iff.mp h]
  exact digitRun_append_pastDigits cs

theorem readDice?_eq_some_iff {d : Dice} :
    readDice? cs = some (d, rest) ↔
      ∃ sidesOn, positive? (digitRun cs) = some d.count ∧
        past? 'd' (pastDigits cs) = some sidesOn ∧ positive? (digitRun sidesOn) = some d.sides ∧
        (past? '!' (pastDigits sidesOn)).isSome = d.explode ∧
        pastMark (pastDigits sidesOn) = rest := by
  simp only [readDice?, Option.bind_eq_bind, Option.bind_eq_some_iff, Option.pure_def,
    Option.some.injEq, Prod.mk.injEq]
  constructor
  · rintro ⟨_, count, sidesOn, letter, _, sides, rfl, rfl⟩
    exact ⟨sidesOn, count, letter, sides, rfl, rfl⟩
  · rintro ⟨sidesOn, count, letter, sides, mark, rfl⟩
    exact ⟨_, count, sidesOn, letter, _, sides, by rw [mark], rfl⟩

theorem readFate?_eq_some_iff {n : UInt16} :
    readFate? cs = some (n, rest) ↔
      ∃ sidesOn, positive? (digitRun cs) = some n ∧ past? 'f' (pastDigits cs) = some sidesOn ∧
        pastMark (pastDigits sidesOn) = rest := by
  simp only [readFate?, Option.bind_eq_bind, Option.bind_eq_some_iff, Option.pure_def,
    Option.some.injEq, Prod.mk.injEq]
  constructor
  · rintro ⟨_, count, sidesOn, letter, rfl, rfl⟩
    exact ⟨sidesOn, count, letter, rfl⟩
  · rintro ⟨sidesOn, count, letter, rfl⟩
    exact ⟨_, count, sidesOn, letter, rfl, rfl⟩

theorem readFlat?_eq_some_iff {n : UInt32} :
    readFlat? cs = some (n, rest) ↔ modifier? (digitRun cs) = some n ∧ pastDigits cs = rest := by
  simp only [readFlat?, Option.bind_eq_bind, Option.bind_eq_some_iff, Option.pure_def,
    Option.some.injEq, Prod.mk.injEq]
  constructor
  · rintro ⟨_, value, rfl, rfl⟩
    exact ⟨value, rfl⟩
  · rintro ⟨value, rfl⟩
    exact ⟨_, value, rfl, rfl⟩

theorem readDice?_sound {d : Dice} (h : readDice? cs = some (d, rest)) :
    ∃ t : TermTree, t.Leads ∧ t.InRange ∧ t.term = .dice d ∧ t.text ++ rest = cs := by
  obtain ⟨c, s, explode⟩ := d
  obtain ⟨sidesOn, count, letter, sides, rfl, rfl⟩ := readDice?_eq_some_iff.mp h
  obtain ⟨countRange, rfl⟩ := positive?_eq_some_iff.mp count
  obtain ⟨sidesRange, rfl⟩ := positive?_eq_some_iff.mp sides
  exact ⟨.dice (frontNumeral cs (ne_nil_of_positive? count))
    (frontNumeral sidesOn (ne_nil_of_positive? sides)) (past? '!' (pastDigits sidesOn)).isSome,
    trivial, ⟨countRange, sidesRange⟩, rfl, rollText_front _ letter⟩

theorem readFate?_sound {n : UInt16} (h : readFate? cs = some (n, rest)) :
    ∃ t : TermTree, t.Leads ∧ t.InRange ∧ t.term = .fate n ∧ t.text ++ rest = cs := by
  obtain ⟨sidesOn, count, letter, rfl⟩ := readFate?_eq_some_iff.mp h
  obtain ⟨countRange, rfl⟩ := positive?_eq_some_iff.mp count
  exact ⟨.fate (frontNumeral cs (ne_nil_of_positive? count)) (frontDigits sidesOn)
    (past? '!' (pastDigits sidesOn)).isSome, trivial, countRange, rfl, rollText_front _ letter⟩

theorem readFlat?_sound {n : UInt32} (h : readFlat? cs = some (n, rest)) :
    ∃ t : TermTree, t.InRange ∧ t.term = .flat n ∧ t.text ++ rest = cs := by
  obtain ⟨value, rfl⟩ := readFlat?_eq_some_iff.mp h
  obtain ⟨ne, range, rfl⟩ := modifier?_eq_some_iff.mp value
  exact ⟨.flat (frontNumeral cs ne), range, rfl, digitRun_append_pastDigits cs⟩

theorem readLead?_sound {t : Term} (h : readLead? cs = some (t, rest)) :
    ∃ tree : TermTree, tree.Leads ∧ tree.InRange ∧ tree.term = t ∧ tree.text ++ rest = cs := by
  simp only [readLead?, Option.or_eq_some_iff, Option.map_eq_some_iff, Prod.mk.injEq,
    Prod.exists] at h
  rcases h with ⟨_, _, read, rfl, rfl⟩ | ⟨_, _, _, read, rfl, rfl⟩
  · exact readDice?_sound read
  · exact readFate?_sound read

theorem readTerm?_sound {t : Term} (h : readTerm? cs = some (t, rest)) :
    ∃ tree : TermTree, tree.InRange ∧ tree.term = t ∧ tree.text ++ rest = cs := by
  simp only [readTerm?, Option.or_eq_some_iff, Option.map_eq_some_iff, Prod.mk.injEq,
    Prod.exists] at h
  rcases h with read | ⟨_, _, _, read, rfl, rfl⟩
  · obtain ⟨tree, _, found⟩ := readLead?_sound read
    exact ⟨tree, found⟩
  · exact readFlat?_sound read

theorem readSign?_eq_some_iff {s : Sign} :
    readSign? cs = some (s, rest) ↔ cs = s.symbol :: rest := by
  constructor
  · intro h
    unfold readSign? at h
    split at h
    · obtain ⟨rfl, rfl⟩ := Prod.mk.inj (Option.some.inj h)
      rfl
    · obtain ⟨rfl, rfl⟩ := Prod.mk.inj (Option.some.inj h)
      rfl
    · simp at h
  · rintro rfl
    cases s <;> rfl

theorem readSignedTerm?_eq_some_iff {t : SignedTerm} :
    readSignedTerm? cs = some (t, rest) ↔
      ∃ termOn, readSign? cs = some (t.sign, termOn) ∧ readTerm? termOn = some (t.term, rest) := by
  simp only [readSignedTerm?, Option.bind_eq_bind, Option.bind_eq_some_iff, Option.pure_def,
    Option.some.injEq, Prod.mk.injEq, Prod.exists]
  constructor
  · rintro ⟨_, termOn, signed, _, _, read, rfl, rfl⟩
    exact ⟨termOn, signed, read⟩
  · rintro ⟨termOn, signed, read⟩
    exact ⟨_, termOn, signed, _, _, read, rfl, rfl⟩

theorem readSignedTerm?_sound {t : SignedTerm} (h : readSignedTerm? cs = some (t, rest)) :
    ∃ s : SignedTree, s.tree.InRange ∧ s.term = t ∧ s.text ++ rest = cs := by
  obtain ⟨sign, term⟩ := t
  obtain ⟨termOn, signed, read⟩ := readSignedTerm?_eq_some_iff.mp h
  obtain ⟨tree, range, rfl, rfl⟩ := readTerm?_sound read
  exact ⟨⟨sign, tree⟩, range, rfl, (readSign?_eq_some_iff.mp signed).symm⟩

/-! ### What is written is read -/

theorem readDice?_text {count sides : Numeral} {mark : Bool} (hc : count.Counts)
    (hs : sides.Counts) (h : AtTermEnd rest) :
    readDice? (rollText count 'd' sides.toDigits mark ++ rest) =
      some (⟨.ofNat count.value, .ofNat sides.value, mark⟩, rest) := by
  have letter : NoDigit ('d' :: (sides.run ++ (markText mark ++ rest))) := noDigit_cons.mpr rfl
  have marks : NoDigit (markText mark ++ rest) := noDigit_mark_append h.noDigit
  simp only [rollText, List.append_assoc, List.cons_append, readDice?_eq_some_iff,
    digitRun_append letter, pastDigits_append letter]
  refine ⟨_, Numeral.positive?_run hc, past?_cons _ _, ?_, ?_, ?_⟩
  · rw [digitRun_append marks, Numeral.positive?_run hs]
  · rw [pastDigits_append marks, past?_mark_append h]
  · rw [pastDigits_append marks, pastMark_mark_append h]

theorem readFate?_text {count : Numeral} {sides : Digits} {mark : Bool} (hc : count.Counts)
    (h : AtTermEnd rest) :
    readFate? (rollText count 'f' sides mark ++ rest) = some (.ofNat count.value, rest) := by
  have letter : NoDigit ('f' :: (sides.run ++ (markText mark ++ rest))) := noDigit_cons.mpr rfl
  have marks : NoDigit (markText mark ++ rest) := noDigit_mark_append h.noDigit
  simp only [rollText, List.append_assoc, List.cons_append, readFate?_eq_some_iff,
    digitRun_append letter, pastDigits_append letter]
  refine ⟨_, Numeral.positive?_run hc, past?_cons _ _, ?_⟩
  rw [pastDigits_append marks, pastMark_mark_append h]

theorem readFlat?_text {value : Numeral} (hv : value.Modifies) (h : NoDigit rest) :
    readFlat? (value.run ++ rest) = some (.ofNat value.value, rest) := by
  rw [readFlat?_eq_some_iff, digitRun_append h, pastDigits_append h]
  exact ⟨Numeral.modifier?_run hv, rfl⟩

/-- A reader of a count and a letter fails where the letter is missing. -/
theorem bind_past?_eq_none {α : Type} {n : Digits} {letter : Char}
    {more : UInt16 → List Char → Option α} (h : NoDigit rest) (missing : ∀ x, rest ≠ letter :: x) :
    ((positive? (digitRun (n.run ++ rest))).bind fun count =>
      (past? letter (pastDigits (n.run ++ rest))).bind (more count)) = none := by
  rw [digitRun_append h, pastDigits_append h, past?_eq_none_iff.mpr missing]
  cases positive? n.run <;> rfl

theorem readLead?_text {t : TermTree} (leads : t.Leads) (range : t.InRange) (h : AtTermEnd rest) :
    readLead? (t.text ++ rest) = some (t.term, rest) := by
  cases t with
  | dice count sides mark =>
    rw [readLead?, TermTree.text, readDice?_text range.1 range.2 h]
    rfl
  | fate count sides mark =>
    have noDice : readDice? (rollText count 'f' sides mark ++ rest) = none := by
      rw [rollText, List.append_assoc]
      exact bind_past?_eq_none (noDigit_cons.mpr rfl) fun x e => by simp at e
    rw [readLead?, TermTree.text, noDice, readFate?_text range h]
    rfl
  | flat value => exact leads.elim

theorem readTerm?_text {t : TermTree} (range : t.InRange) (h : AtTermEnd rest) :
    readTerm? (t.text ++ rest) = some (t.term, rest) := by
  by_cases leads : t.Leads
  · rw [readTerm?, readLead?_text leads range h]
    rfl
  · cases t with
    | dice count sides mark => exact (leads trivial).elim
    | fate count sides mark => exact (leads trivial).elim
    | flat value =>
      have noLetter (c : Char) (plus : c ≠ '+') (minus : c ≠ '-') (x : List Char) :
          rest ≠ c :: x := h.head_ne plus minus
      have noDice : readDice? (value.run ++ rest) = none :=
        bind_past?_eq_none h.noDigit (noLetter 'd' (by decide) (by decide))
      have noFate : readFate? (value.run ++ rest) = none :=
        bind_past?_eq_none h.noDigit (noLetter 'f' (by decide) (by decide))
      rw [readTerm?, readLead?, TermTree.text, noDice, noFate, readFlat?_text range h.noDigit]
      rfl

theorem readSignedTerm?_text {s : SignedTree} (range : s.tree.InRange) (h : AtTermEnd rest) :
    readSignedTerm? (s.text ++ rest) = some (s.term, rest) :=
  readSignedTerm?_eq_some_iff.mpr
    ⟨s.tree.text ++ rest, readSign?_eq_some_iff.mpr rfl, readTerm?_text range h⟩

/-! ### Whole texts -/

theorem readRest_of_some {done : Array SignedTerm} {t : SignedTerm}
    (h : readSignedTerm? cs = some (t, rest)) :
    readRest done cs = readRest (done.push t) rest := by
  rw [readRest]
  split <;> simp_all

theorem readRest_of_none {done : Array SignedTerm} (h : readSignedTerm? cs = none) :
    readRest done cs = (done, cs) := by
  rw [readRest]
  split <;> simp_all

theorem readRest_sound (done : Array SignedTerm) (cs : List Char) :
    ∃ l : List SignedTree, (∀ s ∈ l, s.tree.InRange) ∧
      (readRest done cs).1.toList = done.toList ++ l.map SignedTree.term ∧
      l.flatMap SignedTree.text ++ (readRest done cs).2 = cs := by
  fun_induction readRest done cs with
  | case1 done cs t rest read ih =>
    obtain ⟨s, range, rfl, rfl⟩ := readSignedTerm?_sound read
    obtain ⟨l, ranges, terms, texts⟩ := ih
    refine ⟨s :: l, ?_, ?_, ?_⟩
    · simpa using ⟨range, ranges⟩
    · rw [terms]
      simp
    · rw [List.flatMap_cons, List.append_assoc, texts]
  | case2 done cs read => exact ⟨[], by simp, by simp, rfl⟩

theorem readRest_text (done : Array SignedTerm) {l : List SignedTree}
    (range : ∀ s ∈ l, s.tree.InRange) :
    readRest done (l.flatMap SignedTree.text) =
      (done ++ (l.map SignedTree.term).toArray, []) := by
  induction l generalizing done with
  | nil =>
    have nothing : readSignedTerm? [] = none := rfl
    simpa using readRest_of_none nothing
  | cons s l ih =>
    have read := readSignedTerm?_text (range s List.mem_cons_self) (atTermEnd_flatMap l)
    rw [List.flatMap_cons, readRest_of_some read,
      ih _ fun s' member => range s' (List.mem_cons_of_mem s member)]
    simp

theorem whole?_eq_some_iff {α : Type} {read? : List Char → Option (α × List Char)} {a : α} :
    whole? read? cs = some a ↔ read? cs = some (a, []) := by
  unfold whole?
  split <;> simp_all

theorem readFormula?_eq_some_iff {f : Formula} :
    readFormula? cs = some (f, rest) ↔
      ∃ restOn, readLead? cs = some (f.lead, restOn) ∧
        (readRest #[] restOn).1.toList = f.rest ∧ (readRest #[] restOn).2 = rest := by
  obtain ⟨lead, signed⟩ := f
  simp only [readFormula?, Option.bind_eq_bind, Option.bind_eq_some_iff, Option.pure_def,
    Option.some.injEq, Prod.mk.injEq, Prod.exists, Formula.mk.injEq]
  constructor
  · rintro ⟨_, restOn, read, ⟨rfl, terms⟩, nothing⟩
    exact ⟨restOn, read, terms, nothing⟩
  · rintro ⟨restOn, read, terms, nothing⟩
    exact ⟨_, restOn, read, ⟨rfl, terms⟩, nothing⟩

/-- A text is read as a formula exactly where a derivation has it. -/
theorem whole?_readFormula?_iff {f : Formula} :
    whole? readFormula? cs = some f ↔ ∃ t : FormulaTree, t.Derives cs f := by
  rw [whole?_eq_some_iff]
  constructor
  · intro h
    obtain ⟨term, signed⟩ := f
    obtain ⟨restOn, read, rfl, nothing⟩ := readFormula?_eq_some_iff.mp h
    obtain ⟨lead, leads, range, rfl, rfl⟩ := readLead?_sound read
    obtain ⟨l, ranges, terms, texts⟩ := readRest_sound #[] restOn
    rw [nothing, List.append_nil] at texts
    refine ⟨⟨lead, l⟩, leads, ⟨range, ranges⟩, ?_, ?_⟩
    · rw [FormulaTree.text, texts]
    · rw [FormulaTree.formula, terms]
      rfl
  · rintro ⟨t, leads, ⟨range, ranges⟩, rfl, rfl⟩
    refine readFormula?_eq_some_iff.mpr
      ⟨_, readLead?_text leads range (atTermEnd_flatMap t.rest), ?_⟩
    rw [readRest_text #[] ranges]
    simp [FormulaTree.formula]

end TabletopDice.Grammar
