import TabletopDice.Formula.Rejection
import TabletopDice.Proofs.Grammar.Reading

/-!
# What attempts tell about a reader

The attempts of a reader bound what it has seen: if none of them comes to the end `l` of a text
`q ++ l`, another end makes no difference to what is read. `whole?_readFormula?_sight` says so for
whole formulas.
-/

namespace TabletopDice.Grammar

open Formula

variable {cs q l v rest : List Char}

/-- All attempts lie before the end `l` of a text. -/
def Before (l : List Char) (as : List Attempt) : Prop :=
  ∀ a ∈ as, l.length < a.left.length

theorem before_append {as bs : List Attempt} : Before l (as ++ bs) ↔ Before l as ∧ Before l bs :=
  List.forall_mem_append

theorem before_cons {a : Attempt} {as : List Attempt} :
    Before l (a :: as) ↔ l.length < a.left.length ∧ Before l as :=
  List.forall_mem_cons

/-- A reader makes the same of a text that starts with `q`, whether it ends in `l` or in `v`. -/
def SameOn {α : Type} (read? : List Char → Option (α × List Char)) (q l v : List Char) : Prop :=
  ∃ o : Option (α × List Char), read? (q ++ l) = o.map (Prod.map id (· ++ l)) ∧
    read? (q ++ v) = o.map (Prod.map id (· ++ v))

namespace SameOn

variable {α β : Type} {read? more? : List Char → Option (α × List Char)}

theorem of_none (hl : read? (q ++ l) = none) (hv : read? (q ++ v) = none) :
    SameOn read? q l v :=
  ⟨none, hl, hv⟩

theorem of_some {a : α} {r : List Char} (hl : read? (q ++ l) = some (a, r ++ l))
    (hv : read? (q ++ v) = some (a, r ++ v)) : SameOn read? q l v :=
  ⟨some (a, r), hl, hv⟩

theorem eq_none (h : SameOn read? q l v) (hl : read? (q ++ l) = none) :
    read? (q ++ v) = none := by
  obtain ⟨o, left, right⟩ := h
  cases o with
  | none => exact right
  | some p =>
    rw [hl] at left
    cases left

theorem eq_some {a : α} (h : SameOn read? q l v) (hl : read? (q ++ l) = some (a, rest)) :
    ∃ r, rest = r ++ l ∧ read? (q ++ v) = some (a, r ++ v) := by
  obtain ⟨o, left, right⟩ := h
  rw [hl] at left
  cases o with
  | none => cases left
  | some p =>
    obtain ⟨rfl, rfl⟩ := Prod.mk.inj (Option.some.inj left)
    exact ⟨p.2, rfl, right⟩

theorem map (f : α → β) (h : SameOn read? q l v) :
    SameOn (fun cs => (read? cs).map fun p => (f p.1, p.2)) q l v := by
  obtain ⟨o, left, right⟩ := h
  refine ⟨o.map fun p => (f p.1, p.2), ?_, ?_⟩
  · simp only [left, Option.map_map]
    rfl
  · simp only [right, Option.map_map]
    rfl

theorem or (h : SameOn read? q l v) (second : read? (q ++ l) = none → SameOn more? q l v) :
    SameOn (fun cs => (read? cs).or (more? cs)) q l v := by
  cases hl : read? (q ++ l) with
  | none =>
    obtain ⟨o, left, right⟩ := second hl
    exact ⟨o, by simp [hl, left], by simp [h.eq_none hl, right]⟩
  | some p =>
    obtain ⟨a, rest⟩ := p
    obtain ⟨r, rfl, hv⟩ := h.eq_some hl
    exact of_some (a := a) (r := r) (by simp [hl]) (by simp [hv])

end SameOn

/-! ### Single terms -/

theorem digits_sight (v : List Char) (h : l.length < (pastDigits (q ++ l)).length) :
    ∃ c r, pastDigits (q ++ l) = c :: r ++ l ∧ pastDigits (q ++ v) = c :: r ++ v ∧
      digitRun (q ++ v) = digitRun (q ++ l) := by
  cases past : q.dropWhile Char.isDigit with
  | nil =>
    have inLast : pastDigits (q ++ l) = l.dropWhile Char.isDigit := by
      rw [pastDigits, List.dropWhile_append, past]
      rfl
    rw [inLast] at h
    exact absurd (List.dropWhile_suffix Char.isDigit).length_le (Nat.not_le.mpr h)
  | cons c r =>
    have stop : c.isDigit = false := by
      have front := noDigit_pastDigits q
      rw [pastDigits, past] at front
      exact noDigit_cons.mp front
    have split (x : List Char) : q ++ x = (frontDigits q).run ++ (c :: r ++ x) := by
      rw [← past, ← List.append_assoc]
      exact congrArg (· ++ x) (digitRun_append_pastDigits q).symm
    have stops (x : List Char) : NoDigit (c :: r ++ x) := noDigit_cons.mpr stop
    refine ⟨c, r, ?_, ?_, ?_⟩
    · rw [split, pastDigits_append (stops l)]
    · rw [split, pastDigits_append (stops v)]
    · rw [split, split, digitRun_append (stops l), digitRun_append (stops v)]

theorem past?_sight (x c : Char) (r : List Char) :
    past? x (c :: r ++ l) = if c = x then some (r ++ l) else none := rfl

theorem pastMark_sight (c : Char) (r : List Char) :
    ∃ r', ∀ l : List Char, pastMark (c :: r ++ l) = r' ++ l := by
  by_cases mark : c = '!'
  · refine ⟨r, fun l => ?_⟩
    rw [pastMark, past?_sight, if_pos mark]
    rfl
  · refine ⟨c :: r, fun l => ?_⟩
    rw [pastMark, past?_sight, if_neg mark]
    rfl

theorem readDice?_sight (v : List Char) (h : Before l (diceAttempts (q ++ l))) :
    SameOn readDice? q l v := by
  obtain ⟨countEnd, more⟩ := before_cons.mp h
  obtain ⟨c, r, pastL, pastV, countRun⟩ := digits_sight v countEnd
  rw [pastL] at more
  cases count : positive? (digitRun (q ++ l)) with
  | none => exact .of_none (by simp [readDice?, count]) (by simp [readDice?, countRun, count])
  | some n =>
    by_cases letter : c = 'd'
    · subst letter
      rw [count, past?_sight, if_pos rfl] at more
      obtain ⟨sidesEnd, -⟩ := before_cons.mp more
      obtain ⟨c', r', restL, restV, sidesRun⟩ := digits_sight v sidesEnd
      have onL : past? 'd' (pastDigits (q ++ l)) = some (r ++ l) := by rw [pastL]; rfl
      have onV : past? 'd' (pastDigits (q ++ v)) = some (r ++ v) := by rw [pastV]; rfl
      cases sides : positive? (digitRun (r ++ l)) with
      | none =>
        exact .of_none (by simp [readDice?, onL, sides])
          (by simp [readDice?, onV, sidesRun, sides])
      | some m =>
        obtain ⟨rest, marked⟩ := pastMark_sight c' r'
        have explode : (past? '!' (c' :: r' ++ v)).isSome = (past? '!' (c' :: r' ++ l)).isSome := by
          rw [past?_sight, past?_sight]
          split <;> rfl
        refine .of_some (a := ⟨n, m, (past? '!' (c' :: r' ++ l)).isSome⟩) (r := rest)
          (readDice?_eq_some_iff.mpr ⟨_, count, onL, sides, ?_, ?_⟩)
          (readDice?_eq_some_iff.mpr ⟨_, ?_, onV, ?_, ?_, ?_⟩)
        · rw [restL]
        · rw [restL, marked]
        · rw [countRun, count]
        · rw [sidesRun, sides]
        · rw [restV, explode]
        · rw [restV, marked]
    · have offL : past? 'd' (pastDigits (q ++ l)) = none := by
        rw [pastL, past?_sight, if_neg letter]
      have offV : past? 'd' (pastDigits (q ++ v)) = none := by
        rw [pastV, past?_sight, if_neg letter]
      exact .of_none (by simp [readDice?, offL]) (by simp [readDice?, offV])

theorem readFate?_sight (v : List Char) (h : Before l (fateAttempts (q ++ l))) :
    SameOn readFate? q l v := by
  obtain ⟨countEnd, more⟩ := before_cons.mp h
  obtain ⟨c, r, pastL, pastV, countRun⟩ := digits_sight v countEnd
  rw [pastL] at more
  cases count : positive? (digitRun (q ++ l)) with
  | none => exact .of_none (by simp [readFate?, count]) (by simp [readFate?, countRun, count])
  | some n =>
    by_cases letter : c = 'f'
    · subst letter
      rw [count, past?_sight, if_pos rfl] at more
      obtain ⟨sidesEnd, -⟩ := before_cons.mp more
      obtain ⟨c', r', restL, restV, -⟩ := digits_sight v sidesEnd
      obtain ⟨rest, marked⟩ := pastMark_sight c' r'
      refine .of_some (a := n) (r := rest)
        (readFate?_eq_some_iff.mpr ⟨r ++ l, count, ?_, ?_⟩)
        (readFate?_eq_some_iff.mpr ⟨r ++ v, ?_, ?_, ?_⟩)
      · rw [pastL]; rfl
      · rw [restL, marked]
      · rw [countRun, count]
      · rw [pastV]; rfl
      · rw [restV, marked]
    · have offL : past? 'f' (pastDigits (q ++ l)) = none := by
        rw [pastL, past?_sight, if_neg letter]
      have offV : past? 'f' (pastDigits (q ++ v)) = none := by
        rw [pastV, past?_sight, if_neg letter]
      exact .of_none (by simp [readFate?, offL]) (by simp [readFate?, offV])

theorem readFlat?_sight (v : List Char) (h : Before l (flatAttempts (q ++ l))) :
    SameOn readFlat? q l v := by
  obtain ⟨valueEnd, -⟩ := before_cons.mp h
  obtain ⟨c, r, pastL, pastV, run⟩ := digits_sight v valueEnd
  cases value : modifier? (digitRun (q ++ l)) with
  | none => exact .of_none (by simp [readFlat?, value]) (by simp [readFlat?, run, value])
  | some n =>
    exact .of_some (a := n) (r := c :: r) (readFlat?_eq_some_iff.mpr ⟨value, pastL⟩)
      (readFlat?_eq_some_iff.mpr ⟨by rw [run, value], pastV⟩)

theorem readLead?_sight (v : List Char) (h : Before l (leadAttempts (q ++ l))) :
    SameOn readLead? q l v := by
  obtain ⟨dice, more⟩ := before_append.mp h
  refine ((readDice?_sight v dice).map Term.dice).or fun failed => ?_
  rw [Option.map_eq_none_iff] at failed
  rw [failed] at more
  exact (readFate?_sight v more).map Term.fate

theorem readTerm?_sight (v : List Char) (h : Before l (termAttempts (q ++ l))) :
    SameOn readTerm? q l v := by
  obtain ⟨lead, more⟩ := before_append.mp h
  refine (readLead?_sight v lead).or fun failed => ?_
  rw [failed] at more
  exact (readFlat?_sight v more).map Term.flat

/-! ### Signed terms -/

theorem mem_signAttempts {a : Attempt} (h : a ∈ signAttempts cs) :
    ∃ s : Sign, a = .literal cs s.symbol := by
  unfold signAttempts at h
  split at h
  · simp at h
  · exact ⟨.plus, List.mem_singleton.mp h⟩
  · rcases List.mem_cons.mp h with plus | minus
    · exact ⟨.plus, plus⟩
    · exact ⟨.minus, List.mem_singleton.mp minus⟩

theorem atTermEnd_of_readSign? {s : Sign} (h : readSign? cs = some (s, rest)) : AtTermEnd cs := by
  rw [readSign?_eq_some_iff.mp h]
  exact atTermEnd_symbol s rest

theorem readSign?_sight (c : Char) (q l v : List Char) : SameOn readSign? (c :: q) l v := by
  by_cases plus : c = '+'
  · subst plus
    exact .of_some (r := q) rfl rfl
  · by_cases minus : c = '-'
    · subst minus
      exact .of_some (r := q) rfl rfl
    · have unsigned (x : List Char) : readSign? (c :: q ++ x) = none := by
        unfold readSign?
        split <;> simp_all
      exact .of_none (unsigned l) (unsigned v)

theorem exists_attempt_past_sign {s : Sign} (h : readSign? cs = some (s, rest)) :
    ∃ a ∈ signedTermAttempts cs, a.left.length < cs.length := by
  refine ⟨.digitsEnd (pastDigits rest), ?_, ?_⟩
  · simp [signedTermAttempts, h, termAttempts, leadAttempts, diceAttempts]
  · exact Nat.lt_of_le_of_lt (pastDigits_length rest) (readSign?_length h)

theorem exists_signedTermAttempt (cs : List Char) :
    ∃ a ∈ signedTermAttempts cs, a.left.length ≤ cs.length := by
  cases read : readSign? cs with
  | some p =>
    obtain ⟨a, member, past⟩ := exists_attempt_past_sign read
    exact ⟨a, member, Nat.le_of_lt past⟩
  | none =>
    refine ⟨.literal cs '+', ?_, Nat.le_refl _⟩
    have looked : Attempt.literal cs '+' ∈ signAttempts cs := by
      unfold signAttempts
      split
      · simp [readSign?] at read
      · exact List.mem_cons_self
      · exact List.mem_cons_self
    exact List.mem_append_left _ looked

theorem readSignedTerm?_sight (v : List Char) (h : Before l (signedTermAttempts (q ++ l))) :
    SameOn readSignedTerm? q l v := by
  cases q with
  | nil =>
    obtain ⟨a, member, reach⟩ := exists_signedTermAttempt l
    exact absurd reach (Nat.not_le.mpr (h a member))
  | cons c q =>
    have signs := readSign?_sight c q l v
    cases signL : readSign? (c :: q ++ l) with
    | none =>
      have signV := signs.eq_none signL
      exact .of_none (by rw [readSignedTerm?, signL]; rfl) (by rw [readSignedTerm?, signV]; rfl)
    | some p =>
      obtain ⟨sign, termOn⟩ := p
      obtain ⟨r, rfl, signV⟩ := signs.eq_some signL
      obtain ⟨-, more⟩ := before_append.mp h
      rw [signL] at more
      have terms := readTerm?_sight v more
      cases termL : readTerm? (r ++ l) with
      | none =>
        have termV := terms.eq_none termL
        refine .of_none ?_ ?_
        · rw [readSignedTerm?, signL]
          simp [termL]
        · rw [readSignedTerm?, signV]
          simp [termV]
      | some p =>
        obtain ⟨term, rest⟩ := p
        obtain ⟨r', rfl, termV⟩ := terms.eq_some termL
        exact .of_some (a := ⟨sign, term⟩) (r := r')
          (readSignedTerm?_eq_some_iff.mpr ⟨_, signL, termL⟩)
          (readSignedTerm?_eq_some_iff.mpr ⟨_, signV, termV⟩)

/-! ### Attempts at what was read

The attempts at a term that was read come no farther than the sign after it. So the attempts at the
last term decide, and those at earlier ones need not be kept. -/

/-- No attempt comes farther than `rest`. -/
def UpTo (rest : List Char) (as : List Attempt) : Prop :=
  ∀ a ∈ as, rest.length ≤ a.left.length

theorem upTo_append {as bs : List Attempt} : UpTo l (as ++ bs) ↔ UpTo l as ∧ UpTo l bs :=
  List.forall_mem_append

theorem upTo_cons {a : Attempt} {as : List Attempt} :
    UpTo l (a :: as) ↔ l.length ≤ a.left.length ∧ UpTo l as :=
  List.forall_mem_cons

theorem upTo_nil : UpTo l [] :=
  List.forall_mem_nil _

theorem markAttempts_upTo (cs : List Char) : UpTo (pastMark cs) (markAttempts cs) := by
  unfold markAttempts
  split
  · exact upTo_nil
  · exact upTo_cons.mpr ⟨pastMark_length cs, upTo_nil⟩

theorem diceAttempts_upTo {d : Dice} (h : readDice? cs = some (d, rest)) :
    UpTo rest (diceAttempts cs) := by
  obtain ⟨sidesOn, count, letter, sides, -, rfl⟩ := readDice?_eq_some_iff.mp h
  have shorter := past?_length letter
  have sidesPast := pastDigits_length sidesOn
  have markPast := pastMark_length (pastDigits sidesOn)
  simp only [diceAttempts, count, letter, sides, Option.isNone_some, Bool.false_eq_true, if_false]
  refine upTo_cons.mpr ⟨?_, upTo_cons.mpr ⟨markPast, markAttempts_upTo _⟩⟩
  change _ ≤ (pastDigits cs).length
  omega

theorem fateAttempts_upTo {n : UInt16} (h : readFate? cs = some (n, rest)) :
    UpTo rest (fateAttempts cs) := by
  obtain ⟨sidesOn, count, letter, rfl⟩ := readFate?_eq_some_iff.mp h
  have shorter := past?_length letter
  have sidesPast := pastDigits_length sidesOn
  have markPast := pastMark_length (pastDigits sidesOn)
  rw [fateAttempts, count, letter]
  refine upTo_cons.mpr ⟨?_, upTo_cons.mpr ⟨markPast, markAttempts_upTo _⟩⟩
  change _ ≤ (pastDigits cs).length
  omega

/-- Looking for dice of either kind ends behind the count if the letter is missing there. -/
theorem upTo_pastDigits (cs : List Char) (letter : Char) :
    UpTo (pastDigits cs) (.digitsEnd (pastDigits cs) ::
      if (positive? (digitRun cs)).isNone then [] else [.literal (pastDigits cs) letter]) := by
  refine upTo_cons.mpr ⟨Nat.le_refl _, ?_⟩
  split
  · exact upTo_nil
  · exact upTo_cons.mpr ⟨Nat.le_refl _, upTo_nil⟩

theorem UpTo.mono {as : List Attempt} (h : UpTo l as) (le : rest.length ≤ l.length) :
    UpTo rest as :=
  fun a member => Nat.le_trans le (h a member)

theorem leadAttempts_upTo {t : Term} (h : readLead? cs = some (t, rest)) :
    UpTo rest (leadAttempts cs) := by
  rw [leadAttempts]
  cases dice : readDice? cs with
  | some p =>
    obtain ⟨d, after⟩ := p
    simp only [readLead?, dice, Option.map_some, Option.some_or, Option.some.injEq,
      Prod.mk.injEq] at h
    obtain ⟨-, rfl⟩ := h
    exact upTo_append.mpr ⟨diceAttempts_upTo dice, upTo_nil⟩
  | none =>
    simp only [readLead?, dice, Option.map_none, Option.none_or, Option.map_eq_some_iff,
      Prod.exists, Prod.mk.injEq] at h
    obtain ⟨n, after, fate, -, rfl⟩ := h
    obtain ⟨sidesOn, -, letter, rfl⟩ := readFate?_eq_some_iff.mp fate
    have noDice : past? 'd' (pastDigits cs) = none := by
      rw [past?_eq_some_iff.mp letter]
      rfl
    have ends : UpTo (pastDigits cs) (diceAttempts cs) := by
      rw [diceAttempts, noDice]
      exact upTo_pastDigits cs 'd'
    refine upTo_append.mpr ⟨ends.mono ?_, fateAttempts_upTo fate⟩
    have := past?_length letter
    have := pastDigits_length sidesOn
    have := pastMark_length (pastDigits sidesOn)
    omega

theorem termAttempts_upTo {t : Term} (h : readTerm? cs = some (t, rest)) (stop : AtTermEnd rest) :
    UpTo rest (termAttempts cs) := by
  rw [termAttempts]
  cases lead : readLead? cs with
  | some p =>
    obtain ⟨t', after⟩ := p
    simp only [readTerm?, lead, Option.some_or, Option.some.injEq, Prod.mk.injEq] at h
    obtain ⟨-, rfl⟩ := h
    exact upTo_append.mpr ⟨leadAttempts_upTo lead, upTo_nil⟩
  | none =>
    simp only [readTerm?, lead, Option.none_or, Option.map_eq_some_iff, Prod.exists,
      Prod.mk.injEq] at h
    obtain ⟨n, after, flat, -, rfl⟩ := h
    obtain ⟨-, rfl⟩ := readFlat?_eq_some_iff.mp flat
    have noLetter (c : Char) (plus : c ≠ '+') (minus : c ≠ '-') :
        past? c (pastDigits cs) = none :=
      past?_eq_none_iff.mpr fun _ => stop.head_ne plus minus
    have dice : UpTo (pastDigits cs) (diceAttempts cs) := by
      rw [diceAttempts, noLetter 'd' (by decide) (by decide)]
      exact upTo_pastDigits cs 'd'
    have fate : UpTo (pastDigits cs) (fateAttempts cs) := by
      rw [fateAttempts, noLetter 'f' (by decide) (by decide)]
      exact upTo_pastDigits cs 'f'
    refine upTo_append.mpr ⟨upTo_append.mpr ⟨dice, ?_⟩, upTo_cons.mpr ⟨Nat.le_refl _, upTo_nil⟩⟩
    split
    · exact upTo_nil
    · exact fate

theorem signedTermAttempts_upTo {t : SignedTerm} (h : readSignedTerm? cs = some (t, rest))
    (stop : AtTermEnd rest) : UpTo rest (signedTermAttempts cs) := by
  obtain ⟨termOn, signed, read⟩ := readSignedTerm?_eq_some_iff.mp h
  rw [signedTermAttempts, signed]
  refine upTo_append.mpr ⟨?_, termAttempts_upTo read stop⟩
  intro a member
  obtain ⟨s, rfl⟩ := mem_signAttempts member
  change rest.length ≤ cs.length
  have := readSign?_length signed
  have := readTerm?_length read
  omega

/-! ### Whole formulas -/

theorem restAttempts_of_none {before : List Attempt} (h : readSignedTerm? cs = none) :
    restAttempts before cs =
      before ++ signedTermAttempts cs ++ if cs = [] then [] else [⟨cs, some .endOfInput⟩] := by
  rw [restAttempts]
  split <;> simp_all

theorem exists_restAttempt (before : List Attempt) (cs : List Char) :
    ∃ a ∈ restAttempts before cs, a.left.length ≤ cs.length := by
  fun_induction restAttempts before cs with
  | case1 before cs t rest read ih =>
    obtain ⟨a, member, reach⟩ := ih
    exact ⟨a, member, Nat.le_trans reach (Nat.le_of_lt (readSignedTerm?_length read))⟩
  | case2 before cs read =>
    obtain ⟨a, member, reach⟩ := exists_signedTermAttempt cs
    exact ⟨a, List.mem_append_left _ (List.mem_append_right _ member), reach⟩

/-- If the attempts from `rest` on lie before `l`, so do those at the term in front of it. -/
theorem before_of_restAttempts {before : List Attempt} (upTo : AtTermEnd rest → UpTo rest before)
    (h : Before l (restAttempts before rest)) : Before l before := by
  cases read : readSignedTerm? rest with
  | none =>
    rw [restAttempts_of_none read] at h
    exact (before_append.mp (before_append.mp h).1).1
  | some p =>
    obtain ⟨termOn, signed, -⟩ := readSignedTerm?_eq_some_iff.mp read
    have stop := atTermEnd_of_readSign? signed
    obtain ⟨a, member, reach⟩ := exists_restAttempt before rest
    intro b hb
    exact Nat.lt_of_lt_of_le (Nat.lt_of_lt_of_le (h a member) reach) (upTo stop b hb)

theorem readRest_sight (v : List Char) {before : List Attempt} (d : Array SignedTerm)
    (h : Before l (restAttempts before (q ++ l))) : (readRest d (q ++ v)).2 ≠ [] := by
  generalize text : q ++ l = cs at h
  fun_induction restAttempts before cs generalizing q d with
  | case1 before cs t rest read ih =>
    -- The attempts at this term are not among those kept, but lie before the next sign.
    have seen := before_of_restAttempts (signedTermAttempts_upTo read) h
    subst text
    obtain ⟨r, rfl, readV⟩ := (readSignedTerm?_sight v seen).eq_some read
    rw [readRest_of_some readV]
    exact ih _ rfl h
  | case2 before cs read =>
    have seen := (before_append.mp (before_append.mp h).1).2
    subst text
    rw [readRest_of_none ((readSignedTerm?_sight v seen).eq_none read)]
    intro nothing
    obtain ⟨rfl, -⟩ := List.append_eq_nil_iff.mp nothing
    obtain ⟨a, member, reach⟩ := exists_signedTermAttempt l
    exact absurd reach (Nat.not_le.mpr (seen a member))

/-- If all attempts at a text lie before its end, no text with the same front is a formula. -/
theorem whole?_readFormula?_sight (v : List Char) (h : Before l (formulaAttempts (q ++ l))) :
    whole? readFormula? (q ++ v) = none := by
  rw [Option.eq_none_iff_forall_ne_some]
  intro f read
  obtain ⟨restOn, leadV, -, nothing⟩ := readFormula?_eq_some_iff.mp (whole?_eq_some_iff.mp read)
  rw [formulaAttempts] at h
  cases leadL : readLead? (q ++ l) with
  | none =>
    rw [leadL] at h
    rw [(readLead?_sight v h).eq_none leadL] at leadV
    cases leadV
  | some p =>
    obtain ⟨t, rest⟩ := p
    rw [leadL] at h
    have seen := before_of_restAttempts (fun _ => leadAttempts_upTo leadL) h
    obtain ⟨r, rfl, same⟩ := (readLead?_sight v seen).eq_some leadL
    rw [same] at leadV
    obtain ⟨-, rfl⟩ := Prod.mk.inj (Option.some.inj leadV)
    exact readRest_sight v #[] h nothing

end TabletopDice.Grammar
