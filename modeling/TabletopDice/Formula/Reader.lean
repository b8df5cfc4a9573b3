import TabletopDice.Formula.Basic

/-!
# Reading formulas

A reader takes a value off the front of a text and gives the text that is left. Readers look at the
compact form only: lower case, no blanks. `readFormula?` reads a whole formula;
`readSignedTerm?_length` makes its loop over the signed terms end.
-/

namespace TabletopDice.Formula

def digitRun (cs : List Char) : List Char :=
  cs.takeWhile Char.isDigit

def pastDigits (cs : List Char) : List Char :=
  cs.dropWhile Char.isDigit

/-- The number of dice or sides that a run of digits names: 1 to 65535. -/
def positive? (run : List Char) : Option UInt16 :=
  let n := Text.Decimal.value run
  if 0 < n ∧ n < UInt16.size then some (UInt16.ofNat n) else none

/-- The modifier that a run of digits names: 0 to 4294967295. -/
def modifier? (run : List Char) : Option UInt32 :=
  let n := Text.Decimal.value run
  if run ≠ [] ∧ n < UInt32.size then some (UInt32.ofNat n) else none

/-- The text after the character `c`, which has to be at its front. -/
def past? (c : Char) : List Char → Option (List Char)
  | [] => none
  | x :: rest => if x = c then some rest else none

/-- The text after a `!` at its front, if there is one. -/
def pastMark (cs : List Char) : List Char :=
  (past? '!' cs).getD cs

/-- Dice such as `2d6` or `1d20!`. -/
def readDice? (cs : List Char) : Option (Dice × List Char) := do
  let count ← positive? (digitRun cs)
  let sidesOn ← past? 'd' (pastDigits cs)
  let sides ← positive? (digitRun sidesOn)
  let rest := pastDigits sidesOn
  return (⟨count, sides, (past? '!' rest).isSome⟩, pastMark rest)

/-- The number of fate dice such as `4f`. Sides and a `!` may follow and mean nothing. -/
def readFate? (cs : List Char) : Option (UInt16 × List Char) := do
  let count ← positive? (digitRun cs)
  let rest ← past? 'f' (pastDigits cs)
  return (count, pastMark (pastDigits rest))

/-- A modifier such as the `1` of `2d6-1`. -/
def readFlat? (cs : List Char) : Option (UInt32 × List Char) := do
  let value ← modifier? (digitRun cs)
  return (value, pastDigits cs)

/-- A term that may lead a formula: dice or fate dice. -/
def readLead? (cs : List Char) : Option (Term × List Char) :=
  ((readDice? cs).map fun (d, rest) => (.dice d, rest)).or
    ((readFate? cs).map fun (count, rest) => (.fate count, rest))

def readTerm? (cs : List Char) : Option (Term × List Char) :=
  (readLead? cs).or ((readFlat? cs).map fun (value, rest) => (.flat value, rest))

def readSign? : List Char → Option (Sign × List Char)
  | '+' :: rest => some (.plus, rest)
  | '-' :: rest => some (.minus, rest)
  | _ => none

def readSignedTerm? (cs : List Char) : Option (SignedTerm × List Char) := do
  let (sign, termOn) ← readSign? cs
  let (term, rest) ← readTerm? termOn
  return (⟨sign, term⟩, rest)

/-! ### Readers leave no more than they were given -/

theorem pastDigits_length (cs : List Char) : (pastDigits cs).length ≤ cs.length :=
  (List.dropWhile_suffix _).length_le

theorem past?_length {c : Char} {cs rest : List Char} (h : past? c cs = some rest) :
    rest.length < cs.length := by
  cases cs with
  | nil => simp [past?] at h
  | cons x cs =>
    simp only [past?, Option.ite_none_right_eq_some, Option.some.injEq] at h
    simp [h.2]

theorem pastMark_length (cs : List Char) : (pastMark cs).length ≤ cs.length := by
  unfold pastMark
  cases h : past? '!' cs with
  | none => simp
  | some rest => simpa using Nat.le_of_lt (past?_length h)

theorem readDice?_length {cs rest : List Char} {d : Dice} (h : readDice? cs = some (d, rest)) :
    rest.length ≤ cs.length := by
  simp only [readDice?, Option.bind_eq_bind, Option.bind_eq_some_iff, Option.pure_def,
    Option.some.injEq, Prod.mk.injEq] at h
  obtain ⟨_, _, sidesOn, hd, _, _, _, rfl⟩ := h
  have := past?_length hd
  have := pastDigits_length cs
  have := pastDigits_length sidesOn
  have := pastMark_length (pastDigits sidesOn)
  omega

theorem readFate?_length {cs rest : List Char} {n : UInt16} (h : readFate? cs = some (n, rest)) :
    rest.length ≤ cs.length := by
  simp only [readFate?, Option.bind_eq_bind, Option.bind_eq_some_iff, Option.pure_def,
    Option.some.injEq, Prod.mk.injEq] at h
  obtain ⟨_, _, after, hf, _, rfl⟩ := h
  have := past?_length hf
  have := pastDigits_length cs
  have := pastDigits_length after
  have := pastMark_length (pastDigits after)
  omega

theorem readFlat?_length {cs rest : List Char} {n : UInt32} (h : readFlat? cs = some (n, rest)) :
    rest.length ≤ cs.length := by
  simp only [readFlat?, Option.bind_eq_bind, Option.bind_eq_some_iff, Option.pure_def,
    Option.some.injEq, Prod.mk.injEq] at h
  obtain ⟨_, _, _, rfl⟩ := h
  exact pastDigits_length cs

theorem readTerm?_length {cs rest : List Char} {t : Term} (h : readTerm? cs = some (t, rest)) :
    rest.length ≤ cs.length := by
  simp only [readTerm?, readLead?, Option.or_eq_some_iff, Option.map_eq_some_iff, Prod.mk.injEq,
    Prod.exists] at h
  rcases h with (⟨_, _, hd, _, rfl⟩ | ⟨_, _, _, hf, _, rfl⟩) | ⟨_, _, _, hv, _, rfl⟩
  · exact readDice?_length hd
  · exact readFate?_length hf
  · exact readFlat?_length hv

theorem readSign?_length {cs rest : List Char} {s : Sign} (h : readSign? cs = some (s, rest)) :
    rest.length < cs.length := by
  unfold readSign? at h
  split at h <;> simp_all

theorem readSignedTerm?_length {cs rest : List Char} {t : SignedTerm}
    (h : readSignedTerm? cs = some (t, rest)) : rest.length < cs.length := by
  simp only [readSignedTerm?, Option.bind_eq_bind, Option.bind_eq_some_iff, Option.pure_def,
    Option.some.injEq, Prod.mk.injEq, Prod.exists] at h
  obtain ⟨_, _, hs, _, _, ht, _, rfl⟩ := h
  exact Nat.lt_of_le_of_lt (readTerm?_length ht) (readSign?_length hs)

/-! ### Whole formulas -/

/-- The signed terms at the front of a text, after those in `done`. A sign without a term is left. -/
def readRest (done : Array SignedTerm) (cs : List Char) : Array SignedTerm × List Char :=
  match _h : readSignedTerm? cs with
  | some (t, rest) => readRest (done.push t) rest
  | none => (done, cs)
  termination_by cs.length
  decreasing_by exact readSignedTerm?_length _h

def readFormula? (cs : List Char) : Option (Formula × List Char) := do
  let (lead, restOn) ← readLead? cs
  let (rest, cs) := readRest #[] restOn
  return (⟨lead, rest.toList⟩, cs)

/-- What a reader makes of a text, if it leaves nothing of it. -/
def whole? {α : Type} (read? : List Char → Option (α × List Char)) (cs : List Char) : Option α :=
  match read? cs with
  | some (value, []) => some value
  | _ => none

end TabletopDice.Formula
