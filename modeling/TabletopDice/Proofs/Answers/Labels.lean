import TabletopDice.Proofs.Answers.Decoding
import TabletopDice.Proofs.Dialogue.RollTexts
import TabletopDice.Proofs.Totals.Joining

/-!
# Labels of fate dice

The label of an evaluation names the sum of the last fate dice alone. No sign has a part in it, and
it is a second line of the answer unless it is empty: `roll_labelled`.
-/

namespace TabletopDice

open Roll

/-! ### The ladder -/

theorem ladder_ne_empty_iff {sum : Score} : ladder sum ≠ "" ↔ -4 ≤ sum.toInt ∧ sum.toInt ≤ 4 := by
  constructor
  · intro named
    by_contra beyond
    apply named
    unfold ladder
    split <;> first | rfl | omega
  · rintro ⟨low, high⟩
    unfold ladder
    split <;> first | decide | grind

theorem FateThrow.label_ne_empty_iff {t : FateThrow} (small : t.dice.length ≤ 65535) :
    t.label ≠ "" ↔ -4 ≤ fateSum t.dice ∧ fateSum t.dice ≤ 4 := by
  rw [label, ladder_ne_empty_iff, total_toInt small]

theorem FateThrow.label_ne_empty {t : FateThrow} (few : t.dice.length ≤ 4) : t.label ≠ "" := by
  have most := fateSum_natAbs_le t.dice
  exact (label_ne_empty_iff (by omega)).mpr (by omega)

/-! ### The last fate dice -/

variable {e : Engine} {f g : Formula} {E : Evaluation} {terms : List SignedTerm}
  {outcomes : List TermOutcome}

/-- Whether the throw `t` is the one among `outcomes` of the last fate term, one of `count` dice. -/
structure LastThrow (terms : List SignedTerm) (outcomes : List TermOutcome) (count : UInt16)
    (t : FateThrow) : Prop where
  place : ∃ i sign, terms[i]? = some ⟨sign, .fate count⟩ ∧ outcomes[i]? = some ⟨sign, .fate t⟩ ∧
    ∀ later ∈ terms.drop (i + 1), later.term.isFate = false
  length : t.dice.length = count.toNat

theorem LastThrow.cons {count : UInt16} {t : FateThrow} (h : LastThrow terms outcomes count t)
    (first : SignedTerm) (o : TermOutcome) : LastThrow (first :: terms) (o :: outcomes) count t := by
  obtain ⟨⟨i, sign, term, outcome, last⟩, length⟩ := h
  exact ⟨⟨i + 1, sign, term, outcome, last⟩, length⟩

theorem lastLabel?_eq_none (h : List.Forall₂ SignedTerm.Yields terms outcomes)
    (fateless : ∀ t ∈ terms, t.term.isFate = false) : lastLabel? outcomes = none := by
  rw [← Option.not_isSome_iff_eq_none, lastLabel?_isSome h]
  simpa using fateless

theorem LastThrow.lastLabel? {count : UInt16} {t : FateThrow}
    (yields : List.Forall₂ SignedTerm.Yields terms outcomes)
    (h : LastThrow terms outcomes count t) : lastLabel? outcomes = some t.label := by
  obtain ⟨⟨i, sign, term, outcome, last⟩, -⟩ := h
  induction yields generalizing i with
  | nil => cases term
  | cons _ others ih =>
    rw [lastLabel?_cons]
    cases i with
    | zero =>
      -- Nothing after the first term has a label.
      rw [lastLabel?_eq_none others last, Option.none_or, Option.some.inj outcome]
      rfl
    | succ i => rw [ih i term outcome last, Option.some_or]

theorem exists_lastThrow (h : List.Forall₂ SignedTerm.Yields terms outcomes)
    (thrown : terms.any (·.term.isFate) = true) : ∃ count t, LastThrow terms outcomes count t := by
  induction h with
  | nil => cases thrown
  | @cons first o terms outcomes yields others ih =>
    cases later : terms.any (·.term.isFate) with
    | true =>
      obtain ⟨count, t, last⟩ := ih later
      exact ⟨count, t, last.cons first o⟩
    | false =>
      rw [List.any_cons, later, Bool.or_false] at thrown
      obtain ⟨sign, term⟩ := first
      obtain ⟨sign', outcome⟩ := o
      obtain ⟨rfl, same⟩ := yields
      cases term with
      | dice d => cases thrown
      | flat value => cases thrown
      | fate count =>
        cases outcome with
        | dice t => exact same.elim
        | flat value => exact same.elim
        | fate t => exact ⟨count, t, ⟨0, sign', rfl, rfl, by simpa using later⟩, same⟩

/-! ### Other signs -/

theorem lastLabel?_eq (outcomes : List TermOutcome) :
    lastLabel? outcomes = (outcomes.map (·.outcome)).reverse.findSome? fun o =>
      TermOutcome.fateLabel? ⟨.plus, o⟩ := by
  rw [← List.map_reverse, List.findSome?_map]
  rfl

theorem Engine.mapM_outcome (e : Engine) (terms : List SignedTerm) :
    (terms.map (·.term)).mapM e.rollTerm = do
      let outcomes ← terms.mapM e.rollSigned
      return outcomes.map (·.outcome) := by
  induction terms with
  | nil => rfl
  | cons t terms ih =>
    rw [List.map_cons, List.mapM_cons, List.mapM_cons, ih]
    simp [rollSigned]

section Runs

variable {σ ε : Type} [Roller σ ε] {s s' : σ}

theorem Engine.roll_with_signs (same : g.terms.map (·.term) = f.terms.map (·.term))
    (h : (e.roll f).run s = (.ok E, s')) :
    ∃ E', (e.roll g).run s = (.ok E', s') ∧
      E'.terms.map (·.outcome) = E.terms.map (·.outcome) ∧ E'.fateLabel = E.fateLabel := by
  rw [roll_eq_mapM] at h
  obtain ⟨outcomes, ran, rfl⟩ := run_bind_done_iff.mp h
  have shown : ((f.terms.map (·.term)).mapM e.rollTerm).run s =
      (.ok (outcomes.map (·.outcome)), s') := by
    rw [mapM_outcome]
    exact run_bind_done_iff.mpr ⟨outcomes, ran, rfl⟩
  rw [← same, mapM_outcome] at shown
  obtain ⟨outcomes', ran', shown⟩ := run_bind_done_iff.mp shown
  refine ⟨.ofTerms g outcomes', ?_, shown.symm, ?_⟩
  · rw [roll_eq_mapM]
    exact run_bind_done_iff.mpr ⟨outcomes', ran', rfl⟩
  · change lastLabel? outcomes' = lastLabel? outcomes
    rw [lastLabel?_eq, lastLabel?_eq, shown]

end Runs

/-! ### Lines of an answer -/

def OneLine (text : String) : Prop :=
  ∀ c ∈ text.toList, c ≠ '\n'

instance (text : String) : Decidable (OneLine text) :=
  List.decidableBAll (· ≠ '\n') text.toList

theorem oneLine_append {s t : String} (hs : OneLine s) (ht : OneLine t) : OneLine (s ++ t) := by
  unfold OneLine
  rw [String.toList_append]
  exact List.forall_mem_append.mpr ⟨hs, ht⟩

theorem oneLine_intercalate {s : String} {l : List String} (hs : OneLine s)
    (items : ∀ t ∈ l, OneLine t) : OneLine (s.intercalate l) :=
  forall_mem_intercalate hs items

theorem OneLine.splitOn {text : String} (h : OneLine text) :
    text.toList.splitOn '\n' = [text.toList] :=
  List.splitOn_eq_singleton fun feed => h _ feed rfl

theorem oneLine_of_listed {text : String} (h : Listed text) : OneLine text := by
  intro c member feed
  have listed := h c member
  rw [feed] at listed
  exact absurd listed (by decide)

theorem oneLine_ladder (sum : Score) : OneLine (ladder sum) := by
  unfold ladder
  split <;> decide +kernel

theorem DiceThrow.oneLine_describe (t : DiceThrow) (limit : Option Nat) :
    OneLine (t.describe limit) := by
  cases limit with
  | none => exact oneLine_of_listed t.listed_describe
  | some n =>
    by_cases short : n < t.faces.length
    · have hidden := oneLine_of_listed (listed_ofNat (t.faces.length - n))
      rw [describe_of_lt short]
      refine oneLine_append (oneLine_append (oneLine_append ?_ (by decide)) ?_) ?_
      · exact oneLine_of_listed (listed_faceTexts _)
      · exact oneLine_append hidden (by decide)
      · exact oneLine_of_listed t.listed_kind
    · rw [describe_of_le (Nat.not_lt.mp short)]
      exact oneLine_of_listed t.listed_describe

theorem TermOutcome.oneLine_describe (o : TermOutcome) (limit : Option Nat) :
    OneLine (o.describe limit) := by
  obtain ⟨sign, outcome⟩ := o
  cases outcome with
  | dice t => exact t.oneLine_describe limit
  | fate t => exact oneLine_of_listed t.listed_describe
  | flat value => exact oneLine_of_listed (listed_describe ⟨sign, .flat value⟩)

namespace Evaluation

theorem oneLine_rollLine (E : Evaluation) (limit : Option Nat) : OneLine (E.rollLine limit) := by
  have rolls : OneLine (String.intercalate termSeparator (E.rolls limit)) := by
    apply oneLine_intercalate (by decide)
    intro text member
    obtain ⟨o, -, rfl⟩ := List.mem_map.mp member
    exact o.oneLine_describe limit
  refine oneLine_append (oneLine_append (oneLine_append ?_ rolls) ?_) ?_
  · decide +kernel
  · decide
  · exact oneLine_of_listed (listed_ofInt _)

def resultLine (label : String) : String :=
  "Результат: " ++ label

theorem labelLine_some (label : String) :
    labelLine (some label) = '\n' :: (resultLine label).toList := by
  unfold resultLine
  rw [String.toList_append]
  rfl

theorem lines_describe (oneLine : ∀ label, E.fateLabel = some label → OneLine label)
    (limit : Option Nat) :
    (E.describe limit).toList.splitOn '\n' =
      (E.rollLine limit :: (E.shownLabel.map resultLine).toList).map String.toList := by
  have first := E.oneLine_rollLine limit
  rw [toList_describe]
  cases shown : E.shownLabel with
  | none =>
    change ((E.rollLine limit).toList ++ []).splitOn '\n' = [(E.rollLine limit).toList]
    rw [List.append_nil, first.splitOn]
  | some label =>
    have labelled : E.fateLabel = some label := (Option.filter_eq_some_iff.mp shown).1
    have second : OneLine (resultLine label) :=
      oneLine_append (by decide +kernel) (oneLine label labelled)
    rw [labelLine_some, List.splitOn_append_cons_self, first.splitOn, second.splitOn]
    rfl

end Evaluation

/-! ### Labels of whole evaluations -/

theorem LastThrow.length_le {count : UInt16} {t : FateThrow}
    (h : LastThrow terms outcomes count t) : t.dice.length ≤ 65535 := by
  have most := count.toNat_lt
  have length := h.length
  omega

theorem LastThrow.total {F : List UInt16} {U : List UnitDraw} {count count' : UInt16}
    {t : FateThrow} (drawn : Draws (e.roll ⟨.fate count, []⟩) F U E)
    (h : LastThrow [⟨.plus, .fate count⟩] E.terms count' t) : E.total = t.total := by
  have exact := (Engine.exact_of_draws (Nat.le_of_ble_eq_true rfl) drawn).total
  have length : E.terms.length = 1 := (Engine.small_of_roll drawn).1
  obtain ⟨o, only⟩ := List.length_eq_one_iff.mp length
  obtain ⟨i, sign, term, outcome, -⟩ := h.place
  rw [only] at outcome
  cases i with
  | succ i => cases term
  | zero =>
    cases term
    obtain rfl := Option.some.inj outcome
    rw [← Int64.toInt_inj, exact, only, t.total_toInt h.length_le]
    simp [exactTotal, TermOutcome.signedSum, Outcome.sum]

/-- The label of `E`, an evaluation of `f`, is that of the last fate dice, and makes up a second line
of its text unless it is empty. -/
structure Evaluation.Labelled (E : Evaluation) (f : Formula) : Prop where
  isSome : E.fateLabel.isSome = f.hasFate
  last : f.hasFate = true → ∃ count t, LastThrow f.terms E.terms count t
  label : ∀ count t, LastThrow f.terms E.terms count t →
    E.fateLabel = some (ladder t.total) ∧ t.total.toInt = fateSum t.dice ∧
      (ladder t.total ≠ "" ↔ -4 ≤ fateSum t.dice ∧ fateSum t.dice ≤ 4) ∧
      (count ≤ 4 → ladder t.total ≠ "")
  total : ∀ count, f = ⟨.fate count, []⟩ → E.fateLabel = some (ladder E.total)
  lines : ∀ limit, (E.describe limit).toList.splitOn '\n' =
    (E.rollLine limit :: (E.shownLabel.map Evaluation.resultLine).toList).map String.toList

theorem Engine.labelled_of_draws {F : List UInt16} {U : List UnitDraw}
    (drawn : Draws (e.roll f) F U E) : E.Labelled f := by
  have yields := (roll_draws drawn).2.yields
  have labelled : E.fateLabel = lastLabel? E.terms := by
    obtain ⟨outcomes, rfl, -⟩ := roll_outcomes drawn
    rfl
  have isSome : E.fateLabel.isSome = f.hasFate := by
    rw [labelled, lastLabel?_isSome yields]
    rfl
  have last : f.hasFate = true → ∃ count t, LastThrow f.terms E.terms count t :=
    exists_lastThrow yields
  have label {count : UInt16} {t : FateThrow} (h : LastThrow f.terms E.terms count t) :
      E.fateLabel = some (ladder t.total) :=
    labelled.trans (h.lastLabel? yields)
  refine ⟨isSome, last, ?_, ?_, ?_⟩
  · intro count t h
    refine ⟨label h, t.total_toInt h.length_le, t.label_ne_empty_iff h.length_le, ?_⟩
    intro few
    apply t.label_ne_empty
    rw [h.length]
    exact UInt16.le_iff_toNat_le.mp few
  · rintro count rfl
    obtain ⟨count', t, h⟩ := last rfl
    rw [label h, LastThrow.total drawn h]
  · intro limit
    apply Evaluation.lines_describe
    intro text shown
    have thrown : f.hasFate = true := by
      rw [← isSome, shown]
      rfl
    obtain ⟨count, t, h⟩ := last thrown
    obtain rfl := Option.some.inj (shown.symm.trans (label h))
    exact oneLine_ladder _

section Runs

variable {σ ε : Type} [Roller σ ε] {s s' : σ}

/-- Only the last fate dice have a part in the label, whatever engine and roller an evaluation comes
from. With other signs in the formula it stays what it is. -/
theorem Engine.roll_labelled (h : (e.roll f).run s = (.ok E, s')) :
    E.Labelled f ∧ ∀ g : Formula, g.terms.map (·.term) = f.terms.map (·.term) →
      ∃ E', (e.roll g).run s = (.ok E', s') ∧
        E'.terms.map (·.outcome) = E.terms.map (·.outcome) ∧ E'.fateLabel = E.fateLabel :=
  ⟨labelled_of_draws (draws_drawn h), fun _ same => roll_with_signs same h⟩

theorem Engine.roll_labelled_taken_away :
    let f : Formula := ⟨.fate 5, [⟨.minus, .fate 1⟩, ⟨.plus, .flat 3⟩]⟩
    let g : Formula := ⟨.fate 5, [⟨.plus, .fate 1⟩, ⟨.minus, .flat 3⟩]⟩
    let s : Predetermined := ⟨[], List.replicate 6 ⟨0⟩⟩
    ∃ E label, (Engine.roll {} f).run s = (.ok E, ⟨[], []⟩) ∧ E.fateLabel = some label ∧
      label ≠ "" ∧ ∃ E', (Engine.roll {} g).run s = (.ok E', ⟨[], []⟩) ∧
        E'.fateLabel = some label := by
  intro f g s
  have later : ∀ later ∈ f.terms.drop 2, later.term.isFate = false := by decide
  obtain ⟨E, ran, last⟩ : ∃ E, (Engine.roll {} f).run s = (.ok E, ⟨[], []⟩) ∧
      LastThrow f.terms E.terms 1 ⟨[FateDie.ofUnit ⟨0⟩]⟩ :=
    ⟨_, rfl, ⟨1, .minus, rfl, rfl, later⟩, rfl⟩
  obtain ⟨labelled, signs⟩ := roll_labelled ran
  obtain ⟨label, -, -, named⟩ := labelled.label 1 _ last
  obtain ⟨E', ran', -, same⟩ := signs g rfl
  exact ⟨E, _, ran, label, named (by decide), E', ran', same.trans label⟩

end Runs

end TabletopDice
