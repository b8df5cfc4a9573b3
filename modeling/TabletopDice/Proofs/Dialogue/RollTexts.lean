import TabletopDice.Proofs.Answers.Listing
import TabletopDice.Proofs.Dialogue.Replies
import TabletopDice.Proofs.Dialogue.QuickTexts
import TabletopDice.Proofs.Rolling.Terms

/-!
# The texts of rolls

The text of a roll begins with a heading and goes on with a list of outcomes, which needs few
characters (`Listed`). No other text that a chat is told begins so (`beginsRoll_text`).
-/

namespace TabletopDice

def isListChar (c : Char) : Bool :=
  c.isDigit || " ,+-d![]".toList.contains c

def Listed (text : String) : Prop :=
  ∀ c ∈ text.toList, isListChar c = true

instance (text : String) : Decidable (Listed text) :=
  decidable_of_iff _ List.all_eq_true

variable {s t : String}

theorem forall_mem_intercalate {p : Char → Prop} {l : List String} (hs : ∀ c ∈ s.toList, p c)
    (items : ∀ t ∈ l, ∀ c ∈ t.toList, p c) : ∀ c ∈ (s.intercalate l).toList, p c := by
  induction l with
  | nil => simp
  | cons t l ih =>
    rw [List.forall_mem_cons] at items
    by_cases last : l = []
    · rw [last, String.intercalate_singleton]
      exact items.1
    · rw [String.intercalate_cons_of_ne_nil last, String.toList_append, String.toList_append]
      exact List.forall_mem_append.mpr
        ⟨List.forall_mem_append.mpr ⟨items.1, hs⟩, ih items.2⟩

theorem listed_append (hs : Listed s) (ht : Listed t) : Listed (s ++ t) := by
  unfold Listed
  rw [String.toList_append]
  exact List.forall_mem_append.mpr ⟨hs, ht⟩

theorem listed_intercalate {l : List String} (hs : Listed s) (items : ∀ t ∈ l, Listed t) :
    Listed (s.intercalate l) :=
  forall_mem_intercalate hs items

theorem listed_ofNat (n : Nat) : Listed (Text.Decimal.ofNat n) := by
  intro c member
  rw [Text.Decimal.ofNat, String.toList_ofList] at member
  simp [isListChar, Nat.isDigit_of_mem_toDigits (by decide) (by decide) member]

theorem listed_ofInt (n : Int) : Listed (Text.Decimal.ofInt n) := by
  cases n with
  | ofNat n => exact listed_ofNat n
  | negSucc n => exact listed_append (by decide) (listed_ofNat (n + 1))

namespace DiceThrow

theorem listed_faceTexts (faces : List UInt16) :
    Listed (String.intercalate ", " (faceTexts faces)) := by
  apply listed_intercalate (by decide)
  intro item member
  obtain ⟨face, -, rfl⟩ := List.mem_map.mp member
  exact listed_ofNat _

theorem listed_kind (t : DiceThrow) : Listed t.kind := by
  have mark : Listed (if t.dice.explode then "!" else "") := by
    split
    · decide
    · decide
  refine listed_append (listed_append (listed_append ?_ (listed_ofNat _)) mark) ?_
  · decide
  · decide

theorem listed_describe (t : DiceThrow) : Listed (t.describe none) := by
  rw [describe_none]
  exact listed_append (listed_faceTexts t.faces) t.listed_kind

end DiceThrow

theorem FateThrow.listed_describe (t : FateThrow) : Listed t.describe := by
  apply listed_intercalate (by decide)
  intro item member
  obtain ⟨die, -, rfl⟩ := List.mem_map.mp member
  cases die with
  | minus => decide
  | blank => decide
  | plus => decide

theorem TermOutcome.listed_describe (t : TermOutcome) : Listed (t.describe none) := by
  obtain ⟨sign, outcome⟩ := t
  cases outcome with
  | dice d => exact d.listed_describe
  | fate f => exact f.listed_describe
  | flat value =>
    have symbol : Listed sign.symbol.toString := by
      cases sign with
      | plus => decide
      | minus => decide
    exact listed_append symbol (listed_ofNat _)

/-- Whether a text begins as one of a roll does. -/
def beginsRoll (text : String) : Bool :=
  "Бросок ".toList.isPrefixOf text.toList && (text.toList.drop 7).head?.any isListChar

theorem beginsRoll_of_listed (h : Listed s) (rest : String) :
    beginsRoll ("Бросок " ++ (s ++ (" = " ++ rest))) = true := by
  have first : ((s ++ (" = " ++ rest)).toList.head?.any isListChar) = true := by
    rw [String.toList_append]
    unfold Listed at h
    cases chars : s.toList with
    | nil => simp [isListChar]
    | cons c cs => exact h c (chars ▸ List.mem_cons_self)
  have heading : "Бросок ".toList.length = 7 := by decide
  rw [beginsRoll, String.toList_append, List.drop_left' heading, first]
  simp

theorem Evaluation.beginsRoll_text (E : Evaluation) : beginsRoll E.text = true := by
  have listed : Listed (String.intercalate termSeparator (E.rolls none)) := by
    apply listed_intercalate (by decide)
    intro item member
    obtain ⟨t, -, rfl⟩ := List.mem_map.mp member
    exact t.listed_describe
  unfold text describe
  simp only [String.append_assoc]
  exact beginsRoll_of_listed listed _

/-! ### What texts are told -/

namespace Dialogue

open Roll

variable {e : Engine} {F : List UInt16} {U : List UnitDraw} {text told : String}

theorem QuickChoice.roll_draws_some {choice : QuickChoice} {E : Evaluation}
    (h : Draws (choice.roll e) F U E) : F ≠ [] ∨ U ≠ [] := by
  cases choice with
  | die sides => exact Engine.roll_draws_some h (Engine.wellFormed_quickDie sides)
  | fate => exact Engine.roll_draws_some h (Engine.wellFormed_quickFate e)

theorem formulaText_of_parse {f : Formula} (h : Formula.parse text = .ok f) :
    formulaText e text = e.roll f >>= fun E => done E.text := by
  unfold formulaText
  rw [e.evaluate_of_ok h]
  rfl

theorem formulaText_of_rejected {why : Formula.Rejection} (h : Formula.parse text = .error why) :
    formulaText e text = done Formula.usage := by
  unfold formulaText
  rw [e.evaluate_of_error h]
  rfl

theorem formulaText_draws (h : Draws (formulaText e text) F U told) :
    (∃ why, Formula.parse text = .error why ∧ told = Formula.usage) ∨
      ∃ f, Formula.parse text = .ok f ∧ beginsRoll told = true ∧ (F ≠ [] ∨ U ≠ []) := by
  cases parsed : Formula.parse text with
  | error why =>
    rw [formulaText_of_rejected parsed] at h
    obtain ⟨-, -, rfl⟩ := draws_done_iff.mp h
    exact .inl ⟨why, rfl, rfl⟩
  | ok f =>
    rw [formulaText_of_parse parsed] at h
    obtain ⟨E, drawn, rfl⟩ := draws_bind_done_iff.mp h
    exact .inr ⟨f, rfl, E.beginsRoll_text,
      Engine.roll_draws_some drawn (Grammar.wellFormed_of_parse parsed)⟩

theorem quickText_of_names {choice : QuickChoice}
    (h : QuickChoice.Names (Text.trim text) choice) :
    quickText e text = choice.roll e >>= fun E => done E.text := by
  rw [quickText, QuickChoice.ofText?_eq_some_iff.mpr h]
  rfl

theorem quickText_of_unnamed (h : ∀ choice, ¬ QuickChoice.Names (Text.trim text) choice) :
    quickText e text = done noSuchDie := by
  rw [quickText, QuickChoice.ofText?_eq_none_iff.mpr h]
  rfl

theorem quickText_draws (h : Draws (quickText e text) F U told) :
    ((∀ choice, ¬ QuickChoice.Names (Text.trim text) choice) ∧ told = noSuchDie) ∨
      ∃ choice, QuickChoice.Names (Text.trim text) choice ∧ beginsRoll told = true ∧
        (F ≠ [] ∨ U ≠ []) := by
  cases named : QuickChoice.ofText? text with
  | none =>
    have unnamed := QuickChoice.ofText?_eq_none_iff.mp named
    rw [quickText_of_unnamed unnamed] at h
    obtain ⟨-, -, rfl⟩ := draws_done_iff.mp h
    exact .inl ⟨unnamed, rfl⟩
  | some choice =>
    have named := QuickChoice.ofText?_eq_some_iff.mp named
    rw [quickText_of_names named] at h
    obtain ⟨E, drawn, rfl⟩ := draws_bind_done_iff.mp h
    exact .inr ⟨choice, named, E.beginsRoll_text, QuickChoice.roll_draws_some drawn⟩

theorem beginsRoll_usage : beginsRoll Formula.usage = false := by
  decide +kernel

theorem beginsRoll_noSuchDie : beginsRoll noSuchDie = false := by
  decide +kernel

theorem beginsRoll_fixed : ∀ r ∈ [Reply.startFirst, .keyboardRemoved, .chooseMode, .nextFormula,
    .chooseDie], beginsRoll r.text = false := by
  decide +kernel

/-- A chat is told a roll only after a draw. -/
theorem textReplies_drew {mode : Mode} {sent : List Reply} {r : Reply}
    (h : Draws (textReplies e text mode) F U sent) (member : r ∈ sent)
    (begins : beginsRoll r.text = true) : F ≠ [] ∨ U ≠ [] := by
  -- Replies that are always the same begin otherwise, so `r` is the first of two.
  have other := fun fixed => Bool.eq_false_iff.mp (beginsRoll_fixed r fixed) begins
  rcases textReplies_draws h with ⟨-, rfl⟩ | ⟨-, -, rfl⟩ | ⟨-, -, told, drawn, rfl⟩ |
    ⟨-, -, told, drawn, rfl⟩
  · obtain rfl := List.mem_singleton.mp member
    exact (other (by simp)).elim
  · rcases List.mem_pair.mp member with rfl | rfl
    · exact (other (by simp)).elim
    · exact (other (by simp)).elim
  · rcases List.mem_pair.mp member with rfl | rfl
    · rcases formulaText_draws drawn with ⟨why, -, rfl⟩ | ⟨f, -, -, drew⟩
      · exact absurd begins (Bool.eq_false_iff.mp beginsRoll_usage)
      · exact drew
    · exact (other (by simp)).elim
  · rcases List.mem_pair.mp member with rfl | rfl
    · rcases quickText_draws drawn with ⟨-, rfl⟩ | ⟨choice, -, -, drew⟩
      · exact absurd begins (Bool.eq_false_iff.mp beginsRoll_noSuchDie)
      · exact drew
    · exact (other (by simp)).elim

end Dialogue

end TabletopDice
