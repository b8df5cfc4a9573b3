import TabletopDice.Proofs.Dialogue.RollTexts

/-!
# Quick choices as formulas

A quick choice is answered as the formula that says the same, typed by a chat that awaits formulas:
`Session.named_as_typed`. How many fate dice that formula throws is a setting of the engine.
-/

namespace TabletopDice

open Roll

/-! ### Engines as they are set up -/

namespace Engine

inductive Setting where
  | maxExplosions (count : UInt16)
  | fateCount (count : UInt16)

def set (e : Engine) : Setting → Engine
  | .maxExplosions count => e.withMaxExplosions count
  | .fateCount count => e.withFateCount count

def withSettings (e : Engine) (settings : List Setting) : Engine :=
  settings.foldl set e

def Setting.fateCount? : Setting → Option UInt16
  | maxExplosions _ => none
  | fateCount count => some (max count 1)

theorem withFateCount_of_pos (e : Engine) {count : UInt16} (h : 0 < count) :
    e.withFateCount count = { e with fateCount := count, fateCount_pos := h } :=
  dif_pos h

theorem max_one_of_pos {n : UInt16} (h : 0 < n) : max n 1 = n := by
  change (if n ≤ 1 then 1 else n) = n
  split
  next le => exact UInt16.le_antisymm (one_le_iff_pos.mpr h) le
  next => rfl

theorem set_fateCount (e : Engine) (setting : Setting) :
    (e.set setting).fateCount = setting.fateCount?.getD e.fateCount := by
  cases setting with
  | maxExplosions count => rfl
  | fateCount count =>
    change (e.withFateCount count).fateCount = max count 1
    by_cases pos : 0 < count
    · rw [e.withFateCount_of_pos pos, max_one_of_pos pos]
    · obtain rfl : count = 0 := UInt16.le_antisymm (UInt16.not_lt.mp pos) UInt16.zero_le
      rfl

theorem withSettings_cons (e : Engine) (setting : Setting) (rest : List Setting) :
    e.withSettings (setting :: rest) = (e.set setting).withSettings rest := rfl

theorem withSettings_fateCount (e : Engine) (settings : List Setting) :
    (e.withSettings settings).fateCount =
      (settings.filterMap Setting.fateCount?).getLast?.getD e.fateCount := by
  induction settings generalizing e with
  | nil => rfl
  | cons setting rest ih =>
    rw [withSettings_cons, ih, set_fateCount, List.filterMap_cons]
    cases setting.fateCount? with
    | none => rfl
    | some count => rw [List.getLast?_cons, Option.getD_some, Option.getD_some]

theorem exists_settings (e : Engine) : ∃ settings, withSettings {} settings = e :=
  ⟨[.maxExplosions e.maxExplosions, .fateCount e.fateCount],
    withFateCount_of_pos _ e.fateCount_pos⟩

end Engine

/-! ### What a choice is typed as -/

namespace Dialogue

open Text

variable {e : Engine} {choice : QuickChoice} {text : String}

namespace QuickChoice

def formula (e : Engine) : QuickChoice → Formula
  | die sides => ⟨.dice ⟨1, max sides 1, false⟩, []⟩
  | fate => ⟨.fate e.fateCount, []⟩

def typed (e : Engine) : QuickChoice → String
  | die sides => "1d" ++ Decimal.ofNat sides.toNat
  | fate => Decimal.ofNat e.fateCount.toNat ++ "f"

theorem roll_eq_formula (e : Engine) (choice : QuickChoice) :
    choice.roll e = e.roll (choice.formula e) := by
  cases choice with
  | die sides => rfl
  | fate => rfl

theorem wellFormed_formula (e : Engine) (choice : QuickChoice) :
    (choice.formula e).WellFormed := by
  cases choice with
  | die sides => exact Engine.wellFormed_quickDie sides
  | fate => exact Engine.wellFormed_quickFate e

theorem Names.sides_pos {sides : UInt16} (h : Names text (.die sides)) : 0 < sides := by
  cases h with
  | die plus number range => exact Engine.one_le_iff_pos.mp (Grammar.Numeral.one_le_of_counts range)

theorem Names.typed_eq (h : Names text choice) (e : Engine) :
    choice.typed e = (choice.formula e).text := by
  cases choice with
  | die sides =>
    -- A named number of sides is in range, so it is rolled as it is.
    have kept : max sides 1 = sides := Engine.max_one_of_pos h.sides_pos
    have one : Decimal.ofNat 1 ++ "d" = "1d" := by decide
    simp [typed, formula, Formula.text, Term.text, Dice.text, Dice.mark, kept, one]
  | fate => simp [typed, formula, Formula.text, Term.text]

theorem Names.parse_typed (h : Names text choice) (e : Engine) :
    Formula.parse (choice.typed e) = .ok (choice.formula e) := by
  rw [h.typed_eq e]
  exact Grammar.parse_text_eq_ok_iff.mpr ⟨wellFormed_formula e choice, rfl⟩

theorem Names.ne_back (h : Names text choice) : text ≠ back := by
  rintro rfl
  cases choice with
  | die sides =>
    have unnamed : sides? back = none := rfl
    rw [names_die_iff, unnamed] at h
    cases h
  | fate => exact absurd (names_fate_iff.mp h) (by decide)

end QuickChoice

theorem ne_back_of_parse {f : Formula} (h : Formula.parse text = .ok f) : trim text ≠ back := by
  intro leaves
  -- Parsing does not see the blanks around a text, and the back text itself is no formula.
  have unread : Formula.whole? Formula.readFormula? (Formula.compact back).toList = none := by
    decide +kernel
  rw [← Grammar.parse_trim, leaves, Grammar.parse_of_none unread] at h
  cases h

theorem quickText_eq_formulaText (h : QuickChoice.Names (trim text) choice) :
    quickText e text = formulaText e (choice.typed e) := by
  rw [quickText_of_names h, formulaText_of_parse (h.parse_typed e), choice.roll_eq_formula]

/-! ### Chats that draw alike -/

namespace Session

variable {σ ε : Type} [Roller σ ε]

def firstText (answer : Except ε (List Reply)) : Except ε (Option String) :=
  answer.map fun sent => sent.head?.map Reply.text

/-- Two chats answer alike at first, and draw and leave behind the same. -/
structure Alike (e : Engine) (s s' : Session σ) (text text' : String) : Prop where
  first : firstText (s.step e (.text text)).1 = firstText (s'.step e (.text text')).1
  drawn : (replies e s.mode (.text text)).drawn s.roller =
    (replies e s'.mode (.text text')).drawn s'.roller
  roller : (s.step e (.text text)).2.roller = (s'.step e (.text text')).2.roller

theorem step_of_textReplies {α : Type} (s : Session σ) {told : Roll α} {sent : α → List Reply}
    (h : textReplies e text s.mode = told >>= fun t => done (sent t)) :
    (s.step e (.text text)).1 = (told.run s.roller).1.map sent ∧
      (s.step e (.text text)).2.roller = (told.run s.roller).2 := by
  rw [step, replies, h, run_bind_done]
  cases (told.run s.roller).1 with
  | ok t => exact ⟨rfl, rfl⟩
  | error cause => exact ⟨rfl, rfl⟩

theorem alike_of_told {s s' : Session σ} {text' : String} {told : Roll String} {next next' : Reply}
    (h : textReplies e text s.mode = told >>= fun t => done [⟨t, none⟩, next])
    (h' : textReplies e text' s'.mode = told >>= fun t => done [⟨t, none⟩, next'])
    (same : s.roller = s'.roller) : s.Alike e s' text text' where
  first := by
    rw [(s.step_of_textReplies h).1, (s'.step_of_textReplies h').1, same]
    cases (told.run s'.roller).1 with
    | ok t => rfl
    | error cause => rfl
  drawn := by
    rw [replies, replies, h, h', drawn_bind_done, drawn_bind_done, same]
  roller := by
    rw [(s.step_of_textReplies h).2, (s'.step_of_textReplies h').2, same]

/-- A text that names a quick choice is answered by its roll, as the formula typed for it is. That
holds for rollers that keep what they are asked, so the same is asked. Every engine is the default
one after some settings, and the last setting of a fate count decides; it is 1 at least. -/
theorem named_as_typed (e : Engine) (r : σ) (named : QuickChoice.Names (trim text) choice) :
    Alike e ⟨.quickRoll, r⟩ ⟨.awaitingFormula, r⟩ text (choice.typed e) ∧
      ((⟨.quickRoll, r⟩ : Session σ).step e (.text text)).1 =
        ((choice.roll e).run r).1.map (fun E => [⟨E.text, none⟩, .chooseDie]) ∧
      (∃ settings, Engine.withSettings {} settings = e) ∧
      ∀ settings, 1 ≤ (Engine.withSettings {} settings).fateCount ∧
        (Engine.withSettings {} settings).fateCount =
          (settings.filterMap Engine.Setting.fateCount?).getLast?.getD 4 := by
  have quick := textReplies_quick (e := e) named.ne_back
  have typed := textReplies_formula (e := e) (ne_back_of_parse (named.parse_typed e))
  rw [← quickText_eq_formulaText named] at typed
  refine ⟨alike_of_told quick typed rfl, ?_, e.exists_settings, ?_⟩
  · rw [quickText_of_names named, bind_assoc] at quick
    exact (step_of_textReplies ⟨.quickRoll, r⟩ quick).1
  · intro settings
    exact ⟨Engine.one_le_iff_pos.mpr (Engine.withSettings {} settings).fateCount_pos,
      Engine.withSettings_fateCount {} settings⟩

theorem named_as_typed_spelled :
    let faces : Predetermined := ⟨[4], []⟩
    QuickChoice.Names (trim " 1d+06\n") (.die 6) ∧
      Alike {} ⟨.quickRoll, faces⟩ ⟨.awaitingFormula, faces⟩ " 1d+06\n" "1d6" ∧
      Alike {} ⟨.quickRoll, faces⟩ ⟨.awaitingFormula, faces⟩ "Судьба" "4f" := by
  intro faces
  have die : QuickChoice.Names (trim " 1d+06\n") (.die 6) :=
    QuickChoice.ofText?_eq_some_iff.mp (by decide +kernel)
  have fate : QuickChoice.Names (trim "Судьба") .fate :=
    QuickChoice.ofText?_eq_some_iff.mp (by decide +kernel)
  have six : QuickChoice.typed {} (.die 6) = "1d6" := by decide +kernel
  have four : QuickChoice.typed {} .fate = "4f" := by decide +kernel
  refine ⟨die, ?_, ?_⟩
  · rw [← six]
    exact (named_as_typed {} faces die).1
  · rw [← four]
    exact (named_as_typed {} faces fate).1

end Session

end Dialogue

end TabletopDice
