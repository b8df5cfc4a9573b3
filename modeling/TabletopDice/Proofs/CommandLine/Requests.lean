import TabletopDice.CommandLine.Run
import TabletopDice.Proofs.CommandLine.Arguments
import TabletopDice.Proofs.Dialogue.TypedChoices

/-!
# Rolls from the command line

A command line with a formula prints what the library answers to its words, put together without
anything between them. Neither how the formula is cut into words nor where the options stand
matters: `Settings.rolls_as_library`.
-/

namespace TabletopDice

theorem Roll.draw_map {α β σ : Type} [Roller σ Empty] (f : α → β) (r : Roll α) (s : σ) :
    (f <$> r).draw s = (f (r.draw s).1, (r.draw s).2) := by
  have mapped : (f <$> r).run s = _ := r.run_bind (fun a => .done (f a)) s
  unfold draw
  rw [mapped]
  cases r.run s with
  | mk outcome after =>
    cases outcome with
    | ok a => rfl
    | error e => exact e.elim

theorem Engine.withFateCount_maxExplosions (e : Engine) (count : UInt16) :
    (e.withFateCount count).maxExplosions = e.maxExplosions := by
  unfold withFateCount
  split <;> rfl

/-! ### Blanks between words -/

namespace Grammar

open Formula

theorem compactChars_intercalate (words : List (List Char)) :
    compactChars ([' '].intercalate words) = compactChars words.flatten := by
  have blank : compactChars [' '] = [] := rfl
  induction words with
  | nil => rfl
  | cons word words ih =>
    cases words with
    | nil => simp
    | cons next words =>
      rw [List.intercalate_cons_cons, List.flatten_cons, compactChars_append, compactChars_append,
        compactChars_append, ih, blank, List.append_nil]

theorem compact_words (words : List String) :
    compact (String.intercalate " " words) = compact (String.join words) := by
  have chars := compactChars_intercalate (words.map String.toList)
  rw [compact, compact, String.toList_intercalate, String.toList_join, List.flatMap_def]
  exact congrArg String.ofList chars

end Grammar

namespace CommandLine

open Grammar

namespace Settings

/-- What the library answers to a text, with the engine that the options build and the seeded
generator: the evaluation, or the check if there is a difficulty. -/
def answer (o : Settings) (seed : UInt64) (raw : String) : Except Formula.Rejection String :=
  match o.difficulty with
  | none => (o.engine.evaluate raw).map fun roll => (roll.draw (⟨seed⟩ : Seeded)).1.text
  | some difficulty =>
    (Check.roll ⟨difficulty⟩ o.engine raw).map fun roll => (roll.draw (⟨seed⟩ : Seeded)).1.text

def options (o : Settings) : Settings :=
  { o with words := [] }

variable {o o' : Settings} {seed : UInt64} {raw raw' : String}

theorem engine_maxExplosions (o : Settings) :
    o.engine.maxExplosions = o.maxExplosions.getD 100 := by
  unfold engine
  cases o.fateCount with
  | none => cases o.maxExplosions <;> rfl
  | some count =>
    dsimp only
    rw [Engine.withFateCount_maxExplosions]
    cases o.maxExplosions <;> rfl

theorem engine_fateCount (o : Settings) : o.engine.fateCount = max (o.fateCount.getD 4) 1 := by
  unfold engine
  cases o.fateCount with
  | none => cases o.maxExplosions <;> rfl
  | some count => exact Engine.set_fateCount _ (.fateCount count)

theorem answer_of_ok {f : Formula} (h : Formula.parse raw = .ok f) :
    ∃ text, o.answer seed raw = .ok text := by
  unfold answer Check.roll Engine.evaluate
  rw [h]
  cases o.difficulty <;> exact ⟨_, rfl⟩

theorem answer_of_error {r : Formula.Rejection} (h : Formula.parse raw = .error r) :
    o.answer seed raw = .error r := by
  unfold answer Check.roll Engine.evaluate
  rw [h]
  cases o.difficulty <;> rfl

theorem answer_congr (same : o.options = o'.options)
    (h : Formula.compact raw = Formula.compact raw') :
    o.answer seed raw = o'.answer seed raw' := by
  have difficulty : o.difficulty = o'.difficulty :=
    show o.options.difficulty = o'.options.difficulty by rw [same]
  have engine : o.engine = o'.engine :=
    show o.options.engine = o'.options.engine by rw [same]
  unfold answer Check.roll Engine.evaluate
  rw [difficulty, engine, parse_congr h]

def reportOf : Except Formula.Rejection String → ExitReport
  | .ok text => ⟨0, text ++ "\n", ""⟩
  | .error r => ⟨1, "", Formula.usage ++ ": " ++ r.reason.message ++ "\n"⟩

theorem roll_eq (o : Settings) (seed : UInt64) :
    o.roll ⟨seed⟩ = reportOf (o.answer seed (String.join o.words)) := by
  have parsed := parse_congr (compact_words o.words)
  unfold roll rollWords answer Check.roll Engine.evaluate
  dsimp only
  rw [parsed]
  cases Formula.parse (String.join o.words) with
  | error r => cases o.difficulty <;> rfl
  | ok f =>
    cases o.difficulty with
    | none => simp [Except.map, reportOf, Roll.draw_map]
    | some difficulty => simp [Except.map, reportOf, Roll.draw_map]

/-- The arguments ask for a roll of at least one word, with a seed. -/
structure AskedBy (o : Settings) (seed : UInt64) (args : List String) : Prop where
  writes : Writes args o
  worded : o.words ≠ []
  seeded : o.seed = some seed

theorem AskedBy.run_eq {args : List String} (h : o.AskedBy seed args) (input : List UInt8)
    (entropy : UInt64) :
    run args input entropy = reportOf (o.answer seed (String.join o.words)) := by
  rw [run, h.writes.ofArguments]
  dsimp only
  rw [if_neg h.worded, generator, h.seeded]
  exact o.roll_eq seed

/-- A roll that the command line asks for is the library's, or is rejected as it is there. Standard
input plays no part, nor does the way the arguments are written. -/
theorem rolls_as_library {args : List String} (asked : o.AskedBy seed args) (input : List UInt8)
    (entropy : UInt64) :
    let raw := String.join o.words
    o.engine.maxExplosions = o.maxExplosions.getD 100 ∧
    o.engine.fateCount = max (o.fateCount.getD 4) 1 ∧
    (∀ f, Formula.parse raw = .ok f → ∃ text, o.answer seed raw = .ok text ∧
      run args input entropy = ⟨0, text ++ "\n", ""⟩) ∧
    (∀ r, Formula.parse raw = .error r →
      (run args input entropy).code = 1 ∧ (run args input entropy).stdout = "") ∧
    ∀ (o' : Settings) (args' : List String), o'.AskedBy seed args' → o'.options = o.options →
      Formula.compact (String.join o'.words) = Formula.compact raw →
      ∀ input' entropy', run args' input' entropy' = run args input entropy := by
  intro raw
  rw [asked.run_eq]
  refine ⟨o.engine_maxExplosions, o.engine_fateCount, ?_, ?_, ?_⟩
  · intro f parsed
    obtain ⟨text, answered⟩ : ∃ text, o.answer seed raw = .ok text := answer_of_ok parsed
    exact ⟨text, answered, by rw [answered]; rfl⟩
  · intro r parsed
    rw [answer_of_error parsed]
    exact ⟨rfl, rfl⟩
  · intro o' args' asked' same compacted input' entropy'
    rw [asked'.run_eq, answer_congr same compacted]

theorem rolls_as_library_rearranged :
    let args : List String := ["--seed=+07", "1d1", "-", "--dc", "-5", "1"]
    let args' : List String := ["1D1-1", "--dc=-5", "", "--seed", "7"]
    ∃ o o' : Settings, o.AskedBy 7 args ∧ o'.AskedBy 7 args' ∧ o'.options = o.options ∧
      Formula.compact (String.join o'.words) = Formula.compact (String.join o.words) ∧
      (run args [] 0).code = 0 ∧ run args' [0x61] 1 = run args [] 0 := by
  intro args args'
  let number (run : List Char) (digits : run.all Char.isDigit = true) (h : run ≠ []) : Numeral :=
    ⟨⟨run, List.all_eq_true.mp digits⟩, h⟩
  have minusFive : (Value.difficulty (-5)).SpelledBy "-5" :=
    ⟨NumberText.minus (number ['5'] rfl (by simp)), fun seed => nomatch seed⟩
  have seven : (Value.seed 7).SpelledBy "7" :=
    ⟨NumberText.bare (number ['7'] rfl (by simp)), by decide⟩
  have plusSeven : (Value.seed 7).SpelledBy "+07" :=
    ⟨NumberText.plus (number ['0', '7'] rfl (by simp)), by decide⟩
  have lone : IsWord "-".toList := .minus
  have writes : Writes args _ :=
    .joined plusSeven (by rfl) (.word (.plain (by decide)) (.word lone
      (.split minusFive (by rfl) (.word (.plain (by decide)) .nil))))
  have writes' : Writes args' _ :=
    .word (.plain (by decide)) (.joined minusFive (by rfl) (.word (.plain (by decide))
      (.split seven (by rfl) .nil)))
  have asked : AskedBy _ 7 args := ⟨writes, by decide, rfl⟩
  have asked' : AskedBy _ 7 args' := ⟨writes', by decide, rfl⟩
  obtain ⟨-, -, ok, -, same⟩ := rolls_as_library asked [] 0
  have parsed : Formula.parse "1d1-1" = .ok ⟨.dice ⟨1, 1, false⟩, [⟨.minus, .flat 1⟩]⟩ := by
    decide +kernel
  obtain ⟨text, -, ran⟩ := ok _ parsed
  have compacted : Formula.compact "1D1-1" = Formula.compact "1d1-1" := by decide +kernel
  refine ⟨_, _, asked, asked', rfl, compacted, ?_, same _ _ asked' rfl compacted _ _⟩
  rw [ran]

end Settings

end CommandLine

end TabletopDice
