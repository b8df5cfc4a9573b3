import Mathlib.Data.List.TakeDrop
import TabletopDice.CommandLine.Arguments
import TabletopDice.Proofs.Dialogue.QuickTexts

/-!
# Writing arguments

`Settings.Writes` tells how settings are written as arguments: options in any place among the words,
each in one argument or in two. Arguments are read back as the settings that they write:
`Settings.Writes.ofArguments`.
-/

namespace TabletopDice.CommandLine

open Grammar Text

/-! ### Numbers -/

inductive NumberText : List Char → Int → Prop
  | bare (n : Numeral) : NumberText n.run n.value
  | plus (n : Numeral) : NumberText ('+' :: n.run) n.value
  | minus (n : Numeral) : NumberText ('-' :: n.run) (-n.value)

theorem signed?_eq_some_iff {cs : List Char} {min max k : Int} :
    Decimal.signed? min max cs = some k ↔ NumberText cs k ∧ min ≤ k ∧ k ≤ max := by
  simp only [Decimal.signed?, Option.filter_eq_some_iff, Bool.and_eq_true, decide_eq_true_eq]
  refine and_congr_left fun _ => ?_
  constructor
  · intro read
    split at read
    next rest =>
      obtain ⟨_, digits, rfl⟩ := Option.map_eq_some_iff.mp read
      obtain ⟨n, rfl, rfl⟩ := Dialogue.digits?_eq_some_iff.mp digits
      exact .plus n
    next rest =>
      obtain ⟨_, digits, rfl⟩ := Option.map_eq_some_iff.mp read
      obtain ⟨n, rfl, rfl⟩ := Dialogue.digits?_eq_some_iff.mp digits
      exact .minus n
    next =>
      obtain ⟨_, digits, rfl⟩ := Option.map_eq_some_iff.mp read
      obtain ⟨n, rfl, rfl⟩ := Dialogue.digits?_eq_some_iff.mp digits
      exact .bare n
  · intro text
    have digits (n : Numeral) : Decimal.digits? n.run = some n.value :=
      Dialogue.digits?_eq_some_iff.mpr ⟨n, rfl, rfl⟩
    cases text with
    | plus n => simp [digits]
    | minus n => simp [digits]
    | bare n =>
      split
      next same => exact absurd same (run_ne_cons n rfl _)
      next same => exact absurd same (run_ne_cons n rfl _)
      next => simp [digits]

/-! ### Words -/

inductive Fraction : List Char → Prop
  | none : Fraction []
  | point (digits : Digits) : Fraction ('.' :: digits.run)

inductive Exponent : List Char → Prop
  | none : Exponent []
  | mark {c : Char} (h : c = 'e' ∨ c = 'E') (digits : Numeral) : Exponent (c :: digits.run)

/-- The words of a formula that may stand among options. One that begins with a minus is the minus
alone, or a number. -/
inductive IsWord : List Char → Prop
  | plain {cs : List Char} (h : cs.head? ≠ some '-') : IsWord cs
  | minus : IsWord ['-']
  | negative (whole : Numeral) {fraction exponent : List Char} (f : Fraction fraction)
      (e : Exponent exponent) : IsWord ('-' :: (whole.run ++ fraction ++ exponent))

theorem span_append {p : Char → Bool} {front rest : List Char} (inside : ∀ c ∈ front, p c = true)
    (stops : ∀ c ∈ rest.head?, p c = false) : (front ++ rest).span p = (front, rest) := by
  rw [List.span_eq_takeWhile_dropWhile, List.takeWhile_append_of_pos inside,
    List.dropWhile_append_of_pos inside]
  cases rest with
  | nil => simp
  | cons c rest =>
    have stop := stops c rfl
    simp [stop]

theorem Fraction.forall_mem {fraction : List Char} (f : Fraction fraction) :
    ∀ c ∈ fraction, c = '.' ∨ c.isDigit = true := by
  cases f with
  | none => exact List.forall_mem_nil _
  | point digits =>
    exact List.forall_mem_cons.mpr ⟨.inl rfl, fun c member => .inr (digits.isDigit c member)⟩

theorem isExponentMark_of_isDigit {c : Char} (h : c.isDigit = true) : isExponentMark c = false := by
  rw [isExponentMark, Bool.or_eq_false_iff, beq_eq_false_iff_ne, beq_eq_false_iff_ne]
  exact ⟨ne_of_isDigit h rfl, ne_of_isDigit h rfl⟩

theorem span_mantissa (whole : Numeral) {fraction exponent : List Char} (f : Fraction fraction)
    (e : Exponent exponent) : (whole.run ++ fraction ++ exponent).span (!isExponentMark ·) =
      (whole.run ++ fraction, exponent) := by
  apply span_append
  · intro c member
    rw [Bool.not_eq_true']
    rcases List.mem_append.mp member with member | member
    · exact isExponentMark_of_isDigit (whole.isDigit c member)
    · rcases f.forall_mem c member with rfl | digit
      · rfl
      · exact isExponentMark_of_isDigit digit
  · cases e with
    | none => simp
    | mark h digits =>
      rintro c ⟨⟩
      rcases h with rfl | rfl <;> rfl

theorem span_whole (whole : Numeral) {fraction : List Char} (f : Fraction fraction) :
    (whole.run ++ fraction).span (· != '.') = (whole.run, fraction) := by
  apply span_append
  · intro c member
    exact bne_iff_ne.mpr (ne_of_isDigit (whole.isDigit c member) rfl)
  · cases f <;> simp

theorem looksLikeNumber_of_parts (whole : Numeral) {fraction exponent : List Char}
    (f : Fraction fraction) (e : Exponent exponent) :
    looksLikeNumber (whole.run ++ fraction ++ exponent) = true := by
  have wholeDigits : whole.run.all Char.isDigit = true := List.all_eq_true.mpr whole.isDigit
  have fractionDigits : fraction.tail.all Char.isDigit = true := by
    cases f with
    | none => rfl
    | point digits => exact List.all_eq_true.mpr digits.isDigit
  have exponentDigits : exponent.tail.all Char.isDigit = true ∧ exponent.length ≠ 1 := by
    cases e with
    | none => decide
    | mark h digits =>
      refine ⟨List.all_eq_true.mpr digits.isDigit, ?_⟩
      simp [digits.ne_nil]
  unfold looksLikeNumber
  rw [span_mantissa whole f e]
  dsimp only
  rw [span_whole whole f]
  simp [-List.all_eq_true, wholeDigits, fractionDigits, exponentDigits, whole.ne_nil]

theorem ofString_minus {text : String} {c : Char} {rest : List Char}
    (h : text.toList = '-' :: c :: rest) (digit : c.isDigit = true)
    (number : looksLikeNumber (c :: rest) = true) : Argument.ofString text = .word text := by
  have short : c ≠ '-' := ne_of_isDigit digit rfl
  have help : c ≠ 'h' := ne_of_isDigit digit rfl
  have version : c ≠ 'V' := ne_of_isDigit digit rfl
  unfold Argument.ofString
  rw [h]
  simp [short, help, version, number]

theorem ofString_word {text : String} (h : IsWord text.toList) :
    Argument.ofString text = .word text := by
  generalize chars : text.toList = cs at h
  cases h with
  | plain h =>
    unfold Argument.ofString
    rw [chars]
    split
    next => simp at h
    next => simp at h
    next => simp at h
    next => simp at h
    next => simp at h
    next => rfl
  | minus =>
    unfold Argument.ofString
    rw [chars]
    rfl
  | negative whole f e =>
    have number := looksLikeNumber_of_parts whole f e
    obtain ⟨c, more, run⟩ := List.exists_cons_of_ne_nil whole.ne_nil
    rw [run] at chars number
    exact ofString_minus chars (whole.isDigit c (run ▸ List.mem_cons_self)) number

theorem NumberText.isWord {cs : List Char} {k : Int} (h : NumberText cs k) : IsWord cs := by
  cases h with
  | bare n => exact .plain (head?_run_ne n rfl)
  | plus n => exact .plain (by simp)
  | minus n => simpa using IsWord.negative n .none .none

/-! ### Options -/

theorem ofName?_name (s : Setting) : Setting.ofName? s.name.toList = some s := by
  cases s <;> decide

theorem ofString_name (s : Setting) : Argument.ofString ("--" ++ s.name) = .setting s none := by
  cases s <;> decide

theorem ofLong_name_value (s : Setting) (value : List Char) :
    Argument.ofLong (s.name.toList ++ '=' :: value) =
      .setting s (some (String.ofList value)) := by
  have inside : s.name.toList.all (· != '=') = true := by
    cases s <;> rfl
  have parts : (s.name.toList ++ '=' :: value).span (· != '=') = (s.name.toList, '=' :: value) :=
    span_append (List.all_eq_true.mp inside) (by simp)
  have help : (s.name.toList ++ '=' :: value == "help".toList) = false := by
    cases s <;> rfl
  have version : (s.name.toList ++ '=' :: value == "version".toList) = false := by
    cases s <;> rfl
  unfold Argument.ofLong
  rw [parts]
  dsimp only
  rw [help, version, ofName?_name]
  simp

theorem ofString_long {text : String} {c : Char} {rest : List Char}
    (h : text.toList = '-' :: '-' :: c :: rest) :
    Argument.ofString text = Argument.ofLong (c :: rest) := by
  unfold Argument.ofString
  rw [h]
  rfl

theorem ofString_name_value (s : Setting) (value : String) :
    Argument.ofString ("--" ++ s.name ++ "=" ++ value) = .setting s (some value) := by
  have chars : ("--" ++ s.name ++ "=" ++ value).toList =
      '-' :: '-' :: (s.name.toList ++ '=' :: value.toList) := by
    simp
  have long := ofLong_name_value s value.toList
  have named : s.name.toList ≠ [] := by cases s <;> decide
  obtain ⟨c, rest, name⟩ := List.exists_cons_of_ne_nil named
  rw [name, List.cons_append] at chars long
  rw [ofString_long chars, long, String.ofList_toList]

/-! ### Values -/

inductive Value where
  | difficulty (n : Score)
  | maxExplosions (n : UInt16)
  | fateCount (n : UInt16)
  | seed (n : UInt64)

namespace Value

def setting : Value → Setting
  | difficulty _ => .difficulty
  | maxExplosions _ => .maxExplosions
  | fateCount _ => .fateCount
  | seed _ => .seed

def number : Value → Int
  | difficulty n => n.toInt
  | maxExplosions n => n.toNat
  | fateCount n => n.toNat
  | seed n => n.toNat

def settings : Value → Settings
  | difficulty n => { difficulty := some n }
  | maxExplosions n => { maxExplosions := some n }
  | fateCount n => { fateCount := some n }
  | seed n => { seed := some n }

structure SpelledBy (v : Value) (text : String) : Prop where
  number : NumberText text.toList v.number
  unsigned : v.setting = .seed → text.toList.head? ≠ some '-'

end Value

namespace Settings

theorem readScore?_eq_some_iff {cs : List Char} {n : Score} :
    readScore? cs = some n ↔ NumberText cs n.toInt := by
  rw [readScore?, Option.map_eq_some_iff]
  constructor
  · rintro ⟨k, read, rfl⟩
    obtain ⟨text, lo, hi⟩ := signed?_eq_some_iff.mp read
    have below : k < 2 ^ 63 := Int.lt_of_le_of_lt hi (by decide)
    rwa [Int64.toInt_ofInt_of_le lo below]
  · intro text
    have read := signed?_eq_some_iff.mpr ⟨text, n.minValue_le_toInt, n.toInt_le⟩
    exact ⟨_, read, Int64.ofInt_toInt n⟩

theorem readCount?_eq_some_iff {cs : List Char} {n : UInt16} :
    readCount? cs = some n ↔ NumberText cs n.toNat := by
  have size : UInt16.size = 65536 := rfl
  rw [readCount?, Option.map_eq_some_iff]
  constructor
  · rintro ⟨k, read, rfl⟩
    obtain ⟨text, lo, hi⟩ := signed?_eq_some_iff.mp read
    rwa [UInt16.toNat_ofNat_of_lt' (by omega), Int.toNat_of_nonneg lo]
  · intro text
    have range : (n.toNat : Int) ≤ UInt16.size - 1 := by
      have := n.toNat_lt
      omega
    have read := signed?_eq_some_iff.mpr ⟨text, Int.natCast_nonneg _, range⟩
    exact ⟨_, read, UInt16.ofNat_toNat⟩

theorem readSeed?_eq_some_iff {cs : List Char} {n : UInt64} :
    readSeed? cs = some n ↔ NumberText cs n.toNat ∧ cs.head? ≠ some '-' := by
  have size : UInt64.size = 18446744073709551616 := rfl
  simp only [readSeed?, Option.map_eq_some_iff, Dialogue.unsigned?_eq_some_iff]
  constructor
  · rintro ⟨k, ⟨plus, digits, rfl, rfl, hi⟩, rfl⟩
    rw [UInt64.toNat_ofNat_of_lt' (by omega)]
    cases plus with
    | true => exact ⟨.plus digits, by simp [Dialogue.plusText]⟩
    | false => exact ⟨.bare digits, head?_run_ne digits rfl⟩
  · rintro ⟨text, unsigned⟩
    have range := n.toNat_lt
    refine ⟨n.toNat, ?_, UInt64.ofNat_toNat⟩
    generalize value : (n.toNat : Int) = k at text
    cases text with
    | bare digits => exact ⟨false, digits, rfl, by omega, by omega⟩
    | plus digits => exact ⟨true, digits, rfl, by omega, by omega⟩
    | minus => exact absurd rfl unsigned

/-! ### Settings side by side -/

def Lacks (o : Settings) : Setting → Prop
  | .difficulty => o.difficulty = none
  | .maxExplosions => o.maxExplosions = none
  | .fateCount => o.fateCount = none
  | .seed => o.seed = none

/-- Settings that are read one after the other. -/
def beside (a b : Settings) : Settings where
  difficulty := a.difficulty.or b.difficulty
  maxExplosions := a.maxExplosions.or b.maxExplosions
  fateCount := a.fateCount.or b.fateCount
  seed := a.seed.or b.seed
  words := a.words ++ b.words

/-- The arguments write the settings: each word and each value once, in any order. A value stands
behind `=` or is the next argument. -/
inductive Writes : List String → Settings → Prop
  | nil : Writes [] {}
  | word {text : String} (isWord : IsWord text.toList) {args : List String} {o : Settings}
      (h : Writes args o) : Writes (text :: args) (beside { words := [text] } o)
  | joined {v : Value} {text : String} (spelled : v.SpelledBy text) {args : List String}
      {o : Settings} (once : o.Lacks v.setting) (h : Writes args o) :
      Writes (("--" ++ v.setting.name ++ "=" ++ text) :: args) (v.settings.beside o)
  | split {v : Value} {text : String} (spelled : v.SpelledBy text) {args : List String}
      {o : Settings} (once : o.Lacks v.setting) (h : Writes args o) :
      Writes (("--" ++ v.setting.name) :: text :: args) (v.settings.beside o)

def Apart (a b : Settings) : Prop :=
  ∀ s, a.Lacks s ∨ b.Lacks s

variable {a b c o : Settings} {s : Setting} {v : Value} {args : List String} {text : String}

theorem beside_assoc : (a.beside b).beside c = a.beside (b.beside c) := by
  simp [beside, Option.or_assoc]

theorem beside_empty : a.beside {} = a := by
  simp [beside]

theorem empty_beside : ({} : Settings).beside a = a := by
  simp [beside]

theorem lacks_beside_iff : (a.beside b).Lacks s ↔ a.Lacks s ∧ b.Lacks s := by
  cases s <;> simp [Lacks, beside]

theorem lacks_settings_iff : v.settings.Lacks s ↔ s ≠ v.setting := by
  cases v <;> cases s <;> simp [Lacks, Value.settings, Value.setting]

theorem addWords_eq_beside (a : Settings) (words : List String) :
    a.addWords words = a.beside { words } := by
  simp [addWords, beside]

theorem Apart.symm (h : a.Apart b) : b.Apart a :=
  fun s => (h s).symm

theorem Apart.assoc (h : a.Apart (b.beside c)) (h' : b.Apart c) :
    a.Apart b ∧ (a.beside b).Apart c := by
  simp only [Apart, lacks_beside_iff] at *
  constructor
  · exact fun s => (h s).imp_right And.left
  · intro s
    rcases h s with left | right
    · exact (h' s).imp_left fun middle => ⟨left, middle⟩
    · exact .inr right.2

theorem apart_words (words : List String) (o : Settings) : ({ words } : Settings).Apart o := by
  intro s
  left
  cases s <;> rfl

theorem apart_settings_iff : v.settings.Apart o ↔ o.Lacks v.setting := by
  constructor
  · intro h
    exact (h v.setting).resolve_left fun lacks => lacks_settings_iff.mp lacks rfl
  · intro lacks s
    by_cases same : s = v.setting
    · exact .inr (same ▸ lacks)
    · exact .inl (lacks_settings_iff.mpr same)

theorem fill_of_read {α : Type} {read? : List Char → Option α} {n : α}
    (read : read? text.toList = some n) : fill s none text read? = .ok (some n) := by
  rw [fill, read]
  rfl

theorem set_of_lacks (spelled : v.SpelledBy text) (lacks : a.Lacks v.setting) :
    a.set v.setting text = .ok (a.beside v.settings) := by
  obtain ⟨number, unsigned⟩ := spelled
  cases v with
  | difficulty n =>
    have free : a.difficulty = none := lacks
    simp only [set, Value.setting, free, fill_of_read (readScore?_eq_some_iff.mpr number)]
    simp [beside, Value.settings, free]
  | maxExplosions n =>
    have free : a.maxExplosions = none := lacks
    simp only [set, Value.setting, free, fill_of_read (readCount?_eq_some_iff.mpr number)]
    simp [beside, Value.settings, free]
  | fateCount n =>
    have free : a.fateCount = none := lacks
    simp only [set, Value.setting, free, fill_of_read (readCount?_eq_some_iff.mpr number)]
    simp [beside, Value.settings, free]
  | seed n =>
    have free : a.seed = none := lacks
    have read := readSeed?_eq_some_iff.mpr ⟨number, unsigned rfl⟩
    simp only [set, Value.setting, free, fill_of_read read]
    simp [beside, Value.settings, free]

theorem Writes.read (h : Writes args o) (apart : a.Apart o) :
    a.read args = .ok (.run (a.beside o)) := by
  induction h generalizing a with
  | nil => rw [Settings.read, beside_empty]
  | word isWord h ih =>
    obtain ⟨-, apart⟩ := apart.assoc (apart_words _ _)
    rw [Settings.read, ofString_word isWord]
    dsimp only
    rw [addWords_eq_beside, ih apart, beside_assoc]
  | joined spelled once h ih =>
    obtain ⟨free, apart⟩ := apart.assoc (apart_settings_iff.mpr once)
    have set := set_of_lacks spelled (apart_settings_iff.mp free.symm)
    rw [Settings.read, ofString_name_value]
    dsimp only
    rw [set, ← beside_assoc, ← ih apart]
    rfl
  | split spelled once h ih =>
    obtain ⟨free, apart⟩ := apart.assoc (apart_settings_iff.mpr once)
    have set := set_of_lacks spelled (apart_settings_iff.mp free.symm)
    rw [Settings.read.eq_def]
    dsimp only
    rw [ofString_name]
    dsimp only
    rw [ofString_word spelled.number.isWord]
    dsimp only
    rw [set, ← beside_assoc, ← ih apart]
    rfl

theorem Writes.ofArguments (h : Writes args o) : Settings.ofArguments args = .ok (.run o) := by
  rw [Settings.ofArguments, h.read (apart_words [] o), empty_beside]

end Settings

end TabletopDice.CommandLine
