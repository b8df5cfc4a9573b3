import TabletopDice.Dialogue.Reply
import TabletopDice.Proofs.Grammar.Acceptance

/-!
# Raw texts of formulas

A raw text is a formula if it is made of blanks and of the characters on the formula keyboard, where
the letters may be capitals, and a formula is left of it: `parse_accepts_raw`. The compact form of a
text goes the same way as the text, also where it is no formula: `parse_compact_stable`.
-/

namespace TabletopDice.Grammar

open Formula Text

def isRawChar (c : Char) : Bool :=
  isFormulaChar c || c == 'D' || c == 'F'

def smallLetter (c : Char) : Char :=
  if c = 'D' then 'd' else if c = 'F' then 'f' else c

/-- A text without its blanks and with small letters for kinds of dice. -/
def plainChars (cs : List Char) : List Char :=
  (cs.filter (!isBlank ·)).map smallLetter

def RawText (cs : List Char) : Prop :=
  ∀ c ∈ cs, isBlank c = true ∨ isRawChar c = true

variable {c x : Char} {cs cs' : List Char}

/-! ### Characters that come to a formula -/

theorem lower_ne_nil (c : Char) : lower c ≠ [] := by
  obtain ⟨-, eq⟩ | ⟨-, eq | eq | ⟨r, -, -, eq⟩⟩ := lower_cases c
  all_goals
    rw [eq]
    exact List.cons_ne_nil _ _

theorem lower_of_isRawChar (h : isRawChar c = true) : lower c = [smallLetter c] := by
  have table : ∀ n < 0x80, isRawChar (Char.ofNat n) = true →
      lower (Char.ofNat n) = [smallLetter (Char.ofNat n)] := by decide +kernel
  have ascii : c.toNat < 0x80 := by
    simp only [isRawChar, Bool.or_eq_true, beq_iff_eq] at h
    rcases h with (formula | rfl) | rfl
    · exact ascii_of_isFormulaChar formula
    · decide
    · decide
  exact forall_ascii (p := fun c => isRawChar c = true → lower c = [smallLetter c]) table ascii h

theorem isFormulaChar_smallLetter (h : isRawChar c = true) :
    isFormulaChar (smallLetter c) = true := by
  simp only [isRawChar, Bool.or_eq_true, beq_iff_eq] at h
  rcases h with (formula | rfl) | rfl
  · rw [smallLetter, if_neg (by rintro rfl; cases formula), if_neg (by rintro rfl; cases formula),
      formula]
  · rfl
  · rfl

/-- No other character has the lower case of one. -/
theorem isRawChar_of_mem_lower (h : x ∈ lower c) (formula : isFormulaChar x = true) :
    isRawChar c = true := by
  have low := ascii_of_isFormulaChar formula
  obtain ⟨ascii, eq⟩ | ⟨foreign, eq | eq | ⟨r, member, covered, eq⟩⟩ := lower_cases c
  · have table : ∀ n < 0x80, isFormulaChar (Char.ofNat n).toLower = true →
        isRawChar (Char.ofNat n) = true := by decide +kernel
    rw [eq, List.mem_singleton] at h
    exact forall_ascii (p := fun c => isFormulaChar c.toLower = true → isRawChar c = true) table
      ascii (h ▸ formula)
  · rw [eq, List.mem_cons, List.mem_singleton] at h
    rcases h with rfl | rfl
    · exact absurd formula (by decide)
    · exact absurd formula (by decide)
  · rw [eq, List.mem_singleton] at h
    exact absurd (h ▸ low) foreign
  · rw [eq, List.mem_singleton] at h
    rcases (lowered_of_covers member covered).2 with isK | ⟨beyond, -, number, -⟩
    · rw [h, isK] at formula
      exact absurd formula (by decide)
    · rw [h, number] at low
      omega

theorem exists_mem_lower_iff :
    (∃ x ∈ lower c, isFormulaChar x = true) ↔ isRawChar c = true := by
  constructor
  · rintro ⟨x, member, formula⟩
    exact isRawChar_of_mem_lower member formula
  · intro raw
    rw [lower_of_isRawChar raw]
    exact ⟨smallLetter c, List.mem_singleton_self _, isFormulaChar_smallLetter raw⟩

theorem compactChars_of_rawText (h : RawText cs) : compactChars cs = plainChars cs := by
  induction cs with
  | nil => rfl
  | cons c cs ih =>
    obtain ⟨first, others⟩ := List.forall_mem_cons.mp h
    have rest := ih others
    unfold compactChars plainChars at rest ⊢
    by_cases blank : isBlank c = true
    · rw [List.filter_cons_of_neg (by simp [blank]), rest]
    · have raw := first.resolve_left blank
      rw [List.filter_cons_of_pos (by simp [blank]), List.flatMap_cons, List.map_cons,
        lower_of_isRawChar raw, rest]
      rfl

theorem rawText_of_compactChars (h : ∀ x ∈ compactChars cs, isFormulaChar x = true) :
    RawText cs := by
  intro c member
  by_cases blank : isBlank c = true
  · exact .inl blank
  · obtain ⟨x, first⟩ := List.exists_mem_of_ne_nil _ (lower_ne_nil c)
    have kept : c ∈ cs.filter (!isBlank ·) := List.mem_filter.mpr ⟨member, by simp [blank]⟩
    exact .inr (isRawChar_of_mem_lower first (h x (List.mem_flatMap.mpr ⟨c, kept, first⟩)))

theorem parse_eq_ok_iff_raw {raw : String} {f : Formula} :
    parse raw = .ok f ↔
      RawText raw.toList ∧ ∃ t : FormulaTree, t.Derives (plainChars raw.toList) f := by
  rw [parse_eq_ok_iff, toList_compact]
  constructor
  · rintro ⟨t, derives⟩
    have raw : RawText raw.toList := by
      apply rawText_of_compactChars
      rw [← derives.text_eq]
      exact fun x member => t.isFormulaChar_of_mem member
    exact ⟨raw, t, compactChars_of_rawText raw ▸ derives⟩
  · rintro ⟨raw, t, derives⟩
    exact ⟨t, compactChars_of_rawText raw ▸ derives⟩

/-! ### Texts that differ in blanks and capitals -/

/-- Two texts differ in blanks and in the case of ASCII letters alone. -/
inductive Respells : List Char → List Char → Prop
  | nil : Respells [] []
  | char {a b : Char} {cs cs' : List Char} (same : a.toLower = b.toLower) (rest : Respells cs cs') :
      Respells (a :: cs) (b :: cs')
  | putIn {c : Char} {cs cs' : List Char} (blank : isBlank c = true) (rest : Respells cs cs') :
      Respells cs (c :: cs')
  | leaveOut {c : Char} {cs cs' : List Char} (blank : isBlank c = true) (rest : Respells cs cs') :
      Respells (c :: cs) cs'

theorem toLower_of_not_ascii (h : ¬ c.toNat < 0x80) : c.toLower = c := by
  refine dif_neg ?_
  rintro ⟨-, upper⟩
  have : c.toNat ≤ 90 := upper
  omega

theorem compactChars_toLower (c : Char) : compactChars [c.toLower] = compactChars [c] := by
  by_cases ascii : c.toNat < 0x80
  · have table : ∀ n < 0x80,
        compactChars [(Char.ofNat n).toLower] = compactChars [Char.ofNat n] := by decide +kernel
    exact forall_ascii (p := fun c => compactChars [c.toLower] = compactChars [c]) table ascii
  · rw [toLower_of_not_ascii ascii]

theorem compactChars_blank (h : isBlank c = true) : compactChars [c] = [] := by
  rw [compactChars, List.filter_cons_of_neg (by simp [h])]
  rfl

theorem compactChars_cons (c : Char) (cs : List Char) :
    compactChars (c :: cs) = compactChars [c] ++ compactChars cs :=
  compactChars_append [c] cs

theorem Respells.compactChars_eq (h : Respells cs cs') : compactChars cs = compactChars cs' := by
  induction h with
  | nil => rfl
  | @char a b cs cs' same _ ih =>
    rw [compactChars_cons a, compactChars_cons b, ih, ← compactChars_toLower a, same,
      compactChars_toLower b]
  | @putIn c cs cs' blank _ ih => rw [compactChars_cons c cs', compactChars_blank blank, ih]; rfl
  | @leaveOut c cs cs' blank _ ih => rw [compactChars_cons c cs, compactChars_blank blank, ih]; rfl

/-! ### The formula keyboard -/

theorem mem_formulaKeys (h : isFormulaChar c = true) :
    ∃ row ∈ Dialogue.formulaKeys, c.toString ∈ row := by
  have table : ∀ n < 0x80, isFormulaChar (Char.ofNat n) = true →
      ∃ row ∈ Dialogue.formulaKeys, (Char.ofNat n).toString ∈ row := by decide +kernel
  exact forall_ascii
    (p := fun c => isFormulaChar c = true → ∃ row ∈ Dialogue.formulaKeys, c.toString ∈ row) table
    (ascii_of_isFormulaChar h) h

theorem mem_formulaKeys_of_parse {raw : String} {f : Formula} (h : parse raw = .ok f) :
    ∀ c ∈ (compact raw).toList, ∃ row ∈ Dialogue.formulaKeys, c.toString ∈ row := by
  obtain ⟨t, derives⟩ := parse_eq_ok_iff.mp h
  rw [← derives.text_eq]
  exact fun c member => mem_formulaKeys (t.isFormulaChar_of_mem member)

/-- A raw text is parsed exactly if it is made of blanks and of characters for formulas, which no
others have for their lower case, and what is left without blanks and capitals has a derivation. Where
blanks stand and which letters are capitals changes nothing about the result. The compact form of a
formula can be typed on the formula keyboard. -/
theorem parse_accepts_raw (raw : String) :
    (∀ f, parse raw = .ok f ↔
        RawText raw.toList ∧ ∃ t : FormulaTree, t.Derives (plainChars raw.toList) f) ∧
      (∀ c, (∃ x ∈ lower c, isFormulaChar x = true) ↔ isRawChar c = true) ∧
      (∀ raw' : String, Respells raw.toList raw'.toList → parse raw' = parse raw) ∧
      ∀ f, parse raw = .ok f →
        ∀ c ∈ (compact raw).toList, ∃ row ∈ Dialogue.formulaKeys, c.toString ∈ row := by
  refine ⟨fun f => parse_eq_ok_iff_raw, fun c => exists_mem_lower_iff, ?_,
    fun f => mem_formulaKeys_of_parse⟩
  intro raw' respelled
  apply parse_congr
  rw [compact, compact, respelled.compactChars_eq]

theorem parse_accepts_raw_respelled :
    let f : Formula := ⟨.dice ⟨2, 6, true⟩, [⟨.minus, .fate 1⟩]⟩
    parse "2d6!-1f" = .ok f ∧ parse "\t2 D6! -\u20031F\n" = .ok f ∧
      ∀ c ∈ (compact "\t2 D6! -\u20031F\n").toList,
        ∃ row ∈ Dialogue.formulaKeys, c.toString ∈ row := by
  intro f
  have plain : parse "2d6!-1f" = .ok f := by decide +kernel
  have respelled : Respells "2d6!-1f".toList "\t2 D6! -\u20031F\n".toList :=
    .putIn rfl (.char rfl (.putIn rfl (.char rfl (.char rfl (.char rfl (.putIn rfl (.char rfl
      (.putIn rfl (.char rfl (.char rfl (.putIn rfl .nil)))))))))))
  obtain ⟨-, -, same, -⟩ := parse_accepts_raw "2d6!-1f"
  have spelled := (same "\t2 D6! -\u20031F\n" respelled).trans plain
  exact ⟨plain, spelled, (parse_accepts_raw "\t2 D6! -\u20031F\n").2.2.2 f spelled⟩

/-! ### Parsing compact forms -/

theorem parse_compact (raw : String) : parse (compact raw) = parse raw :=
  parse_congr (compact_compact raw)

/-- A compact form has neither blanks nor capitals and is its own compact form, and the compact form
of a text in two parts is that of its parts. A text and its compact form come to the same result: the
same formula, or the same rejection, which holds the compact form and is the rejection of that
again. -/
theorem parse_compact_stable (raw : String) :
    (∀ c ∈ (compact raw).toList, Settled c) ∧
      compact (compact raw) = compact raw ∧
      (∀ raw' : String, compact (raw ++ raw') = compact raw ++ compact raw') ∧
      parse (compact raw) = parse raw ∧
      ∀ r, parse raw = .error r → r.formula = compact raw ∧ parse r.formula = .error r := by
  have settled : ∀ c ∈ (compact raw).toList, Settled c := by
    rw [toList_compact]
    exact fun c => settled_of_mem_compactChars
  refine ⟨settled, compact_compact raw, compact_append raw, parse_compact raw, ?_⟩
  intro r rejected
  have formula : r.formula = compact raw := by
    obtain ⟨-, same⟩ := parse_eq_error_iff.mp rejected
    rw [same]
  exact ⟨formula, by rw [formula, parse_compact, rejected]⟩

theorem parse_compact_stable_dotted :
    let r : Rejection := ⟨"2di\u03071", ⟨2, 3, some 'i', []⟩⟩
    parse "2 D\u0130 1" = .error r ∧ parse "2di\u03071" = .error r := by
  intro r
  have rejected : parse "2 D\u0130 1" = .error r := by decide +kernel
  obtain ⟨-, -, -, -, again⟩ := parse_compact_stable "2 D\u0130 1"
  exact ⟨rejected, (again r rejected).2⟩

end TabletopDice.Grammar
