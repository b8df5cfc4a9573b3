import TabletopDice.Formula.Compact

/-!
# The compact form is stable

Lower case has no other lower case, and is no blank. So a text in compact form is its own compact
form: `settled_of_mem_compactChars` and `compactChars_of_settled`.
-/

namespace TabletopDice.Grammar

open Formula Text

/-- A character that compact forms keep as it is. -/
def Settled (c : Char) : Prop :=
  isBlank c = false ∧ lower c = [c]

instance (c : Char) : Decidable (Settled c) :=
  inferInstanceAs (Decidable (_ ∧ _))

theorem compactChars_of_settled {cs : List Char} (h : ∀ c ∈ cs, Settled c) :
    compactChars cs = cs := by
  induction cs with
  | nil => rfl
  | cons c cs ih =>
    obtain ⟨blank, same⟩ := h c List.mem_cons_self
    have rest := ih fun x member => h x (List.mem_cons_of_mem c member)
    rw [compactChars] at rest ⊢
    rw [List.filter_cons_of_pos (by simp [blank]), List.flatMap_cons, same, rest]
    rfl

/-! ### The lower case of a range -/

section Ranges

variable {r r' : CaseRange} {n : Nat}

def low (r : CaseRange) : Nat :=
  (r.first + r.shift).toNat

def high (r : CaseRange) : Nat :=
  (r.last + r.shift).toNat

/-- The lower case of a range is `k`, or lies beyond ASCII and apart from blanks, surrogates and
U+0130. -/
def clear (r : CaseRange) : Bool :=
  (Nat.beq (low r) 0x6B && Nat.beq (high r) 0x6B) ||
    (Nat.blt 0xA0 (low r) && (Nat.blt (high r) 0x110000 &&
      [(0x130, 0x130), (0x1680, 0x1680), (0x2000, 0x205F), (0x3000, 0x3000), (0xD800, 0xDFFF)].all
        fun gap => Nat.blt (high r) gap.1 || Nat.blt gap.2 (low r)))

/-- No lower case of `r` is covered by `r'`: the two lie apart, or fill each other's gaps. -/
def avoids (r r' : CaseRange) : Bool :=
  Nat.blt (high r) r'.first || (Nat.blt r'.last (low r) ||
    ((Nat.beq r.step 2 || Nat.beq r.first r.last) &&
      (Nat.beq r'.step 2 && Nat.beq ((low r + r'.first) % 2) 1)))

theorem caseRanges_clear :
    (caseRanges.all fun r => clear r && caseRanges.all (avoids r)) = true := by
  decide +kernel

theorem covers_iff : r.covers n = true ↔ r.first ≤ n ∧ n ≤ r.last ∧ (n - r.first) % r.step = 0 := by
  simp [CaseRange.covers, and_assoc]

theorem not_covers_of_avoids (positive : 0 < low r) (h : avoids r r' = true)
    (covered : r.covers n = true) : r'.covers (n + r.shift).toNat = false := by
  rw [Bool.eq_false_iff]
  intro again
  obtain ⟨lower, upper, stride⟩ := covers_iff.mp covered
  obtain ⟨lower', upper', stride'⟩ := covers_iff.mp again
  simp only [avoids, low, high, Bool.or_eq_true, Bool.and_eq_true, Nat.blt_eq, Nat.beq_eq]
    at h positive
  rcases h with apart | apart | ⟨fine | single, step, parity⟩
  · omega
  · omega
  -- Both ranges take every other character, from places an odd number apart.
  · rw [fine] at stride
    rw [step] at stride'
    omega
  · rw [step] at stride'
    omega

theorem low_le_high (covered : r.covers n = true) :
    low r ≤ (n + r.shift).toNat ∧ (n + r.shift).toNat ≤ high r := by
  obtain ⟨lower, upper, -⟩ := covers_iff.mp covered
  simp only [low, high]
  omega

theorem lowered_of_covers (member : r ∈ caseRanges) (covered : r.covers n = true) :
    0 < low r ∧ ((n + r.shift).toNat = 0x6B ∨
      0xA0 < (n + r.shift).toNat ∧ (n + r.shift).toNat ≠ 0x130 ∧
        (Char.ofNat (n + r.shift).toNat).toNat = (n + r.shift).toNat ∧
        isBlank (Char.ofNat (n + r.shift).toNat) = false) := by
  have checked := List.all_eq_true.mp caseRanges_clear r member
  have isClear := ((Bool.and_eq_true _ _).mp checked).1
  obtain ⟨above, below⟩ := low_le_high covered
  generalize (n + r.shift).toNat = m at above below ⊢
  simp only [clear, List.all_cons, List.all_nil, Bool.or_eq_true, Bool.and_eq_true, Nat.blt_eq,
    Nat.beq_eq, and_true] at isClear
  rcases isClear with ⟨isLow, isHigh⟩ | ⟨beyond, valid, gaps⟩
  · exact ⟨by omega, .inl (by omega)⟩
  · have number : (Char.ofNat m).toNat = m := by
      rw [Char.ofNat, dif_pos (by unfold Nat.isValidChar; omega)]
      rfl
    refine ⟨by omega, .inr ⟨by omega, by omega, number, ?_⟩⟩
    simp only [isBlank, number]
    simp
    omega

theorem settled_of_covers (member : r ∈ caseRanges) (covered : r.covers n = true) :
    Settled (Char.ofNat (n + r.shift).toNat) := by
  obtain ⟨positive, isK | ⟨beyond, undotted, number, blank⟩⟩ := lowered_of_covers member covered
  · rw [isK]
    exact ⟨by decide, by decide⟩
  · have checked := List.all_eq_true.mp caseRanges_clear r member
    have apart := ((Bool.and_eq_true _ _).mp checked).2
    have free : caseRanges.find? (·.covers (n + r.shift).toNat) = none := by
      rw [List.find?_eq_none]
      intro r' member'
      rw [Bool.not_eq_true]
      exact not_covers_of_avoids positive (List.all_eq_true.mp apart r' member') covered
    refine ⟨blank, ?_⟩
    rw [lower, number, if_neg (by omega), if_neg undotted, free]

end Ranges

/-! ### Lower case of lower case -/

theorem forall_ascii {p : Char → Prop} (table : ∀ n < 0x80, p (Char.ofNat n)) {c : Char}
    (ascii : c.toNat < 0x80) : p c := by
  rw [← Char.ofNat_toNat c]
  exact table c.toNat ascii

theorem settled_toLower {c : Char} (ascii : c.toNat < 0x80) :
    isBlank c = false → Settled c.toLower := by
  have table : ∀ n < 0x80, isBlank (Char.ofNat n) = false → Settled (Char.ofNat n).toLower := by
    decide +kernel
  exact forall_ascii (p := fun c => isBlank c = false → Settled c.toLower) table ascii

/-- Where the lower case of a character comes from. -/
theorem lower_cases (c : Char) :
    c.toNat < 0x80 ∧ lower c = [c.toLower] ∨
      ¬ c.toNat < 0x80 ∧ (lower c = ['i', '\u0307'] ∨ lower c = [c] ∨
        ∃ r ∈ caseRanges, r.covers c.toNat = true ∧
          lower c = [Char.ofNat (c.toNat + r.shift).toNat]) := by
  by_cases ascii : c.toNat < 0x80
  · exact .inl ⟨ascii, by rw [lower, if_pos ascii]⟩
  refine .inr ⟨ascii, ?_⟩
  by_cases dotted : c.toNat = 0x130
  · exact .inl (by rw [lower, if_neg ascii, if_pos dotted])
  cases found : caseRanges.find? (·.covers c.toNat) with
  | some r =>
    have covered := List.find?_some found
    refine .inr (.inr ⟨r, List.mem_of_find?_eq_some found, covered, ?_⟩)
    rw [lower, if_neg ascii, if_neg dotted, found]
  | none => exact .inr (.inl (by rw [lower, if_neg ascii, if_neg dotted, found]))

theorem settled_of_mem_lower {c x : Char} (blank : isBlank c = false) (h : x ∈ lower c) :
    Settled x := by
  obtain ⟨ascii, eq⟩ | ⟨-, eq | eq | ⟨r, member, covered, eq⟩⟩ := lower_cases c
  · rw [eq, List.mem_singleton] at h
    rw [h]
    exact settled_toLower ascii blank
  · rw [eq, List.mem_cons, List.mem_singleton] at h
    rcases h with rfl | rfl
    · decide
    · decide
  · rw [eq, List.mem_singleton] at h
    rw [h]
    exact ⟨blank, eq⟩
  · rw [eq, List.mem_singleton] at h
    rw [h]
    exact settled_of_covers member covered

theorem settled_of_mem_compactChars {cs : List Char} {c : Char} (h : c ∈ compactChars cs) :
    Settled c := by
  obtain ⟨x, kept, member⟩ := List.mem_flatMap.mp h
  have blank := (List.mem_filter.mp kept).2
  exact settled_of_mem_lower (by simpa using blank) member

theorem compact_compact (raw : String) : compact (compact raw) = compact raw := by
  rw [compact, compact, String.toList_ofList,
    compactChars_of_settled fun c => settled_of_mem_compactChars]

theorem compact_append (a b : String) : compact (a ++ b) = compact a ++ compact b := by
  rw [compact, String.toList_append, compactChars_append, String.ofList_append, ← compact, ← compact]

/-! ### Blanks around a text -/

theorem filter_dropWhile_isBlank (cs : List Char) :
    (cs.dropWhile isBlank).filter (!isBlank ·) = cs.filter (!isBlank ·) := by
  induction cs with
  | nil => rfl
  | cons c cs ih =>
    by_cases blank : isBlank c = true
    · rw [List.dropWhile_cons_of_pos blank, ih, List.filter_cons_of_neg (by simp [blank])]
    · rw [List.dropWhile_cons_of_neg blank]

theorem compact_trim (text : String) : compact (trim text) = compact text := by
  have inner : (trimChars text.toList).filter (!isBlank ·) = text.toList.filter (!isBlank ·) := by
    rw [trimChars, List.filter_reverse, filter_dropWhile_isBlank, List.filter_reverse,
      List.reverse_reverse, filter_dropWhile_isBlank]
  rw [compact, compact, trim, String.toList_ofList, compactChars, compactChars, inner]

end TabletopDice.Grammar
