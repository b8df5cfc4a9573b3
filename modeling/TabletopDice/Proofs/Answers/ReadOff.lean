import Mathlib.Data.List.Forall2
import TabletopDice.Proofs.Grammar.Printing

/-!
# Reading items off a text

Items that can be read off the front of a text can be read off with separators between them, as long
as no separator is a mark that ends the list: `ReadOff.intercalate`. Numbers end before a character
that is no digit.
-/

namespace TabletopDice

open Grammar

/-- Items that satisfy `P` can be read off the front of a text as far as `Same` tells them apart, if
what follows them satisfies `Ends`. -/
def ReadOff {α : Type} (text : α → List Char) (P : α → Prop) (Ends : List Char → Prop)
    (Same : α → α → Prop) : Prop :=
  ∀ ⦃a b : α⦄ ⦃x y : List Char⦄, P a → P b → Ends x → Ends y → text a ++ x = text b ++ y →
    Same a b ∧ x = y

def Ahead (marks : List String) (cs : List Char) : Prop :=
  ∃ mark ∈ marks, mark.toList <+: cs

theorem Ahead.noDigit {marks : List String} {cs : List Char} (h : Ahead marks cs)
    (other : ∀ mark ∈ marks, mark.toList.head?.map Char.isDigit = some false) : NoDigit cs := by
  obtain ⟨mark, member, rest, rfl⟩ := h
  have front := other mark member
  cases chars : mark.toList with
  | nil => simp [chars] at front
  | cons c more =>
    rw [chars, List.head?_cons, Option.map_some, Option.some.injEq] at front
    exact noDigit_cons.mpr front

section Joined

variable {α : Type} {text : α → List Char} {P : α → Prop} {Same : α → α → Prop}
  {marks : List String} {sep : String}

/-- Items after the first one, each behind a separator. -/
def moreText (text : α → List Char) (sep : String) (l : List α) : List Char :=
  l.flatMap fun a => sep.toList ++ text a

theorem intercalate_cons (a : α) (l : List α) :
    sep.toList.intercalate ((a :: l).map text) = text a ++ moreText text sep l := by
  induction l generalizing a with
  | nil => simp [moreText]
  | cons b l ih =>
    rw [List.map_cons, List.map_cons, List.intercalate_cons_cons, ← List.map_cons, ih]
    simp [moreText]

theorem ahead_moreText (l : List α) {x : List Char} (h : Ahead marks x) :
    Ahead (sep :: marks) (moreText text sep l ++ x) := by
  cases l with
  | nil =>
    obtain ⟨mark, member, front⟩ := h
    exact ⟨mark, List.mem_cons_of_mem _ member, front⟩
  | cons a l => exact ⟨sep, List.mem_cons_self, by simp [moreText]⟩

theorem Ahead.ne_sep_append (apart : ∀ mark ∈ marks, mark.length = sep.length ∧ mark ≠ sep)
    {x : List Char} (h : Ahead marks x) (y : List Char) : x ≠ sep.toList ++ y := by
  rintro rfl
  obtain ⟨mark, member, front⟩ := h
  obtain ⟨length, ne⟩ := apart mark member
  -- Two texts of one length that stand in the same place are the same.
  rw [← String.length_toList, ← String.length_toList] at length
  have inside : mark.toList <+: sep.toList :=
    List.prefix_of_prefix_length_le front (List.prefix_append _ _) (Nat.le_of_eq length)
  exact ne (String.toList_inj.mp (inside.eq_of_length length))

theorem ReadOff.more (item : ReadOff text P (Ahead (sep :: marks)) Same)
    (apart : ∀ mark ∈ marks, mark.length = sep.length ∧ mark ≠ sep) {l l' : List α}
    {x y : List Char} (hl : ∀ a ∈ l, P a) (hl' : ∀ a ∈ l', P a) (hx : Ahead marks x)
    (hy : Ahead marks y) (same : moreText text sep l ++ x = moreText text sep l' ++ y) :
    List.Forall₂ Same l l' ∧ x = y := by
  induction l generalizing l' with
  | nil =>
    cases l' with
    | nil => exact ⟨.nil, same⟩
    | cons b l' =>
      simp only [moreText, List.flatMap_cons, List.flatMap_nil, List.nil_append,
        List.append_assoc] at same
      exact absurd same (hx.ne_sep_append apart _)
  | cons a l ih =>
    rw [List.forall_mem_cons] at hl
    cases l' with
    | nil =>
      simp only [moreText, List.flatMap_cons, List.flatMap_nil, List.nil_append,
        List.append_assoc] at same
      exact absurd same.symm (hy.ne_sep_append apart _)
    | cons b l' =>
      rw [List.forall_mem_cons] at hl'
      simp only [moreText, List.flatMap_cons, List.append_assoc] at same
      have items := List.append_cancel_left same
      obtain ⟨first, rest⟩ :=
        item hl.1 hl'.1 (ahead_moreText l hx) (ahead_moreText l' hy) items
      obtain ⟨others, ends⟩ := ih hl.2 hl'.2 rest
      exact ⟨.cons first others, ends⟩

/-- Items can be read off with separators between them, if they can be read off in front of these
and of the marks that end the list. -/
theorem ReadOff.intercalate (item : ReadOff text P (Ahead (sep :: marks)) Same)
    (apart : ∀ mark ∈ marks, mark.length = sep.length ∧ mark ≠ sep) :
    ReadOff (fun l => sep.toList.intercalate (l.map text)) (fun l => l ≠ [] ∧ ∀ a ∈ l, P a)
      (Ahead marks) (List.Forall₂ Same) := by
  rintro l l' x y ⟨filled, hl⟩ ⟨filled', hl'⟩ hx hy same
  cases l with
  | nil => exact absurd rfl filled
  | cons a l =>
    cases l' with
    | nil => exact absurd rfl filled'
    | cons b l' =>
      rw [List.forall_mem_cons] at hl hl'
      simp only [intercalate_cons, List.append_assoc] at same
      obtain ⟨first, rest⟩ :=
        item hl.1 hl'.1 (ahead_moreText l hx) (ahead_moreText l' hy) same
      obtain ⟨others, ends⟩ := item.more apart hl.2 hl'.2 hx hy rest
      exact ⟨.cons first others, ends⟩

end Joined

/-! ### Numbers -/

theorem ReadOff.ahead {α : Type} {text : α → List Char} {P : α → Prop}
    {Ends Ends' : List Char → Prop} {Same : α → α → Prop} (h : ReadOff text P Ends Same)
    (ends : ∀ cs, Ends' cs → Ends cs) : ReadOff text P Ends' Same :=
  fun _ _ _ _ ha hb hx hy same => h ha hb (ends _ hx) (ends _ hy) same

theorem toList_ofNat (n : Nat) : (Text.Decimal.ofNat n).toList = (Numeral.ofNat n).run := by
  simp [Text.Decimal.ofNat, Numeral.ofNat]

theorem readOff_ofNat :
    ReadOff (fun n => (Text.Decimal.ofNat n).toList) (fun _ => True) NoDigit (· = ·) := by
  intro m n x y _ _ hx hy same
  simp only [toList_ofNat] at same
  obtain ⟨numerals, rest⟩ := Numeral.append_inj hx hy same
  have values := congrArg Numeral.value numerals
  rw [Numeral.value_ofNat, Numeral.value_ofNat] at values
  exact ⟨values, rest⟩

theorem readOff_face :
    ReadOff (fun face : UInt16 => (Text.Decimal.ofNat face.toNat).toList) (fun _ => True) NoDigit
      (· = ·) := by
  intro m n x y _ _ hx hy same
  obtain ⟨values, rest⟩ := readOff_ofNat trivial trivial hx hy same
  exact ⟨UInt16.toNat_inj.mp values, rest⟩

theorem toList_ofInt_negSucc (n : Nat) :
    (Text.Decimal.ofInt (.negSucc n)).toList = '-' :: (Text.Decimal.ofNat (n + 1)).toList := by
  simp [Text.Decimal.ofInt]

theorem ofNat_eq_cons (n : Nat) :
    ∃ c cs, (Text.Decimal.ofNat n).toList = c :: cs ∧ c.isDigit = true := by
  rw [toList_ofNat]
  cases run : (Numeral.ofNat n).run with
  | nil => exact absurd run (Numeral.ofNat n).ne_nil
  | cons c cs => exact ⟨c, cs, rfl, (Numeral.ofNat n).isDigit c (run ▸ List.mem_cons_self)⟩

theorem ofNat_append_ne (n : Nat) (x y : List Char) :
    (Text.Decimal.ofNat n).toList ++ x ≠ '-' :: y := by
  obtain ⟨c, cs, digits, digit⟩ := ofNat_eq_cons n
  rw [digits]
  rintro ⟨⟩
  cases digit

theorem readOff_ofInt :
    ReadOff (fun n => (Text.Decimal.ofInt n).toList) (fun _ => True) NoDigit (· = ·) := by
  intro m n x y _ _ hx hy same
  cases m with
  | ofNat m =>
    cases n with
    | ofNat n =>
      obtain ⟨rfl, rest⟩ := readOff_ofNat trivial trivial hx hy same
      exact ⟨rfl, rest⟩
    | negSucc n =>
      simp only [toList_ofInt_negSucc] at same
      exact (ofNat_append_ne m _ _ same).elim
  | negSucc m =>
    cases n with
    | ofNat n =>
      simp only [toList_ofInt_negSucc] at same
      exact (ofNat_append_ne n _ _ same.symm).elim
    | negSucc n =>
      simp only [toList_ofInt_negSucc] at same
      obtain ⟨values, rest⟩ := readOff_ofNat trivial trivial hx hy (List.cons.inj same).2
      exact ⟨by omega, rest⟩

end TabletopDice
