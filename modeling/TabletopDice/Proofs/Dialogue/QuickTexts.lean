import TabletopDice.Dialogue.QuickChoice
import TabletopDice.Proofs.Grammar.Derivation

/-!
# The texts of quick rolls

`Names` lists the texts of each quick roll, and no others are understood: `ofText?_eq_some_iff`.
-/

namespace TabletopDice.Dialogue

open Grammar Text

variable {cs : List Char} {max n : Nat} {text : String}

def plusText (plus : Bool) : List Char :=
  if plus then ['+'] else []

theorem digits?_eq_some_iff :
    Decimal.digits? cs = some n ↔ ∃ number : Numeral, number.run = cs ∧ number.value = n := by
  simp only [Decimal.digits?, Option.ite_none_right_eq_some, Option.some.injEq, List.all_eq_true]
  constructor
  · rintro ⟨⟨ne, digits⟩, rfl⟩
    exact ⟨⟨⟨cs, digits⟩, ne⟩, rfl, rfl⟩
  · rintro ⟨number, rfl, rfl⟩
    exact ⟨⟨number.ne_nil, number.isDigit⟩, rfl⟩

theorem unsigned?_eq_some_iff :
    Decimal.unsigned? max cs = some n ↔
      ∃ plus, ∃ number : Numeral,
        plusText plus ++ number.run = cs ∧ number.value = n ∧ n ≤ max := by
  simp only [Decimal.unsigned?, Option.filter_eq_some_iff, decide_eq_true_eq]
  constructor
  · rintro ⟨read, le⟩
    split at read
    next rest =>
      obtain ⟨number, rfl, rfl⟩ := digits?_eq_some_iff.mp read
      exact ⟨true, number, rfl, rfl, le⟩
    next =>
      obtain ⟨number, rfl, rfl⟩ := digits?_eq_some_iff.mp read
      exact ⟨false, number, rfl, rfl, le⟩
  · rintro ⟨plus, number, rfl, rfl, le⟩
    refine ⟨?_, le⟩
    cases plus with
    | true => exact digits?_eq_some_iff.mpr ⟨number, rfl, rfl⟩
    | false =>
      have bare : plusText false ++ number.run = number.run := rfl
      rw [bare]
      split
      next rest run => exact absurd run (run_ne_cons number rfl rest)
      next => exact digits?_eq_some_iff.mpr ⟨number, rfl, rfl⟩

namespace QuickChoice

/-- The text names the choice. A die has 1 to 65535 sides; zeros and a `+` may stand before them. -/
inductive Names : String → QuickChoice → Prop
  | fate {text : String} (h : text ∈ fateTexts) : Names text fate
  | die (plus : Bool) (number : Numeral) (range : number.Counts) :
      Names (String.ofList ('1' :: 'd' :: (plusText plus ++ number.run)))
        (die (.ofNat number.value))

theorem sides?_eq_some_iff {sides : UInt16} :
    sides? text = some sides ↔
      ∃ plus, ∃ number : Numeral, number.Counts ∧ UInt16.ofNat number.value = sides ∧
        '1' :: 'd' :: (plusText plus ++ number.run) = text.toList := by
  have size : UInt16.size - 1 = 65535 := rfl
  unfold sides?
  constructor
  · intro h
    split at h
    next digits same =>
      simp only [Option.map_eq_some_iff, Option.filter_eq_some_iff, decide_eq_true_eq] at h
      obtain ⟨value, ⟨read, pos⟩, rfl⟩ := h
      obtain ⟨plus, number, rfl, rfl, le⟩ := unsigned?_eq_some_iff.mp read
      exact ⟨plus, number, ⟨pos, by omega⟩, rfl, same.symm⟩
    next => cases h
  · rintro ⟨plus, number, ⟨pos, le⟩, rfl, same⟩
    rw [← same]
    simp only [Option.map_eq_some_iff, Option.filter_eq_some_iff, decide_eq_true_eq]
    exact ⟨_, ⟨unsigned?_eq_some_iff.mpr ⟨plus, number, rfl, rfl, by omega⟩, pos⟩, rfl⟩

theorem names_fate_iff : Names text fate ↔ text ∈ fateTexts := by
  constructor
  · intro h
    cases h with
    | fate h => exact h
  · exact .fate

theorem names_die_iff {sides : UInt16} : Names text (.die sides) ↔ sides? text = some sides := by
  rw [sides?_eq_some_iff]
  constructor
  · intro h
    cases h with
    | die plus number range => exact ⟨plus, number, range, rfl, by simp⟩
  · rintro ⟨plus, number, range, rfl, same⟩
    rw [← String.ofList_toList (s := text), ← same]
    exact .die plus number range

theorem sides?_of_mem_fateTexts (h : text ∈ fateTexts) : sides? text = none := by
  simp only [fateTexts, List.mem_cons, List.not_mem_nil, or_false] at h
  rcases h with rfl | rfl
  · rfl
  · rfl

theorem ofText?_eq_some_iff {choice : QuickChoice} :
    ofText? text = some choice ↔ Names (trim text) choice := by
  unfold ofText?
  by_cases fates : trim text ∈ fateTexts
  · rw [if_pos (List.contains_iff_mem.mpr fates)]
    cases choice with
    | fate => simp [names_fate_iff, fates]
    | die sides => simp [names_die_iff, sides?_of_mem_fateTexts fates]
  · rw [if_neg (mt List.contains_iff_mem.mp fates)]
    cases choice with
    | fate => simp [names_fate_iff, fates]
    | die sides => simp [names_die_iff]

theorem ofText?_eq_none_iff : ofText? text = none ↔ ∀ choice, ¬ Names (trim text) choice := by
  simp only [← ofText?_eq_some_iff, Option.eq_none_iff_forall_ne_some, ne_eq]

end QuickChoice

end TabletopDice.Dialogue
