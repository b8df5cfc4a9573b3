import TabletopDice.Throw.Dice

/-!
# Listings of faces

A limit shortens the list of faces in the text of a throw and adds how many are left out. The text
is the list of these items, except that a limit of zero leaves a separator in front of the only one:
`describe_listed`.
-/

namespace TabletopDice.DiceThrow

variable {t : DiceThrow} {limit : Option Nat} {n : Nat}

def faceTexts (faces : List UInt16) : List String :=
  faces.map fun face => Text.Decimal.ofNat face.toNat

/-- The first faces of a throw, up to the limit, and after them how many there are beyond it. -/
def items (t : DiceThrow) : Option Nat → List String
  | none => faceTexts t.faces
  | some n =>
    faceTexts (t.faces.take n) ++
      if n < t.faces.length then [Text.Decimal.ofNat (t.faces.length - n) ++ " more..."] else []

def kind (t : DiceThrow) : String :=
  " [d" ++ Text.Decimal.ofNat t.dice.sides.toNat ++ (if t.dice.explode then "!" else "") ++ "]"

def listing (t : DiceThrow) (limit : Option Nat) : String :=
  String.intercalate ", " (t.items limit) ++ t.kind

/-- Whether there are faces and none of them is shown. -/
def HidesAll (t : DiceThrow) (limit : Option Nat) : Prop :=
  limit = some 0 ∧ t.faces ≠ []

theorem faceTexts_eq_nil_iff {faces : List UInt16} : faceTexts faces = [] ↔ faces = [] :=
  List.map_eq_nil_iff

theorem describe_none (t : DiceThrow) : t.describe none = t.listing none := by
  simp [describe, listing, items, faceTexts, kind, Dice.mark, ← String.append_assoc]

/-! ### Limits that leave out nothing -/

theorem describe_of_le (enough : t.faces.length ≤ n) : t.describe (some n) = t.describe none := by
  have hidden : t.faces.length - n = 0 := Nat.sub_eq_zero_of_le enough
  simp [describe, hidden, List.take_of_length_le enough]

theorem listing_of_le (enough : t.faces.length ≤ n) : t.listing (some n) = t.listing none := by
  have whole : ¬ n < t.faces.length := Nat.not_lt.mpr enough
  simp only [listing, items, if_neg whole, List.take_of_length_le enough, List.append_nil]

/-! ### Limits that leave out faces -/

theorem describe_of_lt (short : n < t.faces.length) :
    t.describe (some n) = String.intercalate ", " (faceTexts (t.faces.take n)) ++ ", " ++
      (Text.Decimal.ofNat (t.faces.length - n) ++ " more...") ++ t.kind := by
  have hidden : t.faces.length - n ≠ 0 := Nat.sub_ne_zero_of_lt short
  simp [describe, hidden, faceTexts, kind, Dice.mark, ← String.append_assoc]

theorem items_of_lt (short : n < t.faces.length) :
    t.items (some n) = faceTexts (t.faces.take n) ++
      [Text.Decimal.ofNat (t.faces.length - n) ++ " more..."] := by
  rw [items, if_pos short]

theorem describe_of_shown (short : n < t.faces.length) (shown : n ≠ 0) :
    t.describe (some n) = t.listing (some n) := by
  have front : faceTexts (t.faces.take n) ≠ [] := by
    intro nothing
    rcases List.take_eq_nil_iff.mp (faceTexts_eq_nil_iff.mp nothing) with zero | empty
    · exact shown zero
    · rw [empty] at short
      exact absurd short (Nat.not_lt_zero n)
  rw [describe_of_lt short, listing, items_of_lt short,
    String.intercalate_append_of_ne_nil front (List.cons_ne_nil _ _),
    String.intercalate_singleton]

/-- The separator stands in front of the number that is left out, whether or not a face does. -/
theorem describe_of_hidesAll (h : t.HidesAll limit) :
    t.describe limit = ", " ++ t.listing limit := by
  obtain ⟨rfl, rolled⟩ := h
  have short : 0 < t.faces.length := List.length_pos_iff.mpr rolled
  rw [describe_of_lt short, listing, items_of_lt short, List.take_zero]
  simp [faceTexts, String.append_assoc]

theorem describe_of_not_hidesAll (h : ¬ t.HidesAll limit) : t.describe limit = t.listing limit := by
  cases limit with
  | none => exact t.describe_none
  | some n =>
    by_cases short : n < t.faces.length
    · refine describe_of_shown short fun zero => h ⟨congrArg some zero, ?_⟩
      exact List.ne_nil_of_length_pos (Nat.zero_lt_of_lt short)
    · have enough := Nat.not_lt.mp short
      rw [describe_of_le enough, listing_of_le enough, t.describe_none]

theorem ne_separator_append (s : String) : s ≠ ", " ++ s := by
  intro same
  have lengths := congrArg String.length same
  rw [String.length_append] at lengths
  have two : (", " : String).length = 2 := rfl
  omega

/-- The items are the faces shown and the number of all the others. -/
structure Accounted (t : DiceThrow) (n : Nat) (shown : List UInt16) (hidden : Nat) : Prop where
  starts : shown <+: t.faces
  length : shown.length = min n t.faces.length
  all : shown.length + hidden = t.faces.length
  items : t.items (some n) = faceTexts shown ++
    if hidden = 0 then [] else [Text.Decimal.ofNat hidden ++ " more..."]

theorem accounted (t : DiceThrow) (n : Nat) :
    t.Accounted n (t.faces.take n) (t.faces.length - n) where
  starts := List.take_prefix n t.faces
  length := List.length_take
  all := by
    rw [List.length_take]
    omega
  items := by
    by_cases short : n < t.faces.length
    · rw [items_of_lt short, if_neg (Nat.sub_ne_zero_of_lt short)]
    · rw [items, if_neg short, if_pos (Nat.sub_eq_zero_of_le (Nat.not_lt.mp short))]

/-- The text of a throw is the list of its items, unless all faces are left out; then a separator
stands in front of the list. The faces shown and those counted are all of them, and a limit that is
large enough changes nothing. -/
theorem describe_listed (t : DiceThrow) :
    (∀ limit, t.describe limit = t.listing limit ↔ ¬ t.HidesAll limit) ∧
      (∀ limit, t.HidesAll limit → t.describe limit = ", " ++ t.listing limit) ∧
      (∀ n, ∃ shown hidden, t.Accounted n shown hidden) ∧
      ∀ n, t.faces.length ≤ n → t.describe (some n) = t.describe none := by
  refine ⟨?_, fun _ => describe_of_hidesAll, fun n => ⟨_, _, t.accounted n⟩,
    fun _ => describe_of_le⟩
  intro limit
  constructor
  · intro listed hides
    rw [describe_of_hidesAll hides] at listed
    exact ne_separator_append _ listed.symm
  · exact describe_of_not_hidesAll

theorem describe_listed_exploding :
    let t : DiceThrow := ⟨⟨2, 6, true⟩, [6, 6, 3, 4], false⟩
    t.describe (some 2) = "6, 6, 2 more... [d6!]" ∧ t.describe (some 4) = "6, 6, 3, 4 [d6!]" := by
  intro t
  have two : t.listing (some 2) = "6, 6, 2 more... [d6!]" := by decide +kernel
  have all : t.describe none = "6, 6, 3, 4 [d6!]" := by decide +kernel
  have shown : ¬ t.HidesAll (some 2) := by
    intro hides
    cases hides.1
  obtain ⟨listed, -, -, enough⟩ := t.describe_listed
  exact ⟨((listed (some 2)).mpr shown).trans two, (enough 4 (by decide)).trans all⟩

theorem describe_not_listed_at_zero : ¬ ∀ t limit, describe t limit = listing t limit := by
  intro all
  have text : describe ⟨⟨1, 4, true⟩, [4, 4, 4, 2], false⟩ (some 0) = ", 4 more... [d4!]" := by
    decide +kernel
  have list : listing ⟨⟨1, 4, true⟩, [4, 4, 4, 2], false⟩ (some 0) = "4 more... [d4!]" := by
    decide +kernel
  have same := all ⟨⟨1, 4, true⟩, [4, 4, 4, 2], false⟩ (some 0)
  rw [text, list] at same
  exact absurd same (by decide)

end TabletopDice.DiceThrow
