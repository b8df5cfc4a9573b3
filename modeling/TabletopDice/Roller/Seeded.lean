import TabletopDice.Roller.Basic

/-!
# The seeded roller

A 64-bit counter walks with a fixed odd stride, and each of its values is mixed into a random word.
A word that would favour some values is passed over. `firstAccepted` ends because the counter
reaches every value, among them `anchor`, whose word is never passed over.
-/

namespace TabletopDice

structure Seeded where
  counter : UInt64

namespace Seeded

def stride : UInt64 := 0x2d358dccaa6c78a5

/-- The inverse of `stride` modulo 2^64. -/
def strideInverse : UInt64 := 0x32e25c49d2beaf2d

/-- The random word of a counter: the low and the high half of a 128-bit product, combined. -/
def mix (counter : UInt64) : UInt64 :=
  let product := counter.toNat * (counter ^^^ 0x8bb84b93962eacc9).toNat
  UInt64.ofNat product ^^^ UInt64.ofNat (product >>> 64)

/-- A counter whose word every die with sides and every unit draw accepts. -/
def anchor : UInt64 := 99634

/-- How many steps the counter is away from `anchor`. -/
def stepsToAnchor (counter : UInt64) : Nat :=
  ((anchor - counter) * strideInverse).toNat

theorem stepsToAnchor_step {counter : UInt64} (h : counter ≠ anchor) :
    stepsToAnchor (counter + stride) < stepsToAnchor counter := by
  have inverse : stride * strideInverse = 1 := by decide
  have step : (anchor - (counter + stride)) * strideInverse =
      (anchor - counter) * strideInverse - 1 := by grind
  have ne : (anchor - counter) * strideInverse ≠ 0 := by
    intro zero
    have : (anchor - counter) * strideInverse * stride = 0 := by rw [zero]; simp
    grind
  rw [stepsToAnchor, stepsToAnchor, step]
  generalize (anchor - counter) * strideInverse = x at ne
  have : x.toNat ≠ 0 := fun z => ne (UInt64.toNat_inj.mp z)
  rw [UInt64.toNat_sub]
  have := x.toNat_lt
  simp
  omega

/-- The first of the following words that `pick?` accepts, as what it picks, and the generator
after it. -/
def firstAccepted {α : Type} (pick? : UInt64 → Option α)
    (accepts : (pick? (mix anchor)).isSome = true) (g : Seeded) : α × Seeded :=
  match _h : pick? (mix (g.counter + stride)) with
  | some a => (a, ⟨g.counter + stride⟩)
  | none => firstAccepted pick? accepts ⟨g.counter + stride⟩
  termination_by stepsToAnchor (g.counter + stride)
  decreasing_by
    apply stepsToAnchor_step
    intro h
    simp [h ▸ _h] at accepts

/-- The face of a die that the low half of a word gives. The products of all halves with `sides`
fall into blocks of 2^32, one per face, and the first few of a block are passed over so that each
face is as likely as the others. -/
def face? (sides : UInt16) (word : UInt64) : Option UInt16 :=
  let n := sides.toNat
  let product := word.toNat % UInt32.size * n
  if product % UInt32.size < (UInt32.size - n) % n then none
  else some (UInt16.ofNat (product / UInt32.size + 1))

/-- The least 63-bit number that rounds up to 2^63. -/
def unitEnd : Nat := 0x7FFFFFFFFFFFFE00

/-- The number of the unit interval that the upper 63 bits of a word give. The few words whose
number would round up to one are passed over. -/
def unit? (word : UInt64) : Option UnitDraw :=
  if word.toNat / 2 < unitEnd then
    some (.ofFloat ((word >>> 1).toFloat / 9223372036854775808.0))
  else none

theorem face?_anchor {sides : UInt16} (h : sides ≠ 0) : (face? sides (mix anchor)).isSome = true := by
  have word : (mix anchor).toNat % UInt32.size = 20076 := by decide +kernel
  have lt := sides.toNat_lt
  have pos : 0 < sides.toNat :=
    Nat.pos_of_ne_zero fun zero => h (UInt16.toNat_inj.mp zero)
  have := Nat.mod_lt (UInt32.size - sides.toNat) pos
  have size : UInt32.size = 4294967296 := rfl
  rw [face?, word, if_neg]
  · rfl
  · rw [Nat.mod_eq_of_lt (by omega)]
    omega

theorem unit?_anchor : (unit? (mix anchor)).isSome = true := by
  have word : (mix anchor).toNat / 2 < unitEnd := by decide +kernel
  rw [unit?, if_pos word]
  rfl

/-- A die without sides shows 0 and needs no word. -/
def rollDie (sides : UInt16) (g : Seeded) : UInt16 × Seeded :=
  if h : sides = 0 then (0, g) else firstAccepted (face? sides) (face?_anchor h) g

def rollUnit (g : Seeded) : UnitDraw × Seeded :=
  firstAccepted unit? unit?_anchor g

instance : Roller Seeded Empty where
  rollDie sides g := let (face, g) := g.rollDie sides; (.ok face, g)
  rollUnit g := let (u, g) := g.rollUnit; (.ok u, g)

end Seeded

end TabletopDice
