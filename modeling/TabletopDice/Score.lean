/-!
# Scores

A score is a signed 64-bit number. Adding, subtracting and negating stop at the ends of the range.
-/

namespace TabletopDice

abbrev Score := Int64

namespace Score

def clamp (n : Int) : Score :=
  Int64.ofIntClamp n

/-- `a + b`, stopping at the ends of the range. -/
def add (a b : Score) : Score :=
  clamp (a.toInt + b.toInt)

/-- `a - b`, stopping at the ends of the range. -/
def sub (a b : Score) : Score :=
  clamp (a.toInt - b.toInt)

/-- `-a`, stopping at the upper end of the range. -/
def neg (a : Score) : Score :=
  clamp (-a.toInt)

theorem toInt_clamp_of_mem {n : Int} (lo : Int64.minValue.toInt ≤ n)
    (hi : n ≤ Int64.maxValue.toInt) : (clamp n).toInt = n :=
  Int64.toInt_ofIntClamp lo hi

theorem toInt_clamp (n : Int) :
    (clamp n).toInt = max Int64.minValue.toInt (min n Int64.maxValue.toInt) := by
  have ordered : Int64.minValue.toInt ≤ Int64.maxValue.toInt := by decide
  unfold clamp Int64.ofIntClamp
  split
  next lo =>
    split
    next hi =>
      rw [Int64.toInt_ofIntLE]
      omega
    next hi => omega
  next lo => omega

theorem toInt_sub (a b : Score) :
    (sub a b).toInt =
      max Int64.minValue.toInt (min (a.toInt - b.toInt) Int64.maxValue.toInt) :=
  toInt_clamp _

end Score

end TabletopDice
