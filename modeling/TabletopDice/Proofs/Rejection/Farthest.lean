import Mathlib.Data.List.Induction
import TabletopDice.Proofs.Rejection.Sight

/-!
# The farthest attempt

`farthest_of` says what the farthest place is to the attempts it was found among. The attempts at
terms that could be read change nothing about it: `farthest_allAttempts`.
-/

namespace TabletopDice.Grammar

open Formula

variable {cs rest : List Char} {as : List Attempt} {best best' : Farthest}

/-- `best` is the farthest place in `cs` that the attempts `as` reached, and all it lists was looked
for there. -/
structure IsFarthest (cs : List Char) (as : List Attempt) (best : Farthest) : Prop where
  reached : best.left = cs ∨ ∃ a ∈ as, a.left = best.left
  upTo : UpTo best.left as
  looked : ∀ e ∈ best.expected, ∃ a ∈ as, e ∈ a.expected ∧ a.left.length = best.left.length

theorem add_of_farther {a : Attempt} (h : a.left.length < best.left.length) :
    best.add a = ⟨a.left, a.expected.toList⟩ :=
  if_pos h

theorem add_of_same {a : Attempt} (h : a.left.length = best.left.length) :
    best.add a =
      ⟨best.left, best.expected ++ a.expected.toList.filter (!best.expected.contains ·)⟩ := by
  rw [Farthest.add, if_neg (by omega), if_pos h]

theorem add_of_nearer {a : Attempt} (h : best.left.length < a.left.length) : best.add a = best := by
  rw [Farthest.add, if_neg (by omega), if_neg (by omega)]

theorem length_add (best : Farthest) (a : Attempt) :
    (best.add a).left.length = min best.left.length a.left.length := by
  rcases Nat.lt_trichotomy a.left.length best.left.length with farther | same | nearer
  · rw [add_of_farther farther, Nat.min_eq_right (by omega)]
  · rw [add_of_same same, same, Nat.min_self]
  · rw [add_of_nearer nearer, Nat.min_eq_left (by omega)]

theorem IsFarthest.add (h : IsFarthest cs as best) (a : Attempt) :
    IsFarthest cs (as ++ [a]) (best.add a) := by
  have upTo : UpTo (best.add a).left (as ++ [a]) := by
    have shorter := length_add best a
    refine upTo_append.mpr ⟨h.upTo.mono (by omega), upTo_cons.mpr ⟨by omega, upTo_nil⟩⟩
  have old {b : Attempt} (member : b ∈ as) : b ∈ as ++ [a] := List.mem_append_left _ member
  have new : a ∈ as ++ [a] := List.mem_append_right _ List.mem_cons_self
  have kept : best.left = cs ∨ ∃ b ∈ as ++ [a], b.left = best.left :=
    h.reached.imp_right fun ⟨b, member, left⟩ => ⟨b, old member, left⟩
  have listed (e : Expected) (member : e ∈ best.expected) :
      ∃ b ∈ as ++ [a], e ∈ b.expected ∧ b.left.length = best.left.length := by
    obtain ⟨b, tried, found⟩ := h.looked e member
    exact ⟨b, old tried, found⟩
  rcases Nat.lt_trichotomy a.left.length best.left.length with farther | same | nearer
  · rw [add_of_farther farther] at upTo ⊢
    exact ⟨.inr ⟨a, new, rfl⟩, upTo, fun e member => ⟨a, new, by simpa using member, rfl⟩⟩
  · rw [add_of_same same] at upTo ⊢
    refine ⟨kept, upTo, fun e member => ?_⟩
    rcases List.mem_append.mp member with member | member
    · exact listed e member
    · exact ⟨a, new, by simpa using (List.mem_filter.mp member).1, same⟩
  · rw [add_of_nearer nearer] at upTo ⊢
    exact ⟨kept, upTo, listed⟩

theorem farthest_of (cs : List Char) (as : List Attempt) : IsFarthest cs as (farthest cs as) := by
  induction as using List.reverseRecOn with
  | nil => exact ⟨.inl rfl, upTo_nil, by simp [farthest]⟩
  | append_singleton as a ih =>
    rw [farthest, List.foldl_append]
    exact ih.add a

/-! ### Attempts at terms that were read -/

theorem UpTo.le_foldl_add {l : List Char} (h : UpTo l as) (start : l.length ≤ best.left.length) :
    l.length ≤ (as.foldl Farthest.add best).left.length := by
  induction as generalizing best with
  | nil => exact start
  | cons a as ih =>
    obtain ⟨first, others⟩ := upTo_cons.mp h
    rw [List.foldl_cons]
    apply ih others
    rw [length_add]
    omega

theorem foldl_add_eq (h : ∃ a ∈ as, a.left.length < best.left.length ∧
    a.left.length < best'.left.length) :
    as.foldl Farthest.add best = as.foldl Farthest.add best' := by
  induction as generalizing best best' with
  | nil =>
    obtain ⟨a, member, -⟩ := h
    cases member
  | cons b as ih =>
    obtain ⟨a, member, less, less'⟩ := h
    rw [List.foldl_cons, List.foldl_cons]
    by_cases near : b.left.length ≤ a.left.length
    · have replaced : best.add b = ⟨b.left, b.expected.toList⟩ := add_of_farther (by omega)
      have replaced' : best'.add b = ⟨b.left, b.expected.toList⟩ := add_of_farther (by omega)
      rw [replaced, replaced']
    · have later : a ∈ as := by
        rcases List.mem_cons.mp member with rfl | later
        · exact absurd (Nat.le_refl _) near
        · exact later
      apply ih
      refine ⟨a, later, ?_, ?_⟩
      · rw [length_add]
        omega
      · rw [length_add]
        omega

def allRestAttempts (cs : List Char) : List Attempt :=
  match _h : readSignedTerm? cs with
  | some (_, rest) => signedTermAttempts cs ++ allRestAttempts rest
  | none => signedTermAttempts cs ++ if cs = [] then [] else [⟨cs, some .endOfInput⟩]
  termination_by cs.length
  decreasing_by exact readSignedTerm?_length _h

/-- Every attempt at a text, those at terms that could be read included. -/
def allAttempts (cs : List Char) : List Attempt :=
  match readLead? cs with
  | some (_, rest) => leadAttempts cs ++ allRestAttempts rest
  | none => leadAttempts cs

/-- Attempts at the term before `cs` do not show behind those at the next term. -/
theorem foldl_restAttempts {before : List Attempt} (upTo : AtTermEnd cs → UpTo cs before)
    (start : cs.length ≤ best.left.length) :
    (before ++ allRestAttempts cs).foldl Farthest.add best =
      (restAttempts before cs).foldl Farthest.add best := by
  fun_induction restAttempts before cs generalizing best with
  | case1 before cs t rest read ih =>
    obtain ⟨termOn, signed, -⟩ := readSignedTerm?_eq_some_iff.mp read
    have stop := atTermEnd_of_readSign? signed
    obtain ⟨a, member, past⟩ := exists_attempt_past_sign signed
    have all : allRestAttempts cs = signedTermAttempts cs ++ allRestAttempts rest := by
      rw [allRestAttempts]
      split <;> simp_all
    -- The attempt past the sign replaces all that `before` left behind.
    have within : a ∈ signedTermAttempts cs ++ allRestAttempts rest :=
      List.mem_append_left _ member
    have shown := (upTo stop).le_foldl_add start
    rw [all, List.foldl_append, foldl_add_eq ⟨a, within, by omega, Nat.lt_of_lt_of_le past start⟩]
    have shorter := readSignedTerm?_length read
    exact ih (signedTermAttempts_upTo read) (by omega)
  | case2 before cs read =>
    have all : allRestAttempts cs =
        signedTermAttempts cs ++ if cs = [] then [] else [⟨cs, some .endOfInput⟩] := by
      rw [allRestAttempts]
      split <;> simp_all
    rw [all, List.append_assoc]

/-- The attempts that `formulaAttempts` leaves out do not show in the farthest place. -/
theorem farthest_allAttempts (cs : List Char) :
    farthest cs (allAttempts cs) = farthest cs (formulaAttempts cs) := by
  rw [allAttempts, formulaAttempts]
  cases read : readLead? cs with
  | none => rfl
  | some p =>
    obtain ⟨t, rest⟩ := p
    exact foldl_restAttempts (fun _ => leadAttempts_upTo read)
      (readTerm?_length (by rw [readTerm?, read]; rfl))

end TabletopDice.Grammar
