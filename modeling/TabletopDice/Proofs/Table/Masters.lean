import Mathlib.Data.Set.Card
import TabletopDice.Masters

/-!
# The history of Game Masters

A set of masters is promoted to, demoted from and asked. Whom it allows, and what it tells, follow
from the list that it was made of and from what was done since, participant by participant:
`Masters.history_decides`.
-/

namespace TabletopDice.Masters

inductive Act where
  | promote (p : Participant)
  | demote (p : Participant)
  | allows (p : Participant)
  deriving DecidableEq

namespace Act

def participant : Act → Participant
  | promote p => p
  | demote p => p
  | allows p => p

def decides? : Act → Option Bool
  | promote _ => some true
  | demote _ => some false
  | allows _ => none

def perform (m : Masters) : Act → Bool × Masters
  | promote p => m.promote p
  | demote p => m.demote p
  | allows p => (m.allows p, m)

/-- What an act tells of the set before it: promoting, whether the participant was none of the
masters, and everything else, whether they were one. -/
def told (m : Masters) : Act → Bool
  | promote p => !m.allows p
  | demote p => m.allows p
  | allows p => m.allows p

end Act

def run (m : Masters) : List Act → List Bool × Masters
  | [] => ([], m)
  | act :: rest =>
    let (told, m) := act.perform m
    let (more, m) := m.run rest
    (told :: more, m)

def lastDecision (p : Participant) (acts : List Act) : Option Bool :=
  ((acts.filter (·.participant = p)).filterMap Act.decides?).getLast?

/-- The number of acts that decide on `master` and tell that they changed something. -/
def changes (master : Bool) (acts : List Act) (answers : List Bool) : Nat :=
  (acts.zip answers).countP fun t => t.1.decides? = some master && t.2

variable {m m' : Masters} {p q : Participant} {act : Act} {acts : List Act} {ps : List Participant}

/-! ### One act -/

theorem allows_iff : m.allows p = true ↔ p ∈ m.participants :=
  List.contains_iff_mem

theorem allows_eq_false_iff : m.allows p = false ↔ p ∉ m.participants := by
  rw [← allows_iff, Bool.not_eq_true]

theorem promote_of_allowed (h : m.allows p = true) : m.promote p = (false, m) :=
  dif_pos (allows_iff.mp h)

theorem promote_of_denied (h : m.allows p = false) :
    (m.promote p).1 = true ∧ (m.promote p).2.participants = p :: m.participants := by
  rw [promote, dif_neg (allows_eq_false_iff.mp h)]
  exact ⟨rfl, rfl⟩

theorem promote_allows (m : Masters) (p q : Participant) :
    (m.promote p).2.allows q = (decide (p = q) || m.allows q) := by
  cases known : m.allows p with
  | true =>
    rw [promote_of_allowed known]
    by_cases same : p = q
    · rw [← same, known]
      simp
    · simp [same]
  | false =>
    rw [Bool.eq_iff_iff, allows_iff, (promote_of_denied known).2, Bool.or_eq_true, allows_iff,
      decide_eq_true_iff, List.mem_cons, eq_comm]

theorem demote_allows (m : Masters) (p q : Participant) :
    (m.demote p).2.allows q = (!decide (p = q) && m.allows q) := by
  rw [Bool.eq_iff_iff, allows_iff, demote, m.nodup.mem_erase_iff, Bool.and_eq_true, allows_iff,
    Bool.not_eq_true', decide_eq_false_iff_not, ne_comm]

theorem perform_allows (m : Masters) (act : Act) (q : Participant) :
    (act.perform m).2.allows q =
      if act.participant = q then act.decides?.getD (m.allows q) else m.allows q := by
  cases act with
  | promote p =>
    rw [Act.perform, promote_allows]
    by_cases same : p = q
    · simp [Act.participant, Act.decides?, same]
    · simp [Act.participant, same]
  | demote p =>
    rw [Act.perform, demote_allows]
    by_cases same : p = q
    · simp [Act.participant, Act.decides?, same]
    · simp [Act.participant, same]
  | allows p => simp [Act.perform, Act.decides?]

theorem perform_told (m : Masters) (act : Act) : (act.perform m).1 = act.told m := by
  cases act with
  | promote p =>
    cases known : m.allows p with
    | true => rw [Act.perform, promote_of_allowed known, Act.told, known, Bool.not_true]
    | false => rw [Act.perform, (promote_of_denied known).1, Act.told, known, Bool.not_false]
  | demote p => rfl
  | allows p => rfl

theorem perform_length (m : Masters) (act : Act) :
    (act.perform m).2.participants.length +
        (if act.decides? = some false && (act.perform m).1 then 1 else 0) =
      m.participants.length +
        (if act.decides? = some true && (act.perform m).1 then 1 else 0) := by
  cases act with
  | promote p =>
    rw [Act.perform]
    cases known : m.allows p with
    | true =>
      rw [promote_of_allowed known]
      simp [Act.decides?]
    | false =>
      rw [(promote_of_denied known).1, (promote_of_denied known).2, List.length_cons]
      simp [Act.decides?]
  | demote p =>
    have told : ((Act.demote p).perform m).1 = m.allows p := rfl
    have left : ((Act.demote p).perform m).2.participants = m.participants.erase p := rfl
    rw [told, left]
    cases known : m.allows p with
    | true =>
      have member := allows_iff.mp known
      have members := List.length_pos_of_mem member
      rw [List.length_erase_of_mem member]
      simp [Act.decides?]
      omega
    | false =>
      rw [List.erase_of_not_mem (allows_eq_false_iff.mp known)]
      simp [Act.decides?]
  | allows p => simp [Act.perform, Act.decides?]

/-! ### Many acts -/

theorem run_cons (m : Masters) (act : Act) (acts : List Act) :
    m.run (act :: acts) =
      ((act.perform m).1 :: ((act.perform m).2.run acts).1, ((act.perform m).2.run acts).2) :=
  rfl

theorem run_append (m : Masters) (before after : List Act) :
    m.run (before ++ after) =
      ((m.run before).1 ++ ((m.run before).2.run after).1, ((m.run before).2.run after).2) := by
  induction before generalizing m with
  | nil => rfl
  | cons act before ih => rw [List.cons_append, run_cons, ih, run_cons, List.cons_append]

theorem length_run (m : Masters) (acts : List Act) : (m.run acts).1.length = acts.length := by
  induction acts generalizing m with
  | nil => rfl
  | cons act acts ih => rw [run_cons, List.length_cons, List.length_cons, ih]

theorem run_told (m : Masters) (before : List Act) (act : Act) (after : List Act) :
    (m.run (before ++ act :: after)).1[before.length]? = some (act.told (m.run before).2) := by
  rw [run_append, run_cons, ← length_run m before, List.getElem?_append_right (Nat.le_refl _),
    Nat.sub_self, List.getElem?_cons_zero, perform_told]

theorem lastDecision_cons (p : Participant) (act : Act) (acts : List Act) :
    lastDecision p (act :: acts) =
      (lastDecision p acts).or (if act.participant = p then act.decides? else none) := by
  unfold lastDecision
  by_cases own : act.participant = p
  · rw [List.filter_cons_of_pos (by simpa using own), List.filterMap_cons, if_pos own]
    cases act.decides? with
    | none => rw [Option.or_none]
    | some master => rw [List.getLast?_cons, ← Option.or_some]
  · rw [List.filter_cons_of_neg (by simpa using own), if_neg own, Option.or_none]

/-- The last decision on a participant counts, and without one what they were before. -/
theorem run_allows (m : Masters) (acts : List Act) (p : Participant) :
    (m.run acts).2.allows p = (lastDecision p acts).getD (m.allows p) := by
  induction acts generalizing m with
  | nil => rfl
  | cons act acts ih =>
    rw [run_cons, ih, perform_allows, lastDecision_cons]
    cases lastDecision p acts with
    | some master => rfl
    | none =>
      by_cases own : act.participant = p
      · simp [own]
      · simp [own]

/-! ### Participants apart from each other -/

theorem told_congr (own : act.participant = q) (same : m.allows q = m'.allows q) :
    act.told m = act.told m' := by
  subst own
  cases act with
  | promote p => exact congrArg Bool.not same
  | demote p => exact same
  | allows p => exact same

theorem run_filter (same : m.allows q = m'.allows q) :
    (m'.run (acts.filter (·.participant = q))).1 =
      ((acts.zip (m.run acts).1).filter (·.1.participant = q)).map Prod.snd := by
  induction acts generalizing m m' with
  | nil => rfl
  | cons act acts ih =>
    rw [run_cons, List.zip_cons_cons]
    by_cases own : act.participant = q
    · have after : (act.perform m).2.allows q = (act.perform m').2.allows q := by
        rw [perform_allows, perform_allows, same]
      rw [List.filter_cons_of_pos (by simpa using own), List.filter_cons_of_pos (by simpa using own),
        run_cons, List.map_cons, ih after, perform_told, perform_told, told_congr own same]
    · have after : (act.perform m).2.allows q = m'.allows q := by
        rw [perform_allows, if_neg own, same]
      rw [List.filter_cons_of_neg (by simpa using own), List.filter_cons_of_neg (by simpa using own),
        ih after]

theorem lastDecision_filter (q : Participant) (acts : List Act) :
    lastDecision q (acts.filter (·.participant = q)) = lastDecision q acts := by
  simp [lastDecision, List.filter_filter]

/-! ### How many masters there are -/

theorem run_length (m : Masters) (acts : List Act) :
    (m.run acts).2.participants.length + changes false acts (m.run acts).1 =
      m.participants.length + changes true acts (m.run acts).1 := by
  induction acts generalizing m with
  | nil => rfl
  | cons act acts ih =>
    have first := perform_length m act
    have others := ih (act.perform m).2
    unfold changes at others ⊢
    rw [run_cons, List.zip_cons_cons, List.countP_cons, List.countP_cons]
    dsimp only at others ⊢
    omega

theorem ncard_allowed (m : Masters) :
    {p | m.allows p = true}.ncard = m.participants.length := by
  have same : {p | m.allows p = true} = m.participants.toFinset := by
    ext p
    rw [List.coe_toFinset]
    exact allows_iff
  rw [same, Set.ncard_coe_finset, List.toFinset_card_of_nodup m.nodup]

theorem allows_ofList : (ofList ps).allows p = true ↔ p ∈ ps := by
  have started (m : Masters) :
      (ps.foldl (fun m p => (m.promote p).2) m).allows p = true ↔ p ∈ ps ∨ m.allows p = true := by
    induction ps generalizing m with
    | nil => simp
    | cons q ps ih =>
      rw [List.foldl_cons, ih, promote_allows, Bool.or_eq_true, decide_eq_true_iff, List.mem_cons]
      tauto
  rw [ofList, started]
  exact or_iff_left Bool.false_ne_true

theorem length_ofList (ps : List Participant) : (ofList ps).participants.length = ps.dedup.length := by
  have same : (ofList ps).participants.Perm ps.dedup := by
    rw [List.perm_ext_iff_of_nodup (ofList ps).nodup ps.nodup_dedup]
    intro p
    rw [← allows_iff, allows_ofList, List.mem_dedup]
  exact same.length_eq

/-- How the set of masters made of `ps` goes through the acts, where `answers` is what these tell and
`m` is the set after them. -/
structure Remembers (ps : List Participant) (acts : List Act) (answers : List Bool) (m : Masters) :
    Prop where
  answered : answers.length = acts.length
  allowed : ∀ p, m.allows p = true ↔
    lastDecision p acts = some true ∨ lastDecision p acts = none ∧ p ∈ ps
  /-- Promoting tells whether the participant was no master just before, and demoting and asking
  whether they were one. -/
  told : ∀ before act after, before ++ act :: after = acts →
    answers[before.length]? = some (act.told ((ofList ps).run before).2)
  apart : ∀ q, ((ofList ps).run (acts.filter (·.participant = q))).1 =
      ((acts.zip answers).filter (·.1.participant = q)).map Prod.snd ∧
    ((ofList ps).run (acts.filter (·.participant = q))).2.allows q = m.allows q
  counted : {p | m.allows p = true}.ncard + changes false acts answers =
    ps.dedup.length + changes true acts answers

theorem history_decides (ps : List Participant) (acts : List Act) :
    Remembers ps acts ((ofList ps).run acts).1 ((ofList ps).run acts).2 where
  answered := length_run _ acts
  allowed p := by
    rw [run_allows]
    cases lastDecision p acts with
    | none => simp [allows_ofList]
    | some master => simp
  told before act after same := by
    rw [← same]
    exact run_told _ before act after
  apart q := ⟨run_filter rfl, by rw [run_allows, run_allows, lastDecision_filter]⟩
  counted := by
    rw [ncard_allowed, run_length, length_ofList]

example : ((ofList [42, 7, 42]).run [.demote 42, .promote 42, .promote 7, .allows 8]).1 =
    [true, true, false, false] := by
  decide

end TabletopDice.Masters
