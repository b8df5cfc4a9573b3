/-!
# Game Masters

`Masters` is the set of the participants that are Game Masters. Promoting and demoting tell whether
they changed anything.
-/

namespace TabletopDice

abbrev Participant := Int64

abbrev Gate := Participant → Bool

/-- A set of participants, latest first. -/
structure Masters where
  participants : List Participant := []
  nodup : participants.Nodup := by simp

namespace Masters

def isEmpty (m : Masters) : Bool :=
  m.participants.isEmpty

def allows (m : Masters) : Gate :=
  fun p => m.participants.contains p

/-- Makes `p` a master. Also tells whether `p` was none before. -/
def promote (m : Masters) (p : Participant) : Bool × Masters :=
  if h : p ∈ m.participants then (false, m)
  else (true, ⟨p :: m.participants, List.nodup_cons.mpr ⟨h, m.nodup⟩⟩)

/-- Makes `p` no master. Also tells whether `p` was one before. -/
def demote (m : Masters) (p : Participant) : Bool × Masters :=
  (m.allows p, ⟨m.participants.erase p, m.nodup.erase p⟩)

def ofList (ps : List Participant) : Masters :=
  ps.foldl (fun m p => (m.promote p).2) {}

end Masters

end TabletopDice
