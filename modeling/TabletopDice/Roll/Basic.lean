/-!
# Rolls

A `Roll` is a computation that asks for random values on its way to a result: faces of dice and
numbers of the unit interval. Where the values come from is left open. The monad laws hold
(`LawfulMonad Roll`), so rolls may be cut and joined anywhere.
-/

namespace TabletopDice

/-- A number drawn from the unit interval, kept as the bits of its binary64 form, so that any draw
can be repeated exactly. -/
structure UnitDraw where
  bits : UInt64
  deriving DecidableEq

namespace UnitDraw

def ofFloat (x : Float) : UnitDraw :=
  ⟨x.toBits⟩

def value (u : UnitDraw) : Float :=
  Float.ofBits u.bits

end UnitDraw

/-- A computation that asks for random values on its way to a result. -/
inductive Roll (α : Type) where
  | done (result : α)
  | die (sides : UInt16) (next : UInt16 → Roll α)
  | unit (next : UnitDraw → Roll α)

namespace Roll

/-- `r`, followed by the roll that its result asks for. -/
protected def bind {α β : Type} (r : Roll α) (f : α → Roll β) : Roll β :=
  match r with
  | done a => f a
  | die sides next => die sides fun face => (next face).bind f
  | unit next => unit fun u => (next u).bind f

instance : Monad Roll where
  pure := done
  bind := Roll.bind

def oneDie (sides : UInt16) : Roll UInt16 :=
  die sides done

def oneUnit : Roll UnitDraw :=
  unit done

@[simp] theorem done_bind {α β : Type} (a : α) (f : α → Roll β) : (done a >>= f) = f a := rfl

@[simp] theorem die_bind {α β : Type} (sides : UInt16) (next : UInt16 → Roll α) (f : α → Roll β) :
    (die sides next >>= f) = die sides fun face => next face >>= f := rfl

@[simp] theorem unit_bind {α β : Type} (next : UnitDraw → Roll α) (f : α → Roll β) :
    (unit next >>= f) = unit fun u => next u >>= f := rfl

theorem bind_done {α : Type} (r : Roll α) : r >>= done = r := by
  induction r with
  | done => rfl
  | die sides next ih => simp [ih]
  | unit next ih => simp [ih]

theorem bind_assoc {α β γ : Type} (r : Roll α) (f : α → Roll β) (g : β → Roll γ) :
    r >>= f >>= g = r >>= fun a => f a >>= g := by
  induction r with
  | done => rfl
  | die sides next ih => simp [ih]
  | unit next ih => simp [ih]

instance : LawfulMonad Roll :=
  LawfulMonad.mk' Roll bind_done (fun _ _ => rfl) bind_assoc

end Roll

end TabletopDice
