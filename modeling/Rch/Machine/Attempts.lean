import Rch.Domain.Ids
import Rch.Kit.Machine
import Rch.Kit.Table

/-!
# The sign-in budget

A window of attempts for each employee id, in memory. An attempt is counted from
the instant it begins, before its password is looked at, and given back if the
password was right; an id nobody has tried for a window is dropped by a sweep, and
the oldest id makes room when the map is full.

The machine takes the calls as they come, from any number of sign-ins at once, and
remembers beside the map which attempts have begun and not been given back.
-/

namespace Rch

open Kit

/-- How many calls of `begin` between sweeps of what has gone quiet. -/
def SWEEP_EVERY : ℕ := 1000

/-- What the budget is constructed with. -/
structure Budget where
  max : ℕ
  windowMs : ℤ
  cap : ℕ

/-- The stamps of each key, the keys in the order they were last put in. -/
structure Attempts where
  m : Table String (List Instant)
  starts : ℕ

namespace Attempts

variable (b : Budget)

def inWindow (now t : Instant) : Bool := decide (now - t < b.windowMs)

def stamps (m : Table String (List Instant)) (key : String) : List Instant :=
  (m.get? key).getD []

def isLocked (a : Attempts) (key : String) (now : Instant) : Bool :=
  decide (b.max ≤ ((stamps a.m key).filter (inWindow b now)).length)

def sweep (m : Table String (List Instant)) (now : Instant) :
    Table String (List Instant) :=
  m.filter fun _ l => l.any (inWindow b now)

/-- The oldest keys go until there is room for one more. The loop ends once the map
is empty, but for a cap of zero, which it never meets. -/
def evict : ℕ → Table String (List Instant) →
    Option (Table String (List Instant))
  | 0, m => if b.cap ≤ m.rows.length then none else some m
  | n + 1, m => if b.cap ≤ m.rows.length then evict n m.dropOldest else some m

/-- `swept` is the sweep's own reading of the clock. -/
def begin_ (a : Attempts) (key : String) (now swept : Instant) :
    Option Attempts :=
  let starts := a.starts + 1
  let m := if starts % SWEEP_EVERY = 0 then sweep b a.m swept else a.m
  let l := (stamps m key).filter (inWindow b now) ++ [now]
  let m := m.restrict fun k => decide (k ≠ key)
  (evict b m.rows.length m).map fun m => ⟨m.set key l, starts⟩

/-- One stamp of one key, and the key with its last one. -/
def release (a : Attempts) (key : String) (at_ : Instant) : Attempts :=
  match a.m.get? key with
  | none => a
  | some l =>
    if l.erase at_ = [] then { a with m := a.m.restrict fun k => decide (k ≠ key) }
    else { a with m := a.m.modify key fun _ => l.erase at_ }

end Attempts

/-- The budget, and the attempts nobody has given back. -/
structure SignInGate where
  attempts : Attempts
  inFlight : List (String × Instant)
  /-- The last reading of the clock. -/
  clock : Instant

inductive AttemptCall
  | isLocked (key : String) (now : Instant)
  | begin_ (key : String) (now swept : Instant)
  | release (key : String) (at_ : Instant)

def signInGate (b : Budget) : Machine SignInGate AttemptCall where
  init := fun s => s.attempts = ⟨Table.empty, 0⟩ ∧ s.inFlight = []
  step
    | s, .isLocked _ now =>
      if s.clock ≤ now then some { s with clock := now } else none
    | s, .begin_ key now swept =>
      if s.clock ≤ now ∧ now ≤ swept then
        (s.attempts.begin_ b key now swept).map fun a =>
          ⟨a, s.inFlight ++ [(key, now)], swept⟩
      else none
    | s, .release key at_ =>
      some ⟨s.attempts.release key at_, s.inFlight.erase (key, at_), s.clock⟩

/-- A call of the sign-in: it begins only where the budget has room, gives back only
what it began, and names one of these ids. -/
def SignsIn (b : Budget) (keys : Finset String) (s : SignInGate) :
    AttemptCall → Prop
  | .isLocked _ _ => True
  | .begin_ key now _ => key ∈ keys ∧ s.attempts.isLocked b key now = false
  | .release key at_ => (key, at_) ∈ s.inFlight

instance (b : Budget) (keys : Finset String) (s : SignInGate) :
    ∀ e, Decidable (SignsIn b keys s e)
  | .isLocked _ _ => inferInstanceAs (Decidable True)
  | .begin_ _ _ _ => inferInstanceAs (Decidable (_ ∧ _))
  | .release _ _ => inferInstanceAs (Decidable (_ ∈ _))

end Rch
