import Rch.Kit.Machine
import Rch.Screen.Reads

/-!
# A browser session and its reads in flight

Any number of reads may be out at once: the read-back of a write, what the
stream's notices named, a snapshot, the kitchen's report for a window of days.
The server answers each call at some moment with what it holds then, and the
answer reaches the browser at some later one. Whenever the last answer of a read
is there, the browser applies it.

Two reads look first. Who is signed in is left as it is where the answer says
what was on screen when the read was sent, or where nobody was. And a report for
a window the screen has since moved off is dropped.

The answers are kept in the order in which the server produced them, and each
slice of the screen keeps which of them it has shown, and which have come.
-/

namespace Rch

open Kit

/-- A read: the calls it makes, what it was sent with, which answer the server
gave to each call, and whether the last of them has come. -/
structure Read (α : Type) where
  routes : List Route
  /-- Who was signed in, as the screen had it. -/
  before : Option α
  /-- The window of the kitchen's report. -/
  days : ℕ
  served : List (Route × ℕ)
  arrived : Bool
deriving DecidableEq

/-- The browser, and the server's side of its reads. -/
structure Tab (α : Type) where
  /-- What the server would answer now, to a read for a window of so many
  days. -/
  world : ℕ → Slice → α
  /-- Every answer the server has produced, in that order. -/
  answers : List (Route × (Slice → α))
  reads : List (Read α)
  screen : Slice → Option α
  kitchenDays : ℕ
  /-- The answers each slice has shown, the last one first. -/
  shown : Slice → List ℕ
  /-- The answers that have come for it, dropped or not. -/
  heard : Slice → List ℕ

variable {α : Type}

def Tab.send (t : Tab α) (routes : List Route) : Read α :=
  ⟨routes, t.screen .user, t.kitchenDays, [], false⟩

/-- The answers the read has to a slice, the last one first. -/
def Read.onto (r : Read α) (x : Slice) : List ℕ :=
  ((r.served.filter fun a => decide (x ∈ a.1.sets)).map Prod.snd).reverse

def Tab.says (t : Tab α) (x : Slice) (k : ℕ) : Option α :=
  t.answers[k]?.map fun a => a.2 x

def Tab.put (t : Tab α) (r : Read α) (x : Slice) : Option α :=
  match (r.onto x).head? with
  | some k => t.says x k
  | none => t.screen x

def Tab.drops [DecidableEq α] (t : Tab α) (r : Read α) : Bool :=
  decide (r.routes = [.me] ∧ (r.before = none ∨ t.put r .user = r.before)) ||
    decide (r.routes = [.kitchenReport] ∧ r.days ≠ t.kitchenDays)

inductive Tab.Event (α : Type)
  /-- The server's data moves. -/
  | write (world : ℕ → Slice → α)
  /-- A write's read-back, or what the stream named. -/
  | refetch (u : Viewer) (changed : List Collection)
  | loadSnapshot (u : Viewer)
  /-- The kitchen's screen, on a window of its own. -/
  | loadKitchenReport (days : ℕ)
  /-- The server answers a call of a read. -/
  | serve (i : ℕ) (route : Route)
  /-- The last of a read's answers reaches the browser. -/
  | arrive (i : ℕ)

def Tab.step [DecidableEq α] (t : Tab α) : Tab.Event α → Option (Tab α)
  | .write world => some { t with world := world }
  | .refetch u changed =>
    some { t with reads := t.reads ++ (Rch.refetch u changed).map t.send }
  | .loadSnapshot u =>
    some { t with reads := t.reads ++ (Rch.loadSnapshot u).map t.send }
  | .loadKitchenReport days =>
    let t := { t with kitchenDays := days }
    some { t with reads := t.reads ++ [[.kitchenReport]].map t.send }
  | .serve i route =>
    match t.reads[i]? with
    | some r =>
      if r.arrived = false ∧ route ∈ r.routes ∧ route ∉ r.served.map Prod.fst then
        some
          { t with
            answers := t.answers ++ [(route, t.world r.days)]
            reads := t.reads.set i
              { r with served := r.served ++ [(route, t.answers.length)] } }
      else none
    | none => none
  | .arrive i =>
    match t.reads[i]? with
    | some r =>
      if r.arrived = false ∧ (∀ route ∈ r.routes, route ∈ r.served.map Prod.fst) then
        let t' := { t with
          reads := t.reads.set i { r with arrived := true }
          heard := fun x => r.onto x ++ t.heard x }
        some (if t.drops r then t'
          else { t' with
            screen := t.put r
            shown := fun x => r.onto x ++ t.shown x })
      else none
    | none => none

/-- A session before its first read. Who signed in is on screen. -/
def Tab.machine (α : Type) [DecidableEq α] : Machine (Tab α) (Tab.Event α) where
  init t := t.answers = [] ∧ t.reads = [] ∧ (∀ x, t.shown x = []) ∧
    ∀ x, t.heard x = []
  step := Tab.step

/-- What the server answered to the read of a slice that it served last. -/
def Tab.servedLast (t : Tab α) (x : Slice) : Option α :=
  (t.answers.filter fun a => decide (x ∈ a.1.sets)).getLast?.map fun a => a.2 x

def Tab.Settled (t : Tab α) : Prop := ∀ r ∈ t.reads, r.arrived = true

end Rch
