import Mathlib.Logic.Function.Basic
import Rch.Domain.Ids
import Rch.Kit.Machine

/-!
# The permission cache

One pod's cache of what an account may do. A lookup the cache cannot answer
starts a load; loads overlap, finish in any order, and may fail. A clear empties
the cache and moves the generation on, so a load that was under way answers its
own request and is not kept.

What is loaded is left open: the cache never looks inside it. The clock is
whatever the pod reads, and may go either way.

`tick`, the numbers a load or an entry carries besides its own fields, and the
lists at the end are not part of the system: they note what happened when.
-/

namespace Rch

open Kit

/-- How long an entry stands without a notice, in milliseconds. -/
def ACCESS_TTL_MS : ℤ := 60000

structure AccessEntry (α : Type) where
  at_ : Instant
  value : α
  /-- When the load that brought it was started. -/
  loaded : ℕ

structure AccessLoad where
  userId : String
  /-- The generation it started in. -/
  started : ℕ
  begun : ℕ

/-- A load that came back. -/
structure LoadedAccess (α : Type) where
  userId : String
  begun : ℕ
  at_ : Instant
  value : α

/-- What a lookup was told. -/
structure AccessAnswer (α : Type) where
  userId : String
  /-- When the lookup was made. -/
  asked : ℕ
  /-- When the load behind its answer was started. -/
  loaded : ℕ
  value : α
  /-- The clock at a lookup answered from the cache. -/
  stored : Option Instant

structure AccessCache (α : Type) where
  entries : String → Option (AccessEntry α)
  generation : ℕ
  loads : List (Option AccessLoad)
  tick : ℕ
  cleared : List ℕ
  finished : List (LoadedAccess α)
  /-- The loads that failed, by when they were started. -/
  lost : List ℕ
  answers : List (AccessAnswer α)

namespace AccessCache

variable {α : Type}

inductive Event (α : Type)
  | of_ (userId : String) (now : Instant)
  /-- A load comes back, and the clock read as it is stored. -/
  | loaded (i : ℕ) (value : α) (now : Instant)
  | failed (i : ℕ)
  | clear

def empty : AccessCache α := ⟨fun _ => none, 0, [], 0, [], [], [], []⟩

def hit (ttl : ℤ) (c : AccessCache α) (userId : String) (now : Instant) :
    Option (AccessEntry α) :=
  (c.entries userId).filter fun e => decide (now - e.at_ < ttl)

def told (c : AccessCache α) (a : AccessAnswer α) : AccessCache α :=
  { c with answers := a :: c.answers }

/-- A lookup: answered from an entry young enough, or a load is started. -/
def lookup (ttl : ℤ) (c : AccessCache α) (userId : String) (now : Instant) :
    AccessCache α :=
  match c.hit ttl userId now with
  | some e => c.told ⟨userId, c.tick, e.loaded, e.value, some now⟩
  | none => { c with loads := c.loads ++ [some ⟨userId, c.generation, c.tick⟩] }

/-- A load's value is stored unless a clear came between. -/
def store (c : AccessCache α) (l : AccessLoad) (value : α) (now : Instant) :
    AccessCache α :=
  if l.started = c.generation then
    { c with entries :=
        Function.update c.entries l.userId (some ⟨now, value, l.begun⟩) }
  else c

def return_ (c : AccessCache α) (i : ℕ) (l : AccessLoad) (value : α)
    (now : Instant) : AccessCache α :=
  { c.store l value now with
    loads := c.loads.set i none
    finished := ⟨l.userId, l.begun, now, value⟩ :: c.finished
    answers := ⟨l.userId, l.begun, l.begun, value, none⟩ :: c.answers }

def clear (c : AccessCache α) : AccessCache α :=
  { c with
    generation := c.generation + 1
    entries := fun _ => none
    cleared := c.tick :: c.cleared }

def load (c : AccessCache α) (i : ℕ) : Option AccessLoad := (c.loads[i]?).join

/-- A load that ended without an answer. -/
def lose (c : AccessCache α) (i : ℕ) (l : AccessLoad) : AccessCache α :=
  { c with loads := c.loads.set i none, lost := l.begun :: c.lost }

def step (ttl : ℤ) (c : AccessCache α) (e : Event α) : Option (AccessCache α) :=
  let next := match e with
    | .of_ userId now => some (c.lookup ttl userId now)
    | .loaded i value now =>
      (c.load i).map fun l => c.return_ i l value now
    | .failed i => (c.load i).map fun l => c.lose i l
    | .clear => some c.clear
  next.map fun c => { c with tick := c.tick + 1 }

def machine (ttl : ℤ) : Machine (AccessCache α) (Event α) where
  init c := c = empty
  step := step ttl

end AccessCache

end Rch
