import Rch.Kit.Machine
import Rch.Screen.Reads

/-!
# The change feed of one session

A write that commits is announced on a Postgres channel. The pod hears the
channel on a connection of its own and writes one frame for each collection to
every stream it has admitted. The browser gathers what the frames name and pulls
it back a quarter of a second later.

Each of the three links can be down by itself. A pod that comes back to its
channel tells the streams it has to take everything again, and so does a pod
that admits a stream whose browser has seen a frame before; neither keeps what
was missed.

The state also keeps, for the statements, what every commit named and how many
commits there were when each collection was last asked for.
-/

namespace Rch

open Kit

/-- The pod's connection to the channel. It hears nothing until its handler is
attached, which is a moment after the channel counts it. -/
inductive Listener
  | down | subscribed | up
deriving DecidableEq

inductive Frame
  /-- How long to wait before the next connection. -/
  | retry
  | changed (id : ℕ) (c : Collection)
  | resync (id : ℕ)
deriving DecidableEq

/-- A connection of the browser's: the last id it was opened with, whether the
pod has admitted it, whether the browser has its answer, and the frames on their
way. -/
structure Stream where
  lastId : Option ℕ
  admitted : Bool
  live : Bool
  frames : List Frame

structure Feed where
  commits : List (List Collection)
  /-- What the channel has still to deliver to the pod. -/
  wire : List (List Collection)
  listener : Listener
  everConnected : Bool
  seq : ℕ
  stream : Option Stream
  /-- The stream follows the session once its snapshot is there. -/
  ready : Bool
  lastEventId : Option ℕ
  pending : List Collection
  wantsSnapshot : Bool
  /-- The debounce is running. -/
  flush : Bool
  /-- The reads that are running. -/
  reads : List (List Route)
  /-- The commits there were when the session's snapshot was read. -/
  snapshotRead : Option ℕ
  /-- The commits there were when a collection was last asked for. -/
  asked : Collection → ℕ

def wants (u : Viewer) (c : Collection) : List Slice :=
  ((NARROW u c).getD [.stock]).flatMap Route.sets

/-- The calls between them answer for the collection. -/
def answersFor (u : Viewer) (calls : List (List Route)) (c : Collection) : Bool :=
  (wants u c).all fun x => decide (x ∈ calls.flatten.flatMap Route.sets)

def follows (u : Viewer) (c : Collection) : Bool := !(wants u c).isEmpty

def inSnapshot (u : Viewer) (c : Collection) : Bool := answersFor u [[.snapshot]] c

inductive Feed.Event
  /-- A write commits. -/
  | commit (changed : List Collection)
  /-- The pod hears the next announcement. -/
  | hear
  | listen
  | attach
  /-- The pod's connection to the channel fails. -/
  | deafen
  /-- The session's snapshot is read, and then it is on screen. -/
  | readSnapshot
  | ready
  | letIn
  | live
  /-- The browser reads the next frame. -/
  | frame
  | drop
  | reconnect
  | flush
  /-- A read is answered. -/
  | answer (i : ℕ)
  /-- A write of this session's own is read back. -/
  | refetch (changed : List Collection)
  | loadSnapshot

def Feed.ask (u : Viewer) (calls : List (List Route)) (s : Feed) : Feed :=
  { s with
    reads := s.reads ++ calls
    asked := fun c => if answersFor u calls c then s.commits.length else s.asked c }

/-- Write a frame to the stream, if the pod has admitted one. -/
def Feed.broadcast (f : ℕ → Frame) (s : Feed) : Feed :=
  { s with
    seq := s.seq + 1
    stream := s.stream.map fun k =>
      if k.admitted then { k with frames := k.frames ++ [f (s.seq + 1)] } else k }

/-- One frame for each collection. The audit log's go to the admin's streams
alone. -/
def Feed.publish (u : Viewer) (collections : List Collection) (s : Feed) : Feed :=
  collections.foldl (fun s c =>
    if c = .audit ∧ u.admin = false then { s with seq := s.seq + 1 }
    else s.broadcast fun id => .changed id c) s

def Feed.resync (s : Feed) : Feed := s.broadcast .resync

def Feed.onFrame (f : Frame) (s : Feed) : Feed :=
  match f with
  | .retry => s
  | .changed id c =>
    { s with lastEventId := some id, pending := s.pending ++ [c], flush := true }
  | .resync id =>
    { s with lastEventId := some id, wantsSnapshot := true, flush := true }

/-- The connection a browser opens, with the last id it has seen. -/
def Feed.open_ (s : Feed) : Feed :=
  { s with stream := some ⟨s.lastEventId, false, false, []⟩ }

def Stream.letIn (k : Stream) (id : ℕ) : Stream :=
  { k with
    admitted := true
    frames := k.frames ++ .retry :: (if k.lastId.isSome then [.resync id] else []) }

def Feed.step (u : Viewer) (s : Feed) : Feed.Event → Option Feed
  | .commit changed => some
    { s with
      commits := s.commits ++ [changed]
      wire :=
        if s.listener = .down ∨ changed = [] then s.wire
        else s.wire ++ [changed.dedup] }
  | .hear =>
    match s.wire with
    | [] => none
    | cs :: wire =>
      let heard := { s with wire := wire }
      some (if s.listener = .up then heard.publish u cs else heard)
  | .listen =>
    if s.listener = .down then some { s with listener := .subscribed } else none
  | .attach =>
    if s.listener = .subscribed then
      let up := { s with listener := .up, everConnected := true }
      some (if s.everConnected then up.resync else up)
    else none
  | .deafen => some { s with listener := .down, wire := [] }
  | .readSnapshot =>
    if s.snapshotRead = none then
      some { s with snapshotRead := some s.commits.length }
    else none
  | .ready =>
    if s.snapshotRead.isSome = true ∧ s.ready = false ∧ s.stream.isNone = true then
      some { s with ready := true }.open_
    else none
  | .letIn =>
    match s.stream with
    | some k =>
      if k.admitted then none
      else some { s with seq := s.seq + 1, stream := some (k.letIn (s.seq + 1)) }
    | none => none
  | .live =>
    match s.stream with
    | some k =>
      if k.admitted then some { s with stream := some { k with live := true } }
      else none
    | none => none
  | .frame =>
    match s.stream with
    | some ⟨lastId, admitted, true, f :: frames⟩ =>
      some ({ s with stream := some ⟨lastId, admitted, true, frames⟩ }.onFrame f)
    | _ => none
  | .drop => if s.stream.isSome then some { s with stream := none } else none
  | .reconnect =>
    if s.stream.isNone = true ∧ s.ready = true then some s.open_ else none
  | .flush =>
    if s.flush then
      let rested := { s with flush := false, pending := [], wantsSnapshot := false }
      some (rested.ask u
        (if s.wantsSnapshot then Rch.loadSnapshot u else Rch.refetch u s.pending))
    else none
  | .answer i =>
    if i < s.reads.length then some { s with reads := s.reads.eraseIdx i } else none
  | .refetch changed => some (s.ask u (Rch.refetch u changed))
  | .loadSnapshot => some (s.ask u (Rch.loadSnapshot u))

/-- A session before its snapshot, on a pod that may have listened before or
not. -/
def feed (u : Viewer) : Machine Feed Feed.Event where
  init s := s.commits = [] ∧ s.stream = none ∧ s.ready = false ∧
    s.lastEventId = none ∧ s.pending = [] ∧ s.wantsSnapshot = false ∧
    s.flush = false ∧ s.reads = [] ∧ s.snapshotRead = none ∧
    (s.listener = .up → s.everConnected = true)
  step := Feed.step u

/-- The stream is live, the pod is listening, nothing is on its way, no debounce
is running and no read is. -/
def Feed.Quiet (s : Feed) : Prop :=
  (∃ k, s.stream = some k ∧ k.admitted = true ∧ k.live = true ∧ k.frames = []) ∧
    s.listener = .up ∧ s.wire = [] ∧ s.flush = false ∧ s.reads = []

/-- A commit since the session's snapshot was read named the collection, and it
has not been asked for since. -/
def Feed.Owed (u : Viewer) (s : Feed) (c : Collection) : Prop :=
  follows u c = true ∧ ∃ n k cs, s.snapshotRead = some n ∧ n ≤ k ∧
    s.commits[k]? = some cs ∧ c ∈ cs ∧ s.asked c ≤ k

end Rch
