import Rch.Api.Idempotency
import Rch.Kit.Machine

/-!
# Requests under a key

Any number of requests, each at its own pace: its claim, its transaction, the
record inside it, the reply, and what is done after the reply. Only the record
holds a lock, on the row it fills in, from its update to the end of its
transaction. A request may be cut off anywhere.

`commits` and `holder` are not part of the system. The one notes each
transaction that committed, with the answer it recorded if it recorded one; the
other who claimed each key last, by inserting its row or by taking it over.
-/

namespace Rch

open Kit

/-- A write request, in what its claim and its record depend on. -/
structure KeyRequest where
  key : ClaimKey
  hash : String
  /-- An answer that is not recorded takes its write down. -/
  strict : Bool
  /-- The transaction may be no answer: it commits something, and then the
  request is refused. -/
  optional : Bool
deriving DecidableEq

inductive RequestStage
  | arrived (attempt : ℕ)
  /-- The insert found a row there. -/
  | conflicted (attempt : ℕ)
  /-- The row looked abandoned. -/
  | stale (attempt : ℕ)
  | answered (outcome : ClaimOutcome)
  /-- It holds the claim, and its transaction is open. -/
  | holding
  | recorded (body : Json) (at_ : Instant)
  /-- At its COMMIT with nothing recorded: the schema refused the answer, or
  accepted it and the row was gone or filled in. -/
  | unrecorded (accepted : Bool)
  | settled (recorded : Bool)
  | replying (recorded : Bool) (status : ℕ) (body : Json)
  | gone

structure OpenRequest where
  request : KeyRequest
  stage : RequestStage

structure KeyCommit where
  by_ : ℕ
  request : KeyRequest
  recorded : Option Json
  /-- Its answer was one the schema accepts. -/
  accepted : Bool
  /-- The row under the key was still the one it had claimed. -/
  held : Bool

structure Keys where
  rows : ClaimRows
  requests : Table ℕ OpenRequest
  commits : List KeyCommit
  holder : ClaimKey → Option ℕ

namespace Keys

inductive Event
  | arrive (i : ℕ) (r : KeyRequest)
  | insert (i : ℕ) (now : Instant)
  | lookup (i : ℕ) (now : Instant)
  | takeover (i : ℕ) (now : Instant)
  /-- The transaction throws before its record, or nothing opens one. -/
  | refuse (i : ℕ) (status : ℕ) (body : Json)
  /-- The function has returned: its answer as the schema parses it, or none. -/
  | record (i : ℕ) (now : Instant) (answer : Option Json)
  | commit (i : ℕ)
  | rollback (i : ℕ) (body : Json)
  | reply (i : ℕ) (status : ℕ) (body : Json)
  | send (i : ℕ) (now : Instant)
  | crash (i : ℕ)

def at_ (s : Keys) (i : ℕ) (stage : RequestStage) : Keys :=
  { s with
    requests := s.requests.modify i fun r => { r with stage := stage } }

/-- The claim is this request's, on the row it leaves there. -/
def claimed (s : Keys) (i : ℕ) (key : ClaimKey) (rows : ClaimRows) : Keys :=
  { s with
    rows := rows
    holder := fun k => if k = key then some i else s.holder k }.at_ i .holding

/-- Nobody has claimed the row since this request did, nor is it gone. -/
def holds (s : Keys) (i : ℕ) (key : ClaimKey) : Bool :=
  (s.rows.get? key).isSome && decide (s.holder key = some i)

def again (attempt : ℕ) : RequestStage :=
  if attempt + 1 < maxAttempts then .arrived (attempt + 1)
  else .answered .inProgress

/-- The row under the key is another transaction's until that is over. -/
def locked (s : Keys) (i : ℕ) (key : ClaimKey) : Bool :=
  s.requests.rows.any fun r => decide (r.1 ≠ i ∧ r.2.request.key = key) &&
    match r.2.stage with
    | .recorded .. => true
    | _ => false

/-- What stops a record from being made: the write goes down with it, or goes
on without. -/
def unrecordable (s : Keys) (i : ℕ) (down accepted : Bool) : Keys :=
  s.at_ i (if down then .replying false 500 .null else .unrecorded accepted)

/-- `recordIdempotent`, as the last statement of its transaction. -/
def recordStmt (s : Keys) (i : ℕ) (r : KeyRequest) (now : Instant)
    (answer : Option Json) : Option Keys :=
  match answer with
  | none => some (s.unrecordable i (r.strict && !r.optional) false)
  | some body =>
    if s.locked i r.key then none
    else if uncommitted s.rows r.key then some (s.at_ i (.recorded body now))
    else some (s.unrecordable i r.strict true)

def committed (s : Keys) (i : ℕ) (r : KeyRequest) (recorded : Option Json)
    (accepted : Bool) : Keys :=
  { s with
    commits := s.commits ++ [⟨i, r, recorded, accepted, s.holds i r.key⟩] }

def step (s : Keys) : Event → Option Keys
  | .arrive i r => (s.requests.insert? i ⟨r, .arrived 0⟩).map fun requests =>
    { s with requests := requests }
  | .insert i now =>
    match s.requests.get? i with
    | some ⟨r, .arrived n⟩ =>
      match tryInsert s.rows r.key r.hash now with
      | some rows => some (s.claimed i r.key rows)
      | none => some (s.at_ i (.conflicted n))
    | _ => none
  | .lookup i now =>
    match s.requests.get? i with
    | some ⟨r, .conflicted n⟩ =>
      match s.rows.get? r.key with
      | none => some (s.at_ i (again n))
      | some hit => some (s.at_ i (((readClaim hit r.hash now).map
          RequestStage.answered).getD (.stale n)))
    | _ => none
  | .takeover i now =>
    match s.requests.get? i with
    | some ⟨r, .stale n⟩ =>
      if s.locked i r.key then none
      else
        match tryTakeover s.rows r.key now with
        | some rows => some (s.claimed i r.key rows)
        | none => some (s.at_ i (again n))
    | _ => none
  | .refuse i status body =>
    match s.requests.get? i with
    | some ⟨_, .holding⟩ => some (s.at_ i (.replying false status body))
    | _ => none
  | .record i now answer =>
    match s.requests.get? i with
    | some ⟨r, .holding⟩ => s.recordStmt i r now answer
    | _ => none
  | .commit i =>
    match s.requests.get? i with
    | some ⟨r, .recorded body at_⟩ =>
      some (({ s with rows := s.rows.modify r.key (ClaimRow.record body at_) }.at_
        i (.settled true)).committed i r (some body) true)
    | some ⟨r, .unrecorded accepted⟩ =>
      some ((s.at_ i (.settled false)).committed i r none accepted)
    | _ => none
  | .rollback i body =>
    match s.requests.get? i with
    | some ⟨_, .recorded ..⟩ => some (s.at_ i (.replying true 500 body))
    | some ⟨_, .unrecorded _⟩ => some (s.at_ i (.replying false 500 body))
    | _ => none
  | .reply i status body =>
    match s.requests.get? i with
    | some ⟨_, .settled recorded⟩ =>
      some (s.at_ i (.replying recorded status body))
    | _ => none
  | .send i now =>
    match s.requests.get? i with
    | some ⟨r, .replying recorded status body⟩ =>
      if s.locked i r.key then none
      else some ({ s with
        rows := recordAfterSend s.rows r.key recorded status body now }.at_
          i .gone)
    | _ => none
  | .crash i => some (s.at_ i .gone)

def fresh : Keys := ⟨.empty, .empty, [], fun _ => none⟩

def machine : Machine Keys Event where
  init s := s = .fresh
  step := step

end Keys

end Rch
