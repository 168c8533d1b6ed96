import Rch.Domain.Ids
import Rch.Domain.Json
import Rch.Kit.Table

/-!
# The claim behind a key

A write proceeds only while it holds a row under its key and its caller. It
inserts the row, or takes over one that was left; else it is answered from the
row, or told to come back. The row is filled in by the write's own transaction.
What that left undone is done once the reply is sent. No statement touches a
row whose write has committed.
-/

namespace Rch

open Kit

structure ClaimRow where
  requestHash : String
  /-- Zero while the write is under way. -/
  statusCode : ℕ
  response : Json
  createdAt : Instant
  expiresAt : Instant
  committedAt : Option Instant

/-- A key is its caller's own. -/
structure ClaimKey where
  key : String
  userId : String
deriving DecidableEq

abbrev ClaimRows := Table ClaimKey ClaimRow

def TTL_MS : Instant := 24 * 3600000

def CLAIM_STALE_MS : Instant := 120000

/-- The claim marker: no real response carries it. -/
def CLAIMED : ℕ := 0

inductive ClaimOutcome
  | proceed
  | replay (statusCode : ℕ) (response : Json)
  | conflict
  | inProgress

def maxAttempts : ℕ := 3

/-! ## `resolveClaim`, statement by statement -/

def tryInsert (rows : ClaimRows) (key : ClaimKey) (requestHash : String)
    (now : Instant) : Option ClaimRows :=
  rows.insert? key ⟨requestHash, CLAIMED, .null, now, now + TTL_MS, none⟩

/-- What the row found says; nothing where it may be taken over. -/
def readClaim (hit : ClaimRow) (requestHash : String) (now : Instant) :
    Option ClaimOutcome :=
  if hit.requestHash ≠ requestHash then some .conflict
  else if hit.statusCode ≠ CLAIMED then
    some (.replay hit.statusCode hit.response)
  else if now - hit.createdAt < CLAIM_STALE_MS then some .inProgress
  else none

def ClaimRow.abandoned (row : ClaimRow) (now : Instant) : Bool :=
  decide (row.statusCode = CLAIMED ∧ row.committedAt = none ∧
    row.createdAt < now - CLAIM_STALE_MS)

def tryTakeover (rows : ClaimRows) (key : ClaimKey) (now : Instant) :
    Option ClaimRows :=
  if (rows.get? key).any (ClaimRow.abandoned · now) then
    some (rows.modify key fun row => { row with createdAt := now })
  else none

/-! ## The record, and what is left for after the reply -/

/-- The row is this key's, and no write behind it has committed. -/
def uncommitted (rows : ClaimRows) (key : ClaimKey) : Bool :=
  (rows.get? key).any fun row => decide (row.committedAt = none)

def ClaimRow.record (body : Json) (now : Instant) (row : ClaimRow) : ClaimRow :=
  { row with
    statusCode := 200
    response := body
    committedAt := some now
    expiresAt := now + TTL_MS }

def ClaimRow.sent (status : ℕ) (body : Json) (now : Instant) (row : ClaimRow) :
    ClaimRow :=
  { row with statusCode := status, response := body, expiresAt := now + TTL_MS }

/-- `recorded` is the request's own flag, set inside its transaction. -/
def recordAfterSend (rows : ClaimRows) (key : ClaimKey) (recorded : Bool)
    (status : ℕ) (body : Json) (now : Instant) : ClaimRows :=
  if recorded = true ∧ status < 300 then rows
  else if uncommitted rows key then
    if 500 ≤ status ∨ status = 429 then
      rows.restrict fun k => decide (k ≠ key)
    else rows.modify key (ClaimRow.sent status body now)
  else rows

end Rch
