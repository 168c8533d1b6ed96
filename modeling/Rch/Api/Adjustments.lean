import Rch.Api.Requests

/-!
# Adjustments

One correction to one shelf: some lines down, some up, one document over the
lot. A write-off is checked against what is free under the locks, and once
more with the moves posted. A counter cannot write one; it asks, and the
manager's approval writes the correction in the same step.
-/

namespace Rch

open Kit

structure AdjustmentDraft where
  loc : LocKey
  reason : AdjustReason
  note : String
  lines : List LineInput
  by_ : String
  at_ : Instant

def shortOf (m : Master) (locName : String) (it : ItemKey) (want free : Qty) :
    String :=
  "Cannot write off " ++ fq want (m.unitOf it) ++ " " ++ m.unitOf it ++ " of "
    ++ m.itemName it ++ " - " ++ locName ++ " has only "
    ++ fq free (m.unitOf it) ++ " " ++ m.unitOf it ++ " free"

/-- The moves of a correction, with the consumption beside whatever it lands
at the kitchen. -/
def adjustmentMoves (m : Master) (d : AdjustmentDraft) (id : String)
    (lines : List Line) : List Move :=
  withUseOnArrival (fun it => (m.items it).map Item.t)
    (lines.map fun l =>
      ⟨d.loc, l.it, l.qty, .adjustment, "adjustment", id, some d.by_, d.at_,
        none⟩)

/-- The whole of a correction. Hands back the document's number. -/
def writeAdjustment (db : Db) (m : Master) (d : AdjustmentDraft) :
    Outcome (Db × String) := do
  let shelf ← lockLocation db d.loc
  if shelf.type = .Outlet then assertOpen shelf none
  let lines := (foldLines d.lines).filter fun l => decide (l.qty ≠ 0)
  assertRule (lines ≠ [])
    "Enter a quantity to write off or count up on at least one line"
  checkEach lines fun l => do
    let _ ← orNotFound (m.items l.it) ("There is no item " ++ l.it ++ ".")
  assertEach lines
    (fun l => ¬ (l.qty < 0 ∧
      (m.items l.it).any (fun item => usedOnArrival item.t d.loc) = true))
    fun l => notStockedAtKitchenMessage (m.itemName l.it)
  let stock := lockBalances db.stock (lines.map fun l => ⟨d.loc, l.it⟩)
  let down := (lines.filter fun l => decide (l.qty < 0)).map fun l =>
    (⟨l.it, round3 (-(l.qty : ℚ))⟩ : Line)
  assertEach down (fun l => l.qty ≤ freeAt stock d.loc l.it) fun l =>
    shortOf m shelf.n l.it l.qty (freeAt stock d.loc l.it)
  let (db, id) := allocateId db .adj d.at_
  let stock := postMoves stock (adjustmentMoves m d id lines)
  assertEach down (fun l => 0 ≤ freeAt stock d.loc l.it) fun l =>
    shortOf m shelf.n l.it l.qty
      (max 0 (round3 ((freeAt stock d.loc l.it : ℚ) + l.qty)))
  let adjustments ← orInternal (db.adjustments.insert? id
    { loc := d.loc, reason := d.reason, note := d.note, byUser := d.by_,
      at_ := d.at_, lines }) "adjustments_pkey"
  pure ({ db with stock, adjustments }, id)

structure CreateAdjustmentBody where
  loc : LocKey
  reason : AdjustReason
  note : String
  lines : List LineInput

def createAdjustment (db : Db) (claims : Claims) (body : CreateAdjustmentBody)
    (at_ : Instant) : Outcome Db := do
  let (db, _) ← writeAdjustment db db.master
    ⟨body.loc, body.reason, body.note, body.lines, claims.sub, at_⟩
  pure db

/-! ## The counter's ask -/

structure CreateAdjustmentRequestBody where
  reason : AdjustReason
  note : String
  lines : List LineInput

def createAdjustmentRequest (db : Db) (claims : Claims)
    (body : CreateAdjustmentRequestBody) (at_ : Instant) : Outcome Db := do
  let place ← lockLocation db claims.loc
  if place.type = .Outlet then assertOpen place none
  let m := db.master
  checkEach body.lines fun l => do
    let _ ← orNotFound (m.items l.it) ("There is no item " ++ l.it ++ ".")
  assertRule (repeatedLine body.lines = none)
    ("Combine the "
      ++ ((repeatedLine body.lines).map fun l => m.itemName l.it).getD ""
      ++ " lines into one")
  let lines := (body.lines.map fun l => (⟨l.it, round3 l.qty⟩ : Line)).filter
    fun l => decide (l.qty ≠ 0)
  assertRule (lines ≠ [])
    "Enter a quantity to write off or count up on at least one line"
  let (db, id) := allocateId db .adjReq at_
  let adjustmentRequests ← orInternal (db.adjustmentRequests.insert? id
    { loc := claims.loc, reason := body.reason, note := body.note,
      byUser := claims.sub, at_, status := .requestSent, approvedBy := none,
      adjustmentId := none, lines }) "adjustment_requests_pkey"
  pure { db with adjustmentRequests }

def modifyAdjustmentRequest (db : Db) (id : String)
    (f : AdjustmentRequestRow → AdjustmentRequestRow) : Db :=
  { db with adjustmentRequests := db.adjustmentRequests.modify id f }

def cancelAdjustmentRequest (db : Db) (claims : Claims) (id : String) :
    Outcome Db := do
  let r ← orNotFound (db.adjustmentRequests.get? id)
    ("There is no adjustment request " ++ id ++ ".")
  if ¬ claims.wide then requireLocOf claims r.loc "your own counter"
  assertTransition adjustmentRequestTransitions AdjReqStatus.word r.status
    .cancelled id
  pure (modifyAdjustmentRequest db id fun r => { r with status := .cancelled })

/-- The decision to say yes, and the correction itself. -/
def approveAdjustmentRequest (db : Db) (claims : Claims) (id : String)
    (at_ : Instant) : Outcome Db := do
  let r ← orNotFound (db.adjustmentRequests.get? id)
    ("There is no adjustment request " ++ id ++ ".")
  assertTransition adjustmentRequestTransitions AdjReqStatus.word r.status
    .approved id
  let (db, adjustment) ← writeAdjustment db db.master
    ⟨r.loc, r.reason, r.note, r.lines.map Line.input, claims.sub, at_⟩
  pure (modifyAdjustmentRequest db id fun r =>
    { r with
      status := .approved, approvedBy := some claims.sub,
      adjustmentId := some adjustment })

def rejectAdjustmentRequest (db : Db) (claims : Claims) (id note : String) :
    Outcome Db := do
  let r ← orNotFound (db.adjustmentRequests.get? id)
    ("There is no adjustment request " ++ id ++ ".")
  assertRule (trim note ≠ "")
    "Give a reason - the counter sees it on the request"
  assertTransition adjustmentRequestTransitions AdjReqStatus.word r.status
    .rejected id
  pure (modifyAdjustmentRequest db id fun r =>
    { r with status := .rejected, approvedBy := some claims.sub })

end Rch
