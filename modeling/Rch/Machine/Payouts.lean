import Rch.Api.RefundWorker
import Rch.Kit.Machine

/-!
# Refunds on their way to the gateway

Any number of workers claim the refunds that are due and send each. A claim is
one transaction and so is what is written of an answer; between the two the
worker looks at what the gateway has, asks for the refund and waits, with
nothing locked and for as long as it takes. Its request may arrive after the
worker has given up on it, or died, or it may never arrive. The gateway's
reports and a manager's retries come when they come.
-/

namespace Rch

open Kit

/-- Where a worker is with one refund it has claimed. -/
inductive SendStage
  | claimed
  /-- It looked, and the gateway had none for this row. -/
  | clear
  | posted
  | answered (g : GatewayRefund)
  | unsent (error : String) (final : Bool)
  | over

/-- What became of the request. -/
inductive SendRequest
  | none
  | travelling
  | lost
  | made (g : GatewayRefund)

/-- One send: the row as it was claimed, and where its request is. -/
structure RefundSend where
  id : String
  row : RefundRow
  stage : SendStage
  request : SendRequest

structure Payouts where
  db : Db
  /-- Every refund the gateway has ever made. -/
  gateway : List GatewayRefund
  sends : List RefundSend

namespace Payouts

inductive Event
  | queue (d : RefundDraft)
  | claim (now : Instant) (ids : List String)
  | lookup (i : ℕ)
  | post (i : ℕ)
  | arrive (i : ℕ) (id : String) (status : GatewayRefundStatus)
  | lose (i : ℕ)
  | answer (i : ℕ)
  /-- The look or the request ended in an error, a timeout among them. -/
  | fail (i : ℕ) (error : String) (final : Bool)
  | record (i : ℕ) (at_ : Instant)
  | crash (i : ℕ)
  | retry (id : String) (at_ : Instant)
  /-- A webhook or a poll. -/
  | report (rzpRefundId : String) (rid : Option String)
      (outcome : RefundOutcome) (at_ : Instant)
  /-- The gateway settles a refund it had accepted. -/
  | settle (id : String) (outcome : RefundOutcome)
  /-- A refund made at the gateway's own desk. -/
  | elsewhere (g : GatewayRefund)

/-- A transaction on the refunds: refused, it leaves nothing. -/
def write (s : Payouts) (x : Outcome Db) : Payouts :=
  match x with
  | .ok db => { s with db }
  | .error _ => s

def put (s : Payouts) (i : ℕ) (x : RefundSend) : Payouts :=
  { s with sends := s.sends.set i x }

def known (s : Payouts) (id : String) : Bool :=
  s.gateway.any fun g => decide (g.id = id)

def claimedSends (db : Db) (ids : List String) : List RefundSend :=
  ids.filterMap fun id => (db.refunds.get? id).map fun row =>
    ⟨id, row, .claimed, .none⟩

def lookedUp (s : Payouts) (x : RefundSend) : RefundSend :=
  match priorRefund s.gateway x.id x.row with
  | some g => { x with stage := .answered g }
  | none => { x with stage := .clear }

def settled (id : String) (outcome : RefundOutcome) (g : GatewayRefund) :
    GatewayRefund :=
  if g.id = id ∧ g.status = .pending then
    { g with status := match outcome with
      | .processed => .processed
      | .failed => .failed }
  else g

def step (s : Payouts) : Event → Option Payouts
  | .queue d => some (s.write (queueRefund s.db d))
  | .claim now ids =>
    if ids.length ≤ REFUND_BATCH then
      (claimDueRefunds s.db now ids).map fun db =>
        { s with db, sends := s.sends ++ claimedSends db ids }
    else none
  | .lookup i =>
    match s.sends[i]? with
    | some ⟨id, row, .claimed, q⟩ =>
      some (s.put i (s.lookedUp ⟨id, row, .claimed, q⟩))
    | _ => none
  | .post i =>
    match s.sends[i]? with
    | some ⟨id, row, .clear, _⟩ => some (s.put i ⟨id, row, .posted, .travelling⟩)
    | _ => none
  | .arrive i id status =>
    match s.sends[i]? with
    | some ⟨rid, row, stage, .travelling⟩ =>
      if s.known id then none
      else
        let g := (refundRequest rid row).made id status
        some { s.put i ⟨rid, row, stage, .made g⟩ with
          gateway := s.gateway ++ [g] }
    | _ => none
  | .lose i =>
    match s.sends[i]? with
    | some ⟨id, row, stage, .travelling⟩ => some (s.put i ⟨id, row, stage, .lost⟩)
    | _ => none
  | .answer i =>
    match s.sends[i]? with
    | some ⟨id, row, .posted, .made g⟩ =>
      some (s.put i ⟨id, row, .answered g, .made g⟩)
    | _ => none
  | .fail i error final =>
    match s.sends[i]? with
    | some ⟨id, row, .claimed, q⟩ | some ⟨id, row, .clear, q⟩
    | some ⟨id, row, .posted, q⟩ =>
      some (s.put i ⟨id, row, .unsent error final, q⟩)
    | _ => none
  | .record i at_ =>
    match s.sends[i]? with
    | some ⟨id, row, .answered g, q⟩ =>
      some ((s.write (recordSend s.db id g.id g.status.outcome at_)).put i
        ⟨id, row, .over, q⟩)
    | some ⟨id, row, .unsent error final, q⟩ =>
      some ((s.write (recordFailure s.db id ⟨error, final, true, at_⟩)).put i
        ⟨id, row, .over, q⟩)
    | _ => none
  | .crash i =>
    (s.sends[i]?).map fun x => s.put i { x with stage := .over }
  | .retry id at_ => some (s.write (retryRefund s.db id at_))
  | .report rzpRefundId rid outcome at_ =>
    if s.known rzpRefundId then
      some (s.write (settleRefund s.db rzpRefundId rid outcome at_))
    else none
  | .settle id outcome =>
    some { s with gateway := s.gateway.map (settled id outcome) }
  | .elsewhere g =>
    if s.known g.id ∨ g.rid.isSome then none
    else some { s with gateway := s.gateway ++ [g] }

/-- It starts with no refund queued and none at the gateway. -/
def machine : Machine Payouts Event where
  init s := s.db.refunds = .empty ∧ s.gateway = [] ∧ s.sends = []
  step := step

end Payouts

end Rch
