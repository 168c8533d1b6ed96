import Rch.Domain.Vocabulary

/-!
# Status transitions

The transition tables are data: a status and the statuses that may follow it.
The server refuses anything not listed.
-/

namespace Rch

abbrev TransitionTable (S : Type) := S → List S

def requestTransitions : TransitionTable ReqStatus
  | .draft => [.requestSent, .cancelled]
  | .requestSent =>
      [.managerApproved, .partiallyApproved, .rejected, .cancelled]
  | .managerApproved => [.ticketIssued, .cancelled]
  | .partiallyApproved => [.ticketIssued, .cancelled]
  | .ticketIssued => [.collected]
  | .collected => [.closed]
  | .received => [.closed]
  | .closed => []
  | .rejected => []
  | .cancelled => []

def ticketTransitions : TransitionTable TktStatus
  | .issued => [.collected, .cancelled]
  | .collected => [.received]
  | .received => []
  | .cancelled => []

def prodOrderTransitions : TransitionTable PordStatus
  | .new => [.accepted, .declined, .dispatched]
  | .accepted => [.inKitchen, .dispatched]
  | .inKitchen => [.ready, .dispatched]
  | .ready => [.dispatched]
  | .dispatched => [.ready]
  | .declined => []

def shopAskTransitions : TransitionTable ShopAskStatus
  | .asked => [.sent, .declined]
  | .sent => [.asked]
  | .declined => []

def poTransitions : TransitionTable PoStatus
  | .draft => [.ordered, .cancelled]
  | .ordered => [.partiallyReceived, .received, .cancelled]
  | .partiallyReceived => [.partiallyReceived, .received]
  | .received => []
  | .cancelled => []

def adjustmentRequestTransitions : TransitionTable AdjReqStatus
  | .requestSent => [.approved, .rejected, .cancelled]
  | .approved => []
  | .rejected => []
  | .cancelled => []

def qrOrderTransitions : TransitionTable QrOrderStatus
  | .awaitingPayment => [.paid, .refunded, .expired]
  | .expired => [.paid, .refunded]
  | .paid => [.preparing, .voided]
  | .preparing => [.ready, .outForDelivery, .voided]
  | .ready => [.collected, .voided]
  | .outForDelivery => [.delivered, .voided]
  | .collected => [.voided]
  | .delivered => [.voided]
  | .refunded => []
  | .voided => []

def refundTransitions : TransitionTable RefundStatus
  | .pending => [.sent, .failed]
  | .sent => [.processed, .failed]
  | .failed => [.pending]
  | .processed => []

/-- Whether a table lists `next` under `now`. -/
def canTransition {S : Type} [DecidableEq S] (table : TransitionTable S)
    (now next : S) : Bool := decide (next ∈ table now)

@[simp] theorem canTransition_iff {S : Type} [DecidableEq S]
    {table : TransitionTable S} {now next : S} :
    canTransition table now next = true ↔ next ∈ table now :=
  decide_eq_true_iff

end Rch
