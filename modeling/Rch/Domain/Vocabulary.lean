import Mathlib.Tactic.Common

/-!
# The words of the documents

Every closed set the schema declares, as an enumeration: statuses, kinds,
tenders. Each comes with the word it is stored and printed under, because a
refusal quotes a status back at the operator in those words.

A value outside the set cannot be written down here, just as the database's
own enum refuses it.
-/

namespace Rch

inductive ItemType
  | RAW | PACK | MRP | FG | MTO
deriving DecidableEq, Repr

/-- Which desk a counter's stock request for an item is routed to. -/
inductive Source
  | store | kitchen
deriving DecidableEq, Repr

inductive LocType
  | Store | Kitchen | Outlet
deriving DecidableEq, Repr

inductive ReqStatus
  | draft | requestSent | managerApproved | partiallyApproved | ticketIssued
  | collected | received | closed | rejected | cancelled
deriving DecidableEq, Repr

def ReqStatus.word : ReqStatus → String
  | draft => "Draft"
  | requestSent => "Request sent"
  | managerApproved => "Manager approved"
  | partiallyApproved => "Partially approved"
  | ticketIssued => "Ticket issued"
  | collected => "Collected"
  | received => "Received"
  | closed => "Closed"
  | rejected => "Rejected"
  | cancelled => "Cancelled"

inductive TktStatus
  | issued | collected | received | cancelled
deriving DecidableEq, Repr

def TktStatus.word : TktStatus → String
  | issued => "Issued"
  | collected => "Collected"
  | received => "Received"
  | cancelled => "Cancelled"

/-- What raised a ticket: the document its `refId` names, or a label. -/
inductive TicketRefType
  | request | prodOrder | direct | shopTransfer | shopAsk
deriving DecidableEq, Repr

inductive PordStatus
  | new | accepted | inKitchen | ready | dispatched | declined
deriving DecidableEq, Repr

def PordStatus.word : PordStatus → String
  | new => "New"
  | accepted => "Accepted"
  | inKitchen => "In kitchen"
  | ready => "Ready"
  | dispatched => "Dispatched"
  | declined => "Declined"

inductive ShopAskStatus
  | asked | sent | declined
deriving DecidableEq, Repr

def ShopAskStatus.word : ShopAskStatus → String
  | asked => "Asked"
  | sent => "Sent"
  | declined => "Declined"

inductive AdjReqStatus
  | requestSent | approved | rejected | cancelled
deriving DecidableEq, Repr

def AdjReqStatus.word : AdjReqStatus → String
  | requestSent => "Request sent"
  | approved => "Approved"
  | rejected => "Rejected"
  | cancelled => "Cancelled"

inductive AdjustReason
  | wastage | breakage | expired | count | returnedToVendor | other
deriving DecidableEq, Repr

inductive PoStatus
  | draft | ordered | partiallyReceived | received | cancelled
deriving DecidableEq, Repr

def PoStatus.word : PoStatus → String
  | draft => "Draft"
  | ordered => "Ordered"
  | partiallyReceived => "Partially received"
  | received => "Received"
  | cancelled => "Cancelled"

inductive MoveKind
  | opening | sale | ticketOut | ticketIn | productionConsume
  | productionYield | grnAccept | grnReject | adjustment | reversal
deriving DecidableEq, Repr

inductive Tender
  | cash | upi | card | staffCredit | doctorCredit | dept | online
deriving DecidableEq, Repr

def Tender.word : Tender → String
  | cash => "Cash"
  | upi => "UPI"
  | card => "Card"
  | staffCredit => "Staff credit"
  | doctorCredit => "Doctor credit"
  | dept => "Dept"
  | online => "Online"

inductive PayerKind
  | staff | dept | doctor
deriving DecidableEq, Repr

inductive BillParty
  | customer | staff | dept | doctor
deriving DecidableEq, Repr

/-- Where a bill was raised: at a till, or by a QR order's capture. -/
inductive BillSource
  | till | qr
deriving DecidableEq, Repr

inductive SettlementMode
  | cash | upi | card | bankTransfer | payrollDeduction
deriving DecidableEq, Repr

def SettlementMode.word : SettlementMode → String
  | cash => "Cash"
  | upi => "UPI"
  | card => "Card"
  | bankTransfer => "Bank transfer"
  | payrollDeduction => "Payroll deduction"

inductive QrMode
  | pickup | deliver
deriving DecidableEq, Repr

inductive QrOrderStatus
  | awaitingPayment | paid | preparing | ready | outForDelivery
  | collected | delivered | refunded | expired | voided
deriving DecidableEq, Repr

def QrOrderStatus.word : QrOrderStatus → String
  | awaitingPayment => "Awaiting payment"
  | paid => "Paid"
  | preparing => "Preparing"
  | ready => "Ready"
  | outForDelivery => "Out for delivery"
  | collected => "Collected"
  | delivered => "Delivered"
  | refunded => "Refunded"
  | expired => "Expired"
  | voided => "Voided"

inductive RefundStatus
  | pending | sent | processed | failed
deriving DecidableEq, Repr

def RefundStatus.word : RefundStatus → String
  | pending => "Pending"
  | sent => "Sent"
  | processed => "Processed"
  | failed => "Failed"

inductive RefundReason
  | unfulfillable | void | duplicate
deriving DecidableEq, Repr

end Rch
