import Rch.Api.Refusal
import Rch.Api.Trail
import Rch.Audit.Drain
import Rch.Domain.Ids
import Rch.Domain.Party
import Rch.Kit.Calendar
import Rch.Kit.Keyset
import Rch.Kit.Like

/-!
# Reading the audit log

The super admin's query speaks of hospital days and areas of the hospital. It is
turned into instants and action names once, and the log answers with a page of
rows, newest first by id, and with the figures over everything the query
matches.

A search is for its own characters: the database's pattern signs are escaped in
it. Left open are how the database folds case and the words of a query the
schema refuses.
-/

namespace Rch.AuditLog

open Kit

/-! ## What an action is called -/

inductive AuditGroup
  | sales | stock | purchasing | production | master | accounts | roles | support
deriving DecidableEq, Repr

def AUDIT_GROUPS : AuditGroup → String
  | .sales => "Sales"
  | .stock => "Stock movement"
  | .purchasing => "Purchasing"
  | .production => "Production"
  | .master => "Master data"
  | .accounts => "Accounts & sign-in"
  | .roles => "Roles & permissions"
  | .support => "Support"

structure AuditLabel where
  label : String
  refused : Option String
  group : AuditGroup

def AUDIT_LABELS : List (String × AuditLabel) := [
  ("login", ⟨"Signed in", some "Failed sign-in", .accounts⟩),
  ("logout", ⟨"Signed out", none, .accounts⟩),
  ("changePassword", ⟨"Changed their password", none, .accounts⟩),
  ("patchMe", ⟨"Changed their own details", none, .accounts⟩),
  ("createAdminUser", ⟨"Created a staff account", none, .accounts⟩),
  ("resetAdminUserPassword", ⟨"Reset a staff account's password", none, .accounts⟩),
  ("deactivateAdminUser", ⟨"Deactivated a staff account", none, .accounts⟩),
  ("reactivateAdminUser", ⟨"Reactivated a staff account", none, .accounts⟩),
  ("updateAdminUser", ⟨"Changed a staff account's role and location", none, .accounts⟩),
  ("setAdminUserPostings",
    ⟨"Changed which counters a staff account may work", none, .accounts⟩),
  ("deleteAdminUser", ⟨"Deleted a staff account", none, .accounts⟩),
  ("createRole", ⟨"Created a role", none, .roles⟩),
  ("updateRole", ⟨"Changed a role", none, .roles⟩),
  ("deactivateRole", ⟨"Deactivated a role", none, .roles⟩),
  ("reactivateRole", ⟨"Reactivated a role", none, .roles⟩),
  ("deleteRole", ⟨"Deleted a role", none, .roles⟩),
  ("closeRegister",
    ⟨"Closed the register and took a Z-report", some "Failed to close the register", .sales⟩),
  ("closeShift", ⟨"Closed their shift", some "Failed to close their shift", .sales⟩),
  ("pay", ⟨"Posted a bill", none, .sales⟩),
  ("voidBill", ⟨"Voided a bill", none, .sales⟩),
  ("toggleAvail", ⟨"Switched an item's availability", none, .sales⟩),
  ("recordSettlement", ⟨"Recorded a settlement", none, .sales⟩),
  ("voidSettlement", ⟨"Voided a settlement", none, .sales⟩),
  ("createQrOrder", ⟨"Placed a QR order", none, .sales⟩),
  ("verifyQrPayment", ⟨"Confirmed a QR order's payment", none, .sales⟩),
  ("setQrOrderStatus", ⟨"Moved a QR order", none, .sales⟩),
  ("setQrPause", ⟨"Paused or resumed QR ordering", none, .sales⟩),
  ("retryQrRefund", ⟨"Retried a QR refund", none, .sales⟩),
  ("qrOrderPaid", ⟨"Billed a paid QR order", none, .sales⟩),
  ("qrOrderRefunded", ⟨"Refunded a QR order that could not be filled", none, .sales⟩),
  ("qrRefundSent", ⟨"Sent a refund to the payment gateway", none, .sales⟩),
  ("qrRefundProcessed", ⟨"Refund processed by the payment gateway", none, .sales⟩),
  ("qrRefundFailed", ⟨"Refund failed at the payment gateway", none, .sales⟩),
  ("createRequest", ⟨"Raised a stock request", none, .stock⟩),
  ("cancelRequest", ⟨"Cancelled a stock request", none, .stock⟩),
  ("approveRequest", ⟨"Approved a stock request", none, .stock⟩),
  ("rejectRequest", ⟨"Rejected a stock request", none, .stock⟩),
  ("redirectRequest", ⟨"Redirected a stock request to another outlet", none, .stock⟩),
  ("issueTicket", ⟨"Issued a ticket for a stock request", none, .stock⟩),
  ("handover", ⟨"Handed over a ticket", none, .stock⟩),
  ("receiveTicket", ⟨"Received a ticket", none, .stock⟩),
  ("cancelTicket", ⟨"Cancelled a ticket", none, .stock⟩),
  ("transfer", ⟨"Transferred stock to another outlet", none, .stock⟩),
  ("askShop", ⟨"Asked another outlet for stock", none, .stock⟩),
  ("answerShopAsk", ⟨"Sent stock for another outlet's ask", none, .stock⟩),
  ("declineShopAsk", ⟨"Declined another outlet's ask", none, .stock⟩),
  ("createAdjustment", ⟨"Posted a stock adjustment", none, .stock⟩),
  ("createWastage", ⟨"Recorded kitchen wastage", none, .production⟩),
  ("createAdjustmentRequest", ⟨"Raised an adjustment request", none, .stock⟩),
  ("cancelAdjustmentRequest", ⟨"Cancelled an adjustment request", none, .stock⟩),
  ("approveAdjustmentRequest", ⟨"Approved an adjustment request", none, .stock⟩),
  ("rejectAdjustmentRequest", ⟨"Rejected an adjustment request", none, .stock⟩),
  ("createProdOrder", ⟨"Raised a kitchen order", none, .production⟩),
  ("setOrderStatus", ⟨"Moved a kitchen order", none, .production⟩),
  ("dispatchProdOrder", ⟨"Dispatched a kitchen order", none, .production⟩),
  ("distribute", ⟨"Sent kitchen stock to an outlet", none, .production⟩),
  ("makeBatch", ⟨"Made a batch", none, .production⟩),
  ("createRequisition", ⟨"Raised a purchase requisition", none, .purchasing⟩),
  ("approveRequisition", ⟨"Approved a purchase requisition", none, .purchasing⟩),
  ("declineRequisition", ⟨"Declined a purchase requisition", none, .purchasing⟩),
  ("addToProcurementList", ⟨"Added to the procurement list", none, .purchasing⟩),
  ("createPo", ⟨"Raised a purchase order", none, .purchasing⟩),
  ("updatePoLine", ⟨"Changed a purchase order line", none, .purchasing⟩),
  ("removePoLine", ⟨"Removed a purchase order line", none, .purchasing⟩),
  ("patchPo", ⟨"Changed a purchase order", none, .purchasing⟩),
  ("sendPo", ⟨"Sent a purchase order", none, .purchasing⟩),
  ("cancelPo", ⟨"Cancelled a purchase order", none, .purchasing⟩),
  ("receivePo", ⟨"Received goods against a purchase order", none, .purchasing⟩),
  ("closePoShort", ⟨"Closed a purchase order short", none, .purchasing⟩),
  ("createItem", ⟨"Added a product", none, .master⟩),
  ("patchItem", ⟨"Changed a product", none, .master⟩),
  ("setItemImage", ⟨"Set a product's photo", none, .master⟩),
  ("removeItemImage", ⟨"Removed a product's photo", none, .master⟩),
  ("savePrice", ⟨"Changed a price", none, .master⟩),
  ("createPriceList", ⟨"Created a price list", none, .master⟩),
  ("deletePriceList", ⟨"Deleted a price list", none, .master⟩),
  ("setOutletPriceList", ⟨"Switched an outlet's price list", none, .master⟩),
  ("saveOutletPrices", ⟨"Saved counter prices", none, .master⟩),
  ("addMenuItem", ⟨"Added an item to a menu", none, .master⟩),
  ("removeMenuItem", ⟨"Removed an item from a menu", none, .master⟩),
  ("addVendor", ⟨"Added a vendor", none, .master⟩),
  ("updateVendor", ⟨"Changed a vendor", none, .master⟩),
  ("addContract", ⟨"Added a rate contract", none, .master⟩),
  ("updateContract", ⟨"Changed a rate contract", none, .master⟩),
  ("removeContract", ⟨"Removed a rate contract", none, .master⟩),
  ("createProductRequest", ⟨"Asked for a new product", none, .master⟩),
  ("answerProductRequest", ⟨"Answered a new-product request", none, .master⟩),
  ("createOutlet", ⟨"Opened an outlet", none, .master⟩),
  ("updateOutlet", ⟨"Changed an outlet", none, .master⟩),
  ("closeOutlet", ⟨"Closed an outlet", none, .master⟩),
  ("reopenOutlet", ⟨"Reopened an outlet", none, .master⟩),
  ("createQrCode", ⟨"Created a QR code", none, .master⟩),
  ("updateQrCode", ⟨"Changed a QR code", none, .master⟩),
  ("regenerateQrCode", ⟨"Regenerated a QR code", none, .master⟩),
  ("setOrderHours", ⟨"Set an outlet's QR ordering hours", none, .master⟩),
  ("createPayer", ⟨"Added a payer", none, .master⟩),
  ("updatePayer", ⟨"Changed a payer", none, .master⟩),
  ("setClassTerms", ⟨"Changed a category's discount and credit limit", none, .master⟩),
  ("setPayerTerms", ⟨"Changed a payer's discount and credit limit", none, .master⟩),
  ("raiseTicket", ⟨"Raised a support ticket", none, .support⟩),
  ("replyToTicket", ⟨"Replied to a support ticket", none, .support⟩),
  ("setTicketStatus", ⟨"Changed a support ticket's status", none, .support⟩),
  ("rateTicket", ⟨"Rated a support ticket", none, .support⟩),
  ("replyAsDesk", ⟨"Replied as the support desk", none, .support⟩),
  ("setDeskTicketStatus", ⟨"Changed a support ticket's status at the desk", none, .support⟩)]

/-- The label and the area to print. An action nobody labels prints as itself. -/
def auditLabelOf (action : String) (outcome : AuditOutcome) :
    String × Option AuditGroup :=
  match AUDIT_LABELS.lookup action with
  | none => (action, none)
  | some l =>
    (if outcome = .refused then l.refused.getD l.label else l.label, some l.group)

def actionsInGroup (group : AuditGroup) : List String :=
  (AUDIT_LABELS.filter fun l => decide (l.2.group = group)).map Prod.fst

/-! ## The hospital's days -/

def DAY_MS : ℤ := 86400000

/-- The day an instant falls on, its year in as many digits as it takes. -/
def istDayOf (t : Instant) : String :=
  let date := civil (istDay t)
  toString (calendarYear date.1) ++ "-" ++ Decimal.pad 2 date.2.1 ++ "-"
    ++ Decimal.pad 2 date.2.2

/-- Midnight at the start of a day, or none where the calendar has no such day: a
day past its month's end is counted on into the next, and named back otherwise. -/
def istDayStart (day : String) : Option Instant := do
  let date ← Calendar.readStamp day
  guard (1 ≤ date.2.1 ∧ date.2.1 ≤ 12 ∧ 1 ≤ date.2.2 ∧ date.2.2 ≤ 31)
  let start := Calendar.dayOf date.1 date.2.1 date.2.2 * DAY_MS - 19800000
  if istDayOf start = day then some start else none

def nextIstDay (dayStart : Instant) : Instant := dayStart + DAY_MS

/-! ## The query -/

structure AuditQuery where
  from_ : Option String
  to_ : Option String
  actor : Option String
  role : Option String
  loc : Option String
  group : Option AuditGroup
  action : Option String
  outcome : Option AuditOutcome
  q : Option String
  before : Option ℕ
  limit : Option ℕ

/-- The query in the log's terms. -/
structure AuditFilter where
  fromAt : Instant
  toAt : Instant
  actor : Option String
  role : Option String
  loc : Option String
  actions : Option (List String)
  outcome : Option AuditOutcome
  q : Option String
  before : Option ℕ
  limit : ℕ

/-- The database's folding of case, and the schema library's words. -/
structure LogEnv where
  lower : Char → Char
  wording : AuditQuery → String

def AuditQuery.wellFormed (q : AuditQuery) : Bool :=
  q.from_.all (fun day => (Calendar.readStamp day).isSome) &&
  q.to_.all (fun day => (Calendar.readStamp day).isSome) &&
  q.actor.all (fun s => decide (codePoints s ≤ 64)) &&
  q.role.all (fun s => decide (codePoints s ≤ 40)) &&
  q.loc.all (fun s => decide (codePoints s ≤ 40)) &&
  q.action.all (fun s => decide (codePoints s ≤ 64)) &&
  q.q.all (fun s => decide (codePoints s ≤ 100)) &&
  q.before.all (fun n => decide (0 < n ∧ n < 2 ^ 53)) &&
  q.limit.all (fun n => decide (1 ≤ n ∧ n ≤ 500))

def dayStart (day : String) : Outcome Instant :=
  someOr (istDayStart day)
    ⟨.validation, "There is no day " ++ day ++ " on the calendar."⟩

/-- The actions an area and a single action leave between them. An empty action
is none. -/
def wantedActions (group : Option AuditGroup) (action : Option String) :
    Option (List String) :=
  match action.filter fun a => decide (a ≠ "") with
  | none => group.map actionsInGroup
  | some a => some (match group with
    | none => [a]
    | some g => (actionsInGroup g).filter fun b => decide (b = a))

def toFilter (now : Instant) (q : AuditQuery) : Outcome AuditFilter := do
  let to_ := q.to_.getD (istDayOf now)
  let from_ := q.from_.getD to_
  let fromAt ← dayStart from_
  let toStart ← dayStart to_
  assertValid (fromAt ≤ toStart)
    ("The period cannot start on " ++ from_ ++ ", after it ends on " ++ to_ ++ ".")
  pure {
    fromAt, toAt := nextIstDay toStart
    actor := q.actor, role := q.role, loc := q.loc
    actions := wantedActions q.group q.action
    outcome := q.outcome
    q := (q.q.map trim).filter fun text => decide (text ≠ "")
    before := q.before, limit := q.limit.getD 100 }

/-! ## The log -/

structure StoredEvent where
  id : ℕ
  at_ : Instant
  event : AuditEvent

/-- A search's pattern: its own characters, between any others. -/
def searchPattern (text : String) : List Char :=
  likeSigns.many :: (likeSigns.quote text.toList ++ [likeSigns.many])

section Reading

variable (env : LogEnv)

def searchFinds (text field : String) : Bool :=
  likeSigns.ilike env.lower (searchPattern text) field.toList

def matching (f : AuditFilter) (e : StoredEvent) : Bool :=
  decide (f.fromAt ≤ e.at_) && decide (e.at_ < f.toAt) &&
  f.actor.all (fun a => decide (e.event.actor.id = some a)) &&
  f.role.all (fun r => decide (e.event.actor.role = r)) &&
  f.loc.all (fun l => decide (e.event.actor.loc = l) || decide (e.event.targetLoc = l)) &&
  f.actions.all (fun l => decide (e.event.action ∈ l)) &&
  f.outcome.all (fun o => decide (e.event.outcome = o)) &&
  f.q.all (fun text => [e.event.target, e.event.message, e.event.actor.name,
    e.event.actor.emp].any (searchFinds env text))

structure AuditRow where
  id : ℕ
  at_ : String
  actor : AuditActor
  action : String
  target : String
  targetLoc : String
  outcome : AuditOutcome
  status : ℤ
  message : String
  requestId : String
  ip : String

def isoInstant (t : Instant) : String :=
  let ms := (t % DAY_MS).toNat
  Calendar.stamp (civil (t / DAY_MS)) ++ "T" ++ Decimal.pad 2 (ms / 3600000) ++ ":"
    ++ Decimal.pad 2 (ms / 60000 % 60) ++ ":" ++ Decimal.pad 2 (ms / 1000 % 60) ++ "."
    ++ Decimal.pad 3 (ms % 1000) ++ "Z"

def toRow (e : StoredEvent) : AuditRow where
  id := e.id
  at_ := isoInstant e.at_
  actor := e.event.actor
  action := e.event.action
  target := e.event.target
  targetLoc := e.event.targetLoc
  outcome := e.event.outcome
  status := e.event.status
  message := e.event.message
  requestId := e.event.requestId
  ip := e.event.ip

/-- Newest first by id, past the mark, with where the next page starts. -/
def page (log : List StoredEvent) (f : AuditFilter) : Keyset.Page StoredEvent :=
  Keyset.page StoredEvent.id (log.filter (matching env f)) f.before f.limit

structure AuditCounts where
  events : ℕ
  people : ℕ
  refused : ℕ
  failedSignIns : ℕ

/-- Over everything the query matches, never the page. A person is their account,
or the number typed at a sign-in nobody could be matched to. -/
def counts (log : List StoredEvent) (f : AuditFilter) : AuditCounts :=
  let found := log.filter (matching env f)
  { events := found.length
    people := (found.map fun e => e.event.actor.id.getD e.event.actor.emp).dedup.length
    refused := (found.filter fun e => decide (e.event.outcome ≠ .done)).length
    failedSignIns := (found.filter fun e =>
      decide (e.event.action = "login") && decide (e.event.outcome = .refused)).length }

structure AuditPage where
  rows : List AuditRow
  next : Option ℕ
  counts : AuditCounts

def list (log : List StoredEvent) (now : Instant) (q : AuditQuery) :
    Outcome AuditPage := do
  guardOr (q.wellFormed = true) ⟨.validation, env.wording q⟩
  let f ← toFilter now q
  pure {
    rows := (page env log f).rows.map toRow
    next := (page env log f).next
    counts := counts env log f }

end Reading

/-- One whole event. -/
structure AuditEntry extends AuditRow where
  method : String
  path : String
  cause : Option String
  request : Json
  before : Json
  result : Json
  changed : List String
  userAgent : String

def entry (log : List StoredEvent) (id : ℕ) : Outcome AuditEntry := do
  let e ← orNotFound (log.find? fun e => decide (e.id = id))
    ("There is no audit entry " ++ toString id ++ ".")
  pure { toRow e with
    method := e.event.method, path := e.event.path, cause := e.event.cause
    request := e.event.request, before := e.event.before, result := e.event.result
    changed := e.event.changed, userAgent := e.event.userAgent }

end Rch.AuditLog
