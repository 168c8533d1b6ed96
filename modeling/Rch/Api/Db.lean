import Rch.Api.Ledger
import Rch.Domain.Approval
import Rch.Domain.Availability
import Rch.Domain.Billing
import Rch.Domain.Credit
import Rch.Domain.Qr
import Rch.Kit.Table

/-!
# The tables

One record holds every table the services read or write. A document's lines
are stored with its head: they are written once, with it, and read back in the
order they were written.

The master data (items, places, prices, the rate card, the roster, the printed
codes) is one record of its own. The services below only read it; the screens
that edit it may change it between any two of their calls.
-/

namespace Rch

open Kit

/-! ## The master data -/

structure PayerRow where
  name : String
  active : Bool
deriving DecidableEq

structure QrCodeRow where
  id : String
  loc : LocKey
  label : String
  mode : QrMode
  active : Bool
deriving DecidableEq

structure MasterRows where
  /-- Every item, the withdrawn ones included. -/
  items : ItemKey → Option Item
  locations : LocKey → Option Location
  users : String → Option String
  /-- `location_items`: what each place lists. -/
  menu : LocKey → ItemKey → Bool
  prices : Prices
  overrides : OvrMap
  payers : PayerKind → String → Option PayerRow
  classTerms : BillParty → Option ResolvedTerms
  payerTerms : PayerKind → String → Option PayerTerms
  /-- A printed code, by the token its poster carries. -/
  qrCodes : String → Option QrCodeRow
  orderHours : LocKey → List OrderHoursDay
  qrPaused : LocKey → Bool

def MasterRows.empty : MasterRows where
  items _ := none
  locations _ := none
  users _ := none
  menu _ _ := false
  prices _ _ := none
  overrides _ _ := none
  payers _ _ := none
  classTerms _ := none
  payerTerms _ _ := none
  qrCodes _ := none
  orderHours _ := []
  qrPaused _ := false

/-- Withdrawn items are left out: no rule may price something the master no
longer sells. -/
def loadItems (r : MasterRows) (it : ItemKey) : Option Item :=
  (r.items it).filter Item.active

/-- Every item's type, withdrawn lines included: a ticket raised before a line
was withdrawn still lands. -/
def loadItemTypes (r : MasterRows) (it : ItemKey) : Option ItemType :=
  (r.items it).map Item.t

/-- Everything the domain's rules need, read once per request. -/
def loadMaster (r : MasterRows) : Master := ⟨loadItems r, r.locations⟩

/-- The open outlets, as `outletKeys` lists them. -/
def isOpenOutlet (m : Master) (loc : LocKey) : Bool :=
  (m.locations loc).any fun l => decide (l.type = .Outlet) && l.active

/-! ## The documents -/

structure TicketRow where
  refType : TicketRefType
  refId : String
  from_ : LocKey
  to_ : LocKey
  st : TktStatus
  otp : String
  otpAttempts : ℕ
  issuedBy : String
  issuedAt : Instant
  collectedAt : Option Instant
  receivedAt : Option Instant
  lines : List Line
deriving DecidableEq

structure RequestRow where
  fromLoc : LocKey
  byUser : String
  at_ : Instant
  status : ReqStatus
  ticketId : Option String
  managerNote : String
  urgent : Bool
  approvedBy : Option String
  lines : List RequestLine
deriving DecidableEq

structure ProdOrderRow where
  fromLoc : LocKey
  byUser : String
  at_ : Instant
  status : PordStatus
  needBy : Option String
  note : String
  lines : List Line
deriving DecidableEq

structure ShopAskRow where
  fromLoc : LocKey
  toLoc : LocKey
  it : ItemKey
  qty : Qty
  status : ShopAskStatus
  byUser : String
  at_ : Instant
  note : String
  grantedQty : Option Qty
  ticketId : Option String
  reason : Option String
deriving DecidableEq

structure BatchRow where
  it : ItemKey
  started : Qty
  made : Qty
  at_ : Instant
  bestBefore : Instant
  note : Option String
  byUser : String
deriving DecidableEq

structure AdjustmentRow where
  loc : LocKey
  reason : AdjustReason
  note : String
  byUser : String
  at_ : Instant
  lines : List Line
deriving DecidableEq

structure AdjustmentRequestRow where
  loc : LocKey
  reason : AdjustReason
  note : String
  byUser : String
  at_ : Instant
  status : AdjReqStatus
  approvedBy : Option String
  adjustmentId : Option String
  lines : List Line
deriving DecidableEq

/-- A purchase order's line: ordered, arrived, and turned away. -/
structure PoLine where
  it : ItemKey
  qty : Qty
  recv : Qty
  rejected : Qty
deriving DecidableEq

structure PurchaseOrderRow where
  status : PoStatus
  receivedAt : Option Instant
  lines : List PoLine
deriving DecidableEq

structure GrnRow where
  po : String
  it : ItemKey
  accepted : Qty
  rejected : Qty
  batch : String
  mfg : String
  exp : String
  dc : String
  invoice : String
  invDate : Option String
  at_ : Instant
  byUser : String
deriving DecidableEq

/-- One outlet's register between two Z-reports. -/
structure SessionRow where
  loc : LocKey
  zNo : Option String
  openedBy : String
  openedAt : Instant
  closedAt : Option Instant
  closedBy : Option String
deriving DecidableEq

structure PayerRef where
  kind : PayerKind
  id : String
  name : String
deriving DecidableEq

/-- The stamp a void leaves; the row under it stays as it was written. -/
structure VoidStamp where
  at_ : Instant
  by_ : String
  reason : String
deriving DecidableEq

structure BillRow where
  loc : LocKey
  operatorId : String
  total : Money
  tax : Money
  at_ : Instant
  tender : Tender
  sessionId : Option String
  payer : Option PayerRef
  discountPct : Pct
  discount : Money
  customerName : Option String
  customerPhone : Option String
  lines : List BillLine
  voided : Option VoidStamp
  source : BillSource
  qrOrderId : Option String
deriving DecidableEq

structure SettlementRow where
  kind : PayerKind
  payerId : String
  payerName : String
  amount : Money
  mode : SettlementMode
  note : String
  at_ : Instant
  by_ : String
  voided : Option VoidStamp
deriving DecidableEq

/-- An order's line as quoted: the price before the party's discount. -/
structure QrLine where
  it : ItemKey
  qty : Qty
  rate : Money
deriving DecidableEq

structure QrOrderRow where
  loc : LocKey
  qrCodeId : String
  label : String
  mode : QrMode
  spot : String
  status : QrOrderStatus
  customerName : String
  customerPhone : String
  total : Money
  tax : Money
  discount : Money
  secretHash : String
  nonce : String
  ip : String
  rzpOrderId : Option String
  /-- The payment that was billed, or refunded as unfulfillable. -/
  rzpPaymentId : Option String
  billNo : Option String
  expiresAt : Instant
  paidAt : Option Instant
  createdAt : Instant
  updatedAt : Instant
  lines : List QrLine
deriving DecidableEq

structure RefundRow where
  qrOrderId : String
  billNo : Option String
  paymentId : String
  amount : Money
  reason : RefundReason
  status : RefundStatus
  attempts : ℕ
  nextAttemptAt : Instant
  lastError : Option String
  rzpRefundId : Option String
  createdAt : Instant
  updatedAt : Instant
  processedAt : Option Instant
deriving DecidableEq

/-! ## The database -/

structure Db where
  rows : MasterRows
  /-- `sequences`: the next number of each series. -/
  seq : IdKind → ℕ
  stock : Stock
  tickets : Table String TicketRow
  requests : Table String RequestRow
  prodOrders : Table String ProdOrderRow
  shopAsks : Table String ShopAskRow
  batches : Table String BatchRow
  adjustments : Table String AdjustmentRow
  adjustmentRequests : Table String AdjustmentRequestRow
  purchaseOrders : Table String PurchaseOrderRow
  grns : Table String GrnRow
  sessions : Table String SessionRow
  bills : Table String BillRow
  settlements : Table String SettlementRow
  /-- `settlement_lines`, under settlement and bill. -/
  settlementLines : Table (String × String) Money
  qrOrders : Table String QrOrderRow
  refunds : Table String RefundRow

/-- A database fresh from its migrations: every series at its start, no
document, no stock. -/
def Db.fresh (rows : MasterRows) : Db where
  rows
  seq := sequenceStart
  stock := Stock.empty
  tickets := Table.empty
  requests := Table.empty
  prodOrders := Table.empty
  shopAsks := Table.empty
  batches := Table.empty
  adjustments := Table.empty
  adjustmentRequests := Table.empty
  purchaseOrders := Table.empty
  grns := Table.empty
  sessions := Table.empty
  bills := Table.empty
  settlements := Table.empty
  settlementLines := Table.empty
  qrOrders := Table.empty
  refunds := Table.empty

def Db.master (db : Db) : Master := loadMaster db.rows

/-- The name a refusal uses for a place: its own, or the key. -/
def Db.locName (db : Db) (loc : LocKey) : String := db.master.locName loc

def Db.advance (db : Db) (kind : IdKind) : Db :=
  { db with seq := fun k => if k = kind then db.seq k + 1 else db.seq k }

/-- Take the next number of a series: the printed id and the series moved on.
A refusal afterwards rolls this back with everything else. -/
def allocateId (db : Db) (kind : IdKind) (at_ : Instant) : Db × String :=
  (db.advance kind, formatId kind (db.seq kind) at_)

/-- A location's row, held for the rest of the transaction. -/
def lockLocation (db : Db) (key : LocKey) : Outcome Location :=
  orNotFound (db.rows.locations key) ("There is no location " ++ key ++ ".")

/-- Nothing new may name a closed outlet. -/
def assertOpen (row : Location) (then_ : Option String) : Outcome Unit :=
  assertRule (row.active = true)
    ("Refused - " ++ row.n ++ " is closed" ++
      match then_ with
      | some t => "; " ++ t
      | none => "")

theorem lockLocation_ok {db : Db} {key : LocKey} {l : Location} :
    lockLocation db key = .ok l ↔ db.rows.locations key = some l :=
  orNotFound_ok

theorem assertOpen_ok {row : Location} {t : Option String} {u : Unit} :
    assertOpen row t = .ok u ↔ row.active = true := assertRule_ok

/-! ## A series moved on leaves every table alone -/

section Advance

variable (db : Db) (kind : IdKind)

end Advance

end Rch
