import Rch.Api.RateCard

/-!
# The snapshot, cut to its caller

The reads are made whole and cut afterwards, one rule for each collection: by
where the caller stands, by the desk and what its role grants, by whose the
support ticket is. `Payload` names what no rule looks into; a row keeps what the
rules read of it and the rest as it came.
-/

namespace Rch

/-- What the cuts pass on without looking inside. -/
inductive Payload
  | user | items | locations | users | prices | priceLists | dayLabels
  | req | tkt | prq | po | pord | batch | bills | grn | vendors | contracts
  | tickets | productReqs | shopAsks | adjustments | adjReq

/-- Who is asking: the desk, where they stand, what their role grants now. -/
structure Who where
  desk : Role
  loc : LocKey
  perms : Permissions
  /-- A location's key is letters, digits and dashes. -/
  plain : ':' ∉ loc.toList

/-! ## The wire -/

namespace Wire

structure StockRequest (ρ : Type) where
  from_ : LocKey
  rest : ρ

structure Ticket (ρ : Type) where
  from_ : LocKey
  to_ : LocKey
  st : TktStatus
  otp : String
  rest : ρ

structure ShopAsk (ρ : Type) where
  from_ : LocKey
  to_ : LocKey
  rest : ρ

structure ProdOrder (ρ : Type) where
  from_ : LocKey
  rest : ρ

structure ProductRequest (ρ : Type) where
  forLoc : LocKey
  rest : ρ

structure Bill (ρ : Type) where
  loc : LocKey
  payer : Option PayerRef
  customerName : Option String
  customerPhone : Option String
  rest : ρ

structure SupportTicket (ρ : Type) where
  id : String
  rest : ρ

structure Adjustment (ρ : Type) where
  loc : LocKey
  rest : ρ

structure AdjustmentRequest (ρ : Type) where
  loc : LocKey
  rest : ρ

end Wire

structure PayerRoster where
  staff : List PayerRef
  depts : List PayerRef
  doctors : List PayerRef

/-- The three ledger maps; a key of the last two is `loc:item`. -/
@[ext] structure StockPart where
  stock : List (LocKey × List (ItemKey × Qty))
  rsv : List (String × Qty)
  ovr : List (String × String)

structure Snapshot (ρ : Payload → Type) extends StockPart where
  user : ρ .user
  items : ρ .items
  locations : ρ .locations
  users : ρ .users
  roster : PayerRoster
  terms : Terms
  prices : ρ .prices
  priceLists : ρ .priceLists
  menu : List (LocKey × List ItemKey)
  req : List (Wire.StockRequest (ρ .req))
  tkt : List (Wire.Ticket (ρ .tkt))
  prq : List (ρ .prq)
  po : List (ρ .po)
  pord : List (Wire.ProdOrder (ρ .pord))
  batch : List (ρ .batch)
  bills : List (Wire.Bill (ρ .bills))
  grn : List (ρ .grn)
  vendors : List (ρ .vendors)
  contracts : List (ρ .contracts)
  tickets : List (Wire.SupportTicket (ρ .tickets))
  productReqs : List (Wire.ProductRequest (ρ .productReqs))
  shopAsks : List (Wire.ShopAsk (ρ .shopAsks))
  /-- A record of takings by outlet for each day. -/
  sales : List (List (LocKey × Money))
  dayLabels : ρ .dayLabels
  adjustments : List (Wire.Adjustment (ρ .adjustments))
  adjReq : List (Wire.AdjustmentRequest (ρ .adjReq))

/-! ## The cuts -/

/-- Whether the caller's reads of a collection are cut to their location. -/
def cut (who : Who) (c : ReadCollection) : Bool :=
  !readsWide who.desk who.perms c

def anyOf (who : Who) (fs : List Feature) : Bool :=
  fs.any fun f => can who.perms f .view

def startsWith (k pre : String) : Bool := pre.toList.isPrefixOf k.toList

/-- A map's entry under a key, which is empty when there is none. -/
def ownEntry {α : Type} (L : LocKey) (m : List (LocKey × List α)) :
    List (LocKey × List α) :=
  [(L, (m.lookup L).getD [])]

/-- The kitchen's switches are read at every till they take a product off. -/
def scopeStock (part : StockPart) (who : Who) : StockPart :=
  if cut who .stock then
    { stock := ownEntry who.loc part.stock
      rsv := part.rsv.filter fun e => startsWith e.1 (who.loc ++ ":")
      ovr := part.ovr.filter fun e => startsWith e.1 (who.loc ++ ":") ||
        startsWith e.1 (KITCHEN ++ ":") }
  else part

section Cuts

variable {ρ : Type} (who : Who)

def scopeBills (bills : List (Wire.Bill ρ)) : List (Wire.Bill ρ) :=
  if !readsBills who.desk who.perms then []
  else if !cut who .bills then bills
  else bills.filter fun b => decide (b.loc = who.loc)

def scopeSales (sales : List (List (LocKey × Money))) :
    List (List (LocKey × Money)) :=
  if !readsBills who.desk who.perms then sales.map fun _ => []
  else if !cut who .bills then sales
  else sales.map fun row =>
    match row.lookup who.loc with
    | some taken => [(who.loc, taken)]
    | none => []

/-- Who a bill was charged to is read where bills or accounts are kept. -/
def readsPayers : Bool := anyOf who [.billing, .credit, .settlements]

/-- A text that was typed: the empty one counts as none. -/
def typed (s : Option String) : Bool := s.any fun s => decide (s ≠ "")

def withoutPayer (b : Wire.Bill ρ) : Wire.Bill ρ :=
  if b.payer.isSome || typed b.customerName || typed b.customerPhone then
    { b with payer := none, customerName := none, customerPhone := none }
  else b

def scopePayers (bills : List (Wire.Bill ρ)) : List (Wire.Bill ρ) :=
  if readsPayers who then bills else bills.map withoutPayer

def scopeRoster (roster : PayerRoster) : PayerRoster :=
  if readsPayers who then roster else ⟨[], [], []⟩

def noTerms : Terms := ⟨[], []⟩

def scopeTerms (terms : Terms) : Terms :=
  if readsPayers who then terms else noTerms

def scopeRequests (req : List (Wire.StockRequest ρ)) :
    List (Wire.StockRequest ρ) :=
  if !cut who .requests then req
  else req.filter fun r => decide (r.from_ = who.loc)

def scopeTickets (tkt : List (Wire.Ticket ρ)) : List (Wire.Ticket ρ) :=
  if !cut who .tickets then tkt
  else tkt.filter fun t => decide (t.from_ = who.loc) || decide (t.to_ = who.loc)

def scopeShopAsks (asks : List (Wire.ShopAsk ρ)) : List (Wire.ShopAsk ρ) :=
  if !cut who .shopAsks then asks
  else asks.filter fun a => decide (a.from_ = who.loc) || decide (a.to_ = who.loc)

def scopeProdOrders (pord : List (Wire.ProdOrder ρ)) :
    List (Wire.ProdOrder ρ) :=
  if !cut who .prodOrders then pord
  else pord.filter fun o => decide (o.from_ = who.loc)

def BUYING : List Feature :=
  [.requisitions, .procurement_list, .purchase_orders, .rate_contracts, .vendors,
    .goods_receipt, .inventory]

def BATCHES : List Feature :=
  [.kitchen_orders, .make_distribute, .kitchen_requests, .kitchen_tickets,
    .kitchen_stock, .items_stock]

def scopeBatches (batch : List ρ) : List ρ :=
  if decide (who.desk ≠ .counter) || anyOf who BATCHES then batch else []

def scopeBuying (rows : List ρ) : List ρ :=
  if decide (who.desk ≠ .counter) || anyOf who BUYING then rows else []

def scopeProductRequests (rows : List (Wire.ProductRequest ρ)) :
    List (Wire.ProductRequest ρ) :=
  if !cut who .productReqs then rows
  else rows.filter fun p => decide (p.forLoc = who.loc)

def COLLECTS : List Feature := [.outlet_tickets, .kitchen_tickets, .issue_desk]

def collects : Bool := COLLECTS.any fun f => can who.perms f .edit

def readsOtp (t : Wire.Ticket ρ) : Bool :=
  decide (t.st = .issued) && decide (t.to_ = who.loc) && collects who

def redactOtp (t : Wire.Ticket ρ) : Wire.Ticket ρ :=
  if readsOtp who t then t else { t with otp := "" }

def redactOtps (tkt : List (Wire.Ticket ρ)) : List (Wire.Ticket ρ) :=
  tkt.map (redactOtp who)

def scopeSupportTickets (sub : String) (byUser : String → Option String)
    (rows : List (Wire.SupportTicket ρ)) : List (Wire.SupportTicket ρ) :=
  rows.filter fun t => decide (byUser t.id = some sub)

def scopeAdjustments (rows : List (Wire.Adjustment ρ)) :
    List (Wire.Adjustment ρ) :=
  if !cut who .stock then rows
  else rows.filter fun a => decide (a.loc = who.loc)

def scopeAdjustmentRequests (rows : List (Wire.AdjustmentRequest ρ)) :
    List (Wire.AdjustmentRequest ρ) :=
  if !cut who .adjReq then rows
  else rows.filter fun r => decide (r.loc = who.loc)

end Cuts

/-- A caller's world, with `owners` saying whose each support ticket is. -/
def scope {ρ : Payload → Type} (s : Snapshot ρ) (who : Who) (sub : String)
    (owners : String → Option String) : Snapshot ρ :=
  { s with
    toStockPart := scopeStock s.toStockPart who
    tickets := scopeSupportTickets sub owners s.tickets
    menu := if cut who .stock then ownEntry who.loc s.menu else s.menu
    req := scopeRequests who s.req
    tkt := redactOtps who (scopeTickets who s.tkt)
    bills := scopePayers who (scopeBills who s.bills)
    sales := scopeSales who s.sales
    roster := scopeRoster who s.roster
    terms := scopeTerms who s.terms
    shopAsks := scopeShopAsks who s.shopAsks
    productReqs := scopeProductRequests who s.productReqs
    pord := scopeProdOrders who s.pord
    batch := scopeBatches who s.batch
    prq := scopeBuying who s.prq
    po := scopeBuying who s.po
    grn := scopeBuying who s.grn
    vendors := scopeBuying who s.vendors
    contracts := scopeBuying who s.contracts
    adjustments := scopeAdjustments who s.adjustments
    adjReq := scopeAdjustmentRequests who s.adjReq }

end Rch
