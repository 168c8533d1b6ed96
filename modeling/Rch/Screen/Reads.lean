import Mathlib.Data.List.Dedup
import Rch.Domain.Permissions

/-!
# What a browser reads back

A write names the collections it changed, and so does a notice on the change
stream. The browser pulls back exactly those, each by its own read, and falls
back on the whole snapshot for a collection that has none.

An answer replaces what the screen holds of it wholesale, so for each read it
matters which parts of the screen it writes.
-/

namespace Rch

/-- Every slice a write can touch. -/
inductive Collection
  | stock | rsv | ovr | prices | priceLists | menu | bills | req | tkt | prq | po
  | pord | batch | grn | vendors | contracts | tickets | productReqs | shopAsks
  | items | locations | outlets | roster | payers | terms | receivables
  | adjustments | adjReq | wastage | accounts | audit | shifts | roles | qrOrders
  | qrCodes
deriving DecidableEq

/-- The reads, under the manifest's names. -/
inductive Route
  | snapshot | stock | bills | requests | ticketsList | shopAsks | prodOrders
  | batches | requisitions | purchaseOrders | grns | vendors | contracts
  | productRequests | items | deskTickets | tickets | prices | priceLists | menus
  | roster | payerTerms | receivables | settlements | adminPayers | shifts
  | qrOrders | adminRoles | me | adjustments | adjustmentRequests | kitchenReport
  | adminUsers | locations | adminLocations | adminQrCodes
deriving DecidableEq

/-- What the screen holds, the store's own fields and the registries beside
it. -/
inductive Slice
  | user | items | locations | users | roster | terms | stock | rsv | ovr | prices
  | priceLists | menu | req | tkt | prq | po | pord | batch | bills | grn | vendors
  | contracts | tickets | productReqs | shopAsks | sales | dayLabels | adjustments
  | adjReq | deskTickets | accounts | adminLocations | adminPayers | adminQrCodes
  | adminOrderHours | adminRoles | receivables | settlements | shifts | qrOrders
  | qrPaused | qrHours | kitchenReport
deriving DecidableEq

def Route.sets : Route → List Slice
  | .snapshot => [.items, .locations, .prices, .priceLists, .menu, .users, .roster,
      .terms, .user, .stock, .rsv, .ovr, .req, .tkt, .prq, .po, .pord, .batch,
      .bills, .grn, .vendors, .contracts, .tickets, .productReqs, .shopAsks,
      .sales, .dayLabels, .adjustments, .adjReq]
  | .stock => [.stock, .rsv, .ovr]
  | .bills => [.bills]
  | .requests => [.req]
  | .ticketsList => [.tkt]
  | .shopAsks => [.shopAsks]
  | .prodOrders => [.pord]
  | .batches => [.batch]
  | .requisitions => [.prq]
  | .purchaseOrders => [.po]
  | .grns => [.grn]
  | .vendors => [.vendors]
  | .contracts => [.contracts]
  | .productRequests => [.productReqs]
  | .items => [.items]
  | .deskTickets => [.deskTickets]
  | .tickets => [.tickets]
  | .prices => [.prices]
  | .priceLists => [.priceLists]
  | .menus => [.menu]
  | .roster => [.roster]
  | .payerTerms => [.terms]
  | .receivables => [.receivables]
  | .settlements => [.settlements]
  | .adminPayers => [.adminPayers]
  | .shifts => [.shifts]
  | .qrOrders => [.qrOrders, .qrPaused, .qrHours]
  | .adminRoles => [.adminRoles]
  | .me => [.user]
  | .adjustments => [.adjustments]
  | .adjustmentRequests => [.adjReq]
  | .kitchenReport => [.kitchenReport]
  | .adminUsers => [.accounts]
  | .locations => [.locations]
  | .adminLocations => [.adminLocations]
  | .adminQrCodes => [.adminQrCodes, .adminOrderHours]

/-- Who is signed in on this browser. -/
structure Viewer where
  admin : Bool
  perms : Permissions

def operatorCan (u : Viewer) (f : Feature) : Bool := !u.admin && can u.perms f .view

/-- What the super admin's session reads back at all. -/
def ADMIN_READS : List Collection :=
  [.tickets, .payers, .roles, .accounts, .outlets, .qrCodes, .audit]

/-- The slices the stock read answers for, in one call. -/
def STOCK : List Collection := [.stock, .rsv, .ovr]

/-- The calls behind one collection, whose answers are applied together once
they are all there. A session that has no use for it makes none. -/
def NARROW (u : Viewer) : Collection → Option (List Route)
  | .stock | .rsv | .ovr => none
  | .bills => some [.bills]
  | .req => some [.requests]
  | .tkt => some [.ticketsList]
  | .shopAsks => some [.shopAsks]
  | .pord => some [.prodOrders]
  | .batch => some [.batches]
  | .prq => some [.requisitions]
  | .po => some [.purchaseOrders]
  | .grn => some [.grns]
  | .vendors => some [.vendors]
  | .contracts => some [.contracts]
  | .productReqs => some [.productRequests]
  | .items => some [.items]
  | .tickets => some (if u.admin then [.deskTickets] else [.tickets])
  | .prices => some [.prices]
  | .priceLists => some (if operatorCan u .prices then [.priceLists] else [])
  | .menu => some [.menus]
  | .roster => some (if u.admin then [] else [.roster])
  | .terms => some (if u.admin then [] else [.payerTerms])
  | .receivables =>
    some (if operatorCan u .settlements then [.receivables, .settlements] else [])
  | .payers => some (if u.admin then [.adminPayers] else [])
  | .shifts => some (if operatorCan u .shift_reports then [.shifts] else [])
  | .qrOrders => some (if operatorCan u .qr_orders then [.qrOrders] else [])
  | .roles => some (if u.admin then [.adminRoles] else [.me])
  | .adjustments => some [.adjustments]
  | .adjReq => some [.adjustmentRequests]
  | .wastage => some (if operatorCan u .kitchen_stock then [.kitchenReport] else [])
  | .accounts => some [.adminUsers]
  | .locations => some (if u.admin then [] else [.locations])
  | .outlets => some (if u.admin then [.adminLocations] else [])
  | .qrCodes => some (if u.admin then [.adminQrCodes] else [])
  -- The audit log's list never moves by itself.
  | .audit => some []

/-- An admin's session has no hospital to load. -/
def loadSnapshot (u : Viewer) : List (List Route) :=
  if u.admin then [] else [[.snapshot]]

/-- The reads that pull back exactly what a write said it changed, each applied
by itself. -/
def refetch (u : Viewer) (changed : List Collection) : List (List Route) :=
  let want := (if u.admin then changed.filter fun c => decide (c ∈ ADMIN_READS)
    else changed).dedup
  if want.any fun c => (NARROW u c).isNone && decide (c ∉ STOCK) then
    loadSnapshot u
  else
    (if want.any fun c => decide (c ∈ STOCK) then [[.stock]] else []) ++
      (want.filterMap (NARROW u)).filter fun calls => !calls.isEmpty

end Rch
