import Mathlib.Tactic.Common
import Rch.Domain.Permissions

/-!
# Which doors a role opens

A role may only be given what its desk can be given, and a route is open to
whoever holds any of what it needs. The first need met decides whether the
request runs across the hospital; a caller who only sees the screen is told
what to ask for, where it can be given at all.
-/

namespace Rch

/-! ## The catalogue -/

inductive FeatureScope
  | wide | local
deriving DecidableEq

structure FeatureDef where
  label : String
  scope : FeatureScope
  /-- Which desks may be given each level: none where nobody may. -/
  levels : Level → Option (List Role)

def ALL : List Role := [.counter, .manager, .store, .prod, .buyer]

def levels (view edit : List Role) : Level → Option (List Role)
  | .view => some view
  | .edit => some edit

def both (desks : List Role) : Level → Option (List Role) := levels desks desks

def viewOnly (desks : List Role) : Level → Option (List Role)
  | .view => some desks
  | .edit => none

def editOnly (desks : List Role) : Level → Option (List Role)
  | .view => none
  | .edit => some desks

def FEATURES : Feature → FeatureDef
  | .billing => ⟨"Bills", .local, levels [.counter, .manager] [.counter]⟩
  | .x_report => ⟨"X reports", .local, viewOnly [.counter, .manager]⟩
  | .z_report => ⟨"Z reports", .local, both [.counter, .manager]⟩
  | .shift_reports => ⟨"Shift reports", .wide, viewOnly [.counter, .manager]⟩
  | .credit => ⟨"Discounts & credit limits", .wide, both ALL⟩
  | .settlements => ⟨"Receivables & settlements", .wide, both ALL⟩
  | .qr_orders => ⟨"QR orders", .local, both [.counter, .manager]⟩
  | .approvals => ⟨"Approvals", .wide, both ALL⟩
  | .items_stock => ⟨"Items & stock", .wide, both ALL⟩
  | .menu => ⟨"Menus", .wide, both ALL⟩
  | .prices => ⟨"Prices", .wide, both ALL⟩
  | .availability => ⟨"Product on / off", .local, editOnly [.counter, .manager, .prod]⟩
  | .item_photos => ⟨"Product photos", .local, editOnly [.counter, .manager]⟩
  | .outlet_stock => ⟨"Stock in hand", .local, both [.counter]⟩
  | .outlet_requests => ⟨"Stock requests", .local, both [.counter]⟩
  | .outlet_tickets => ⟨"Pick tickets", .local, both [.counter]⟩
  | .issue_desk => ⟨"Issue desk", .local, both [.store]⟩
  | .store_requisitions => ⟨"Store requisitions", .local, both [.store]⟩
  | .store_stock => ⟨"Store stock", .local, viewOnly [.store]⟩
  | .store_reports => ⟨"Store reports", .local, viewOnly [.store]⟩
  | .adjustments => ⟨"Adjustments", .local, both [.store, .prod]⟩
  | .goods_receipt => ⟨"Goods receipt", .local, editOnly [.store, .buyer]⟩
  | .kitchen_orders => ⟨"Kitchen orders", .local, both [.prod]⟩
  | .make_distribute => ⟨"Make & distribute", .local, both [.prod]⟩
  | .kitchen_requests => ⟨"Kitchen stock requests", .local, both [.prod]⟩
  | .kitchen_tickets => ⟨"Kitchen pick tickets", .local, both [.prod]⟩
  | .kitchen_stock => ⟨"Kitchen stock", .local, viewOnly [.prod]⟩
  | .requisitions => ⟨"Requisitions", .wide, both ALL⟩
  | .procurement_list => ⟨"Procurement list", .wide, both ALL⟩
  | .purchase_orders => ⟨"Purchase orders", .wide, both ALL⟩
  | .rate_contracts => ⟨"Rate contracts", .wide, both ALL⟩
  | .vendors => ⟨"Vendors", .wide, both ALL⟩
  | .item_master => ⟨"Item master", .local, editOnly [.store, .prod, .buyer]⟩
  | .new_products => ⟨"New products", .wide, both [.store, .buyer]⟩
  | .inventory => ⟨"Inventory", .wide, viewOnly ALL⟩
  | .stock_ledger => ⟨"Stock ledger", .wide, viewOnly ALL⟩

/-- The catalogue in the order the role editor lists it. -/
def features : List Feature :=
  [.billing, .x_report, .z_report, .shift_reports, .credit, .settlements,
   .qr_orders, .approvals, .items_stock, .menu, .prices, .availability,
   .item_photos, .outlet_stock, .outlet_requests, .outlet_tickets, .issue_desk,
   .store_requisitions, .store_stock, .store_reports, .adjustments,
   .goods_receipt, .kitchen_orders, .make_distribute, .kitchen_requests,
   .kitchen_tickets, .kitchen_stock, .requisitions, .procurement_list,
   .purchase_orders, .rate_contracts, .vendors, .item_master, .new_products,
   .inventory, .stock_ledger]

structure ActionDef where
  label : String
  parent : Option Feature
  desks : Option (List Role)
  refusal : String

def ACTIONS : Action → ActionDef
  | .void_bill => ⟨"Void a bill", some .billing, none,
      "You can see Bills but not void one - ask the administrator for the void "
        ++ "permission."⟩
  | .void_settlement => ⟨"Void a settlement", some .settlements, none,
      "You can see Receivables & settlements but not void a settlement - ask "
        ++ "the administrator for the void permission."⟩
  | .all_outlets => ⟨"Works for every outlet", none, some [.counter, .manager],
      "You can only do this at your own outlet - ask the administrator for "
        ++ "access to every outlet."⟩

def DESK_WORD : Role → String
  | .counter => "counter"
  | .manager => "outlet manager"
  | .store => "store"
  | .prod => "kitchen"
  | .buyer => "purchasing"

def Level.word : Level → String
  | .view => "view"
  | .edit => "edit"

/-! ## What a desk may be given -/

/-- Whether a role on this desk could be given this feature at this level. -/
def grantable (desk : Role) (f : Feature) (l : Level) : Bool :=
  ((FEATURES f).levels l).any fun desks => decide (desk ∈ desks)

def actionGrantable (desk : Role) (a : Action) : Bool :=
  decide (desk ∈ (ACTIONS a).desks.getD ALL) &&
    (ACTIONS a).parent.all fun f => grantable desk f .view

def featureRefusal (desk : Role) (perms : Permissions) (f : Feature) :
    Option String :=
  (perms.f f).bind fun l =>
    if grantable desk f l then none
    else some ("The " ++ DESK_WORD desk ++ " desk can't be given " ++ l.word
      ++ " access to " ++ (FEATURES f).label ++ ".")

def actionRefusal (desk : Role) (perms : Permissions) (a : Action) :
    Option String :=
  if (ACTIONS a).desks.any fun desks => decide (desk ∉ desks) then
    some ("The " ++ DESK_WORD desk ++ " desk can't be given \""
      ++ (ACTIONS a).label ++ "\".")
  else (ACTIONS a).parent.bind fun f =>
    if can perms f .view then none
    else some ("\"" ++ (ACTIONS a).label ++ "\" needs at least view access to "
      ++ (FEATURES f).label ++ ".")

/-- Why these permissions cannot be given to a role on this desk: the first
feature, or the first action, that does not fit. -/
def grantRefusal (desk : Role) (perms : Permissions) : Option String :=
  (features.findSome? (featureRefusal desk perms)).or
    (perms.a.findSome? (actionRefusal desk perms))

/-! ## The door -/

/-- One thing a route may be reached by. -/
inductive Need
  | feature (f : Feature) (l : Level)
  | action (a : Action)
deriving DecidableEq

inductive Access
  | public_ | any_ | admin
  | needs (needs : List Need)
  | desk (desks : List Role)
deriving DecidableEq

inductive Admitted
  | ok (wide : Bool)
  | refused (status : ℕ) (message : String)
deriving DecidableEq

def permissionRefusal (f : Feature) : String :=
  "You can see " ++ (FEATURES f).label ++ " but not change them - ask the "
    ++ "administrator for edit access."

def NOTHING : Admitted := .refused 404 "There is nothing here."

def Need.met (perms : Permissions) : Need → Bool
  | .feature f l => can perms f l
  | .action a => holds perms a

/-- What is used by this need is used across the hospital. -/
def Need.wide : Need → Bool
  | .feature f _ => decide ((FEATURES f).scope = .wide)
  | .action _ => true

/-- What a caller is told who sees the screen and could be given the rest. -/
def Need.ask (desk : Role) (perms : Permissions) : Need → Option String
  | .feature f l =>
    if can perms f .view && grantable desk f l then some (permissionRefusal f)
    else none
  | .action a =>
    if (ACTIONS a).parent.any (fun f => can perms f .view) &&
        actionGrantable desk a then some (ACTIONS a).refusal
    else none

/-- Any of the needs, in order; `refusal` is the first thing there was to ask
for so far. -/
def admitsNeeds (desk : Role) (perms : Permissions) :
    Option String → List Need → Admitted
  | refusal, [] => (refusal.map (Admitted.refused 403)).getD NOTHING
  | refusal, n :: needs =>
    if n.met perms then .ok (n.wide || holds perms .all_outlets)
    else admitsNeeds desk perms (refusal.or (n.ask desk perms)) needs

/-- Whether a caller on this desk may use a route of this access, and whether
the request runs across the hospital. -/
def admits (access : Access) (desk : Role) (perms : Permissions) : Admitted :=
  match access with
  | .public_ | .any_ => .ok (holds perms .all_outlets)
  | .admin => NOTHING
  | .desk desks =>
    if desk ∈ desks then .ok (holds perms .all_outlets) else NOTHING
  | .needs needs => admitsNeeds desk perms none needs

/-! ## The manifest -/

def Access.parts : Access → List Need
  | .needs parts => parts
  | _ => []

namespace Contract

def need (f : Feature) (l : Level) : Access := .needs [.feature f l]

def act (a : Action) : Access := .needs [.action a]

def anyOf (parts : List Access) : Access := .needs (parts.flatMap Access.parts)

def desk (roles : List Role) : Access := .desk roles

def routes : List (String × Access) :=
  [("login", .public_),
   ("refresh", .public_),
   ("logout", .public_),
   ("signInDirectory", .public_),
   ("changePassword", .any_),
   ("me", .any_),
   ("patchMe", .any_),
   ("snapshot", .any_),
   ("items", .any_),
   ("locations", .any_),
   ("prices", .any_),
   ("priceLists", need .prices .view),
   ("menus", .any_),
   ("pay", need .billing .edit),
   ("toggleAvail", need .availability .edit),
   ("savePrice", need .prices .edit),
   ("createPriceList", need .prices .edit),
   ("deletePriceList", need .prices .edit),
   ("setOutletPriceList", need .prices .edit),
   ("saveOutletPrices", need .prices .edit),
   ("addMenuItem", need .menu .edit),
   ("removeMenuItem", need .menu .edit),
   ("stock", .any_),
   ("bills", .any_),
   ("createRequest", anyOf [need .outlet_requests .edit, need .kitchen_requests .edit]),
   ("cancelRequest",
      anyOf [need .approvals .edit, need .outlet_requests .edit,
        need .kitchen_requests .edit]),
   ("approveRequest", need .approvals .edit),
   ("rejectRequest", need .approvals .edit),
   ("redirectRequest", need .approvals .edit),
   ("issueTicket", need .issue_desk .edit),
   ("handover",
      anyOf [need .issue_desk .edit, need .kitchen_tickets .edit,
        need .outlet_tickets .edit]),
   ("receiveTicket",
      anyOf [need .issue_desk .edit, need .kitchen_tickets .edit,
        need .outlet_tickets .edit]),
   ("transfer", anyOf [need .items_stock .edit, need .outlet_tickets .edit]),
   ("askShop", need .outlet_requests .edit),
   ("answerShopAsk", need .outlet_requests .edit),
   ("declineShopAsk", need .outlet_requests .edit),
   ("dispatchProdOrder", need .kitchen_orders .edit),
   ("distribute", need .make_distribute .edit),
   ("setOrderStatus", need .kitchen_orders .edit),
   ("makeBatch", need .make_distribute .edit),
   ("cancelTicket",
      anyOf [need .issue_desk .edit, need .kitchen_tickets .edit,
        need .outlet_tickets .edit]),
   ("createRequisition", need .store_requisitions .edit),
   ("approveRequisition", need .requisitions .edit),
   ("declineRequisition", need .requisitions .edit),
   ("addToProcurementList", need .procurement_list .edit),
   ("createPo", need .procurement_list .edit),
   ("updatePoLine", need .purchase_orders .edit),
   ("removePoLine", need .purchase_orders .edit),
   ("patchPo", need .purchase_orders .edit),
   ("sendPo", need .purchase_orders .edit),
   ("cancelPo", need .purchase_orders .edit),
   ("receivePo", need .goods_receipt .edit),
   ("closePoShort", need .purchase_orders .edit),
   ("addVendor", need .vendors .edit),
   ("updateVendor", need .vendors .edit),
   ("addContract", need .rate_contracts .edit),
   ("updateContract", need .rate_contracts .edit),
   ("removeContract", need .rate_contracts .edit),
   ("createItem", need .item_master .edit),
   ("createProductRequest", anyOf [need .menu .edit, need .outlet_requests .edit]),
   ("answerProductRequest",
      anyOf [need .new_products .edit, need .store_requisitions .edit]),
   ("requests", .any_),
   ("ticketsList", .any_),
   ("shopAsks", .any_),
   ("prodOrders", .any_),
   ("batches", .any_),
   ("requisitions", .any_),
   ("purchaseOrders", .any_),
   ("grns", .any_),
   ("vendors", .any_),
   ("contracts", .any_),
   ("productRequests", .any_),
   ("raiseTicket", .any_),
   ("replyToTicket", .any_),
   ("setTicketStatus", .any_),
   ("rateTicket", .any_),
   ("tickets", .any_),
   ("stockLedger", need .stock_ledger .view),
   ("creditReport",
      anyOf [need .credit .view, need .settlements .view, need .billing .edit]),
   ("xReport", need .x_report .view),
   ("closeRegister", need .z_report .edit),
   ("zReports", need .z_report .view),
   ("currentShift", desk [.counter]),
   ("closeShift", desk [.counter]),
   ("shifts", .any_),
   ("roster", .any_),
   ("payerTerms", .any_),
   ("setClassTerms", need .credit .edit),
   ("setPayerTerms", need .credit .edit),
   ("receivables", .any_),
   ("settlements", .any_),
   ("statement", need .settlements .view),
   ("recordSettlement", need .settlements .edit),
   ("voidSettlement", act .void_settlement),
   ("patchItem", anyOf [need .items_stock .edit, need .item_master .edit]),
   ("setItemImage", need .item_photos .edit),
   ("removeItemImage", need .item_photos .edit),
   ("voidBill", act .void_bill),
   ("createAdjustment", need .adjustments .edit),
   ("adjustments", .any_),
   ("createWastage", need .adjustments .edit),
   ("kitchenReport", need .kitchen_stock .view),
   ("createAdjustmentRequest", need .outlet_stock .edit),
   ("cancelAdjustmentRequest", anyOf [need .approvals .edit, need .outlet_stock .edit]),
   ("approveAdjustmentRequest", need .approvals .edit),
   ("rejectAdjustmentRequest", need .approvals .edit),
   ("adjustmentRequests", .any_),
   ("createProdOrder", anyOf [need .approvals .edit, need .outlet_requests .edit]),
   ("adminUsers", .admin),
   ("createAdminUser", .admin),
   ("resetAdminUserPassword", .admin),
   ("deactivateAdminUser", .admin),
   ("reactivateAdminUser", .admin),
   ("updateAdminUser", .admin),
   ("setAdminUserPostings", .admin),
   ("deleteAdminUser", .admin),
   ("adminActions", .admin),
   ("adminPayers", .admin),
   ("createPayer", .admin),
   ("updatePayer", .admin),
   ("adminRoles", .admin),
   ("createRole", .admin),
   ("updateRole", .admin),
   ("deactivateRole", .admin),
   ("reactivateRole", .admin),
   ("deleteRole", .admin),
   ("adminLocations", .admin),
   ("createOutlet", .admin),
   ("updateOutlet", .admin),
   ("closeOutlet", .admin),
   ("reopenOutlet", .admin),
   ("deskTickets", .admin),
   ("replyAsDesk", .admin),
   ("setDeskTicketStatus", .admin),
   ("publicQrMenu", .public_),
   ("createQrOrder", .public_),
   ("verifyQrPayment", .public_),
   ("publicQrOrder", .public_),
   ("qrOrders", need .qr_orders .view),
   ("setQrOrderStatus", need .qr_orders .edit),
   ("setQrPause", need .qr_orders .edit),
   ("retryQrRefund", act .void_bill),
   ("adminQrCodes", .admin),
   ("createQrCode", .admin),
   ("updateQrCode", .admin),
   ("regenerateQrCode", .admin),
   ("setOrderHours", .admin),
   ("auditLog", .admin),
   ("auditEntry", .admin)]


end Contract

end Rch
