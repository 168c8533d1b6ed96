/-!
# What a role may open

A role holds each feature of the catalogue at a level, or not at all, and
editing a screen implies seeing it.
-/

namespace Rch

inductive Feature
  | billing | x_report | z_report | shift_reports | credit | settlements
  | qr_orders
  | approvals | items_stock | menu | prices | availability | item_photos
  | outlet_stock | outlet_requests | outlet_tickets
  | issue_desk | store_requisitions | store_stock | store_reports | adjustments
  | goods_receipt
  | kitchen_orders | make_distribute | kitchen_requests | kitchen_tickets
  | kitchen_stock
  | requisitions | procurement_list | purchase_orders | rate_contracts | vendors
  | item_master | new_products | inventory | stock_ledger
deriving DecidableEq

inductive Level
  | view | edit
deriving DecidableEq

/-- The powers that are not a screen. -/
inductive Action
  | void_bill | void_settlement | all_outlets
deriving DecidableEq

/-- The desk somebody works. -/
inductive Role
  | counter | manager | store | prod | buyer
deriving DecidableEq

/-- The features a caller holds, each at its level, and the actions. -/
structure Permissions where
  f : Feature → Option Level
  a : List Action

def can (perms : Permissions) (f : Feature) (l : Level) : Bool :=
  match perms.f f with
  | none => false
  | some held => decide (l = .view) || decide (held = .edit)

def holds (perms : Permissions) (a : Action) : Bool := decide (a ∈ perms.a)

/-! ## Reading across the hospital -/

/-- What a snapshot reads at one location or everywhere, by what may widen it. -/
inductive ReadCollection
  | bills | stock | requests | tickets | shopAsks | prodOrders | adjReq
  | productReqs
deriving DecidableEq

def WIDENED_BY : ReadCollection → List Feature
  | .bills => []
  | .stock => [.items_stock, .stock_ledger, .inventory, .prices, .menu]
  | .requests => [.approvals]
  | .tickets => [.approvals, .items_stock]
  | .shopAsks => [.approvals]
  | .prodOrders => [.approvals]
  | .adjReq => [.approvals]
  | .productReqs => [.approvals, .menu]

def backOffice (desk : Role) : Bool :=
  decide (desk ≠ .counter) && decide (desk ≠ .manager)

def readsWide (desk : Role) (perms : Permissions) (c : ReadCollection) : Bool :=
  backOffice desk || holds perms .all_outlets ||
    (WIDENED_BY c).any fun f => can perms f .view

def readsBills (desk : Role) (perms : Permissions) : Bool :=
  backOffice desk || can perms .billing .view

end Rch
