import Rch.Api.Requests
import Rch.Domain.Claims
import Rch.Domain.Requisition

/-!
# Requisitions and the procurement list

A requisition records what the central store wants bought; the buyer decides
it, or raises one approved in full without being asked. Nothing here moves
`ordered_qty`: a line's claim belongs to the orders that put it there, and the
one way it moves is `addOrdered`. The list itself is stored nowhere: it is
approved less ordered, and the table's own check keeps the difference from
going under zero.

A purchase order is kept in two halves. The receiving door reads what was
ordered and what arrived, with the database's other documents; the vendor, the
dates, the rates and what each line claims are the buyer's alone, and stand
here.
-/

namespace Rch

open Kit

structure RequisitionRow where
  byUser : String
  at_ : Instant
  status : PrqStatus
  note : String
  approvedBy : Option String
  approvalNote : Option String
  lines : List RequisitionLine
deriving DecidableEq

/-- The buyer's half of an order's line: the rate, and the claims in the order
they were picked. -/
structure PoTerm where
  rate : Money
  src : List ClaimSrc
deriving DecidableEq

/-- The buyer's half of an order. -/
structure PoHead where
  vendorId : String
  at_ : Instant
  eta : String
  needsApproval : Bool
  shortNote : Option String
  terms : List PoTerm
deriving DecidableEq

structure Buying where
  db : Db
  heads : Table String PoHead
  requisitions : Table String RequisitionRow

/-! ## The claim on a line -/

/-- `requisition_lines_ordered_ck`. -/
def RequisitionLine.Ck (l : RequisitionLine) : Prop :=
  0 ≤ l.ordered ∧ l.ordered ≤ l.appr

instance (l : RequisitionLine) : Decidable l.Ck :=
  inferInstanceAs (Decidable (_ ∧ _))

def requisitionLine (prq : Table String RequisitionRow) (k : String × ℕ) :
    Option RequisitionLine :=
  (prq.get? k.1).bind fun r => r.lines[k.2]?

/-- A check of the database on the rows a statement wrote. -/
def assertCk (c : Prop) [Decidable c] (name : String) : Outcome Unit :=
  guardOr c ⟨.internal, name⟩

/-- One delta's statement: no row where there is no such line. -/
def moveOrdered (sign : ℤ) (d : ClaimSrc) (prq : Table String RequisitionRow) :
    Table String RequisitionRow :=
  prq.modify d.prq fun r =>
    { r with
      lines := r.lines.modify d.line fun l =>
        { l with ordered := l.ordered + sign • d.qty } }

/-- Move `ordered_qty` on the named lines: `sign` is 1 when an order takes
demand off the list and -1 when it gives the demand back. -/
def addOrdered (sign : ℤ) : List ClaimSrc → Table String RequisitionRow →
    Outcome (Table String RequisitionRow)
  | [], prq => pure prq
  | d :: deltas, prq => do
    let prq := moveOrdered sign d prq
    assertCk (∀ l ∈ requisitionLine prq d.key, l.Ck) "requisition_lines_ordered_ck"
    addOrdered sign deltas prq

/-! ## The services -/

structure CreateRequisitionBody where
  lines : List LineInput
  note : String

def isPurchased : ItemType → Bool
  | .RAW | .PACK | .MRP => true
  | .FG | .MTO => false

/-- Every line names an item on the master: a retired one is refused by name,
an unknown one is not found. -/
def assertKnownItems (db : Db) (lines : List LineInput) : Outcome Unit :=
  checkEach lines fun l =>
    match db.master.items l.it with
    | some _ => pure ()
    | none => do
      let retired := (db.rows.items l.it).map Item.n
      assertRule (retired = none)
        ("Refused - " ++ retired.getD "" ++ " is retired and is no longer bought")
      .error ⟨.notFound, "There is no item " ++ l.it ++ "."⟩

def assertCombined (m : Master) (lines : List LineInput) : Outcome Unit :=
  assertRule (repeatedLine lines = none)
    ("Combine the "
      ++ ((repeatedLine lines).map fun l => m.itemName l.it).getD ""
      ++ " lines into one")

def insertRequisition (b : Buying) (db : Db) (id : String) (row : RequisitionRow) :
    Outcome Buying := do
  let requisitions ← orInternal (b.requisitions.insert? id row) "requisitions_pkey"
  pure { b with db, requisitions }

def createRequisition (b : Buying) (claims : Claims) (body : CreateRequisitionBody)
    (at_ : Instant) : Outcome Buying := do
  assertKnownItems b.db body.lines
  assertRule (∀ l ∈ body.lines, 0 < l.qty) "Add at least one line before sending"
  assertCombined b.db.master body.lines
  let (db, id) := allocateId b.db .prq at_
  insertRequisition b db id
    { byUser := claims.sub, at_, status := .sent, note := body.note
      approvedBy := none, approvalNote := none
      lines := body.lines.map fun l => ⟨l.it, round3 l.qty, 0, 0, none⟩ }

/-- The buyer putting items on the list without being asked: approved in full,
nothing short, and with a reason. -/
def addDirect (b : Buying) (claims : Claims) (body : CreateRequisitionBody)
    (at_ : Instant) : Outcome Buying := do
  let m := b.db.master
  assertKnownItems b.db body.lines
  assertRule (∀ l ∈ body.lines, 0 < l.qty) "Enter a quantity on every line"
  assertCombined m body.lines
  assertEach body.lines (fun l => (m.items l.it).any fun i => isPurchased i.t)
    fun l => m.itemName l.it
      ++ " is made in-house - only raw, packing and MRP goods are bought"
  assertRule (trim body.note ≠ "")
    "Give a reason - it is kept on the requisition for the store keeper"
  let (db, id) := allocateId b.db .prq at_
  insertRequisition b db id
    { byUser := claims.sub, at_, status := .approved, note := body.note
      approvedBy := some claims.sub, approvalNote := some body.note
      lines := body.lines.map fun l =>
        ⟨l.it, round3 l.qty, round3 l.qty, 0, some 0⟩ }

def PRQ_REASON : String := "Give a reason - the store keeper sees it on the requisition"

/-- Write a decision: the lines it approved and who signed it. -/
def decideRequisition (b : Buying) (claims : Claims) (id note : String)
    (lines : List RequisitionLine) (status : PrqStatus) : Outcome Buying := do
  assertCk (∀ l ∈ lines, l.Ck) "requisition_lines_ordered_ck"
  pure { b with
    requisitions := b.requisitions.modify id fun r =>
      { r with
        status, lines, approvedBy := some claims.sub, approvalNote := some note } }

def approveRequisition (b : Buying) (claims : Claims) (id : String)
    (appr : List ℚ) (note : String) : Outcome Buying := do
  let p ← orNotFound (b.requisitions.get? id) ("There is no requisition " ++ id ++ ".")
  assertRule (appr.length = p.lines.length)
    ("Give a quantity for each of the " ++ toString p.lines.length ++ " lines")
  let plan := planPrqApproval p.lines appr
  -- Zeroing every line is a decline in all but name.
  if plan.2 = .declined then assertRule (trim note ≠ "") PRQ_REASON
  assertTransition requisitionTransitions PrqStatus.word p.status plan.2 id
  decideRequisition b claims id note plan.1 plan.2

/-- A plain refusal: every line's shortfall is the full ask. -/
def declineRequisition (b : Buying) (claims : Claims) (id note : String) :
    Outcome Buying := do
  let p ← orNotFound (b.requisitions.get? id) ("There is no requisition " ++ id ++ ".")
  assertRule (trim note ≠ "") PRQ_REASON
  assertTransition requisitionTransitions PrqStatus.word p.status .declined id
  decideRequisition b claims id note
    (p.lines.map fun l => { l with appr := 0, short := some l.qty }) .declined

end Rch
