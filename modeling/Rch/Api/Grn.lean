import Rch.Api.Production
import Rch.Domain.Receipt

/-!
# Goods receipts and opening stock

One instalment of a delivery: what passed inspection goes onto the central
store's shelf and what did not goes to quarantine. Both moves only add. A new
product's opening figure only adds too.
-/

namespace Rch

open Kit

structure ReceivePoBody where
  dc : String
  invoice : String
  invDate : String
  lines : List ReceiptInput

/-- One line of the order beside what the note says arrived on it. -/
abbrev ReceiptPair := PoLine × ReceiptInput

/-- The moves of one received line: each part only when it is something. -/
def receiptMoves (p : ReceiptPair) (receiptId by_ : String) (at_ : Instant) :
    List Move :=
  let good := netReceived p.2.recv p.2.rejected
  (if 0 < good then
    [⟨STORE, p.1.it, good, .grnAccept, "grn", receiptId, some by_, at_, none⟩]
  else []) ++
  if 0 < p.2.rejected then
    [⟨QUARANTINE, p.1.it, round3 p.2.rejected, .grnReject, "grn", receiptId,
      some by_, at_, none⟩]
  else []

/-- A line with the instalment on it, gross and rejected both carried
forward. -/
def landLine (p : ReceiptPair) : PoLine :=
  if 0 < p.2.recv then
    { p.1 with
      recv := round3 ((p.1.recv : ℚ) + p.2.recv)
      rejected := round3 ((p.1.rejected : ℚ) + p.2.rejected) }
  else p.1

/-- The receipt documents and the moves of a delivery, numbered on from the
`n` instalments the order already has. -/
def receiptRows (id dc : String) (body : ReceivePoBody) (by_ : String)
    (at_ : Instant) : ℕ → List ReceiptPair → List (String × GrnRow) × List Move
  | _, [] => ([], [])
  | n, p :: rest =>
    if 0 < p.2.recv then
      let receiptId := grnId id (n + 1)
      let out := receiptRows id dc body by_ at_ (n + 1) rest
      ((receiptId,
        { po := id, it := p.1.it, accepted := netReceived p.2.recv p.2.rejected,
          rejected := round3 p.2.rejected, batch := trim p.2.batch,
          mfg := p.2.mfg, exp := p.2.exp, dc, invoice := trim body.invoice,
          invDate := if body.invDate = "" then none else some body.invDate,
          at_, byUser := by_ }) :: out.1,
        receiptMoves p receiptId by_ at_ ++ out.2)
    else receiptRows id dc body by_ at_ n rest

/-- Write the rows one after another, refused where a number is taken. -/
def insertGrns (grns : Table String GrnRow) :
    List (String × GrnRow) → Option (Table String GrnRow)
  | [] => some grns
  | (id, row) :: rest => (grns.insert? id row).bind fun t => insertGrns t rest

def receivePo (db : Db) (claims : Claims) (id : String) (body : ReceivePoBody)
    (at_ : Instant) : Outcome Db := do
  let o ← orNotFound (db.purchaseOrders.get? id)
    ("There is no purchase order " ++ id ++ ".")
  assertRule (o.status = .ordered ∨ o.status = .partiallyReceived)
    (id ++ " is " ++ o.status.word.toLower
      ++ " - nothing can be booked against it")
  let dc := trim body.dc
  assertRule (dc ≠ "")
    "Record the vendor's delivery note number before booking goods in"
  assertRule (body.lines.length = o.lines.length)
    ("Give a line for each of the " ++ toString o.lines.length
      ++ " lines on this order")
  assertRule (∃ r ∈ body.lines, 0 < r.recv)
    "Enter what arrived on at least one line"
  let m := db.master
  let pairs := o.lines.zip body.lines
  assertEach pairs (fun p => 0 < p.2.recv ∨ p.2.rejected ≤ 0) fun p =>
    m.itemName p.1.it
      ++ " - a rejected quantity needs an arrival to be rejected from"
  checkEach pairs fun p =>
    if 0 < p.2.recv then
      match checkReceiptLine (m.itemName p.1.it) (m.unitOf p.1.it) p.1.qty
          (netReceived p.1.recv p.1.rejected) p.2 (istDate at_) with
      | some bad => .error ⟨.rule, bad⟩
      | none => pure ()
    else pure ()
  let n := (db.grns.rows.filter fun g => decide (g.2.po = id)).length
  let out := receiptRows id dc body claims.sub at_ n pairs
  let grns ← orInternal (insertGrns db.grns out.1) "grns_pkey"
  let lines := pairs.map landLine
  let st := receiptStatus (lines.map fun l => (l.qty, l.recv, l.rejected))
  assertTransition poTransitions PoStatus.word o.status st id
  pure { db with
    grns
    stock := postMoves db.stock out.2
    purchaseOrders := db.purchaseOrders.modify id fun o =>
      { o with status := st, receivedAt := some at_, lines } }

/-! ## Opening stock -/

/-- The stock half of a new line on the item master: the kitchen's own counted
product opens as a batch, any other line as an opening move at its desk's
shelf, and a figure of nothing opens nothing. The row of the item itself is
part of the master data. -/
def openStock (db : Db) (claims : Claims) (atKitchen : Bool) (key : ItemKey)
    (opening : ℚ) (at_ : Instant) : Outcome Db := do
  let item ← orNotFound (db.master.items key)
    ("There is no item " ++ key ++ ".")
  let loc := if atKitchen then KITCHEN else STORE
  let q := round3 opening
  if isOnOff item then
    assertRule (q = 0) (onOffRefusal item.n "given opening stock")
  if 0 < q then
    if atKitchen ∧ item.t = .FG then
      writeBatch db ⟨key, item, q, q, none, claims.sub, at_⟩
    else
      let types := fun it => if it = key then some item.t else none
      let stock := postMoves db.stock (withUseOnArrival types
        [⟨loc, key, q, .opening, "item", key, some claims.sub, at_, none⟩])
      pure { db with stock }
  else pure db

end Rch
