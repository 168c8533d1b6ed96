import Rch.Kit.Transactions
import Rch.Machine.Service

/-!
# Voids side by side

Any number of voids, of any bills, each statement by statement, and between
their statements whatever else the server writes. A void locks the bill first
and then the QR order behind it, so of two voids of one bill the second waits
for the first. It holds the outlet and the session shared, which keeps a close
of either out.

The other writes are the server's own operations, each at once. Such a write
has to wait for the rows it changes, and where it adds a row that refers to
another it has to wait for that one too.
-/

namespace Rch

open Kit

/-- What a void locks. -/
inductive VoidKey
  | bill (no : String)
  | order (id : String)
  | outlet (loc : LocKey)
  | session (id : String)
  /-- The number a refund is queued under. -/
  | refund (id : String)
deriving DecidableEq

/-- What a void goes by: its bill and the order behind it, as they were when it
locked them, and the one look it took at the clock. -/
structure VoidRead where
  bill : BillRow
  order : Option (String × QrOrderRow)
  at_ : Instant

inductive VoidAt
  | begun
  | found (bill : BillRow)
  | ordered (bill : BillRow) (order : Option (String × QrOrderRow))
  /-- Its own rules passed, and nobody has settled the bill. -/
  | unsettled (r : VoidRead)
  /-- The outlet is open. -/
  | placed (r : VoidRead)
  /-- So is the session, if the bill has one. -/
  | held (r : VoidRead)
  | counted (r : VoidRead) (sale : List MoveRow)
  | posted (r : VoidRead)
  | stamped (r : VoidRead)
  | undone (r : VoidRead)

/-- What was asked for. -/
structure VoidAsk where
  claims : Claims
  no : String
  reason : String

structure VoidTx where
  ask : VoidAsk
  p : VoidAt

abbrev VoidStmt := Stmt Db VoidKey VoidTx

def VoidTx.to (t : VoidTx) (p : VoidAt) : VoidTx := ⟨t.ask, p⟩

/-! ## The writes -/

def VoidAsk.post (a : VoidAsk) (r : VoidRead) (sale : List MoveRow) (db : Db) :
    Db :=
  { db with
    stock := postMoves db.stock (reversalsOf sale a.no a.claims.sub r.at_) }

def VoidAsk.stamp (a : VoidAsk) (r : VoidRead) (db : Db) : Db :=
  { db with bills := db.bills.modify a.no fun b =>
    { b with voided := some ⟨r.at_, a.claims.sub, trim a.reason⟩ } }

def VoidAsk.moved (a : VoidAsk) (r : VoidRead) (db : Db) : Outcome Db :=
  refundOrder db r.order a.no r.bill.total r.at_

def VoidAsk.refund (a : VoidAsk) (r : VoidRead) (db : Db) : Db :=
  (a.moved r db).toOption.getD db

/-- The number a refund of this order will be queued under, where it owes
one. -/
def refundNo (db : Db) : Option (String × QrOrderRow) → Option String
  | none => none
  | some (oid, o) => o.rzpPaymentId.map fun _ => refundId db oid

/-- The QR order a bill refers to, which is there while the bill is. -/
def orderBehind (bill : BillRow) : Option String :=
  if bill.source = .qr then bill.qrOrderId else none

/-! ## The statements -/

def VoidTx.stmt (at_ : Instant) (t : VoidTx) (db : Db) : Option VoidStmt :=
  match t.p with
  | .begun =>
    (db.bills.get? t.ask.no).map fun bill =>
      .lock (.bill t.ask.no) .update (t.to (.found bill))
  | .found bill =>
    some ⟨(orderBehind bill).toList.map fun o => ⟨.order o, .update⟩, id,
      t.to (.ordered bill (orderOfBill db bill))⟩
  | .ordered bill order =>
    if bill.operatorId ≠ t.ask.claims.sub ∧ trim t.ask.reason ≠ "" ∧
        bill.voided = none ∧ istDate bill.at_ = istDate at_ ∧
        liveSettlementOf db t.ask.no = none
    then some (.read (t.to (.unsettled ⟨bill, order, at_⟩)))
    else none
  | .unsettled r =>
    ((db.rows.locations r.bill.loc).filter Location.active).map fun _ =>
      .lock (.outlet r.bill.loc) .share (t.to (.placed r))
  | .placed r =>
    let shut := r.bill.sessionId.bind db.sessions.get?
    if shut.bind SessionRow.closedAt = none then
      some ⟨r.bill.sessionId.toList.map fun s => ⟨.session s, .share⟩, id,
        t.to (.held r)⟩
    else none
  | .held r => some (.read (t.to (.counted r (saleMovesOf db t.ask.no))))
  | .counted r sale => some ⟨[], t.ask.post r sale, t.to (.posted r)⟩
  | .posted r =>
    some ⟨[⟨.bill t.ask.no, .noKeyUpdate⟩], t.ask.stamp r, t.to (.stamped r)⟩
  | .stamped r =>
    (t.ask.moved r db).toOption.map fun _ =>
      ⟨(refundNo db r.order).toList.map fun id => ⟨.refund id, .update⟩,
        t.ask.refund r, t.to (.undone r)⟩
  | .undone _ => none

def VoidTx.starts (t : VoidTx) : Bool :=
  match t.p with
  | .begun => true
  | _ => false

def VoidTx.done (t : VoidTx) : Bool :=
  match t.p with
  | .undone _ => true
  | _ => false

def voidTxs : Database Db VoidKey Instant VoidTx where
  init db := ∃ rows, db = Db.fresh rows
  starts := VoidTx.starts
  stmt := VoidTx.stmt
  done := VoidTx.done

/-! ## The other writes between them -/

def settlementsOn (db : Db) (no : String) : List String :=
  (db.settlementLines.rows.filter fun l => decide (l.1.2 = no)).map fun l =>
    l.1.1

/-- A write leaves what is locked under this key: the row, and what refers to
it. -/
def VoidKey.left (db db' : Db) : VoidKey → Bool
  | .bill no =>
    decide (db'.bills.get? no = db.bills.get? no) &&
      decide (settlementsOn db' no = settlementsOn db no)
  | .order id =>
    decide (db'.qrOrders.get? id = db.qrOrders.get? id) &&
      decide ((refundsOfOrder db' id).map Prod.fst =
        (refundsOfOrder db id).map Prod.fst)
  | .outlet loc => decide (db'.rows.locations loc = db.rows.locations loc)
  | .session id => decide (db'.sessions.get? id = db.sessions.get? id)
  | .refund id =>
    decide ((db'.refunds.get? id).isSome = (db.refunds.get? id).isSome)

abbrev VoidWorld := World Db VoidKey VoidTx

def VoidWorld.left (w : VoidWorld) (db' : Db) : Bool :=
  (List.range w.txs.length).all fun j =>
    (w.tx j).all fun y => y.held.all fun l => l.on.left w.committed db'

inductive VoidEvent
  /-- A void begins, takes its next statement, commits, or is lost on the
  way. -/
  | void (e : TxEvent Instant VoidTx)
  /-- A void is refused: its next statement has no way on. -/
  | refuse (i : ℕ) (at_ : Instant)
  | other (op : Op)

def Op.voids : Op → Option String
  | .voidBill _ no _ _ => some no
  | _ => none

def VoidEvent.step (w : VoidWorld) : VoidEvent → Option VoidWorld
  | .void e => voidTxs.step w e
  | .refuse i at_ =>
    (w.tx i).bind fun x =>
      if x.at_.done = false ∧
          (x.at_.stmt at_ (x.write w.committed)).isNone = true
      then some (w.put i none) else none
  | .other op =>
    if op.voids = none then
      (op.run w.committed).bind fun db' =>
        if w.left db' then some { w with committed := db' } else none
    else none

def voids : Machine VoidWorld VoidEvent where
  init w := voidTxs.machine.init w
  step := VoidEvent.step

end Rch
