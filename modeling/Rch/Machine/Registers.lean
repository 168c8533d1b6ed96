import Rch.Api.Pos
import Rch.Api.Register
import Rch.Kit.Transactions

/-!
# A register between its tills

Sales, voids and closes at any number of outlets, each statement by statement,
beside whatever else the server writes.
A sale holds its outlet's session shared, and a close takes it alone. There may
be no session to hold: the first sale after a Z opens one, and an index that
allows one open session an outlet decides between two first sales. A sale that
finds its session gone looks again, three times at most.

A look may miss. A statement looks the row up first and then waits for its
lock, and where the row was closed meanwhile it comes back with nothing, even
if another session was opened in the same moment.
-/

namespace Rch

open Kit

/-- What the register's transactions lock. -/
inductive RegisterKey
  | outlet (loc : LocKey)
  | session (id : String)
  /-- The outlet's entry in the index of open sessions. -/
  | openAt (loc : LocKey)
  | bill (no : String)
  | sequence (kind : IdKind)
deriving DecidableEq

/-- The tables, and the totals each closed session's row carries. -/
structure Registers where
  db : Db
  closedTotals : String → Option ClosedTotals

/-- A sale apart from the session it will belong to. -/
structure TillSale where
  input : SaleInput
  plan : BillPlan
  terms : ResolvedTerms
  payer : Option PayerRef
  phone : Option String

def TillSale.row (s : TillSale) (session : String) (at_ : Instant) : BillRow :=
  billRow s.input s.plan s.terms s.payer s.phone session at_

inductive TillAt
  | begun
  /-- About to look for the open session, for the `n`th time. -/
  | pass (n : ℕ)
  | missed (n : ℕ)
  | held (session : String)
  | numbered (session no : String) (at_ : Instant)
  | billed (session no : String) (at_ : Instant)

inductive TillVoidAt
  | begun
  | found (bill : BillRow) (at_ : Instant)
  | placed (bill : BillRow) (at_ : Instant)
  /-- Its session is still open. -/
  | held (bill : BillRow) (at_ : Instant)
  | stamped (bill : BillRow)

inductive CloseAt
  | begun
  | placed
  | taken (session : String) (row : SessionRow)
  | sold (session : String) (row : SessionRow) (at_ : Instant)
      (sold : List SoldLine)
  | voided (session : String) (row : SessionRow) (at_ : Instant)
      (sold : List SoldLine) (voided : VoidedSum)
  | counted (session : String) (at_ : Instant) (totals : RegisterTotals)
  | numbered (session : String) (at_ : Instant) (totals : RegisterTotals)
      (zNo : String)
  | closed (session : String)

/-- Any other write of the server: it leaves bills and sessions alone. -/
inductive ElsewhereAt
  | begun
  | written

inductive RegisterTx
  | sale (s : TillSale) (p : TillAt)
  | voidBill (claims : Claims) (no reason : String) (p : TillVoidAt)
  | close (claims : Claims) (body : CloseRegisterBody) (p : CloseAt)
  | elsewhere (db : Db) (p : ElsewhereAt)

/-- What no row decides: the clock, a fresh id, and whether a look misses. -/
structure RegisterChoice where
  at_ : Instant
  mint : String
  misses : Bool

abbrev RegisterStmt := Stmt Registers RegisterKey RegisterTx

/-! ## The writes -/

def freshSession (loc by_ : String) (at_ : Instant) : SessionRow where
  loc := loc
  zNo := none
  openedBy := by_
  openedAt := at_
  closedAt := none
  closedBy := none

def openSession (id : String) (row : SessionRow) (r : Registers) : Registers :=
  { r with db := { r.db with
    sessions := (r.db.sessions.insert? id row).getD r.db.sessions } }

def raiseBill (no : String) (row : BillRow) (r : Registers) : Registers :=
  { r with db := { r.db with
    bills := (r.db.bills.insert? no row).getD r.db.bills } }

def unsell (no : String) (stamp : VoidStamp) (r : Registers) : Registers :=
  { r with db := { r.db with bills := r.db.bills.modify no fun b =>
    { b with voided := some stamp } } }

def advanceSequence (kind : IdKind) (r : Registers) : Registers :=
  { r with db := r.db.advance kind }

/-- Everything but the bills and the sessions, as some other write left it. -/
def writeElsewhere (db : Db) (r : Registers) : Registers :=
  { r with db := { db with bills := r.db.bills, sessions := r.db.sessions } }

def closeSession (session zNo by_ : String) (at_ : Instant) (t : ClosedTotals)
    (r : Registers) : Registers where
  db := { r.db with sessions := r.db.sessions.modify session fun s =>
    { s with zNo := some zNo, closedAt := some at_, closedBy := some by_ } }
  closedTotals := fun id => if id = session then some t else r.closedTotals id

/-! ## The statements -/

def lockOpenOutlet (db : Db) (loc : LocKey) (next : RegisterTx) :
    Option RegisterStmt :=
  ((db.rows.locations loc).filter Location.active).map fun _ =>
    .lock (.outlet loc) .share next

def tillStmt (c : RegisterChoice) (s : TillSale) (r : Registers) :
    TillAt → Option RegisterStmt
  | .begun => lockOpenOutlet r.db s.input.loc (.sale s (.pass 0))
  | .pass n =>
    if n < 3 then
      match (openSessionAt r.db s.input.loc).filter fun _ => !c.misses with
      | some session =>
        some (.lock (.session session.1) .share (.sale s (.held session.1)))
      | none => some (.read (.sale s (.missed n)))
    else none
  | .missed n =>
    let row := freshSession s.input.loc s.input.operatorId c.at_
    -- Either uniqueness makes the insert do nothing.
    if openSessionAt r.db s.input.loc = none ∧ r.db.sessions.get? c.mint = none
    then some ⟨[⟨.openAt s.input.loc, .update⟩, ⟨.session c.mint, .update⟩],
      openSession c.mint row, .sale s (.held c.mint)⟩
    else some (.read (.sale s (.pass (n + 1))))
  | .held session =>
    let (_, no) := allocateId r.db .bill c.at_
    some ⟨[⟨.sequence .bill, .noKeyUpdate⟩], advanceSequence .bill,
      .sale s (.numbered session no c.at_)⟩
  | .numbered session no at_ =>
    (r.db.bills.insert? no (s.row session at_)).map fun _ =>
      ⟨[⟨.bill no, .update⟩], raiseBill no (s.row session at_),
        .sale s (.billed session no at_)⟩
  | .billed .. => none

def tillVoidStmt (c : RegisterChoice) (claims : Claims) (no reason : String)
    (r : Registers) : TillVoidAt → Option RegisterStmt
  | .begun =>
    (r.db.bills.get? no).bind fun bill =>
      if bill.operatorId ≠ claims.sub ∧ trim reason ≠ "" ∧ bill.voided = none ∧
          istDate bill.at_ = istDate c.at_
      then some (.lock (.bill no) .update
        (.voidBill claims no reason (.found bill c.at_)))
      else none
  | .found bill at_ =>
    if liveSettlementOf r.db no = none then
      lockOpenOutlet r.db bill.loc (.voidBill claims no reason (.placed bill at_))
    else none
  | .placed bill at_ =>
    match bill.sessionId with
    | none => some (.read (.voidBill claims no reason (.held bill at_)))
    | some session =>
      match r.db.sessions.get? session with
      | none => some (.read (.voidBill claims no reason (.held bill at_)))
      | some shut =>
        if shut.closedAt = none then
          some (.lock (.session session) .share
            (.voidBill claims no reason (.held bill at_)))
        else none
  | .held bill at_ =>
    some ⟨[⟨.bill no, .noKeyUpdate⟩], unsell no ⟨at_, claims.sub, trim reason⟩,
      .voidBill claims no reason (.stamped bill)⟩
  | .stamped _ => none

def closeStmt (c : RegisterChoice) (claims : Claims) (body : CloseRegisterBody)
    (r : Registers) : CloseAt → Option RegisterStmt
  | .begun =>
    (r.db.rows.locations body.loc).map fun _ =>
      .lock (.outlet body.loc) .share (.close claims body .placed)
  | .placed =>
    ((openSessionAt r.db body.loc).filter fun _ => !c.misses).map fun open_ =>
      .lock (.session open_.1) .update
        (.close claims body (.taken open_.1 open_.2))
  | .taken session row =>
    some (.read (.close claims body
      (.sold session row c.at_ (soldIn r.db session))))
  | .sold session row at_ sold =>
    some (.read (.close claims body
      (.voided session row at_ sold (voidedIn r.db session))))
  | .voided session row at_ sold voided =>
    some (.read (.close claims body (.counted session at_
      (buildTotals sold voided (settledIn r.db row.openedAt at_)))))
  | .counted session at_ totals =>
    let (_, zNo) := allocateId r.db .zReport at_
    some ⟨[⟨.sequence .zReport, .noKeyUpdate⟩], advanceSequence .zReport,
      .close claims body (.numbered session at_ totals zNo)⟩
  | .numbered session at_ totals zNo =>
    some ⟨[⟨.session session, .noKeyUpdate⟩],
      closeSession session zNo claims.sub at_
        ⟨totals, body.countedCash, body.note⟩,
      .close claims body (.closed session)⟩
  | .closed _ => none

def elsewhereStmt (db : Db) : ElsewhereAt → Option RegisterStmt
  | .begun => some ⟨[], writeElsewhere db, .elsewhere db .written⟩
  | .written => none

def RegisterTx.stmt (c : RegisterChoice) (t : RegisterTx) (r : Registers) :
    Option RegisterStmt :=
  match t with
  | .sale s p => tillStmt c s r p
  | .voidBill claims no reason p => tillVoidStmt c claims no reason r p
  | .close claims body p => closeStmt c claims body r p
  | .elsewhere db p => elsewhereStmt db p

def RegisterTx.starts : RegisterTx → Bool
  | .sale _ .begun | .voidBill _ _ _ .begun | .close _ _ .begun
  | .elsewhere _ .begun => true
  | _ => false

def RegisterTx.done : RegisterTx → Bool
  | .sale _ (.billed ..) | .voidBill _ _ _ (.stamped _)
  | .close _ _ (.closed _) | .elsewhere _ .written => true
  | _ => false

/-- The registers, with any number of these transactions open at once. -/
def registers : Database Registers RegisterKey RegisterChoice RegisterTx where
  init r := ∃ rows, r = ⟨Db.fresh rows, fun _ => none⟩
  starts := RegisterTx.starts
  stmt := RegisterTx.stmt
  done := RegisterTx.done

end Rch
