import Rch.Api.Pos
import Rch.Api.RateCard
import Rch.Api.Receivables
import Rch.Kit.Transactions

/-!
# An account between its writers

Four transactions move what a payer owes: a sale, a settlement, and the voiding
of either. Here each runs statement by statement against what the others have
committed by then. Two locks order them. The payer's credit lock is an advisory
one, taken on a hash of a word for the payer. A bill is locked as a row: to be
voided outright, and to have a settlement line refer to it only against that.

What a sale decides before it comes to its payer's credit is handed to it, and
so is what it does to the shelves: neither reads or writes an account.
-/

namespace Rch

open Kit

/-- What the writers of an account lock. -/
inductive AccountKey
  | credit (hash : ℤ)
  | bill (no : String)
  | settlement (id : String)
  | sequence (kind : IdKind)
deriving DecidableEq

/-- A sale as it comes to its payer's credit: the roster's payer, the terms it
read and the plan it priced by them. -/
structure PricedSale where
  input : SaleInput
  plan : BillPlan
  terms : ResolvedTerms
  payer : Option PayerRef
  phone : Option String
  session : String

/-- The row the sale will store, its three figures rounded from the doubles
the plan holds. -/
def PricedSale.row (s : PricedSale) (at_ : Instant) : BillRow :=
  { billRow s.input s.plan s.terms s.payer s.phone s.session at_ with
    total := Doubles.round2 (.ofRat s.plan.tot)
    tax := Doubles.round2 (.ofRat s.plan.tax)
    discount := Doubles.round2 (.ofRat s.plan.disc) }

/-- A settlement on its way: the request, and the name the roster gave. -/
structure Recording where
  claims : Claims
  body : RecordSettlementBody
  name : String

def Recording.row (r : Recording) (at_ : Instant) : SettlementRow where
  kind := r.body.kind
  payerId := r.body.id
  payerName := r.name
  amount := round2 r.body.amount
  mode := r.body.mode
  note := trim r.body.note
  at_ := at_
  by_ := r.claims.sub
  voided := none

inductive SaleAt
  | priced
  /-- Under the payer's credit lock. -/
  | locked
  | charged (charged : Money)
  /-- Under the ceiling. -/
  | cleared
  | numbered (no : String) (at_ : Instant)
  | billed (no : String) (at_ : Instant)

inductive RecordAt
  | begun
  | known
  | locked
  | charged (charged : Money)
  | owed (outstanding : Money)
  /-- The amount laid over the bills open at this moment. -/
  | laid (lines : List SettlementLine)
  | numbered (id : String) (at_ : Instant) (lines : List SettlementLine)
  | headed (id : String) (at_ : Instant) (lines : List SettlementLine)
  | recorded (id : String) (at_ : Instant) (lines : List SettlementLine)

inductive VoidSettlementAt
  | begun
  | held (row : SettlementRow) (at_ : Instant)
  | locked (row : SettlementRow) (at_ : Instant)
  | stamped

inductive VoidBillAt
  | begun
  | held (at_ : Instant)
  /-- Nobody has settled it. -/
  | unsettled (at_ : Instant)
  | stamped

inductive AccountTx
  | sale (s : PricedSale) (p : SaleAt)
  | record (r : Recording) (p : RecordAt)
  | voidSettlement (claims : Claims) (id reason : String) (p : VoidSettlementAt)
  | voidBill (claims : Claims) (no reason : String) (p : VoidBillAt)

abbrev AccountStmt := Stmt Db AccountKey AccountTx

/-! ## The two halves of a balance -/

/-- The first statement of `outstandingFor`. -/
def chargedNow (db : Db) (kind : PayerKind) (id : String) : Money :=
  (outstandingFor db kind id).charged

def settledNow (db : Db) (kind : PayerKind) (id : String) : Money :=
  (outstandingFor db kind id).settled

def outstandingOf (charged settled : Money) : Money :=
  max 0 (round2 ((charged : ℚ) - settled))

def creditLock (hashtext : String → ℤ) (kind : PayerKind) (id : String) :
    AccountKey :=
  .credit (hashtext ("credit:" ++ payerKey kind id))

/-! ## The statements -/

def addBill (no : String) (row : BillRow) (db : Db) : Db :=
  { db with bills := (db.bills.insert? no row).getD db.bills }

def addSettlement (id : String) (row : SettlementRow) (db : Db) : Db :=
  { db with settlements := (db.settlements.insert? id row).getD db.settlements }

def addSettlementLines (id : String) (lines : List SettlementLine) (db : Db) :
    Db :=
  let lines := insertSettlementLines db.settlementLines id lines
  { db with settlementLines := lines.getD db.settlementLines }

def stampBillAt (no : String) (stamp : VoidStamp) (db : Db) : Db :=
  { db with bills := db.bills.modify no fun b =>
    { b with voided := some stamp } }

def stampSettlementAt (id : String) (stamp : VoidStamp) (db : Db) : Db :=
  { db with settlements := db.settlements.modify id fun s =>
    { s with voided := some stamp } }

def saleStmt (hashtext : String → ℤ) (at_ : Instant) (s : PricedSale)
    (db : Db) : SaleAt → Option AccountStmt
  | .priced =>
    match s.payer with
    | none => some (.read (.sale s .cleared))
    | some p =>
      some (.lock (creditLock hashtext p.kind p.id) .update (.sale s .locked))
  | .locked =>
    s.payer.map fun p =>
      .read (.sale s (.charged (chargedNow db p.kind p.id)))
  | .charged charged =>
    s.payer.bind fun p =>
      let outstanding := outstandingOf charged (settledNow db p.kind p.id)
      if breachesCredit outstanding s.plan.tot s.terms.limit then none
      else some (.read (.sale s .cleared))
  | .cleared =>
    let (_, no) := allocateId db .bill at_
    some ⟨[⟨.sequence .bill, .noKeyUpdate⟩], fun db => db.advance .bill,
      .sale s (.numbered no at_)⟩
  | .numbered no at_ =>
    (db.bills.insert? no (s.row at_)).map fun _ =>
      ⟨[⟨.bill no, .update⟩], addBill no (s.row at_), .sale s (.billed no at_)⟩
  | .billed .. => none

def recordStmt (hashtext : String → ℤ) (at_ : Instant) (r : Recording)
    (db : Db) : RecordAt → Option AccountStmt
  | .begun =>
    (db.rows.payers r.body.kind r.body.id).map fun payer =>
      .read (.record { r with name := payer.name } .known)
  | .known =>
    some (.lock (creditLock hashtext r.body.kind r.body.id) .update
      (.record r .locked))
  | .locked =>
    some (.read (.record r (.charged (chargedNow db r.body.kind r.body.id))))
  | .charged charged =>
    let outstanding :=
      outstandingOf charged (settledNow db r.body.kind r.body.id)
    if 0 < outstanding ∧ round2 r.body.amount ≤ outstanding then
      some (.read (.record r (.owed outstanding)))
    else none
  | .owed _ =>
    let open_ := (openBillsFor db r.body.kind r.body.id).map fun b =>
      (⟨b.no, b.at_, b.owed⟩ : OpenBill)
    let (lines, left) := allocateSettlement open_ (round2 r.body.amount)
    if left = 0 then some (.read (.record r (.laid lines))) else none
  | .laid lines =>
    let (_, id) := allocateId db .settlement at_
    some ⟨[⟨.sequence .settlement, .noKeyUpdate⟩],
      fun db => db.advance .settlement, .record r (.numbered id at_ lines)⟩
  | .numbered id at_ lines =>
    (db.settlements.insert? id (r.row at_)).map fun _ =>
      ⟨[⟨.settlement id, .update⟩], addSettlement id (r.row at_),
        .record r (.headed id at_ lines)⟩
  | .headed id at_ lines =>
    -- Each line refers to its bill, which a void may not be holding.
    (insertSettlementLines db.settlementLines id lines).map fun _ =>
      ⟨lines.map fun l => ⟨.bill l.no, .keyShare⟩, addSettlementLines id lines,
        .record r (.recorded id at_ lines)⟩
  | .recorded .. => none

def voidSettlementStmt (hashtext : String → ℤ) (at_ : Instant) (claims : Claims)
    (id reason : String) (db : Db) : VoidSettlementAt → Option AccountStmt
  | .begun =>
    (db.settlements.get? id).bind fun row =>
      if trim reason ≠ "" ∧ row.voided = none ∧ istDate row.at_ = istDate at_
      then some (.lock (.settlement id) .update
        (.voidSettlement claims id reason (.held row at_)))
      else none
  | .held row at_ =>
    some (.lock (creditLock hashtext row.kind row.payerId) .update
      (.voidSettlement claims id reason (.locked row at_)))
  | .locked _ at_ =>
    some ⟨[⟨.settlement id, .noKeyUpdate⟩],
      stampSettlementAt id ⟨at_, claims.sub, trim reason⟩,
      .voidSettlement claims id reason .stamped⟩
  | .stamped => none

/-- Between the settlement check and the stamp the void asks after the outlet
and the session, which may refuse it, and posts the stock back. -/
def voidBillStmt (at_ : Instant) (claims : Claims) (no reason : String)
    (db : Db) : VoidBillAt → Option AccountStmt
  | .begun =>
    (db.bills.get? no).bind fun bill =>
      if bill.operatorId ≠ claims.sub ∧ trim reason ≠ "" ∧ bill.voided = none ∧
          istDate bill.at_ = istDate at_
      then some (.lock (.bill no) .update (.voidBill claims no reason (.held at_)))
      else none
  | .held at_ =>
    if liveSettlementOf db no = none then
      some (.read (.voidBill claims no reason (.unsettled at_)))
    else none
  | .unsettled at_ =>
    some ⟨[⟨.bill no, .noKeyUpdate⟩],
      stampBillAt no ⟨at_, claims.sub, trim reason⟩,
      .voidBill claims no reason .stamped⟩
  | .stamped => none

def AccountTx.stmt (hashtext : String → ℤ) (at_ : Instant) (t : AccountTx)
    (db : Db) : Option AccountStmt :=
  match t with
  | .sale s p => saleStmt hashtext at_ s db p
  | .record r p => recordStmt hashtext at_ r db p
  | .voidSettlement claims id reason p =>
    voidSettlementStmt hashtext at_ claims id reason db p
  | .voidBill claims no reason p => voidBillStmt at_ claims no reason db p

def AccountTx.starts : AccountTx → Bool
  | .sale _ .priced | .record _ .begun | .voidSettlement _ _ _ .begun
  | .voidBill _ _ _ .begun => true
  | _ => false

def AccountTx.done : AccountTx → Bool
  | .sale _ (.billed ..) | .record _ (.recorded ..)
  | .voidSettlement _ _ _ .stamped | .voidBill _ _ _ .stamped => true
  | _ => false

/-- The accounts, with any number of these transactions open at once. The
choice a statement is given is the clock's. -/
def accounts (hashtext : String → ℤ) :
    Database Db AccountKey Instant AccountTx where
  init db := ∃ rows, db = Db.fresh rows
  starts := AccountTx.starts
  stmt := AccountTx.stmt hashtext
  done := AccountTx.done

end Rch
