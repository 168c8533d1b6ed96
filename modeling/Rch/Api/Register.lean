import Rch.Api.RateCard
import Rch.Api.Sale

/-!
# The register: what a Z prints

A Z counts one session: what its bills sold, tender by tender, what it voided,
and what settlements were taken in its hours. The slip is assembled from those
three reads, and the close stores it as it was printed. Amounts are added and
taken from one another as the decimals they are; the one figure that is divided
is rounded as the code's doubles round it.
-/

namespace Rch

open Kit

/-- A bill as the reports' queries read it. The tender is a column of text, and
a word the schema no longer names stays in it. -/
structure BilledRow where
  sessionId : Option String
  operatorId : String
  loc : LocKey
  at_ : Instant
  tender : String
  total : Money
  discount : Money
  tax : Money
  voided : Bool
deriving DecidableEq

def BillRow.billed (b : BillRow) : BilledRow where
  sessionId := b.sessionId
  operatorId := b.operatorId
  loc := b.loc
  at_ := b.at_
  tender := b.tender.word
  total := b.total
  discount := b.discount
  tax := b.tax
  voided := b.voided.isSome

/-- A settlement as the reports' queries read it. -/
structure OldBillRow where
  mode : String
  amount : Money
  at_ : Instant
  voided : Bool
deriving DecidableEq

def SettlementRow.oldBill (s : SettlementRow) : OldBillRow :=
  ⟨s.mode.word, s.amount, s.at_, s.voided.isSome⟩

/-- One tender's takings. -/
structure SoldLine where
  tender : String
  amount : Money
  discount : Money
  tax : Money
  bills : ℕ
deriving DecidableEq

structure VoidedSum where
  amount : Money
  bills : ℕ
deriving DecidableEq

structure SettledLine where
  mode : String
  amount : Money
deriving DecidableEq

structure TenderLine where
  tender : String
  amount : Money
  bills : ℕ
deriving DecidableEq

structure RegisterTotals where
  grossSales : Money
  discount : Money
  nettSales : Money
  creditSales : Money
  voidAmount : Money
  voidBills : ℕ
  tip : Money
  parcelCharge : Money
  deliveryCharge : Money
  additionalCharge : Money
  complimentary : Money
  unCollected : Money
  unCollectedDiscount : Money
  tenders : List TenderLine
  collected : Money
  oldBills : List SettledLine
  oldBillsTotal : Money
  sgst : Money
  cgst : Money
  taxTotal : Money
  billCount : ℕ
deriving DecidableEq

/-! ## The three reads -/

def soldLine (g : String × List BilledRow) : SoldLine where
  tender := g.1
  amount := (g.2.map BilledRow.total).sum
  discount := (g.2.map BilledRow.discount).sum
  tax := (g.2.map BilledRow.tax).sum
  bills := g.2.length

/-- What bills sold, per tender. A voided bill is not a sale. -/
def soldOf (bills : List BilledRow) : List SoldLine :=
  (groups BilledRow.tender (bills.filter fun b => !b.voided)).map soldLine

def voidedOf (bills : List BilledRow) : VoidedSum :=
  let voided := bills.filter BilledRow.voided
  ⟨(voided.map BilledRow.total).sum, voided.length⟩

/-- Money taken in a window of the clock, by the mode it came in as. -/
def settledOf (settlements : List OldBillRow) (from_ to_ : Instant) :
    List SettledLine :=
  let taken := settlements.filter fun s =>
    !s.voided && decide (from_ ≤ s.at_) && decide (s.at_ < to_)
  (groups OldBillRow.mode taken).map fun g =>
    ⟨g.1, (g.2.map OldBillRow.amount).sum⟩

def billsIn (db : Db) (session : String) : List BillRow :=
  (db.bills.rows.map Prod.snd).filter fun b =>
    decide (b.sessionId = some session)

def soldIn (db : Db) (session : String) : List SoldLine :=
  soldOf ((billsIn db session).map BillRow.billed)

def voidedIn (db : Db) (session : String) : VoidedSum :=
  voidedOf ((billsIn db session).map BillRow.billed)

/-- A settlement carries no session, so what a session took against earlier bills
is a window of the clock. -/
def settledIn (db : Db) (from_ to_ : Instant) : List SettledLine :=
  settledOf ((db.settlements.rows.map Prod.snd).map SettlementRow.oldBill)
    from_ to_

/-! ## The slip -/

def tenderOptions : List String :=
  [Tender.cash, .upi, .card, .staffCredit, .doctorCredit, .dept,
    .online].map Tender.word

def settlementModeOptions : List String :=
  [SettlementMode.cash, .upi, .card, .bankTransfer,
    .payrollDeduction].map SettlementMode.word

def isCredit (tender : String) : Bool :=
  (accountTenders.map Tender.word).contains tender

/-- Every tender the schema names gets a line, whether or not it took anything,
and so does every tender the bills carry. -/
def tenderLines (options : List String) (sold : List SoldLine) :
    List TenderLine :=
  let byTender := fromEntries (sold.map fun r => (r.tender, r))
  (options ++ sold.map SoldLine.tender).eraseDups.map fun t =>
    { tender := t
      amount := ((byTender t).map SoldLine.amount).getD 0
      bills := ((byTender t).map SoldLine.bills).getD 0 }

/-- What a tender's line takes in, by whether the tender runs up a balance. -/
def takenOn (credit : Bool) (tenders : List TenderLine) : Money :=
  ((tenders.filter fun t => isCredit t.tender == credit).map
    TenderLine.amount).sum

def oldBillLines (settled : List SettledLine) : List SettledLine :=
  let byMode := fromEntries (settled.map fun r => (r.mode, r.amount))
  (settlementModeOptions ++ settled.map SettledLine.mode).eraseDups.map
    fun m => ⟨m, (byMode m).getD 0⟩

def buildTotals (sold : List SoldLine) (voided : VoidedSum)
    (settled : List SettledLine) : RegisterTotals :=
  let tenders := tenderLines tenderOptions sold
  let collected := takenOn false tenders
  let creditSales := takenOn true tenders
  let nettSales := collected + creditSales
  let discount := (sold.map SoldLine.discount).sum
  let oldBills := oldBillLines settled
  let taxTotal := (sold.map SoldLine.tax).sum
  let sgst := Doubles.round2 (.ofRat (taxTotal.held.val / 2))
  { grossSales := nettSales + discount, discount, nettSales, creditSales
    voidAmount := voided.amount, voidBills := voided.bills
    tip := 0, parcelCharge := 0, deliveryCharge := 0, additionalCharge := 0
    complimentary := 0, unCollected := 0, unCollectedDiscount := 0
    tenders, collected, oldBills
    oldBillsTotal := (oldBills.map SettledLine.amount).sum
    -- the second half of the tax is what the first leaves of it
    sgst, cgst := taxTotal - sgst, taxTotal
    billCount := (sold.map SoldLine.bills).sum }

/-! ## The hand-over at the end of a shift -/

structure ShiftTotals where
  billCount : ℕ
  grossSales : Money
  discount : Money
  nettSales : Money
  taxTotal : Money
  tenders : List TenderLine
  collected : Money
  creditSales : Money
  voidAmount : Money
  voidBills : ℕ
deriving DecidableEq

/-- The till's own tenders: the QR system account bills the online ones, and
has no shift. -/
def tillTenderOptions : List String :=
  [Tender.cash, .upi, .card, .staffCredit, .doctorCredit, .dept].map Tender.word

/-- What one operator billed at one counter between two instants. -/
def shiftTotals (bills : List BilledRow) (userId : String) (loc : LocKey)
    (from_ to_ : Instant) : ShiftTotals :=
  let mine := bills.filter fun b => decide (b.operatorId = userId) &&
    decide (b.loc = loc) && decide (from_ ≤ b.at_) && decide (b.at_ ≤ to_)
  let sold := soldOf mine
  let voided := voidedOf mine
  let tenders := tenderLines tillTenderOptions sold
  let collected := takenOn false tenders
  let creditSales := takenOn true tenders
  let nettSales := collected + creditSales
  let discount := (sold.map SoldLine.discount).sum
  { billCount := (sold.map SoldLine.bills).sum
    grossSales := nettSales + discount, discount, nettSales
    taxTotal := (sold.map SoldLine.tax).sum
    tenders, collected, creditSales
    voidAmount := voided.amount, voidBills := voided.bills }

/-! ## The close -/

/-- What a session's row stores of its Z. -/
structure ClosedTotals where
  totals : RegisterTotals
  countedCash : Option Money
  note : String
deriving DecidableEq

structure CloseRegisterBody where
  loc : LocKey
  countedCash : Option Money
  note : String
deriving DecidableEq

end Rch
