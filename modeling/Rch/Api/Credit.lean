import Rch.Api.Db
import Rch.Kit.Join

/-!
# What a payer owes

Two folds answer the same question. `outstandingFor` adds up the bills charged
to a payer and takes off the settlements nobody voided. `openBillsFor` goes
bill by bill: each bill's total less the settlement lines laid on it, kept
where something is left.
-/

namespace Rch

open Kit

/-- A bill charged to this payer's account and not voided. -/
def chargedTo (kind : PayerKind) (payerId : String) (b : BillRow) : Bool :=
  decide (b.tender ∈ accountTenders) &&
    b.payer.any (fun p => decide (p.kind = kind ∧ p.id = payerId)) &&
    b.voided.isNone

/-- A settlement of this payer's nobody voided. -/
def paidBy (kind : PayerKind) (payerId : String) (s : SettlementRow) : Bool :=
  decide (s.kind = kind ∧ s.payerId = payerId) && s.voided.isNone

structure Balance where
  charged : Money
  settled : Money
  outstanding : Money
deriving DecidableEq

def outstandingFor (db : Db) (kind : PayerKind) (payerId : String) : Balance :=
  let charged := db.bills.total fun _ b =>
    if chargedTo kind payerId b then b.total else 0
  let settled := db.settlements.total fun _ s =>
    if paidBy kind payerId s then s.amount else 0
  ⟨charged, settled, max 0 (round2 ((charged : ℚ) - settled))⟩

/-- What has been laid on a bill: the sum of its settlement lines over the
join to the settlements nobody voided. The condition on the settlement stands
in the `on` clause of its own join. -/
def settledOn (db : Db) (no : String) : Money :=
  let lines := db.settlementLines.rows.filter fun l => decide (l.1.2 = no)
  let joined := leftJoin lines db.settlements.rows fun l s =>
    decide (s.1 = l.1.1) && s.2.voided.isNone
  (joined.map fun j => j.1.2).sum

structure OpenBillRow where
  no : String
  loc : LocKey
  at_ : Instant
  total : Money
  settled : Money
  owed : Money
deriving DecidableEq

def openBillOf (db : Db) (no : String) (b : BillRow) : OpenBillRow :=
  let settled := settledOn db no
  { no, loc := b.loc, at_ := b.at_, total := b.total, settled,
    owed := round2 ((b.total : ℚ) - settled) }

/-- Bills in the order they were raised, the number deciding a tie. -/
def billOrder (a c : String × BillRow) : Bool :=
  decide (a.2.at_ < c.2.at_) || (decide (a.2.at_ = c.2.at_) && decide (a.1 ≤ c.1))

/-- A payer's bills with something still owed on them, oldest first. -/
def openBillsFor (db : Db) (kind : PayerKind) (payerId : String) :
    List OpenBillRow :=
  let rows := (db.bills.rows.filter fun b => chargedTo kind payerId b.2).mergeSort
    billOrder
  (rows.map fun b => openBillOf db b.1 b.2).filter fun r => decide (0 < r.owed)

/-! ## The rate card -/

/-- What applies to one party: the person's own exception over the category's
rate, each half on its own. -/
def termsFor (db : Db) (party : BillParty) (payer : Option PayerRef) :
    ResolvedTerms :=
  let base := (db.rows.classTerms party).getD (fallbackTerms party)
  match payer.bind fun p => db.rows.payerTerms p.kind p.id with
  | none => base
  | some own =>
    { pct := own.pct.getD base.pct
      limit := match own.limit with
        | some limit => some limit
        | none => base.limit }

end Rch
