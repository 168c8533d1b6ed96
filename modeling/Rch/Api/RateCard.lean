import Rch.Api.Credit
import Rch.Domain.Permissions

/-!
# The rate card, as it is read

The card has three readers beside the sale itself: the snapshot that carries it
to a till, the till that resolves a rate from it, and the list of what every
payer owes, which prints the rate and the ceiling beside the balance.
-/

namespace Rch

open Kit

/-- The card's rows and the register, whole. An exception is about somebody on
the register, and nobody is on it without a number. -/
structure RateTables where
  payerClassTerms : Table BillParty ResolvedTerms
  payerTerms : Table (PayerKind × String) PayerTerms
  payers : Table (PayerKind × String) PayerRow
  payer_terms_payer_fk : ∀ k ∈ payerTerms.keys, k ∈ payers.keys
  payers_id : ∀ k ∈ payers.keys, k.2 ≠ ""

/-- The database with these rows as its card and register. -/
def RateTables.onto (t : RateTables) (db : Db) : Db :=
  { db with rows := { db.rows with
    payers := fun kind id => t.payers.get? (kind, id)
    classTerms := t.payerClassTerms.get?
    payerTerms := fun kind id => t.payerTerms.get? (kind, id) } }

/-! ## The card -/

structure ClassTerms where
  cls : BillParty
  pct : Pct
  limit : Option Money

structure PayerTermsEntry where
  kind : PayerKind
  id : String
  name : String
  pct : Option Pct
  limit : Option Money

structure Terms where
  classes : List ClassTerms
  payers : List PayerTermsEntry

def billParties : List BillParty := [.customer, .staff, .dept, .doctor]

def classTermsOf (t : RateTables) (cls : BillParty) : ClassTerms :=
  let row := t.payerClassTerms.get? cls
  { cls
    pct := (row.map ResolvedTerms.pct).getD (fallbackTerms cls).pct
    limit := (row.bind ResolvedTerms.limit).or (fallbackTerms cls).limit }

/-- The whole card: every category in the order of the vocabulary, and every
exception with its payer's name, in the order `byName` puts names. -/
def readTerms (byName : String → String → Bool) (t : RateTables) : Terms :=
  let payers := t.payerTerms.rows.filterMap fun own =>
    (t.payers.get? own.1).map fun p =>
      (⟨own.1.1, own.1.2, p.name, own.2.pct, own.2.limit⟩ : PayerTermsEntry)
  { classes := billParties.map (classTermsOf t)
    payers := payers.mergeSort fun a c => byName a.name c.name }

/-- A person's own rate where there is one, their category's otherwise. -/
def discountPctFor (classPct : Pct) (personPct : Option Pct) : Pct :=
  personPct.getD classPct

def creditLimitFor (classLimit personLimit : Option Money) : Option Money :=
  personLimit.or classLimit

/-- One payer as one word, which is how the readers index their maps. -/
def payerKey (kind : PayerKind) (id : String) : String :=
  (match kind with
    | .staff => "staff"
    | .dept => "dept"
    | .doctor => "doctor") ++ ":" ++ id

/-! ## The till -/

structure PartyRate where
  party : BillParty
  pct : Pct
  limit : Option Money

/-- What a till that holds this card says a bill of this payer is on. -/
def partyRate (card : Terms) (payer : Option PayerRef) : PartyRate :=
  let party := partyOf (payer.map PayerRef.kind)
  let cls := fromEntries (card.classes.map fun c => (c.cls, c)) party
  let own := payer.bind fun p =>
    fromEntries (card.payers.map fun o => (payerKey o.kind o.id, o))
      (payerKey p.kind p.id)
  { party
    pct := discountPctFor ((cls.map ClassTerms.pct).getD Pct.zero)
      (own.bind PayerTermsEntry.pct)
    limit := creditLimitFor (cls.bind ClassTerms.limit)
      (own.bind PayerTermsEntry.limit) }

/-! ## What everybody owes -/

structure ChargedRow where
  kind : PayerKind
  id : String
  charged : Money
  bills : Nat
  oldest : Option Instant

/-- The bills on some account and not voided. -/
def accountBills (db : Db) : List BillRow :=
  (db.bills.rows.map Prod.snd).filter fun b =>
    decide (b.tender ∈ accountTenders) && b.voided.isNone

def billPayer (b : BillRow) : Option (PayerKind × String) :=
  b.payer.map fun p => (p.kind, p.id)

def chargedByPayer (db : Db) : List ChargedRow :=
  (groups billPayer (accountBills db)).filterMap fun g =>
    g.1.bind fun p =>
      if p.2 = "" then none
      else some
        { kind := p.1
          id := p.2
          charged := (g.2.map BillRow.total).sum
          bills := g.2.length
          oldest := (g.2.map BillRow.at_).min? }

structure SettledRow where
  kind : PayerKind
  id : String
  settled : Money

def liveSettlements (db : Db) : List SettlementRow :=
  (db.settlements.rows.map Prod.snd).filter fun s => s.voided.isNone

def settledByPayer (db : Db) : List SettledRow :=
  (groups (fun s : SettlementRow => (s.kind, s.payerId))
    (liveSettlements db)).map fun g =>
      ⟨g.1.1, g.1.2, (g.2.map SettlementRow.amount).sum⟩

structure RegisterRow where
  kind : PayerKind
  id : String
  name : String
  active : Bool

structure Receivable where
  kind : PayerKind
  id : String
  name : String
  active : Bool
  charged : Money
  settled : Money
  outstanding : Money
  bills : Nat
  oldest : Option Instant
  pct : Pct
  limit : Option Money

/-- One row of the list: what the two folds found under the payer's word, and
what the card says. -/
def receivableOf (card : Terms) (charged : List ChargedRow)
    (settled : List SettledRow) (p : RegisterRow) : Receivable :=
  let key := payerKey p.kind p.id
  let c := fromEntries (charged.map fun c => (payerKey c.kind c.id, c)) key
  let cls := fromEntries (card.classes.map fun c => (c.cls, c))
    (partyOf (some p.kind))
  let mine := fromEntries (card.payers.map fun o => (payerKey o.kind o.id, o)) key
  let paid := (fromEntries
    (settled.map fun s => (payerKey s.kind s.id, s.settled)) key).getD 0
  let total := (c.map ChargedRow.charged).getD 0
  { kind := p.kind, id := p.id, name := p.name, active := p.active
    charged := total, settled := paid
    outstanding := max 0 (round2 ((total : ℚ) - paid))
    bills := (c.map ChargedRow.bills).getD 0
    oldest := c.bind ChargedRow.oldest
    pct := discountPctFor ((cls.map ClassTerms.pct).getD Pct.zero)
      (mine.bind PayerTermsEntry.pct)
    limit := creditLimitFor (cls.bind ClassTerms.limit)
      (mine.bind PayerTermsEntry.limit) }

/-- The register, and behind it anybody charged who is not on it. -/
def receivablePayers (t : RateTables) (charged : List ChargedRow)
    (byName : String → String → Bool) : List RegisterRow :=
  let register := (t.payers.rows.map fun p =>
    (⟨p.1.1, p.1.2, p.2.name, p.2.active⟩ : RegisterRow)).mergeSort
      fun a c => byName a.name c.name
  let seen := register.map fun p => payerKey p.kind p.id
  register ++ (charged.filter fun c =>
    decide (payerKey c.kind c.id ∉ seen)).map fun c =>
      ⟨c.kind, c.id, c.id, false⟩

/-- Every party with an account: the most owed first, then by name. -/
def receivables (byName : String → String → Bool) (t : RateTables) (db : Db)
    (perms : Permissions) : List Receivable :=
  if can perms .settlements .view then
    let charged := chargedByPayer db
    let settled := settledByPayer db
    let card := readTerms byName t
    ((receivablePayers t charged byName).map
      (receivableOf card charged settled)).mergeSort fun a c =>
        decide (c.outstanding < a.outstanding) ||
          (decide (c.outstanding = a.outstanding) && byName a.name c.name)
  else []

end Rch
