import Rch.Api.Credit

/-!
# The sale

One bill at one outlet, priced, covered, numbered, written and posted. The
till and a QR order's capture both come through here, so a QR bill is the bill
a till would have printed.

The refusals made before the locks are friendly; the ones made after them are
the guarantee. Both are kept, in the order they are made.
-/

namespace Rch

open Kit

/-! ## The register's session -/

def openSessionAt (db : Db) (loc : LocKey) : Option (String × SessionRow) :=
  db.sessions.rows.find? fun s => decide (s.2.loc = loc) && s.2.closedAt.isNone

def registerClosing : Refusal :=
  ⟨.registerClosing, "The register is being closed - take the bill again in a moment."⟩

/-- The open session, opened here if the outlet has none. `mint` is the id a
fresh session gets; a sale that lost the row to a closing register on each of
its passes has none. -/
def sessionFor (db : Db) (loc by_ : String) (mint : Option String)
    (at_ : Instant) : Outcome (Db × String) :=
  match openSessionAt db loc with
  | some s => pure (db, s.1)
  | none =>
    match mint.bind fun id => (db.sessions.insert? id
        { loc, zNo := none, openedBy := by_, openedAt := at_, closedAt := none,
          closedBy := none }).map fun t => (t, id) with
    | some (sessions, id) => pure ({ db with sessions }, id)
    | none => .error registerClosing

/-! ## What an outlet can sell right now -/

structure Sellable where
  loc : LocKey
  locName : String
  master : Master
  menu : ItemKey → Bool
  stock : StockMap
  rsv : RsvMap
  ovr : OvrMap
  prices : Prices

/-- One shelf, its holds, its own switches and the kitchen's, and every price
list. -/
def sellableAt (db : Db) (loc : LocKey) : Sellable where
  loc
  locName := db.locName loc
  master := db.master
  menu := db.rows.menu loc
  stock l it := if l = loc then balancesAt db.stock loc it else 0
  rsv l it := if l = loc then reservedAt db.stock loc it else 0
  ovr l it := if l = loc ∨ l = KITCHEN then db.rows.overrides l it else none
  prices := db.rows.prices

/-- How many the location could sell: the free units of a stocked item, and no
cap on one made to order. -/
def coverOf (s : Sellable) (it : ItemKey) : Option Qty :=
  if s.master.madeToOrder it then none else some (avail s.stock s.rsv s.loc it)

/-- One line of an outlet's menu as a customer could buy it. -/
structure SellableLine where
  it : ItemKey
  item : Item
  price : Money
  available : Bool
  cover : Option Qty

def sellableLine (s : Sellable) (it : ItemKey) : Option SellableLine :=
  (s.master.items it).map fun item =>
    let price := priceOf s.master s.prices s.loc it
    { it, item, price
      available :=
        (availOf s.master s.stock s.rsv s.ovr s.loc it).ok && decide (0 < price)
      cover := coverOf s it }

/-- The outlet's menu in name order. `listed` is the menu's set of keys. -/
def menuOf (localeCompare : String → String → Ordering) (s : Sellable)
    (listed : List ItemKey) : List SellableLine :=
  (listed.filterMap (sellableLine s)).mergeSort fun a b =>
    decide ((localeCompare a.item.n b.item.n).then (localeCompare a.it b.it) ≠ .gt)

def assertSellableLine (s : Sellable) (c : Line) : Outcome Unit := do
  let item ← orNotFound (s.master.items c.it)
    ("There is no item " ++ c.it ++ ".")
  assertRule (s.menu c.it = true) (item.n ++ " is not listed at " ++ s.locName)
  let a := availOf s.master s.stock s.rsv s.ovr s.loc c.it
  assertRule (a.ok = true)
    (item.n ++ " is not available at " ++ s.locName ++ " - " ++ a.why)
  match coverOf s c.it with
  | none => pure ()
  | some cover =>
    assertRule (c.qty ≤ cover)
      ("Only " ++ fq cover item.u ++ " " ++ item.u ++ " of " ++ item.n
        ++ " left at " ++ s.locName)
  assertRule (0 < priceOf s.master s.prices s.loc c.it)
    ("Refused - " ++ item.n ++ " has no price at " ++ s.locName)

/-- Refuse a cart the outlet cannot sell, naming the first item that fails. -/
def assertSellable (s : Sellable) (cart : List Line) : Outcome Unit := do
  assertRule
    (((s.master.locations s.loc).bind Location.list).any (· ≠ "") = true)
    ("Refused - " ++ s.locName
      ++ " is on no price list; attach one from Prices before selling")
  checkEach cart (assertSellableLine s)

/-- A cart is a bag of scans: the same item read twice is one line of two. -/
def cartOf (lines : List LineInput) : List Line := foldLines lines

/-! ## The sale itself -/

structure SaleInput where
  loc : LocKey
  operatorId : String
  lines : List LineInput
  tender : Tender
  payer : Option PayerRef
  customerName : Option String
  customerPhone : Option String
  source : BillSource
  qrOrderId : Option String

/-- The walk-in customer's phone, as it is stored: a blank box is no phone. -/
def customerPhoneOf (phone : Option String) : Outcome (Option String) := do
  let raw := (phone.map trim).getD ""
  if raw = "" then pure none
  else
    assertRule ((normalizePhone raw).isSome = true) (phoneRefusal raw)
    pure (normalizePhone raw)

/-- The payer as the bill carries it: of the kind the tender means, and an
active row of the roster, under the roster's name. -/
def payerOf (db : Db) (tender : Tender) (payer : Option PayerRef) :
    Outcome (Option PayerRef) := do
  let needKind := payerKindForTender tender
  let needLabel := (needKind.map payerLabel).getD ""
  assertRule (¬ (needKind.isSome = true ∧ payer.isNone = true))
    ("Choose a " ++ needLabel ++ " before taking a " ++ tender.word.toLower)
  assertRule (needKind.isNone = true ∨ payer.map PayerRef.kind = needKind)
    ("Choose a " ++ needLabel ++ " for a " ++ tender.word.toLower ++ " - "
      ++ (payer.map PayerRef.name).getD "undefined" ++ " is not one")
  match payer with
  | none => pure none
  | some p =>
    let roster := (db.rows.payers p.kind p.id).filter PayerRow.active
    assertRule (roster.isSome = true)
      ("There is no " ++ payerLabel p.kind ++ " " ++ p.id ++ " on the roster")
    pure (roster.map fun r => { p with name := r.name })

/-- The ceiling, checked under the payer's credit lock. -/
def assertCredit (db : Db) (payer : Option PayerRef) (total : ℚ)
    (limit : Option Money) : Outcome Unit :=
  match payer with
  | none => pure ()
  | some p =>
    let outstanding := (outstandingFor db p.kind p.id).outstanding
    assertRule (breachesCredit outstanding total limit = false)
      (creditBreachMessage outstanding total p.name (limit.getD 0))

/-- What the plan takes off each shelf, folded the way the moves are. -/
def tookOf (plan : BillPlan) : List Line :=
  foldLines (plan.moves.map fun m => ⟨m.it, -(m.qty : ℚ)⟩)

/-- The cover check under the locks: on hand less what is held. -/
def assertCover (m : Master) (locName : String) (stock : Stock) (loc : LocKey)
    (took : List Line) : Outcome Unit :=
  assertEach took (fun l => l.qty ≤ freeAt stock loc l.it) fun l =>
    "Only " ++ fq (max 0 (freeAt stock loc l.it)) (m.unitOf l.it) ++ " "
      ++ m.unitOf l.it ++ " of " ++ m.itemName l.it ++ " left at " ++ locName

/-- The same once the moves are posted. -/
def assertLeft (m : Master) (locName : String) (stock : Stock) (loc : LocKey)
    (took : List Line) : Outcome Unit :=
  assertEach took (fun l => 0 ≤ freeAt stock loc l.it) fun l =>
    "Only " ++ fq (max 0 (round3 ((freeAt stock loc l.it : ℚ) + l.qty)))
      (m.unitOf l.it) ++ " " ++ m.unitOf l.it ++ " of " ++ m.itemName l.it
      ++ " left at " ++ locName

def saleMoves (plan : BillPlan) (no by_ : String) (at_ : Instant) : List Move :=
  plan.moves.map fun m =>
    ⟨m.loc, m.it, m.qty, .sale, "bill", no, some by_, at_, none⟩

def billRow (i : SaleInput) (plan : BillPlan) (terms : ResolvedTerms)
    (payer : Option PayerRef) (phone : Option String) (session : String)
    (at_ : Instant) : BillRow where
  loc := i.loc
  operatorId := i.operatorId
  total := round2 plan.tot
  tax := round2 plan.tax
  at_ := at_
  tender := i.tender
  sessionId := some session
  payer := payer
  discountPct := terms.pct
  discount := round2 plan.disc
  customerName := i.customerName.filter (· ≠ "")
  customerPhone := phone
  lines := plan.lines
  voided := none
  source := i.source
  qrOrderId := i.qrOrderId

/-- A bill belongs to a QR order exactly when a capture raised it, and an
order has one bill. -/
def insertBill (db : Db) (no : String) (row : BillRow) :
    Outcome (Table String BillRow) := do
  guardOr (row.source = .qr ↔ row.qrOrderId.isSome = true)
    ⟨.internal, "bills_source_ck"⟩
  guardOr (∀ b ∈ db.bills.rows,
      row.qrOrderId.isSome = true → b.2.qrOrderId ≠ row.qrOrderId)
    ⟨.internal, "bills_qr_order_uq"⟩
  orInternal (db.bills.insert? no row) "bills_pkey"

/-- One sale, inside the caller's transaction. Hands back the bill. -/
def postSale (db : Db) (i : SaleInput) (mint : Option String) (at_ : Instant) :
    Outcome (Db × String × BillRow) := do
  let outlet ← lockLocation db i.loc
  assertOpen outlet none
  let (db, session) ← sessionFor db i.loc i.operatorId mint at_
  let cart := cartOf i.lines
  let phone ← customerPhoneOf i.customerPhone
  let payer ← payerOf db i.tender i.payer
  let s := sellableAt db i.loc
  assertSellable s cart
  let terms := termsFor db (partyOf (payer.map PayerRef.kind)) payer
  let plan := planBill s.master s.prices i.loc cart terms.pct
  assertCredit db payer plan.tot terms.limit
  let took := tookOf plan
  let stock := lockBalances db.stock (took.map fun l => ⟨i.loc, l.it⟩)
  assertCover s.master s.locName stock i.loc took
  let (db, no) := allocateId db .bill at_
  let row := billRow i plan terms payer phone session at_
  let bills ← insertBill db no row
  let stock := postMoves stock (saleMoves plan no i.operatorId at_)
  assertLeft s.master s.locName stock i.loc took
  pure ({ db with bills, stock }, no, row)

end Rch
