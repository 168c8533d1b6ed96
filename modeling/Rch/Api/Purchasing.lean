import Rch.Api.Grn
import Rch.Api.Requisitions

/-!
# Purchase orders

A draft is picked off the procurement list, and from then on the claim it put
there moves with it: a cut or a dropped line gives part of it back, a
cancellation all of it, a short close what never arrived. Each of them gives
back through `returnClaims`, and only `createPo` takes.
-/

namespace Rch

open Kit

/-! ## What the buyer's screens keep -/

structure Vendor where
  name : String
  active : Bool
  leadDays : ℤ
deriving DecidableEq

/-- The vendors, the live contracts' rates on a date, and the standard costs:
read here, edited elsewhere. -/
structure BuyingDesk where
  vendors : String → Option Vendor
  activeContractRates : String → String → ItemKey → Option Money
  cost : ItemKey → Money

def PO_APPROVAL_LIMIT : Money := ⟨2500000⟩

def needsApproval (value limit : Money) : Bool := decide (limit < value)

/-- A line is priced off the live contract where there is one, and off the
standard cost where there is not. -/
def rateFor (contract : Option Money) (itemCost : Money) : Money :=
  (contract.filter fun rate => decide (0 < rate)).getD itemCost

def etaFrom (at_ : Instant) (leadDays : ℤ) : String :=
  istDate (at_ + max 0 leadDays * 86400000)

/-! ## An order's lines, both halves together -/

/-- A line as the rules read it: what is ordered, at what rate, and what funded
it. -/
structure DraftLine where
  it : ItemKey
  qty : Qty
  rate : Money
  src : List ClaimSrc
deriving DecidableEq

/-- What an order is worth, before tax and before anything is delivered. -/
def poValue (lines : List DraftLine) : Money :=
  round2 ((lines.map fun l => (l.qty : ℚ) * l.rate).sum)

def draftLines (o : PurchaseOrderRow) (h : PoHead) : List DraftLine :=
  List.zipWith (fun l t => ⟨l.it, l.qty, t.rate, t.src⟩) o.lines h.terms

def headOf (b : Buying) (id : String) : Outcome (PurchaseOrderRow × PoHead) := do
  let o ← orNotFound (b.db.purchaseOrders.get? id)
    ("There is no purchase order " ++ id ++ ".")
  let h ← orNotFound (b.heads.get? id)
    ("There is no purchase order " ++ id ++ ".")
  pure (o, h)

def modifyPo (b : Buying) (id : String) (f : PurchaseOrderRow → PurchaseOrderRow)
    (g : PoHead → PoHead) : Buying :=
  { b with
    db := { b.db with purchaseOrders := b.db.purchaseOrders.modify id f }
    heads := b.heads.modify id g }

/-- A draft's lines and their sources, rewritten wholesale: deleted and
inserted again, with nothing received on them. -/
def writeLines (b : Buying) (id : String) (lines : List DraftLine) : Buying :=
  modifyPo b id
    (fun o => { o with lines := lines.map fun l => ⟨l.it, l.qty, 0, 0⟩ })
    fun h => { h with terms := lines.map fun l => ⟨l.rate, l.src⟩ }

/-! ## A draft -/

/-- One pick off the procurement list. -/
structure Pick where
  prq : String
  line : ℕ
  qty : Qty
  rate : Option Money
deriving DecidableEq

def Pick.claim (p : Pick) : ClaimSrc := ⟨p.prq, p.line, p.qty⟩

structure CreatePoBody where
  vendorId : String
  picks : List Pick

/-- The item a pick names, once the picks are known to name lines. -/
def itemOf (prq : Table String RequisitionRow) (x : ClaimSrc) : ItemKey :=
  ((requisitionLine prq x.key).map RequisitionLine.it).getD ""

/-- The rate the buyer set on the list, per item: the first pick of an item
that carries one. -/
def givenRates (m : Master) (prq : Table String RequisitionRow) :
    List Pick → List (ItemKey × Money) → Outcome (List (ItemKey × Money))
  | [], given => pure given
  | p :: picks, given =>
    let it := itemOf prq p.claim
    match p.rate.filter fun _ => (given.lookup it).isNone with
    | none => givenRates m prq picks given
    | some rate => do
      assertRule (0 < rate) (m.itemName it ++ " - enter a rate above zero")
      givenRates m prq picks (given ++ [(it, rate)])

/-- Merge picks of one item into one line carrying several sources, in the
order the buyer picked them. -/
def mergePicks (prq : Table String RequisitionRow) (picks : List ClaimSrc) :
    List (ItemKey × Qty × List ClaimSrc) :=
  accumulate (itemOf prq) (fun l p => (l.1 + p.qty, l.2 ++ [p])) (0, []) picks

section Collation

/- Requisition names are compared in the process's own collation. -/
variable (localeCompare : String → String → Ordering)

/-- Fold before checking: two picks against one source line must not each pass
on their own while their sum overruns what is still pending on it. -/
def assertPending (m : Master) (prq : Table String RequisitionRow)
    (picks : List ClaimSrc) : Outcome Unit :=
  checkEach (foldClaims localeCompare picks) fun f => do
    let p ← orNotFound (prq.get? f.prq) ("There is no requisition " ++ f.prq ++ ".")
    let l ← orNotFound (p.lines[f.line]?)
      ("There is no line " ++ toString f.line ++ " on " ++ f.prq ++ ".")
    let pending := l.pending p.status
    assertRule (f.qty ≤ pending)
      (((m.items l.it).map Item.n).getD "That line" ++ " - only "
        ++ fq pending (m.unitOf l.it) ++ " still pending on " ++ f.prq)

def createPo (b : Buying) (desk : BuyingDesk) (body : CreatePoBody)
    (at_ : Instant) : Outcome Buying := do
  assertRule (body.picks ≠ []) "Pick at least one line before raising an order"
  let v ← someOr (desk.vendors body.vendorId)
    ⟨.rule, "Choose a vendor for this order"⟩
  assertRule (v.active = true)
    (v.name ++ " is inactive - reactivate it or choose another vendor")
  assertRule (∀ p ∈ body.picks, 0 < p.qty) "Enter a quantity on every line you pick"
  let m := b.db.master
  let picks := body.picks.map Pick.claim
  assertPending localeCompare m b.requisitions picks
  let given ← givenRates m b.requisitions body.picks []
  let (db, id) := allocateId b.db .po at_
  let rateOf := fun it => (given.lookup it).getD
    (rateFor (desk.activeContractRates body.vendorId (istDate at_) it) (desk.cost it))
  let merged := mergePicks b.requisitions picks
  let purchaseOrders ← orInternal (db.purchaseOrders.insert? id
    { status := .draft, receivedAt := none
      lines := merged.map fun l => ⟨l.1, l.2.1, 0, 0⟩ }) "purchase_orders_pkey"
  let heads ← orInternal (b.heads.insert? id
    { vendorId := body.vendorId, at_, eta := etaFrom at_ v.leadDays
      needsApproval := false, shortNote := none
      terms := merged.map fun l => ⟨rateOf l.1, l.2.2⟩ }) "purchase_orders_pkey"
  let requisitions ← addOrdered 1 (foldClaims localeCompare picks) b.requisitions
  pure ⟨{ db with purchaseOrders }, heads, requisitions⟩

/-- Give a set of claims back to the requisition lines that granted them. -/
def returnClaims (b : Buying) (released : List ClaimSrc) : Outcome Buying := do
  let requisitions ←
    addOrdered (-1) (foldClaims localeCompare released) b.requisitions
  pure { b with requisitions }

structure UpdatePoLineBody where
  qty : Option Qty
  rate : Option Money

def assertDraft (id : String) (o : PurchaseOrderRow) : Outcome Unit :=
  assertRule (o.status = .draft)
    (id ++ " is " ++ o.status.word.toLower ++ " - only a draft can be changed")

/-- The `n`th line of a draft. -/
def lineOf (id : String) (lines : List DraftLine) (n : ℕ) : Outcome DraftLine :=
  orNotFound lines[n]? ("There is no line " ++ toString n ++ " on " ++ id ++ ".")

/-- A rate the buyer negotiated, a quantity they cut, or both in one press:
only the quantity moves a claim. -/
def updatePoLine (b : Buying) (id : String) (n : ℕ) (body : UpdatePoLineBody) :
    Outcome Buying := do
  let (o, h) ← headOf b id
  assertDraft id o
  let lines := draftLines o h
  let line ← lineOf id lines n
  assertRule (body.qty ≠ none ∨ body.rate ≠ none) "Nothing to change on this line"
  let rate := body.rate.getD line.rate
  match body.qty with
  | none => pure (writeLines b id (lines.modify n fun l => { l with rate }))
  | some want => do
    assertRule (0 < want) "Enter a quantity, or remove the line"
    assertRule (want ≤ line.qty)
      "Add another pick from the procurement list to increase this line"
    let back := releaseClaim line.src (line.qty - want : Qty)
    let b ← returnClaims localeCompare b back.1
    pure (writeLines b id (lines.modify n fun l =>
      { l with qty := want, rate, src := back.2 }))

/-- A line dropped whole, and its whole claim with it. -/
def removePoLine (b : Buying) (id : String) (n : ℕ) : Outcome Buying := do
  let (o, h) ← headOf b id
  assertDraft id o
  let lines := draftLines o h
  let line ← lineOf id lines n
  let b ← returnClaims localeCompare b (releaseClaim line.src line.qty).1
  pure (writeLines b id (lines.eraseIdx n))

structure PatchPoBody where
  vendorId : Option String
  eta : Option String

/-- The rates a move to another vendor writes: only a line still on the
standard cost, or on the vendor being left, re-prices. -/
def movedRate (desk : BuyingDesk) (from_ to_ on : String) (l : DraftLine) : DraftLine :=
  match (desk.activeContractRates to_ on l.it).filter fun r =>
      decide (0 < r ∧ l.rate ≠ r) with
  | none => l
  | some rate =>
    if l.rate = desk.cost l.it ∨ some l.rate = desk.activeContractRates from_ on l.it
    then { l with rate } else l

/-- The vendor, while it is still a draft; the expected date, for as long as
anything is still expected. -/
def patchPo (b : Buying) (desk : BuyingDesk) (id : String) (body : PatchPoBody)
    (at_ : Instant) : Outcome Buying := do
  let (o, h) ← headOf b id
  assertRule (body.vendorId ≠ none ∨ body.eta ≠ none) ("Nothing to change on " ++ id)
  let st := o.status.word.toLower
  let assertExpected : Outcome Unit :=
    if body.eta ≠ none then
      assertRule (o.status ≠ .received ∧ o.status ≠ .cancelled)
        (id ++ " is " ++ st ++ " - nothing more is expected")
    else pure ()
  match body.vendorId with
  | none => do
    assertExpected
    pure (modifyPo b id (fun o => o) fun h => { h with eta := body.eta.getD h.eta })
  | some vendorId => do
    -- A sent order is a promise to a vendor.
    assertRule (o.status = .draft)
      (id ++ " is " ++ st ++ " - its vendor cannot change")
    let v ← someOr (desk.vendors vendorId) ⟨.rule, "Choose a vendor for this order"⟩
    assertRule (v.active = true)
      (v.name ++ " is inactive - reactivate it or choose another vendor")
    assertExpected
    let b := writeLines b id
      ((draftLines o h).map (movedRate desk h.vendorId vendorId (istDate at_)))
    pure (modifyPo b id (fun o => o) fun h =>
      { h with vendorId, eta := body.eta.getD (etaFrom at_ v.leadDays) })

/-- The draft goes out. Nothing moves on the list: the claim was taken when it
was drafted. -/
def sendPo (b : Buying) (desk : BuyingDesk) (id : String) (at_ : Instant) :
    Outcome Buying := do
  let (o, h) ← headOf b id
  assertRule (o.lines ≠ [])
    (id ++ " has no lines - add some from the procurement list")
  let v ← someOr (desk.vendors h.vendorId) ⟨.rule, "Choose a vendor before sending"⟩
  assertRule (v.active = true)
    (v.name ++ " is inactive - reactivate it or move this order to another vendor")
  assertTransition poTransitions PoStatus.word o.status .ordered id
  let above := needsApproval (poValue (draftLines o h)) PO_APPROVAL_LIMIT
  pure (modifyPo b id (fun o => { o with status := .ordered }) fun h =>
    { h with needsApproval := above, at_ })

/-- The order is called off and every claim goes back on the list. What arrived
is asked gross: an order with a delivery behind it is closed short, never
cancelled as though the lorry had not come. -/
def cancelPo (b : Buying) (id reason : String) : Outcome Buying := do
  let (o, h) ← headOf b id
  assertRule (∀ l ∈ o.lines, l.recv = 0)
    (id ++ " already received against - close it short instead of cancelling")
  assertTransition poTransitions PoStatus.word o.status .cancelled id
  assertRule (trim reason ≠ "") "Give a reason for cancelling this order"
  let b ← returnClaims localeCompare b ((draftLines o h).flatMap DraftLine.src)
  pure (modifyPo b id (fun o => { o with status := .cancelled }) fun h =>
    { h with shortNote := some reason })

/-- The lines of an order as a short close reads them. -/
def shortLines (o : PurchaseOrderRow) (h : PoHead) : List ShortLine :=
  List.zipWith (fun l t => ⟨l.qty, l.recv, l.rejected, t.src⟩) o.lines h.terms

/-- The balance is not coming: close the order and put the demand back where it
came from. -/
def closeShort (b : Buying) (id reason : String) : Outcome Buying := do
  let (o, h) ← headOf b id
  assertRule (trim reason ≠ "") "Give a reason for closing this order short"
  assertRule (o.status = .partiallyReceived)
    (id ++ " is " ++ o.status.word.toLower
      ++ " - only a partly received order can be closed short")
  let b ← returnClaims localeCompare b (shortfallClaims (shortLines o h))
  pure (modifyPo b id (fun o => { o with status := .received }) fun h =>
    { h with shortNote := some reason })

end Collation

end Rch
