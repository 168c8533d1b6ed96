import Rch.Api.Tickets

/-!
# The kitchen

An outlet's order goes onto the kitchen's board and leaves it on one ticket. A
tray pushed out without an order leaves on a ticket too. A batch is the one
write here that moves stock: what came good goes onto the kitchen's rack.
-/

namespace Rch

open Kit

structure CreateProdOrderBody where
  from_ : Option LocKey
  lines : List LineInput
  need : Option String
  note : String

/-- What an outlet may order: a finished good, counted, and listed there. -/
def assertOrderable (db : Db) (outlet : Location) (from_ : LocKey)
    (it : ItemKey) : Outcome Unit := do
  let item ← orNotFound (db.master.items it) ("There is no item " ++ it ++ ".")
  assertRule (isOnOff item = false)
    (onOffRefusal item.n "ordered from the kitchen")
  assertRule (item.t ≠ .MTO)
    (item.n ++ " is made to order at the counter - it is not ordered from the "
      ++ "kitchen")
  assertRule (item.t = .FG)
    (item.n ++ " is not made in the kitchen - raise a stock request for it "
      ++ "instead")
  assertRule (db.rows.menu from_ it = true)
    (item.n ++ " is not listed at " ++ outlet.n ++ " - add it to that menu first")

/-- An outlet asking the kitchen to make something. It promises nothing. -/
def raiseOrder (db : Db) (claims : Claims) (body : CreateProdOrderBody)
    (at_ : Instant) : Outcome Db := do
  let from_ := body.from_.getD ""
  assertRule (from_ ≠ "") "Choose which outlet this order is for"
  let outlet ← lockLocation db from_
  assertRule (outlet.type = .Outlet)
    (outlet.n ++ " is not an outlet - a production order is raised for a "
      ++ "counter")
  assertOpen outlet none
  let lines := foldLines body.lines
  assertRule (∀ l ∈ lines, 0 < l.qty) "Enter a quantity on every line"
  assertRule (lines ≠ []) "Add at least one item to the order"
  checkEach lines fun l => assertOrderable db outlet from_ l.it
  let (db, id) := allocateId db .prd at_
  let prodOrders ← orInternal (db.prodOrders.insert? id
    { fromLoc := from_, byUser := claims.sub, at_, status := .new,
      needBy := body.need, note := body.note, lines }) "prod_orders_pkey"
  pure { db with prodOrders }

/-- One production order onto one ticket: all of it or nothing. -/
def dispatchOrder (db : Db) (claims : Claims) (id : String) (draw : OtpDraw)
    (at_ : Instant) : Outcome Db := do
  let o ← orNotFound (db.prodOrders.get? id)
    ("There is no production order " ++ id ++ ".")
  let m := db.master
  assertRule (canTransition prodOrderTransitions o.status .dispatched = true)
    (if o.status = .declined then
      id ++ " was declined - it cannot be dispatched"
    else id ++ " has already gone out - it is on one ticket to "
      ++ m.locName o.fromLoc)
  let lines := foldLines (o.lines.map Line.input)
  assertRule (lines ≠ []) (id ++ " has no items on it")
  assertEach lines (fun l => (m.items l.it).any isOnOff = false) fun l =>
    onOffRefusal (m.itemName l.it) "dispatched"
  let (db, no) := allocateTicket db draw at_
  let stock := lockBalances db.stock (lines.map fun l => ⟨KITCHEN, l.it⟩)
  let short := lines.filter fun l => decide (freeAt stock KITCHEN l.it < l.qty)
  assertRule (short = [])
    ("Nothing dispatched - the kitchen is short of "
      ++ ", ".intercalate (short.map fun l => m.itemName l.it))
  let db ← writeTicket { db with stock }
    { refType := .prodOrder, refId := id, from_ := KITCHEN, to_ := o.fromLoc,
      lines := lines.map Line.input, by_ := claims.sub, at_ } no
  pure (setProdOrderStatus db id .dispatched)

/-- One press on the kitchen's board. The dispatch and the way back from one
are movements, and have doors of their own. -/
def setOrderStatus (db : Db) (id : String) (st : PordStatus) : Outcome Db := do
  let o ← orNotFound (db.prodOrders.get? id)
    ("There is no production order " ++ id ++ ".")
  assertRule (st ≠ .dispatched)
    (id ++ " goes out on a pick ticket - dispatch it from the order instead")
  assertRule (o.status ≠ .dispatched)
    (id ++ " has already gone out - cancel its ticket to bring it back onto "
      ++ "the board")
  assertRule (canTransition prodOrderTransitions o.status st = true)
    (id ++ " is " ++ o.status.word.toLower ++ " - it cannot go straight to "
      ++ st.word.toLower)
  pure (setProdOrderStatus db id st)

structure BatchDraft where
  it : ItemKey
  item : Item
  started : Qty
  made : Qty
  note : Option String
  by_ : String
  at_ : Instant

/-- The batch row is the document the new stock stands on. -/
def writeBatch (db : Db) (d : BatchDraft) : Outcome Db := do
  let (db, id) := allocateId db .batch d.at_
  let stock :=
    if 0 < d.made then
      postMoves db.stock [⟨KITCHEN, d.it, d.made, .productionYield, "batch", id,
        some d.by_, d.at_, none⟩]
    else db.stock
  guardOr (0 ≤ d.made ∧ d.made ≤ d.started) ⟨.internal, "batches_made_ck"⟩
  let batches ← orInternal (db.batches.insert? id
    { it := d.it, started := d.started, made := d.made, at_ := d.at_,
      bestBefore := bestBeforeAt d.at_ d.item.sl, note := d.note,
      byUser := d.by_ }) "batches_pkey"
  pure { db with stock, batches }

structure MakeBatchBody where
  it : ItemKey
  started : ℚ
  made : Option ℚ
  note : Option String

def makeBatch (db : Db) (claims : Claims) (body : MakeBatchBody)
    (at_ : Instant) : Outcome Db := do
  let started := round3 body.started
  assertRule (0 < started) "Enter a quantity to make"
  let made := round3 (body.made.getD started)
  assertRule (0 ≤ made ∧ made ≤ started)
    ("Yield cannot exceed the " ++ started.toShort ++ " started")
  let item ← orNotFound (db.master.items body.it)
    ("There is no item " ++ body.it ++ ".")
  assertRule (db.rows.overrides KITCHEN body.it = none)
    (item.n ++ " is switched off in the kitchen")
  assertRule (isOnOff item = false) (onOffRefusal item.n "batched")
  assertRule (item.t ≠ .MTO)
    (item.n ++ " is made to order at the counter - it is not batched")
  assertRule (item.t = .FG)
    (item.n ++ " is not a finished good - only a finished good is batched")
  writeBatch db
    ⟨body.it, item, started, made, body.note, claims.sub, at_⟩

structure DistributeBody where
  it : ItemKey
  qty : ℚ
  to_ : LocKey

/-- A tray the kitchen decided to push out, with no order behind it. -/
def distribute (db : Db) (claims : Claims) (body : DistributeBody)
    (draw : OtpDraw) (at_ : Instant) : Outcome Db := do
  assertRule (0 < body.qty) "Enter a quantity"
  let item ← orNotFound (db.master.items body.it)
    ("There is no item " ++ body.it ++ ".")
  assertRule (isOnOff item = false) (onOffRefusal item.n "distributed")
  assertRule (item.t ≠ .MTO)
    (item.n ++ " is made to order at the counter - it is not distributed")
  let target ← lockLocation db body.to_
  assertRule (body.to_ ≠ KITCHEN)
    ("A tray cannot be distributed to the kitchen it came from - choose the "
      ++ "store or an outlet")
  if target.type = .Outlet then
    assertOpen target none
    assertRule (db.rows.menu body.to_ body.it = true)
      (item.n ++ " is not listed at " ++ target.n
        ++ " - add it to that menu first")
  let (db, no) := allocateTicket db draw at_
  let stock := lockBalances db.stock [⟨KITCHEN, body.it⟩]
  let free := freeAt stock KITCHEN body.it
  assertRule (body.qty ≤ free)
    ("Kitchen has only " ++ fq free item.u ++ " " ++ item.u
      ++ " free to promise")
  writeTicket { db with stock }
    { refType := .direct, refId := "Direct issue", from_ := KITCHEN,
      to_ := body.to_, lines := [⟨body.it, body.qty⟩], by_ := claims.sub,
      at_ } no

end Rch
