import Rch.Api.Grn
import Rch.Api.PriceGrid
import Rch.Domain.Permissions
import Rch.Domain.Text

/-!
# The item master

A product is added by one of the desks that handle goods and changed by several,
each its own fields. A finished good the kitchen makes is either counted or on/off
only: adding one on/off, or turning a counted one into it, is refused while
anything would be counted.

The figures nothing else here reads (the code, the group, the HSN, the cost, the
reorder level, the counters' name for it) are checked and not kept.
-/

namespace Rch

open Kit

/-! ## Who adds and who changes what -/

inductive ItemField
  | n | dn | mrp | cost | gst | hsn | rl | grp | sl | active | src | onOff
deriving DecidableEq

def ITEM_FIELD_FEATURES : ItemField → List Feature
  | .mrp => [.items_stock]
  | .cost => [.items_stock]
  | .gst => [.items_stock]
  | .dn => [.items_stock]
  | .n => [.item_master]
  | .hsn => [.item_master]
  | .rl => [.item_master]
  | .grp => [.item_master]
  | .sl => [.item_master]
  | .src => [.item_master]
  | .onOff => [.make_distribute]
  | .active => [.items_stock, .item_master]

def mayEditItemField (perms : Permissions) (f : ItemField) : Bool :=
  (ITEM_FIELD_FEATURES f).any fun feature => can perms feature .edit

def unauthorisedItemFields (perms : Permissions) (fields : List ItemField) :
    List ItemField :=
  fields.filter fun f => !mayEditItemField perms f

def COMMERCIAL : List ItemField := [.mrp, .cost, .gst]

def COMMERCIAL_REFUSAL : String :=
  "Only the outlet manager changes an item's price, cost or GST - ask them to "
    ++ "make that change"

def DISPLAY_NAME_REFUSAL : String :=
  "Only the outlet manager sets the name the counters read on the till - ask "
    ++ "them to make that change"

def OPERATIONAL_REFUSAL : String :=
  "The store, the buyer and the kitchen keep an item's name, group, HSN, reorder "
    ++ "level, shelf life and stock-request source - ask one of them"

def ON_OFF_REFUSAL : String :=
  "Only the kitchen decides whether a finished good is counted or on/off only - "
    ++ "ask the kitchen"

/-- What the caller of a patch is told of the fields that are not theirs. -/
def notYoursRefusal (notYours : List ItemField) : String :=
  if notYours.any fun f => decide (f ∈ COMMERCIAL) then COMMERCIAL_REFUSAL
  else if .dn ∈ notYours then DISPLAY_NAME_REFUSAL
  else if .onOff ∈ notYours then ON_OFF_REFUSAL
  else OPERATIONAL_REFUSAL

def CREATABLE_TYPES : Role → List ItemType
  | .store => [.RAW, .PACK, .MRP, .FG, .MTO]
  | .prod => [.FG, .MTO, .RAW]
  | .buyer => [.RAW, .PACK, .MRP]
  | .manager => []
  | .counter => []

def mayCreateType (desk : Role) (type : ItemType) : Bool :=
  decide (type ∈ CREATABLE_TYPES desk)

def TYPE_PLURAL : ItemType → String
  | .RAW => "raw materials"
  | .PACK => "packaging"
  | .MRP => "printed-price (MRP) goods"
  | .FG => "finished goods"
  | .MTO => "made-to-order items"

def deskWord : Role → String
  | .store => "the store keeper"
  | .prod => "the kitchen"
  | .buyer => "procurement"
  | .manager => "the outlet manager"
  | .counter => "a counter"

/-- The words of a list, the last after an "and". -/
def wordsOf (words : List String) : String :=
  match words.getLast? with
  | none => "nothing"
  | some last =>
    if words.length = 1 then last
    else ", ".intercalate words.dropLast ++ " and " ++ last

def createTypeRefusal (desk : Role) (type : ItemType) : String :=
  "Refused - " ++ deskWord desk ++ " does not add " ++ TYPE_PLURAL type
    ++ " to the item master, only "
    ++ wordsOf ((CREATABLE_TYPES desk).map TYPE_PLURAL)

def MRP_MISSING_REFUSAL : String :=
  "An MRP item needs the price printed on its pack"

/-! ## A new item -/

structure CreateItemBody where
  key : String
  name : String
  unit : String
  type : ItemType
  gst : ℚ
  cost : ℚ
  mrp : Option ℚ
  sl : Option ℕ
  loc : LocKey
  opening : ℚ
  src : Option Source
  avail : Option Bool

/-- Another item holds the name, in whatever case. -/
def nameTaken (items : Table ItemKey Item) (name : String) (except : ItemKey) :
    Bool :=
  items.rows.any fun r =>
    decide (r.1 ≠ except) && decide (r.2.n.toLower = name.toLower)

/-- The name with what is not a letter or a digit dropped, cut at twelve. -/
def slugOf (name : String) : String :=
  String.ofList ((name.toLower.toList.filter fun c =>
    c.isDigit || (decide ('a' ≤ c) && decide (c ≤ 'z'))).take 12)

def slugFor (body : CreateItemBody) : String :=
  let slug := slugOf (trim body.name)
  if trim body.key ≠ "" then trim body.key
  else if slug ≠ "" then slug
  else "item"

/-- The keys on file that are like the slug with anything behind it. The slug is
not quoted, so a sign of the pattern's in it is read as one. -/
def keysLike (items : Table ItemKey Item) (slug : String) : List ItemKey :=
  (items.rows.map Prod.fst).filter fun key =>
    likeSigns.like (slug.toList ++ [likeSigns.many]) key.toList

/-- The slug, or the first of `slug2`, `slug3`, ... that is not taken: `fuel`
numbers are tried from `n`. -/
def freeKey (taken : List ItemKey) (slug : String) : ℕ → ℕ → ItemKey
  | 0, n => slug ++ toString n
  | fuel + 1, n =>
    let key := if n = 1 then slug else slug ++ toString n
    if key ∈ taken then freeKey taken slug fuel (n + 1) else key

def newItemKey (items : Table ItemKey Item) (body : CreateItemBody) : ItemKey :=
  let taken := keysLike items (slugFor body)
  freeKey taken (slugFor body) (taken.length + 1) 1

/-- One of the kitchen's own products is routed to the kitchen. -/
def srcFor (role : Role) (body : CreateItemBody) : Option Source :=
  if role = .prod ∧ body.type = .MTO then some .kitchen else body.src

def itemRow (role : Role) (body : CreateItemBody) : Item where
  n := trim body.name
  u := if body.unit = "" then "nos" else body.unit
  t := body.type
  gst := Decimal.roundAway 2 body.gst
  mrp := (body.mrp.filter fun p => decide (0 < p)).map (Decimal.roundAway 2)
  sl := body.sl.filter fun h => decide (0 < h)
  src := srcFor role body
  active := true

/-- Into the master, refused where the key or the name is taken. -/
def insertItem (items : Table ItemKey Item) (key : ItemKey) (row : Item) :
    Outcome (Table ItemKey Item) := do
  assertRule (nameTaken items row.n key = false)
    (row.n ++ " is already in the catalogue")
  match items.insert? key row with
  | some items => pure items
  | none => .error ⟨.rule, row.n ++ " is already in the catalogue"⟩

def Db.onMaster (db : Db) (items : Table ItemKey Item) : Db :=
  { db with rows := { db.rows with items := items.get? } }

def switchOff (db : Db) (key : ItemKey) : Db :=
  { db with rows := { db.rows with
      overrides := fun loc it =>
        if loc = KITCHEN ∧ it = key then some "switched off manually"
        else db.rows.overrides loc it } }

def createItem (items : Table ItemKey Item) (db : Db) (claims : Claims)
    (role : Role) (body : CreateItemBody) (at_ : Instant) :
    Outcome (Table ItemKey Item × Db) := do
  assertRule (trim body.name ≠ "") "Give the product a name"
  assertRule (0 < body.cost) "Cost must be more than zero"
  assertRule (mayCreateType role body.type = true)
    (createTypeRefusal role body.type)
  assertRule (body.type ≠ .MRP ∨ 0 < body.mrp.getD 0) MRP_MISSING_REFUSAL
  let allowed := if role = .prod then KITCHEN else STORE
  assertRule (body.loc = allowed)
    ("A new product's opening stock is booked at " ++ db.locName allowed)
  let key := newItemKey items body
  let row := itemRow role body
  if isOnOff row then
    assertRule (round3 body.opening = 0)
      (onOffRefusal row.n "given opening stock")
  let items ← insertItem items key row
  let db ← openStock (db.onMaster items) claims (decide (role = .prod)) key
    body.opening at_
  pure (items, if isOnOff row ∧ body.avail = some false then switchOff db key
    else db)

/-! ## A change to one -/

structure PatchItemBody where
  n : Option String
  dn : Option String
  mrp : Option ℚ
  cost : Option ℚ
  gst : Option ℚ
  hsn : Option String
  rl : Option ℚ
  grp : Option String
  sl : Option ℕ
  active : Option Bool
  src : Option Source
  onOff : Option Bool

def PatchItemBody.fields (b : PatchItemBody) : List ItemField :=
  [(b.n.isSome, ItemField.n), (b.dn.isSome, .dn), (b.mrp.isSome, .mrp),
    (b.cost.isSome, .cost), (b.gst.isSome, .gst), (b.hsn.isSome, .hsn),
    (b.rl.isSome, .rl), (b.grp.isSome, .grp), (b.sl.isSome, .sl),
    (b.active.isSome, .active), (b.src.isSome, .src),
    (b.onOff.isSome, .onOff)].filterMap fun p => if p.1 then some p.2 else none

/-- What still holds an item or carries it. -/
structure Blockers where
  held : List LocKey
  tickets : List String
  orders : List String

/-- The locations still carrying stock of it: a balance that is something has
moves behind it. -/
def balancesOf (s : Stock) (it : ItemKey) : List LocKey :=
  (((s.moves.filter fun m => decide (m.it = it)).map MoveRow.loc).dedup.filter
    fun loc => decide (s.onHand ⟨loc, it⟩ ≠ 0)).insertionSort (· ≤ ·)

def openTicketsOf (db : Db) (it : ItemKey) : List String :=
  ((db.tickets.rows.filter fun t =>
    (decide (t.2.st = .issued) || decide (t.2.st = .collected)) &&
      t.2.lines.any fun l => decide (l.it = it)).map
    Prod.fst).insertionSort (· ≤ ·)

/-- On the kitchen's board, before it went out. -/
def onBoard (st : PordStatus) : Bool :=
  match st with
  | .new | .accepted | .inKitchen | .ready => true
  | .dispatched | .declined => false

def openOrdersOf (db : Db) (it : ItemKey) : List String :=
  ((db.prodOrders.rows.filter fun o =>
    onBoard o.2.status && o.2.lines.any fun l => decide (l.it = it)).map
    Prod.fst).insertionSort (· ≤ ·)

def blockersOf (db : Db) (it : ItemKey) : Blockers :=
  ⟨balancesOf db.stock it, openTicketsOf db it, openOrdersOf db it⟩

def Blockers.none_ (b : Blockers) : Prop :=
  b.held = [] ∧ b.tickets = [] ∧ b.orders = []

instance (b : Blockers) : Decidable b.none_ :=
  inferInstanceAs (Decidable (_ ∧ _ ∧ _))

def toOnOffRefusal (name : String) (b : Blockers) : String :=
  let some_ (l : List String) (words : String) :=
    if l = [] then [] else [words ++ ", ".intercalate l]
  let s (l : List String) := if l.length = 1 then "" else "s"
  name ++ " cannot become on/off only while there is "
    ++ " and ".intercalate (some_ b.held "stock at "
      ++ some_ b.tickets ("open ticket" ++ s b.tickets ++ " ")
      ++ some_ b.orders ("open kitchen order" ++ s b.orders ++ " "))
    ++ " - sell, write off or finish those first"

def patchRow (row : Item) (b : PatchItemBody) : Item where
  n := (b.n.map trim).getD row.n
  u := row.u
  t :=
    if b.onOff = some true ∧ isOnOff row = false then .MTO
    else if b.onOff = some false ∧ isOnOff row = true then .FG
    else row.t
  gst := (b.gst.map (Decimal.roundAway 2)).getD row.gst
  mrp := (b.mrp.map (Decimal.roundAway 2)).or row.mrp
  sl := b.sl.elim row.sl fun h => if 0 < h then some h else none
  src :=
    if b.onOff = some true ∧ isOnOff row = false then some .kitchen
    else b.src.or row.src
  active := b.active.getD row.active

/-- `found` is the database the blockers are read in, and `listed` the outlets
found to sell it. -/
def patchItem (items : Table ItemKey Item) (db found : Db) (perms : Permissions)
    (it : ItemKey) (body : PatchItemBody) (listed : List LocKey) :
    Outcome (Table ItemKey Item) := do
  let row ← orNotFound (items.get? it) ("There is no item " ++ it ++ ".")
  assertRule (body.fields ≠ []) ("Nothing to change on " ++ row.n)
  let notYours := unauthorisedItemFields perms body.fields
  assertRule (notYours = []) (notYoursRefusal notYours)
  let name := (body.n.map trim).getD row.n
  assertRule (name ≠ "" ∨ body.n = none) "Give the product a name"
  assertRule (body.n = none ∨ nameTaken items name it = false)
    (name ++ " is already in the catalogue")
  assertRule (body.cost.all (fun p => decide (0 < p)) = true)
    "Cost must be more than zero"
  assertRule (body.mrp.all (fun p => decide (0 < p)) = true)
    "Give the printed MRP a value - an item that carries one keeps it"
  assertRule (body.rl.all (fun p => decide (0 ≤ p)) = true)
    "Reorder level cannot be negative"
  assertRule (body.onOff = none ∨ row.t = .FG ∨ isOnOff row = true)
    (name ++ " is not made in the kitchen - only a kitchen finished good is "
      ++ "counted or on/off only")
  let blockers := blockersOf found it
  assertRule (body.onOff = some true ∧ isOnOff row = false → blockers.none_)
    (toOnOffRefusal name
      { blockers with held := blockers.held.map db.locName })
  let retires : Prop := body.active = some false ∧ row.active = true
  assertRule (retires → blockers.held = [])
    (name ++ " still has stock at "
      ++ ", ".intercalate (blockers.held.map db.locName)
      ++ " - write it off before retiring it")
  assertRule (retires → listed = [])
    (name ++ " is still listed at " ++ ", ".intercalate (listed.map db.locName)
      ++ " - take it off those menus before retiring it")
  pure (items.modify it fun row => patchRow row body)

end Rch
