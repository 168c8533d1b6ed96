import Mathlib.Data.List.Sort
import Mathlib.Data.String.Basic
import Rch.Api.Db
import Rch.Kit.Deadlock

/-!
# Price lists, outlets and sales, by their locks

The writes that move an outlet from one price list to another, or rewrite an
outlet, and the sales that go on beside them. A row a transaction holds for
update it goes on holding, so a write to it asks for nothing more; a row it
holds only shared, it must still ask for.

The prices on a list are left out. Nobody writes one without its list's row for
update, and no lock here depends on what a price is.
-/

namespace Rch

open Kit

structure PriceStore where
  outlets : Table LocKey Location
  /-- The lists there are, by id, with their names. -/
  lists : Table String String
  nextList : ℕ

inductive PriceKey
  | order (id : String)
  | outlet (key : LocKey)
  | list (id : String)
  /-- A till's open day: its row, or the place in the index of a new one. -/
  | session (loc : LocKey)
  | payer (kind : PayerKind) (id : String)
  | shelf (loc : LocKey) (it : ItemKey)
  | series (kind : IdKind)
deriving DecidableEq

/-! ## Where a transaction is -/

/-- `setOutletPriceList`. -/
inductive SwitchAt
  | begun | held | listed | done

/-- One cell of the grid. -/
structure PriceChange where
  loc : LocKey
  it : ItemKey
  price : Option Money
  listed : Option Bool

abbrev OutletRows := List (LocKey × Location)
abbrev Sharers := List (String × List LocKey)

/-- `saveOutletPrices`. What it has locked comes with what it read there. -/
inductive SaveAt
  | outlets (rows : OutletRows) (todo : List LocKey)
  | lists (rows : OutletRows) (heads : List String) (sharers : Sharers)
      (todo : List String)
  /-- The list is locked; who is on it is read next. -/
  | locked (rows : OutletRows) (heads : List String) (sharers : Sharers)
      (id : String) (todo : List String)
  /-- `drew` once a list has been numbered. -/
  | forks (rows : OutletRows) (heads : List String) (sharers : Sharers)
      (drew : Bool) (todo : List LocKey)

inductive CreateAt
  | begun | checked | done

inductive RemoveAt
  | begun | held | done

inductive RewriteAt
  | begun | held | done

inductive OutletChange
  | update (name : String)
  | close
  | reopen

/-- What decides the locks of a sale. -/
structure SaleLocks where
  /-- The QR order it bills, if it bills one. -/
  order : Option String
  loc : LocKey
  /-- The till's day is opened by this sale. -/
  opens : Bool
  payer : Option (PayerKind × String)
  items : List ItemKey

inductive PriceTx
  | activate (loc : LocKey) (listId : String) (at_ : SwitchAt)
  | save (changes : List PriceChange) (at_ : SaveAt)
  | create (name : String) (cloneFrom : Option LocKey) (at_ : CreateAt)
  | remove (id : String) (at_ : RemoveAt)
  | rewrite (key : LocKey) (change : OutletChange) (at_ : RewriteAt)
  /-- Locks taken, the last one first, and those to come. -/
  | sale (a : SaleLocks) (got todo : List (Lock PriceKey))

abbrev PriceStmt := Stmt PriceStore PriceKey PriceTx

/-! ## The statements -/

/-- Each once, in one order for everybody. -/
def sortedOnce (l : List String) : List String :=
  l.dedup.insertionSort (· ≤ ·)

def isOutlet (l : Location) : Bool := decide (l.type = .Outlet)

def outletsOf (s : PriceStore) (id : String) : List LocKey :=
  (s.outlets.rows.filter fun r => decide (r.2.list = some id)).map Prod.fst

def setOutletList (loc : LocKey) (listId : String) (s : PriceStore) :
    PriceStore :=
  { s with
    outlets := s.outlets.modify loc fun l => { l with list := some listId } }

def listSeries : Lock PriceKey := ⟨.series .priceList, .noKeyUpdate⟩

def insertList (name : String) (s : PriceStore) : PriceStore :=
  { s with
    lists := (s.lists.insert? (formatId .priceList s.nextList 0) name).getD
      s.lists
    nextList := s.nextList + 1 }

section Statements

variable (s : PriceStore)

def activateStmt (loc : LocKey) (listId : String) : SwitchAt → Option PriceStmt
  | .begun =>
    if (s.outlets.get? loc).any (fun l => isOutlet l && l.active) then
      some (.lock (.outlet loc) .share (.activate loc listId .held))
    else none
  | .held =>
    if (s.lists.get? listId).isSome ∧
        (s.outlets.get? loc).any (fun l => decide (l.list ≠ some listId)) then
      some (.lock (.list listId) .update (.activate loc listId .listed))
    else none
  | .listed =>
    some ⟨[⟨.outlet loc, .noKeyUpdate⟩], setOutletList loc listId,
      .activate loc listId .done⟩
  | .done => none

def saveLocs (changes : List PriceChange) : List LocKey :=
  sortedOnce (changes.map PriceChange.loc)

def repriced (changes : List PriceChange) : List LocKey :=
  (saveLocs changes).filter fun loc => changes.any fun c =>
    decide (c.loc = loc) && c.price.isSome

def currentList (rows : OutletRows) (loc : LocKey) : Option String :=
  (rows.lookup loc).bind Location.list

def heldLists (rows : OutletRows) (changes : List PriceChange) : List String :=
  sortedOnce ((repriced changes).filterMap (currentList rows))

/-- The first outlet still to be priced that shares its list, or has none. The
last one left on a list keeps it. -/
def nextFork (rows : OutletRows) (sharers : Sharers) :
    List LocKey → Option (LocKey × Sharers × List LocKey)
  | [] => none
  | loc :: rest =>
    match currentList rows loc with
    | none => some (loc, sharers, rest)
    | some l =>
      if ((sharers.lookup l).getD []).length ≤ 1 then nextFork rows sharers rest
      else some (loc, sharers.map (fun p => if p.1 = l
        then (l, p.2.filter fun k => decide (k ≠ loc)) else p), rest)

/-- A list of its own for one outlet. The writes after the number ask for
nothing the transaction does not hold. -/
def forkList (loc : LocKey) (s : PriceStore) : PriceStore :=
  let name := ((s.outlets.get? loc).map Location.n).getD loc
  setOutletList loc (formatId .priceList s.nextList 0)
    (insertList (name ++ " prices") s)

def saveStmt (changes : List PriceChange) : SaveAt → Option PriceStmt
  | .outlets rows (loc :: todo) => (s.outlets.get? loc).map fun row =>
    .lock (.outlet loc) .update
      (.save changes (.outlets ((loc, row) :: rows) todo))
  | .outlets rows [] =>
    if rows.all (fun r => isOutlet r.2 && r.2.active) then
      some (.read (.save changes (.lists rows [] [] (heldLists rows changes))))
    else none
  | .lists rows heads sharers (l :: todo) =>
    some (.lock (.list l) .update
      (.save changes (.locked rows (l :: heads) sharers l todo)))
  | .locked rows heads sharers l todo =>
    some (.read (.save changes
      (.lists rows heads ((l, outletsOf s l) :: sharers) todo)))
  | .lists rows heads sharers [] =>
    some (.read (.save changes
      (.forks rows heads sharers false (repriced changes))))
  | .forks rows heads sharers drew todo =>
    (nextFork rows sharers todo).map fun f =>
      ⟨if drew then [] else [listSeries], forkList f.1,
        .save changes (.forks rows heads f.2.1 true f.2.2)⟩

def createStmt (name : String) (cloneFrom : Option LocKey) :
    CreateAt → Option PriceStmt
  | .begun =>
    if cloneFrom.all (fun loc => (s.outlets.get? loc).any fun l =>
        isOutlet l && l.list.isSome) then
      some (.read (.create name cloneFrom .checked))
    else none
  | .checked => some ⟨[listSeries], insertList name, .create name cloneFrom .done⟩
  | .done => none

def removeStmt (id : String) : RemoveAt → Option PriceStmt
  | .begun =>
    if (s.lists.get? id).isSome then
      some (.lock (.list id) .update (.remove id .held))
    else none
  | .held =>
    if outletsOf s id = [] then
      some ⟨[], fun s => { s with
        lists := s.lists.restrict fun k => decide (k ≠ id) },
        .remove id .done⟩
    else none
  | .done => none

def OutletChange.apply (change : OutletChange) (l : Location) : Location :=
  match change with
  | .update name => { l with n := name }
  | .close => { l with active := false }
  | .reopen => { l with active := true }

/-- Refused where nothing would change. -/
def rewriteStmt (key : LocKey) (change : OutletChange) :
    RewriteAt → Option PriceStmt
  | .begun =>
    if (s.outlets.get? key).any isOutlet then
      some (.lock (.outlet key) .update (.rewrite key change .held))
    else none
  | .held =>
    if (s.outlets.get? key).any (fun l => decide (change.apply l ≠ l)) then
      some ⟨[], fun s => { s with outlets := s.outlets.modify key change.apply },
        .rewrite key change .done⟩
    else none
  | .done => none

/-- The documents of a sale: the order it bills, its outlet, the day, and the
payer's credit. -/
def saleDocs (a : SaleLocks) : List (Lock PriceKey) :=
  (a.order.toList.map fun id => ⟨.order id, .update⟩) ++
  [⟨.outlet a.loc, .share⟩,
    ⟨.session a.loc, if a.opens then .update else .share⟩] ++
  a.payer.toList.map fun p => ⟨.payer p.1 p.2, .update⟩

/-- The locks of a sale, in the order it takes them: its documents, the shelves,
and the number last. -/
def saleLocks (a : SaleLocks) : List (Lock PriceKey) :=
  saleDocs a ++ ((sortedOnce a.items).map fun it => ⟨.shelf a.loc it, .update⟩) ++
  [⟨.series .bill, .noKeyUpdate⟩]

/-- Only an open outlet sells. What else may refuse a sale ends it early. -/
def saleLockStmt (a : SaleLocks) (got : List (Lock PriceKey)) :
    List (Lock PriceKey) → Option PriceStmt
  | [] => none
  | l :: todo =>
    if l.on = .outlet a.loc ∧ ¬(s.outlets.get? a.loc).any Location.active then
      none
    else some ⟨[l], id, .sale a (l :: got) todo⟩

def priceStmt (t : PriceTx) : Option PriceStmt :=
  match t with
  | .activate loc listId p => activateStmt s loc listId p
  | .save changes p => saveStmt s changes p
  | .create name cloneFrom p => createStmt s name cloneFrom p
  | .remove id p => removeStmt s id p
  | .rewrite key change p => rewriteStmt s key change p
  | .sale a got todo => saleLockStmt s a got todo

end Statements

def PriceTx.starts : PriceTx → Bool
  | .activate _ _ .begun | .create _ _ .begun | .remove _ .begun
  | .rewrite _ _ .begun => true
  | .save changes (.outlets [] todo) => decide (todo = saveLocs changes)
  | .sale a [] todo => decide (todo = saleLocks a)
  | _ => false

def PriceTx.finished : PriceTx → Bool
  | .activate _ _ .done | .create _ _ .done | .remove _ .done
  | .rewrite _ _ .done => true
  | .save _ (.forks rows _ sharers _ todo) => (nextFork rows sharers todo).isNone
  | .sale _ _ [] => true
  | _ => false

/-- The price lists and outlets, and what is run against them. -/
def priceWrites : Database PriceStore PriceKey Unit PriceTx where
  init _ := True
  starts := PriceTx.starts
  stmt _ t s := priceStmt s t
  done := PriceTx.finished

end Rch
