import Rch.Api.Catalog
import Rch.Machine.Service

/-!
# The server with its item master

The server's operations again, with the item master no longer open: an item is
added by `createItem` and changed by `patchItem`, and by nothing else. Opening
stock is booked by the addition only.

An item's row is read without a lock, so an operation may have read one as it
was before changes that have been committed since; what a change finds held or
carried is read without one too. `past` is what such a read can still be
answered by. A row that was there is not read as missing: items are never
deleted, and no document names one that is not there.

A line and a move name an item there is: the foreign keys refuse any other.
-/

namespace Rch

open Kit

structure Catalogue where
  items : Table ItemKey Item
  server : Db
  /-- The databases committed before, the last one first. -/
  past : List Db

def Catalogue.db (c : Catalogue) : Db := c.server.onMaster c.items

/-- The database `k` commits ago. -/
def Catalogue.asOf (c : Catalogue) (k : ℕ) : Db := (c.db :: c.past)[k]?.getD c.db

/-- The rows read, each as old as `ages` says. -/
def Catalogue.seen (c : Catalogue) (ages : List (ItemKey × ℕ)) (it : ItemKey) :
    Option Item :=
  match ages.lookup it with
  | some k => ((c.asOf k).rows.items it).or (c.items.get? it)
  | none => c.items.get? it

def Catalogue.view (c : Catalogue) (ages : List (ItemKey × ℕ)) : Db :=
  { c.server with rows := { c.server.rows with items := c.seen ages } }

/-- Every move and every line of a ticket or an order names an item. -/
def Db.keyed (db : Db) (items : Table ItemKey Item) : Prop :=
  (∀ m ∈ db.stock.moves, (items.get? m.it).isSome = true) ∧
  (∀ t ∈ db.tickets.rows, ∀ l ∈ t.2.lines, (items.get? l.it).isSome = true) ∧
  ∀ o ∈ db.prodOrders.rows, ∀ l ∈ o.2.lines, (items.get? l.it).isSome = true

instance (db : Db) (items : Table ItemKey Item) : Decidable (db.keyed items) :=
  inferInstanceAs (Decidable (_ ∧ _ ∧ _))

inductive CatalogueOp
  | serve (op : Op) (ages : List (ItemKey × ℕ))
  | createItem (claims : Claims) (role : Role) (body : CreateItemBody)
      (at_ : Instant)
  | patchItem (perms : Permissions) (it : ItemKey) (body : PatchItemBody)
      (listed : List LocKey) (age : ℕ)

/-- The items are the catalogue's own and opening stock its addition's. -/
def Op.apart : Op → Bool
  | .openStock .. => false
  | _ => true

/-- What one operation would commit, the foreign keys not yet asked. -/
def CatalogueOp.write (c : Catalogue) :
    CatalogueOp → Option (Table ItemKey Item × Db)
  | .serve op ages =>
    if op.apart then (op.run (c.view ages)).map fun db => (c.items, db) else none
  | .createItem claims role body at_ =>
    (Rch.createItem c.items c.db claims role body at_).toOption
  | .patchItem perms it body listed age =>
    ((Rch.patchItem c.items c.db (c.asOf age) perms it body listed).map fun items =>
      (items, c.db)).toOption

def Catalogue.commit (c : Catalogue) (items : Table ItemKey Item) (db : Db) :
    Option Catalogue :=
  if db.keyed items then some ⟨items, db, c.db :: c.past⟩ else none

def catalogue : Machine Catalogue CatalogueOp where
  init c := ∃ items rows, c = ⟨items, Db.fresh rows, []⟩
  step c e := (e.write c).bind fun w => c.commit w.1 w.2

end Rch
