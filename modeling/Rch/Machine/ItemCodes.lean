import Rch.Api.Catalog
import Rch.Domain.NextNumbers
import Rch.Kit.Transactions

/-!
# New items' keys and codes

A new item's key is slugged from its name, with a number behind it where the slug
is taken, and its code is one past the highest of its type's series. Both are read
off the rows there are, under an advisory lock each. The key is the primary key.
The codes have no index: the lock on the series is the whole guarantee.

Additions and changes run statement by statement, any number at once. What an
addition does after its insert, and what a change may be refused for besides the
name, can only undo them.

The state keeps, for the statements, the slug each item was added under.
-/

namespace Rch.ItemCodes

open Kit

structure ItemMaster where
  items : Table ItemKey Item
  /-- The code column. -/
  codes : Table ItemKey String
  addedAs : Table ItemKey String

inductive ItemLock
  | advisory (hash : ℤ)
  | item (key : ItemKey)
  /-- An entry of `items_name_ci_uq`. -/
  | name (lower : String)
deriving DecidableEq

structure CreateAsk where
  role : Role
  body : CreateItemBody

inductive CreateAt
  | begun
  | slugHeld
  | keyed (key : ItemKey)
  | seriesHeld (key : ItemKey)
  | coded (key : ItemKey) (code : String)
  | inserted (key : ItemKey) (code : String)

inductive PatchAt
  | begun
  | held (row : Item)
  | written

inductive ItemTx
  | create (a : CreateAsk) (p : CreateAt)
  | patch (key : ItemKey) (body : PatchItemBody) (p : PatchAt)

structure ItemEnv where
  hashtext : String → ℤ

abbrev ItemStmt := Stmt ItemMaster ItemLock ItemTx

/-- `lockSlug`. -/
def ItemEnv.slugLock (env : ItemEnv) (slug : String) : ItemLock :=
  .advisory (env.hashtext ("item:" ++ slug))

/-- `lockCodeSeries`. -/
def ItemEnv.seriesLock (env : ItemEnv) (front : String) : ItemLock :=
  .advisory (env.hashtext ("item-code:" ++ front))

def ItemMaster.allCodes (s : ItemMaster) : List String := s.codes.rows.map Prod.snd

def codesLike (s : ItemMaster) (front : String) : List String :=
  s.allCodes.filter fun c => (front ++ "-").toList.isPrefixOf c.toList

/-- What a new product is refused for before its key is looked for. -/
def CreateAsk.mayGo (a : CreateAsk) : Prop :=
  trim a.body.name ≠ "" ∧ 0 < a.body.cost ∧ mayCreateType a.role a.body.type = true ∧
    (a.body.type ≠ .MRP ∨ 0 < a.body.mrp.getD 0) ∧
    a.body.loc = if a.role = .prod then KITCHEN else STORE

instance (a : CreateAsk) : Decidable a.mayGo := inferInstanceAs (Decidable (_ ∧ _))

/-! ## The writes -/

def addItem (a : CreateAsk) (key : ItemKey) (code : String) (s : ItemMaster) : ItemMaster :=
  { items := (s.items.insert? key (itemRow a.role a.body)).getD s.items
    codes := (s.codes.insert? key code).getD s.codes
    addedAs := (s.addedAs.insert? key (slugFor a.body)).getD s.addedAs }

def changeItem (key : ItemKey) (body : PatchItemBody) (s : ItemMaster) : ItemMaster :=
  { s with items := s.items.modify key fun row => patchRow row body }

/-! ## The statements -/

section Statements

variable (env : ItemEnv) (s : ItemMaster)

def createStmt (a : CreateAsk) : CreateAt → Option ItemStmt
  | .begun =>
    if a.mayGo then
      some (.lock (env.slugLock (slugFor a.body)) .update (.create a .slugHeld))
    else none
  | .slugHeld => some (.read (.create a (.keyed (newItemKey s.items a.body))))
  | .keyed key =>
    some (.lock (env.seriesLock (itemCodePrefix a.body.type)) .update
      (.create a (.seriesHeld key)))
  | .seriesHeld key =>
    some (.read (.create a (.coded key
      (nextItemCode a.body.type (codesLike s (itemCodePrefix a.body.type))))))
  | .coded key code =>
    -- `on conflict do nothing`, and no row back is a refusal
    let row := itemRow a.role a.body
    if (isOnOff row = true → round3 a.body.opening = 0) ∧
        nameTaken s.items row.n key = false ∧ s.items.get? key = none then
      some ⟨[⟨.item key, .update⟩, ⟨.name row.n.toLower, .update⟩], addItem a key code,
        .create a (.inserted key code)⟩
    else none
  | .inserted _ _ => none

def patchStmt (key : ItemKey) (body : PatchItemBody) : PatchAt → Option ItemStmt
  | .begun =>
    (s.items.get? key).map fun row =>
      .lock (.item key) .update (.patch key body (.held row))
  | .held row =>
    if nameTaken s.items (patchRow row body).n key = false then
      some ⟨[⟨.name (patchRow row body).n.toLower, .update⟩], changeItem key body,
        .patch key body .written⟩
    else none
  | .written => none

def ItemTx.stmt (t : ItemTx) : Option ItemStmt :=
  match t with
  | .create a p => createStmt env s a p
  | .patch key body p => patchStmt s key body p

end Statements

def ItemTx.starts : ItemTx → Bool
  | .create _ .begun | .patch _ _ .begun => true
  | _ => false

def ItemTx.done : ItemTx → Bool
  | .create _ (.inserted _ _) | .patch _ _ .written => true
  | _ => false

/-- The codes on file are different ones, one an item. -/
structure ItemMaster.CodesApart (s : ItemMaster) : Prop where
  coded : ∀ key, (s.items.get? key).isSome = (s.codes.get? key).isSome
  apart : ∀ key key' code, s.codes.get? key = some code → s.codes.get? key' = some code →
    key = key'

/-- The item master, with any number of additions and changes open at once. -/
def itemMaster (env : ItemEnv) : Database ItemMaster ItemLock Unit ItemTx where
  init s := s.CodesApart ∧ s.addedAs = .empty
  starts := ItemTx.starts
  stmt _ t s := ItemTx.stmt env s t
  done := ItemTx.done

end Rch.ItemCodes
