import Rch.Api.Catalog

/-!
# The item master, column by column

The rows a patch is written to, with every column a field of it can reach and the
ones none can. The rules the patch is put through are those of `patchItem`, which
reads the columns it needs.
-/

namespace Rch

open Kit

/-- A row of `items`, but for the stamp every write moves. -/
structure ItemRecord extends Item where
  code : String
  dn : Option String
  grp : String
  hsn : String
  rl : Qty
  cost : Money
  image : Option String
  createdAt : Instant
deriving DecidableEq

inductive ItemColumn
  | code | name | displayName | unit | type | grp | hsn | gst | reorderLevel
  | cost | mrp | shelfLifeHours | src | image | active | createdAt
deriving DecidableEq

def ItemField.columns : ItemField → List ItemColumn
  | .n => [.name]
  | .dn => [.displayName]
  | .mrp => [.mrp]
  | .cost => [.cost]
  | .gst => [.gst]
  | .hsn => [.hsn]
  | .rl => [.reorderLevel]
  | .grp => [.grp]
  | .sl => [.shelfLifeHours]
  | .active => [.active]
  | .src => [.src]
  | .onOff => [.type, .src]

def ItemRecord.Agree (r r' : ItemRecord) : ItemColumn → Prop
  | .code => r.code = r'.code
  | .name => r.n = r'.n
  | .displayName => r.dn = r'.dn
  | .unit => r.u = r'.u
  | .type => r.t = r'.t
  | .grp => r.grp = r'.grp
  | .hsn => r.hsn = r'.hsn
  | .gst => r.gst = r'.gst
  | .reorderLevel => r.rl = r'.rl
  | .cost => r.cost = r'.cost
  | .mrp => r.mrp = r'.mrp
  | .shelfLifeHours => r.sl = r'.sl
  | .src => r.src = r'.src
  | .image => r.image = r'.image
  | .active => r.active = r'.active
  | .createdAt => r.createdAt = r'.createdAt

def orDefault (s default : String) : String :=
  if trim s = "" then default else trim s

def patchRecord (row : ItemRecord) (b : PatchItemBody) : ItemRecord where
  toItem := patchRow row.toItem b
  code := row.code
  dn := b.dn.elim row.dn fun dn => if trim dn = "" then none else some (trim dn)
  grp := b.grp.elim row.grp fun grp => orDefault grp "Other"
  hsn := b.hsn.elim row.hsn fun hsn => orDefault hsn "2106"
  rl := b.rl.elim row.rl round3
  cost := b.cost.elim row.cost (Decimal.roundAway 2)
  image := row.image
  createdAt := row.createdAt

def itemsOf (records : Table ItemKey ItemRecord) : Table ItemKey Item :=
  records.mapRows ItemRecord.toItem

def patchRecords (records : Table ItemKey ItemRecord) (db found : Db)
    (perms : Permissions) (it : ItemKey) (body : PatchItemBody)
    (listed : List LocKey) : Outcome (Table ItemKey ItemRecord) := do
  let _ ← patchItem (itemsOf records) db found perms it body listed
  pure (records.modify it fun row => patchRecord row body)

/-- What a request leaves behind: a refused one rolls back. -/
def leftBy {σ : Type} (before : σ) : Outcome σ → σ
  | .ok after => after
  | .error _ => before

end Rch
