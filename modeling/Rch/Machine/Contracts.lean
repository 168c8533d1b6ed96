import Rch.Api.Db
import Rch.Kit.Chain
import Rch.Kit.Transactions

/-!
# Rate contracts and the trail of their rates

Contracts are written, edited, closed and reopened on one screen, and re-priced
from a draft order on another. Both move the rate under the contract's own row
lock, and both leave the old rate beside the new one in the trail.

A change is stamped with `now()`, which in a transaction is the moment the
transaction began. So every transaction carries the moment it began at, and the
trail is read back in the order of the stamps, with the serial number of the
row deciding between two of one moment.
-/

namespace Rch

open Kit

abbrev Day := ℤ

structure ContractRow where
  vendor : String
  it : ItemKey
  rate : Money
  validFrom : Day
  validTo : Day
  moq : Qty
  active : Bool
deriving DecidableEq

/-- One row of the trail. -/
structure RateChange where
  contract : String
  oldRate : Money
  newRate : Money
  po : Option String
  by_ : String
  at_ : ℕ
deriving DecidableEq

/-- The tables, the trail in the order of its serial numbers. -/
structure Contracts where
  vendors : String → Option String
  items : ItemKey → Option Item
  rows : Table String ContractRow
  changes : List RateChange
  seq : ℕ

/-- A contract's own part of the trail, as it was written. -/
def Contracts.changesOf (s : Contracts) (id : String) : List RateChange :=
  s.changes.filter fun c => decide (c.contract = id)

def readRateChanges (s : Contracts) (id : String) : List RateChange :=
  byStamp RateChange.at_ (s.changesOf id)

/-- What the transactions lock: a contract's row, the entry of a vendor and an
item in the index of live contracts, and the sequence. -/
inductive ContractKey
  | contract (id : String)
  | live (vendor : String) (it : ItemKey)
  | sequence
deriving DecidableEq

structure ContractBody where
  vendorId : String
  it : ItemKey
  rate : Money
  from_ : Day
  to_ : Day
  moq : Qty

structure PatchContractBody where
  rate : Option Money
  from_ : Option Day
  to_ : Option Day
  moq : Option Qty
  active : Option Bool

/-- The body names nothing to change. -/
def PatchContractBody.isEmpty (b : PatchContractBody) : Bool :=
  b.rate.isNone && b.from_.isNone && b.to_.isNone && b.moq.isNone &&
    b.active.isNone

/-- A draft order that sets rates: its vendor, the rate set for each item, and
the day it prices for. -/
structure DraftRates where
  po : String
  vendor : String
  rates : List (ItemKey × Money)
  on : Day

inductive CreateContractAt
  | begun
  | numbered (id : String)
  | written (id : String)

inductive PatchContractAt
  | begun
  | found (row : ContractRow)
  /-- Nothing live is in its way. -/
  | clear (row : ContractRow)
  | updated (row : ContractRow)
  | written (row : ContractRow)

inductive CloseContractAt
  | begun
  | found (row : ContractRow)
  | written

inductive RepriceAt
  | begun
  /-- The contracts it has locked and still to look at, and the changes it has
  made. -/
  | locked (live : List (String × ContractRow)) (made : List RateChange)

inductive ContractOp
  | create (body : ContractBody) (p : CreateContractAt)
  | patch (by_ id : String) (body : PatchContractBody) (p : PatchContractAt)
  | close (id : String) (p : CloseContractAt)
  | reprice (by_ : String) (draft : DraftRates) (p : RepriceAt)

/-- A transaction, and the moment it began. -/
structure ContractTx where
  now : ℕ
  op : ContractOp

/-- Which contracts a lock statement's snapshot found. Those that no longer
match once their lock is had are dropped. -/
structure ContractChoice where
  seen : List String

abbrev ContractStmt := Stmt Contracts ContractKey ContractTx

/-! ## The writes -/

/-- The live contract of a vendor for an item, another one than `id`. -/
def liveFor (s : Contracts) (vendor : String) (it : ItemKey) (id : String) :
    Bool :=
  s.rows.rows.any fun r => decide (r.1 ≠ id) && decide (r.2.vendor = vendor) &&
    decide (r.2.it = it) && r.2.active

def newContract (body : ContractBody) : ContractRow where
  vendor := body.vendorId
  it := body.it
  rate := body.rate
  validFrom := body.from_
  validTo := body.to_
  moq := body.moq
  active := true

def insertContract (id : String) (row : ContractRow) (s : Contracts) :
    Contracts := { s with rows := (s.rows.insert? id row).getD s.rows }

def patchedContract (body : PatchContractBody) (row : ContractRow) :
    ContractRow :=
  { row with
    rate := body.rate.getD row.rate
    validFrom := body.from_.getD row.validFrom
    validTo := body.to_.getD row.validTo
    moq := body.moq.getD row.moq
    active := body.active.getD row.active }

def updateContract (id : String) (f : ContractRow → ContractRow)
    (s : Contracts) : Contracts := { s with rows := s.rows.modify id f }

def logRateChange (c : RateChange) (s : Contracts) : Contracts :=
  { s with changes := s.changes ++ [c] }

/-- The new rate, and the row of the trail beside it. -/
def moveRate (c : RateChange) (s : Contracts) : Contracts :=
  logRateChange c
    (updateContract c.contract (fun r => { r with rate := c.newRate }) s)

def reactivating (body : PatchContractBody) (row : ContractRow) : Bool :=
  body.active.getD row.active && !row.active

/-- The row of the trail a patch leaves, where it moves the rate. -/
def patchChange (now : ℕ) (by_ id : String) (body : PatchContractBody)
    (row : ContractRow) : Option RateChange :=
  body.rate.bind fun rate =>
    if rate = row.rate then none else some ⟨id, row.rate, rate, none, by_, now⟩

/-- The row of the trail a draft leaves, where it moves a contract's rate. -/
def syncChange (now : ℕ) (by_ : String) (draft : DraftRates)
    (c : String × ContractRow) : Option RateChange :=
  (draft.rates.lookup c.2.it).bind fun next =>
    if next ≤ 0 ∨ next = c.2.rate then none
    else some ⟨c.1, c.2.rate, next, some draft.po, by_, now⟩

/-- The vendor's live contracts for the items the draft sets a rate for, inside
their window. -/
def liveContracts (s : Contracts) (draft : DraftRates) (seen : List String) :
    List (String × ContractRow) :=
  s.rows.rows.filter fun r => decide (r.1 ∈ seen) &&
    decide (r.2.vendor = draft.vendor) && r.2.active &&
    (draft.rates.lookup r.2.it).isSome && decide (r.2.validFrom ≤ draft.on) &&
    decide (draft.on ≤ r.2.validTo)

/-! ## The statements -/

def createContractStmt (now : ℕ) (body : ContractBody) (s : Contracts) :
    CreateContractAt → Option ContractStmt
  | .begun =>
    if (s.vendors body.vendorId).isSome ∧
        (s.items body.it).any Item.active = true ∧ body.from_ ≤ body.to_ ∧
        0 < body.rate
    then some ⟨[⟨.sequence, .noKeyUpdate⟩], fun s => { s with seq := s.seq + 1 },
      now, .create body (.numbered (formatId .contract s.seq 0))⟩
    else none
  | .numbered id =>
    -- Either uniqueness makes the insert give no row back.
    if s.rows.get? id = none ∧ liveFor s body.vendorId body.it id = false
    then some ⟨[⟨.contract id, .update⟩, ⟨.live body.vendorId body.it, .update⟩],
      insertContract id (newContract body), now, .create body (.written id)⟩
    else none
  | .written _ => none

def patchContractStmt (now : ℕ) (by_ id : String) (body : PatchContractBody)
    (s : Contracts) : PatchContractAt → Option ContractStmt
  | .begun =>
    (s.rows.get? id).bind fun row =>
      if body.isEmpty = false ∧
          body.from_.getD row.validFrom ≤ body.to_.getD row.validTo ∧
          (body.rate.all fun r => decide (0 < r)) = true
      then some (.lock (.contract id) .update
        ⟨now, .patch by_ id body (.found row)⟩)
      else none
  | .found row =>
    if reactivating body row = true ∧ liveFor s row.vendor row.it id = true
    then none
    else some (.read ⟨now, .patch by_ id body (.clear row)⟩)
  | .clear row =>
    -- A row that becomes live is a new entry in the index.
    if reactivating body row = true then
      if liveFor s row.vendor row.it id = true then none
      else some ⟨[⟨.live row.vendor row.it, .update⟩],
        updateContract id (patchedContract body), now,
          .patch by_ id body (.updated row)⟩
    else some ⟨[], updateContract id (patchedContract body), now,
      .patch by_ id body (.updated row)⟩
  | .updated row =>
    match patchChange now by_ id body row with
    | some c => some ⟨[], logRateChange c, now, .patch by_ id body (.written row)⟩
    | none => some (.read ⟨now, .patch by_ id body (.written row)⟩)
  | .written _ => none

def closeContractStmt (now : ℕ) (id : String) (s : Contracts) :
    CloseContractAt → Option ContractStmt
  | .begun => (s.rows.get? id).map fun row =>
    .lock (.contract id) .update ⟨now, .close id (.found row)⟩
  | .found _ => some ⟨[], updateContract id fun r => { r with active := false },
    now, .close id .written⟩
  | .written => none

def repriceStmt (c : ContractChoice) (now : ℕ) (by_ : String)
    (draft : DraftRates) (s : Contracts) : RepriceAt → Option ContractStmt
  | .begun =>
    let live := liveContracts s draft c.seen
    some ⟨live.map fun r => ⟨.contract r.1, .update⟩, id, now,
      .reprice by_ draft (.locked live [])⟩
  | .locked [] _ => none
  | .locked (r :: live) made =>
    match syncChange now by_ draft r with
    | some c => some ⟨[], moveRate c, now,
        .reprice by_ draft (.locked live (made ++ [c]))⟩
    | none => some (.read ⟨now, .reprice by_ draft (.locked live made)⟩)

def ContractTx.stmt (c : ContractChoice) (t : ContractTx) (s : Contracts) :
    Option ContractStmt :=
  match t.op with
  | .create body p => createContractStmt t.now body s p
  | .patch by_ id body p => patchContractStmt t.now by_ id body s p
  | .close id p => closeContractStmt t.now id s p
  | .reprice by_ draft p => repriceStmt c t.now by_ draft s p

def ContractTx.starts (t : ContractTx) : Bool :=
  match t.op with
  | .create _ .begun | .patch _ _ _ .begun | .close _ .begun
  | .reprice _ _ .begun => true
  | _ => false

def ContractTx.done (t : ContractTx) : Bool :=
  match t.op with
  | .create _ (.written _) | .patch _ _ _ (.written _) | .close _ .written
  | .reprice _ _ (.locked [] _) => true
  | _ => false

/-- The contracts, from none, with any number of these transactions open. -/
def contracts : Database Contracts ContractKey ContractChoice ContractTx where
  init s := s.rows = .empty ∧ s.changes = []
  starts := ContractTx.starts
  stmt := ContractTx.stmt
  done := ContractTx.done

/-- The changes a transaction has made to the trail by its commit. -/
def ContractTx.made (t : ContractTx) : List RateChange :=
  match t.op with
  | .patch by_ id body (.written row) =>
    (patchChange t.now by_ id body row).toList
  | .reprice _ _ (.locked _ made) => made
  | _ => []

end Rch
