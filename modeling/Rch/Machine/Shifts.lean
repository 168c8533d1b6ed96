import Rch.Api.Register
import Rch.Kit.Transactions

/-!
# Shifts

A counter operator's shift starts with a sign-in at the counter. Signing in there
again keeps it, and signing in at another counter closes it and starts one there.
The operator closes it, too. Either way its figures are counted from the bills the
operator rang up between the two instants, and stored.

Sign-ins, closes, sales and voids run statement by statement, any number at once.
What moves a person's shifts takes that person's advisory lock first. The figures
are two reads of the bills, and no lock keeps a void from between them.

The instants are one clock's, which never runs back: no stamp is earlier than one
taken before it, on whichever pod. The code reads its own pod's clock and checks
nothing of the kind.
-/

namespace Rch.Shifts

open Kit

structure ShiftRow where
  userId : String
  loc : LocKey
  openedAt : Instant
  closedAt : Option Instant
  /-- The stored figures, and whether a sign-in elsewhere closed it. -/
  closedTotals : Option (ShiftTotals × Bool)

structure Book where
  bills : Table String BilledRow
  /-- By the number the id is printed from. -/
  shifts : Table ℕ ShiftRow
  /-- The next number of the series. -/
  sequence : ℕ
  /-- The latest instant anything is stamped with: the next is no earlier. -/
  clock : Instant

inductive ShiftKey
  /-- The advisory lock, by the hash of its name. -/
  | person (hash : ℤ)
  | shift (id : ℕ)
  | sequence
  /-- The person's entry in the index of open shifts. -/
  | openOf (userId : String)
  | bill (no : String)
deriving DecidableEq

/-! ## The figures -/

def rungUp (s : Book) (row : ShiftRow) (to_ : Instant) : List BilledRow :=
  (s.bills.rows.map Prod.snd).filter fun b => decide (b.operatorId = row.userId) &&
    decide (b.loc = row.loc) && decide (row.openedAt ≤ b.at_) && decide (b.at_ ≤ to_)

def figures (sold : List SoldLine) (voided : VoidedSum) : ShiftTotals :=
  let tenders := tenderLines tillTenderOptions sold
  let collected := takenOn false tenders
  let creditSales := takenOn true tenders
  let nettSales := collected + creditSales
  let discount := (sold.map SoldLine.discount).sum
  { billCount := (sold.map SoldLine.bills).sum
    grossSales := nettSales + discount, discount, nettSales
    taxTotal := (sold.map SoldLine.tax).sum
    tenders, collected, creditSales
    voidAmount := voided.amount, voidBills := voided.bills }

/-! ## The transactions -/

inductive Counting
  | looked
  | sold (lines : List SoldLine)
  | counted (totals : ShiftTotals)

inductive SignInAt
  | begun
  | locked
  /-- A shift is open here already. -/
  | kept
  | closing (id : ℕ) (row : ShiftRow) (at_ : Instant) (c : Counting)
  /-- No shift of the person's is open. -/
  | vacated (at_ : Instant)
  | numbered (id : ℕ) (at_ : Instant)
  | opened

inductive CloseAt
  | begun
  | locked
  | closing (id : ℕ) (row : ShiftRow) (at_ : Instant) (c : Counting)
  | closed

inductive ShiftTx
  | signIn (userId : String) (loc : LocKey) (p : SignInAt)
  | close (userId : String) (loc : LocKey) (p : CloseAt)
  /-- A bill, with its number and its instant once they are drawn. -/
  | sale (b : BilledRow) (drawn : Option (String × Instant)) (rung : Bool)
  | voidBill (no : String) (stamped : Bool)

structure ShiftChoice where
  at_ : Instant
  no : String

structure ShiftEnv where
  hashtext : String → ℤ

abbrev ShiftStmt := Stmt Book ShiftKey ShiftTx

/-- `lockShiftsOf`. -/
def ShiftEnv.lock (env : ShiftEnv) (userId : String) : ShiftKey :=
  .person (env.hashtext ("shift:" ++ userId))

def openShiftOf (s : Book) (userId : String) : Option (ℕ × ShiftRow) :=
  s.shifts.rows.find? fun p => decide (p.2.userId = userId) && p.2.closedAt.isNone

/-! ## The writes -/

def closeShiftRow (id : ℕ) (at_ : Instant) (totals : ShiftTotals) (auto : Bool) (s : Book) :
    Book :=
  { s with
    shifts := s.shifts.modify id fun r =>
      { r with closedAt := some at_, closedTotals := some (totals, auto) }
    clock := max s.clock at_ }

def drawNumber (s : Book) : Book := { s with sequence := s.sequence + 1 }

def freshShift (userId : String) (loc : LocKey) (at_ : Instant) : ShiftRow :=
  ⟨userId, loc, at_, none, none⟩

def insertShift (id : ℕ) (row : ShiftRow) (s : Book) : Book :=
  { s with
    shifts := (s.shifts.insert? id row).getD s.shifts
    clock := max s.clock row.openedAt }

def ringUp (no : String) (b : BilledRow) (s : Book) : Book :=
  { s with bills := (s.bills.insert? no b).getD s.bills, clock := max s.clock b.at_ }

def strike (no : String) (s : Book) : Book :=
  { s with bills := s.bills.modify no fun b => { b with voided := true } }

/-! ## The statements -/

section Statements

variable (env : ShiftEnv) (c : ShiftChoice) (s : Book)

/-- Count a shift and close it, one read after the other. -/
def countStmt (mk : Counting → ShiftTx) (next : ShiftTx) (auto : Bool) (id : ℕ)
    (row : ShiftRow) (at_ : Instant) : Counting → ShiftStmt
  | .looked => .read (mk (.sold (soldOf (rungUp s row at_))))
  | .sold lines => .read (mk (.counted (figures lines (voidedOf (rungUp s row at_)))))
  | .counted totals =>
    ⟨[⟨.shift id, .noKeyUpdate⟩], closeShiftRow id at_ totals auto, next⟩

/-- `startShift`. The instant is read once the open shift was. -/
def signInStmt (userId : String) (loc : LocKey) : SignInAt → Option ShiftStmt
  | .begun => some (.lock (env.lock userId) .update (.signIn userId loc .locked))
  | .locked =>
    match openShiftOf s userId with
    | some (id, row) =>
      if row.loc = loc then some (.read (.signIn userId loc .kept))
      else if s.clock ≤ c.at_ then
        some (.read (.signIn userId loc (.closing id row c.at_ .looked)))
      else none
    | none =>
      if s.clock ≤ c.at_ then some (.read (.signIn userId loc (.vacated c.at_))) else none
  | .closing id row at_ count =>
    some (countStmt s (fun count => .signIn userId loc (.closing id row at_ count))
      (.signIn userId loc (.vacated at_)) true id row at_ count)
  | .vacated at_ =>
    some ⟨[⟨.sequence, .noKeyUpdate⟩], drawNumber,
      .signIn userId loc (.numbered s.sequence at_)⟩
  | .numbered id at_ =>
    -- `shifts_one_open_per_user`, and the primary key
    if openShiftOf s userId = none ∧ s.shifts.get? id = none then
      some ⟨[⟨.openOf userId, .update⟩], insertShift id (freshShift userId loc at_),
        .signIn userId loc .opened⟩
    else none
  | .kept | .opened => none

/-- Close Shift, at the counter this session stands at. -/
def closeStmt (userId : String) (loc : LocKey) : CloseAt → Option ShiftStmt
  | .begun => some (.lock (env.lock userId) .update (.close userId loc .locked))
  | .locked =>
    (openShiftOf s userId).bind fun p =>
      if p.2.loc = loc ∧ s.clock ≤ c.at_ then
        some (.read (.close userId loc (.closing p.1 p.2 c.at_ .looked)))
      else none
  | .closing id row at_ count =>
    some (countStmt s (fun count => .close userId loc (.closing id row at_ count))
      (.close userId loc .closed) false id row at_ count)
  | .closed => none

def saleStmt (b : BilledRow) : Option (String × Instant) → Bool → Option ShiftStmt
  | none, false =>
    if s.clock ≤ c.at_ ∧ b.voided = false then
      some (.read (.sale b (some (c.no, c.at_)) false))
    else none
  | some (no, at_), false =>
    (s.bills.insert? no { b with at_ }).map fun _ =>
      ⟨[⟨.bill no, .update⟩], ringUp no { b with at_ }, .sale b (some (no, at_)) true⟩
  | _, true => none

def ShiftTx.stmt (t : ShiftTx) : Option ShiftStmt :=
  match t with
  | .signIn userId loc p => signInStmt env c s userId loc p
  | .close userId loc p => closeStmt env c s userId loc p
  | .sale b drawn rung => saleStmt c s b drawn rung
  | .voidBill no stamped =>
    if stamped then none
    else (s.bills.get? no).map fun _ =>
      ⟨[⟨.bill no, .noKeyUpdate⟩], strike no, .voidBill no true⟩

end Statements

def ShiftTx.starts : ShiftTx → Bool
  | .signIn _ _ .begun | .close _ _ .begun | .sale _ none false | .voidBill _ false => true
  | _ => false

def ShiftTx.done : ShiftTx → Bool
  | .signIn _ _ .kept | .signIn _ _ .opened | .close _ _ .closed | .sale _ _ true
  | .voidBill _ true => true
  | _ => false

/-- The operators' shifts, with any number of these transactions open at once. -/
def shifts (env : ShiftEnv) : Database Book ShiftKey ShiftChoice ShiftTx where
  init s := s.shifts = .empty
  starts := ShiftTx.starts
  stmt c t s := ShiftTx.stmt env c s t
  done := ShiftTx.done

end Rch.Shifts
