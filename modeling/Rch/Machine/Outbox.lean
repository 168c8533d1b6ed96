import Rch.Audit.Drain
import Rch.Kit.Transactions

/-!
# The outbox, the log and the drainers

Any number of drainers run passes over one outbox, beside the writes that fill
it. A pass takes rows nobody else holds, the oldest first: it skips those that
are locked when it comes to them and does not see those that were committed
since it looked. Everything it does is in one transaction, so it may be cut off
anywhere and leaves nothing.

`stored` is not part of the system: it notes every outbox row ever committed.
-/

namespace Rch

open Kit

structure AuditStore where
  /-- `audit_outbox`, by id. -/
  outbox : Table ℕ OutboxRow
  /-- `events`, by the outbox id they are kept under. -/
  events : Table ℕ EventRow
  deadLetters : List DeadLetter
  stored : Table ℕ OutboxRow

inductive AuditKey
  | row (id : ℕ)
  /-- An entry in the index of outbox ids the log has. -/
  | logged (id : ℕ)
deriving DecidableEq

/-- What no row decides: the next id and what is stored under it, and the rows a
pass passes over. -/
structure AuditChoice where
  id : ℕ
  row : OutboxRow
  skips : List ℕ

inductive PassAt
  | begun
  /-- Rows taken and sorted; nothing stored yet. -/
  | taken (valid : List Parsed) (refused : List SetAside)
  /-- One by one: those before are stored or set aside. -/
  | oneByOne (todo kept : List Parsed) (refused : List SetAside)
  | inserted (kept : List Parsed) (refused : List SetAside)
  | setAside (kept : List Parsed) (refused : List SetAside)

inductive AuditTx
  /-- A transaction of the API, which stores as many events as it likes. -/
  | write
  | pass (p : PassAt)

abbrev AuditStmt := Stmt AuditStore AuditKey AuditTx

/-! ## The writes -/

def insertOutbox (id : ℕ) (row : OutboxRow) (s : AuditStore) : AuditStore :=
  { s with
    outbox := (s.outbox.insert? id row).getD s.outbox
    stored := (s.stored.insert? id row).getD s.stored }

def takeRows (taken : List TakenRow) (s : AuditStore) : AuditStore :=
  { s with
    outbox := s.outbox.restrict fun id => decide (id ∉ taken.map TakenRow.id) }

def storeEvents (list : List Parsed) (s : AuditStore) : AuditStore :=
  { s with events := insertEvents list s.events }

def storeDeadLetters (refused : List SetAside) (s : AuditStore) : AuditStore :=
  { s with deadLetters := insertDeadLetters refused s.deadLetters }

/-! ## The statements -/

section Statements

variable (env : DrainEnv) (c : AuditChoice)

/-- The rows a pass takes: the oldest, apart from those it passes over. -/
def oldest (s : AuditStore) : List TakenRow :=
  (((s.outbox.rows.map fun r => (⟨r.1, r.2⟩ : TakenRow)).filter
    fun r => decide (r.id ∉ c.skips)).insertionSort
      fun a b => a.id ≤ b.id).take env.batch

def passStmt (s : AuditStore) : PassAt → Option AuditStmt
  | .begun =>
    let taken := oldest env c s
    some ⟨taken.map fun r => ⟨.row r.id, .update⟩, takeRows taken,
      .pass (.taken (validOf env taken) (refusedOf env taken))⟩
  | .taken valid refused =>
    if valid.isEmpty then some (.read (.pass (.inserted [] refused)))
    else if valid.all fun p => (rowRefusal env s.events p).isNone then
      some ⟨valid.map fun p => ⟨.logged p.row.id, .update⟩, storeEvents valid,
        .pass (.inserted valid refused)⟩
    -- the savepoint takes back what went in before the row that was refused
    else some (.read (.pass (.oneByOne valid [] refused)))
  | .oneByOne [] kept refused => some (.read (.pass (.inserted kept refused)))
  | .oneByOne (p :: todo) kept refused =>
    match rowRefusal env s.events p with
    | none => some ⟨[⟨.logged p.row.id, .update⟩], storeEvents [p],
        .pass (.oneByOne todo (kept ++ [p]) refused)⟩
    | some why => some (.read (.pass (.oneByOne todo kept
        (refused ++ [⟨p.row, refusedByDatabase why⟩]))))
  | .inserted kept refused =>
    if refused.isEmpty then some (.read (.pass (.setAside kept refused)))
    else some ⟨[], storeDeadLetters refused, .pass (.setAside kept refused)⟩
  | .setAside .. => none

/-- An id is drawn once. -/
def writeStmt (s : AuditStore) : Option AuditStmt :=
  if (s.stored.get? c.id).isNone then
    some ⟨[⟨.row c.id, .update⟩], insertOutbox c.id c.row, .write⟩
  else none

def AuditTx.stmt (t : AuditTx) (s : AuditStore) : Option AuditStmt :=
  match t with
  | .write => writeStmt c s
  | .pass p => passStmt env c s p

end Statements

def AuditTx.starts : AuditTx → Bool
  | .write | .pass .begun => true
  | _ => false

def AuditTx.done : AuditTx → Bool
  | .write | .pass (.setAside ..) => true
  | _ => false

/-- The outbox and the log, with any number of passes open over them. -/
def auditTrail (env : DrainEnv) :
    Database AuditStore AuditKey AuditChoice AuditTx where
  init s := s = ⟨.empty, .empty, [], .empty⟩
  starts := AuditTx.starts
  stmt := AuditTx.stmt env
  done := AuditTx.done

end Rch
