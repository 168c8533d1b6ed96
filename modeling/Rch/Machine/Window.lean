import Rch.Api.Tickets
import Rch.Api.Write
import Rch.Machine.Service

/-!
# The window, scan by scan

Any number of handover attempts against the running server, each at its own
pace: it arrives, it locks its ticket's row and reads it, and its transaction
ends. Between the lock and the end anything else may commit that does not write
a locked row. A retry is one more attempt.

What a scan decides, it decides on the row it read under the lock. The
transaction is run by `withTransaction`, whose record of the answer, whose
event and whose COMMIT may each fail.

`counted` and `handed` are not part of the system: they note each wrong code
that was committed, with the reply its caller got, and each hand-over.
-/

namespace Rch

open Kit

/-! ## One scan -/

/-- The rest of `handover`'s transaction, on the row it has locked. -/
def handoverFrom (db : Db) (t : TicketRow) (claims : Claims) (id : String)
    (body : HandoverBody) (at_ : Instant) : Outcome (Db × Option String) := do
  let linked := linkedRequest db t.refId
  requireLocOf claims t.from_ "the location the ticket is issued from"
  assertTransition ticketTransitions TktStatus.word t.st .collected id
  assertRule (t.otpAttempts < OTP_ATTEMPTS) (lockedMessage id)
  if body.otp ≠ t.otp then
    pure (countWrongOtp db id,
      some ("That OTP does not match " ++ id
        ++ ". Ask the collector to read it again."))
  else
    let m := db.master
    let stock := postMoves db.stock
      (ticketMoves t id t.from_ (fun q => -q) .ticketOut claims.sub at_)
    assertEach t.lines (fun l => 0 ≤ balancesAt stock t.from_ l.it) fun l =>
      m.locName t.to_ ++ " cannot collect " ++ fq l.qty (m.unitOf l.it) ++ " "
        ++ m.unitOf l.it ++ " of " ++ m.itemName l.it ++ " - "
        ++ m.locName t.from_ ++ " no longer has it"
    let db := { db with
      stock := releaseForTicket stock id at_
      tickets := db.tickets.modify id fun t =>
        { t with st := .collected, collectedAt := some at_ } }
    pure (match linked with
      | some r =>
        if canTransition requestTransitions r.status .collected then
          setRequestStatus db t.refId .collected
        else db
      | none => db, none)

/-- A scan with nothing in between is the service's handover. -/
theorem handover_eq {db : Db} {t : TicketRow} {id : String}
    (h : db.tickets.get? id = some t) (claims : Claims) (body : HandoverBody)
    (at_ : Instant) :
    handover db claims id body at_ = handoverFrom db t claims id body at_ := by
  unfold handover orNotFound
  rw [h]
  rfl

structure Attempt where
  claims : Claims
  id : String
  body : HandoverBody
  at_ : Instant

/-- The refusal the service raises after the commit. -/
def refuseAfter (sentence : String) : Thrown := .app ⟨.rule, sentence⟩ none

/-- A write's answer, strictly: a result, what changed, and a sentence. -/
def writeResponse (result : Json → Except String Json) (j : Json) :
    Except String Json :=
  match j with
  | .obj fields =>
    match j.field "result", (j.field "changed").bind Json.arr?,
        (j.field "message").bind Json.str? with
    | some r, some changed, some message =>
      if fields.all (fun f => decide (f.1 ∈ ["result", "changed", "message"])) &&
          changed.all fun c => c.str?.any fun s => decide (s ∈ collections) then
        (result r).map fun r =>
          .obj [("result", r), ("changed", .arr changed),
            ("message", .str message)]
      else .error "unrecognized"
    | _, _, _ => .error "required"
  | _ => .error "expected object"

/-- What a scan's request meets on its way: the request itself, and how the
record of its answer, the event, the COMMIT and the hook after the reply go. -/
structure Passage where
  request : WriteRequest
  strict : Bool
  at_ : Moment
  /-- The ticket as it is read back. -/
  answer : Json
  claim : Except Thrown Bool
  insert : Except Thrown Unit
  commit : Except Thrown Unit
  stores : Bool

/-- The transaction, told whether it may answer with its marker. -/
def scanTx (done : Outcome (Db × Option String)) (p : Passage) : TxRun where
  at_ := p.at_
  before := none
  body := match done with
    | .error e => .error (.app e none)
    | .ok (_, some sentence) => .ok (.obj [("refuse", .str sentence)])
    | .ok (_, none) => .ok p.answer
  optional := true
  claim := p.claim
  insert := p.insert
  commit := p.commit

/-- The service's handler: its one transaction, and then the refusal it was
handed back, or the answer. -/
def scanHandler (done : Outcome (Db × Option String)) (p : Passage) :
    HandlerRun where
  txs := [scanTx done p]
  answer := match done with
    | .error e => .error (.app e none)
    | .ok (_, some sentence) => .error (refuseAfter sentence)
    | .ok (_, none) => .ok p.answer
  opens _ := List.cons_ne_nil _ _

def handoverRoute (ticket : Json → Except String Json) (strict : Bool) :
    WriteRoute where
  action := "handover"
  method := "POST"
  path := "/tickets/:id/handover"
  response := writeResponse ticket
  strict := strict

def serveScan (ticket : Json → Except String Json)
    (done : Outcome (Db × Option String)) (p : Passage) : Served :=
  serve (handoverRoute ticket p.strict) p.request (.claimed (scanHandler done p))
    p.at_ p.stores

def Served.committed (s : Served) : Bool := s.done.any TxDone.committed

/-! ## The machine -/

inductive Scan
  | waiting (a : Attempt)
  /-- It holds the lock of the row it read. -/
  | holding (a : Attempt) (t : TicketRow)
  | gone

structure Counted where
  id : String
  reply : Reply

structure Window where
  db : Db
  scans : Table ℕ Scan
  counted : List Counted
  handed : List String

namespace Window

inductive Event
  | arrive (i : ℕ) (a : Attempt)
  | lock (i : ℕ)
  /-- Its transaction ends: a refusal, a count or a hand-over. -/
  | finish (i : ℕ) (p : Passage)
  /-- Cut off, and rolled back. -/
  | crash (i : ℕ)
  /-- Anything else the server does. -/
  | other (op : Op)

def leave (w : Window) (i : ℕ) (s : Scan) : Window :=
  { w with scans := w.scans.modify i fun _ => s }

def locked (w : Window) : List String :=
  w.scans.rows.filterMap fun
    | (_, .holding a _) => some a.id
    | _ => none

/-- The committed state after a scan, and the note of it. -/
def settle (w : Window) (a : Attempt) (done : Outcome (Db × Option String))
    (s : Served) : Window :=
  match done with
  | .error _ => w
  | .ok (db, sentence) =>
    if s.committed then
      match sentence with
      | some _ => { w with db := db, counted := ⟨a.id, s.reply⟩ :: w.counted }
      | none => { w with db := db, handed := a.id :: w.handed }
    else w

def isHandover : Op → Bool
  | .handover .. => true
  | _ => false

/-- The server's other operations wait for a locked row before they write it. -/
def otherwise (w : Window) (op : Op) : Option Window :=
  if isHandover op then none
  else (op.run w.db).bind fun db =>
    if w.locked.all fun id =>
        decide (db.tickets.get? id = w.db.tickets.get? id) then
      some { w with db := db }
    else none

section Steps

variable (ticket : Json → Except String Json)

def step (w : Window) : Event → Option Window
  | .arrive i a => (w.scans.insert? i (.waiting a)).map fun scans =>
    { w with scans := scans }
  | .lock i =>
    match w.scans.get? i with
    | some (.waiting a) =>
      match w.db.tickets.get? a.id with
      | none => some (w.leave i .gone)
      | some t =>
        if a.id ∈ w.locked then none else some (w.leave i (.holding a t))
    | _ => none
  | .finish i p =>
    match w.scans.get? i with
    | some (.holding a t) =>
      let done := handoverFrom w.db t a.claims a.id a.body a.at_
      some ((w.settle a done (serveScan ticket done p)).leave i .gone)
    | _ => none
  | .crash i => some (w.leave i .gone)
  | .other op => w.otherwise op

/-- The window, over a server fresh from its migrations. `ticket` is the schema
a ticket is answered with. -/
def machine : Machine Window Event where
  init w := server.init w.db ∧ w.scans = .empty ∧ w.counted = [] ∧ w.handed = []
  step := step ticket

end Steps

end Window

end Rch
