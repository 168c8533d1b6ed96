import Rch.Api.Trail

/-!
# One write, from its arrival to the hook after its reply

`mount` wraps the handler; the handler opens transactions one after another;
each of them, until one has recorded, offers what it returns as the write's
answer. A transaction that fails takes its handler with it: no handler of an
audited write catches one.
-/

namespace Rch

open Kit

/-! ## Errors and their replies -/

inductive Thrown
  /-- One of the server's own, with an internal cause where it carries one. -/
  | app (e : Refusal) (cause : Option String)
  /-- Somebody else's, with a status on it. -/
  | coded (status : ℕ) (message : String)
  /-- The request did not match its schema. -/
  | requestValidation
  /-- The response did not match its schema. -/
  | responseSerialization
  | other

structure RefusedWith where
  message : String
  cause : Option String

structure ErrorReply where
  status : ℕ
  /-- The sentence in the envelope. -/
  message : String
  /-- What a 4xx was refused with, kept on the request. -/
  refusal : Option RefusedWith

def refuseWith (status : ℕ) (message : String) (cause : Option String) :
    ErrorReply := ⟨status, message, some ⟨message, cause⟩⟩

def somethingWrong (requestId : String) : ErrorReply :=
  ⟨500, "Something went wrong on our side. Reference " ++ requestId ++ ".", none⟩

def errorReply (requestId : String) : Thrown → ErrorReply
  | .requestValidation =>
    refuseWith 400 "The request did not match what this endpoint expects." none
  | .responseSerialization => somethingWrong requestId
  | .app e cause =>
    if e.code.status < 500 then refuseWith e.code.status e.message cause
    else ⟨e.code.status, e.message, none⟩
  | .coded status message =>
    if status = 429 then
      refuseWith 429 "Too many requests - wait a moment and try again." none
    else if status = 503 then ⟨503, message, none⟩
    else if status = 401 then
      refuseWith 401 "Sign in to continue." (some message)
    else if 400 ≤ status ∧ status < 500 then refuseWith status message none
    else somethingWrong requestId
  | .other => somethingWrong requestId

/-! ## A transaction -/

/-- What happens inside one transaction of a write. -/
structure TxRun where
  at_ : Moment
  /-- The last value handed to `auditBefore`, if any was. -/
  before : Option Json
  body : Except Thrown Json
  /-- The caller asked for an answer its schema refuses to be let through. -/
  optional : Bool
  /-- The claim row's update: it throws, or says whether it found the row. -/
  claim : Except Thrown Bool
  /-- The event's insert. -/
  insert : Except Thrown Unit
  commit : Except Thrown Unit

/-- A transaction that was run: the event it inserted, and how it ended. -/
structure TxDone where
  inserted : Option AuditEvent
  committed : Bool

/-- What a write carries from one transaction to the next, and the events it
has in the outbox. -/
structure WriteState where
  /-- `idem.recorded`. -/
  recorded : Bool
  why : Option String
  audit : AuditRequestContext
  done : List TxDone
  outbox : List AuditEvent

def TOLERATED : String :=
  "a write's response failed its own schema and its caller asked for that to be tolerated"

def TAKEN_OVER : String :=
  "a write's claim row was taken over by a retry while the write was still running"

section Transactions

variable (route : WriteRoute)

/-- The update of the claim row, once the answer has passed its schema. -/
def recordIdempotent (claim : Except Thrown Bool) (value : Json) :
    Except Thrown (Except String Json) :=
  match route.response value with
  | .error issue =>
    .ok (.error ("a write's response failed its own schema: " ++ issue))
  | .ok body => claim.map fun hit =>
    if hit then .ok body
    else .error TAKEN_OVER

def recordAudit (m : Moment) (a : AuditRequestContext) (body : Json) :
    AuditEvent :=
  let w := writeOutcomeOf body
  auditEventOf m a ⟨.done, 200, w.message, none, w.result, w.changed⟩

/-- Everything before COMMIT: the flags as they are left, the event inserted,
and what is returned or thrown. -/
def runTx (tx : TxRun) (s : WriteState) :
    WriteState × Option AuditEvent × Except Thrown Json :=
  let s := { s with
    audit := { s.audit with before := tx.before.getD s.audit.before } }
  match tx.body with
  | .error e => (s, none, .error e)
  | .ok answer =>
    if s.recorded then (s, none, .ok answer)
    else if tx.optional && (route.response answer).toOption.isNone then
      ({ s with why := some TOLERATED }, none, .ok answer)
    else
      match recordIdempotent route tx.claim answer with
      | .error e => (s, none, .error e)
      | .ok (.ok body) =>
        match tx.insert with
        | .error e => (s, none, .error e)
        | .ok () =>
          ({ s with recorded := true, audit := { s.audit with pending := true } },
            some (recordAudit tx.at_ s.audit body), .ok answer)
      | .ok (.error why) =>
        ({ s with recorded := false, why := some why }, none,
          if route.strict then .error .other else .ok answer)

/-- The transaction has settled: what it inserted is there if it committed, and
gone if not. -/
def settleTx (s : WriteState) (inserted : Option AuditEvent)
    (committed : Bool) : WriteState :=
  { s with
    audit := { s.audit with
      recorded := s.audit.recorded || committed && s.audit.pending
      pending := false }
    done := s.done ++ [⟨inserted, committed⟩]
    outbox := if committed then s.outbox ++ inserted.toList else s.outbox }

def withTransaction (tx : TxRun) (s : WriteState) :
    WriteState × Except Thrown Json :=
  let (s, inserted, answer) := runTx route tx s
  match answer with
  | .error e => (settleTx s inserted false, .error e)
  | .ok value =>
    match tx.commit with
    | .error e => (settleTx s inserted false, .error e)
    | .ok () => (settleTx s inserted true, .ok value)

/-- One transaction after another, until one fails. -/
def runTxs : List TxRun → WriteState → WriteState × Except Thrown Unit
  | [], s => (s, .ok ())
  | tx :: txs, s =>
    match withTransaction route tx s with
    | (s, .error e) => (s, .error e)
    | (s, .ok _) => runTxs txs s

end Transactions

/-! ## The request -/

/-- A handler: its transactions, and what it returns or throws once they are
behind it. -/
structure HandlerRun where
  txs : List TxRun
  answer : Except Thrown Json
  /-- A handler that answers has opened a transaction. -/
  opens : answer.toOption.isSome = true → txs ≠ []

/-- What becomes of a request before its handler. -/
inductive Arrival
  /-- It does not get there. -/
  | refused (e : Thrown)
  /-- Its key has an answer already, which is sent again. -/
  | replayed (status : ℕ) (body : Json)
  | claimed (run : HandlerRun)

structure Reply where
  status : ℕ
  body : Json
  refusal : Option RefusedWith
  replayed : Bool

/-- `mount`'s wrapped handler. -/
def handle (route : WriteRoute) (run : HandlerRun) (s : WriteState) :
    WriteState × Except Thrown Json :=
  match runTxs route run.txs s with
  | (s, .error e) => (s, .error e)
  | (s, .ok ()) =>
    match run.answer with
    | .error e => (s, .error e)
    | .ok value =>
      if s.recorded = false ∧ route.strict = true then (s, .error .other)
      else (s, .ok value)

def failed (req : WriteRequest) (e : Thrown) : Reply :=
  let r := errorReply req.id e
  ⟨r.status, .obj [("error", .obj [("message", .str r.message)])], r.refusal,
    false⟩

/-- The handler's answer as it goes out, through its response schema. -/
def send (route : WriteRoute) (req : WriteRequest) :
    Except Thrown Json → Reply
  | .error e => failed req e
  | .ok value =>
    match route.response value with
    | .error _ => failed req .responseSerialization
    | .ok body => ⟨200, body, none, false⟩

def outcomeOf (status : ℕ) : AuditOutcome :=
  if status < 400 then .done else if status < 500 then .refused else .error

def envelopeMessage (body : Json) : String :=
  ((((body.field "error").bind fun e => e.field "message").bind
    Json.str?)).getD ""

/-- The event stored after the reply, when there is somebody to name. -/
def storeEvent (m : Moment) (a : AuditRequestContext) (reply : Reply) :
    Option AuditEvent :=
  if a.actorId = none then none
  else
    let outcome := outcomeOf reply.status
    let w := if outcome = .done then writeOutcomeOf reply.body
      else ⟨.null, [],
        (reply.refusal.map RefusedWith.message).getD (envelopeMessage reply.body)⟩
    some (auditEventOf m a ⟨outcome, reply.status, w.message,
      if outcome = .refused then reply.refusal.bind RefusedWith.cause else none,
      w.result, w.changed⟩)

/-- The hook after the reply. `stores` is whether its insert, on the pool, is
taken. -/
def onResponse (m : Moment) (stores : Bool) (a : AuditRequestContext)
    (reply : Reply) : Option AuditEvent :=
  if a.recorded then none
  else if reply.status = 401 ∨ reply.replayed = true then none
  else if stores then storeEvent m a reply else none

/-- What is left of a request once it is over. -/
structure Served where
  reply : Reply
  done : List TxDone
  trail : List AuditEvent

def serve (route : WriteRoute) (req : WriteRequest) (arrival : Arrival)
    (m : Moment) (stores : Bool) : Served :=
  let fresh : WriteState := ⟨false, none, auditContextOf req route, [], []⟩
  match arrival with
  | .refused e =>
    let reply := failed req e
    ⟨reply, [], (onResponse m stores fresh.audit reply).toList⟩
  | .replayed status body =>
    let reply : Reply := ⟨status, body, none, true⟩
    ⟨reply, [], (onResponse m stores fresh.audit reply).toList⟩
  | .claimed run =>
    let (s, answer) := handle route run fresh
    let reply := send route req answer
    ⟨reply, s.done, s.outbox ++ (onResponse m stores s.audit reply).toList⟩

end Rch
