import Mathlib.Data.List.Sort
import Rch.Api.Trail
import Rch.Domain.Text
import Rch.Kit.Table

/-!
# From the outbox into the log

A drain pass takes rows out of the API's outbox and stores each as an event, or
sets it aside as a dead letter, in one transaction. A row whose event the schema
refuses is set aside with the first thing wrong with it. So is one that Postgres
itself will not take: the pass tries its rows together, and where that is
refused, one by one.

Left open are the pattern an instant is matched with, the sentences the schema
library says, and which values Postgres refuses.
-/

namespace Rch

open Kit

/-! ## The schema -/

/-- The schema library and Postgres, as far as a pass depends on them. -/
structure DrainEnv where
  isoDatetime : String → Bool
  /-- What the schema says of the value at a path. -/
  wording : List String → Json → String
  /-- Why Postgres refuses an event's values, if it does. -/
  refuses : AuditEvent → Option String
  batch : ℕ

structure Issue where
  path : List String
  message : String

section Schema

variable (env : DrainEnv)

abbrev Parse (α : Type) := Except Issue α

def refuseAt {α : Type} (path : List String) (j : Json) : Parse α :=
  .error ⟨path, env.wording path j⟩

def parseStr (above : List String) (j : Json) (key : String)
    (ok : String → Bool) : Parse String :=
  match j.field key with
  | some (.str s) =>
    if ok s then .ok s else refuseAt env (above ++ [key]) (.str s)
  | other => refuseAt env (above ++ [key]) (other.getD .null)

def parseNullable (above : List String) (j : Json) (key : String) :
    Parse (Option String) :=
  match j.field key with
  | some (.str s) => .ok (some s)
  | some .null => .ok none
  | other => refuseAt env (above ++ [key]) (other.getD .null)

/-- A field that may hold anything, but must be there. -/
def parseUnknown (j : Json) (key : String) : Parse Json :=
  match j.field key with
  | some v => .ok v
  | none => refuseAt env [key] .null

/-- An object with these fields and no others. -/
def parseStrict (above : List String) (j : Json) (keys : List String) :
    Parse Unit :=
  match j with
  | .obj fields =>
    if fields.all (fun f => decide (f.1 ∈ keys)) then .ok ()
    else refuseAt env above j
  | _ => refuseAt env above j

def parseObject (above : List String) (j : Json) : Parse Unit :=
  match j with
  | .obj _ => .ok ()
  | _ => refuseAt env above j

def parseActor (j : Json) : Parse AuditActor := do
  let actor := (j.field "actor").getD .null
  parseObject env ["actor"] actor
  let id ← parseNullable env ["actor"] actor "id"
  let emp ← parseStr env ["actor"] actor "emp" fun _ => true
  let name ← parseStr env ["actor"] actor "name" fun _ => true
  let role ← parseStr env ["actor"] actor "role" fun _ => true
  let loc ← parseStr env ["actor"] actor "loc" fun _ => true
  parseStrict env ["actor"] actor ["id", "emp", "name", "role", "loc"]
  pure ⟨id, emp, name, role, loc⟩

def parseOutcome (j : Json) : Parse AuditOutcome :=
  match j.field "outcome" with
  | some (.str "done") => .ok .done
  | some (.str "refused") => .ok .refused
  | some (.str "error") => .ok .error
  | other => refuseAt env ["outcome"] (other.getD .null)

/-- A whole number that a double tells from its neighbours. -/
def parseStatus (j : Json) : Parse ℤ :=
  match j.field "status" with
  | some (.num n) =>
    if n.den = 1 ∧ n.num.natAbs < 2 ^ 53 then .ok n.num
    else refuseAt env ["status"] (.num n)
  | other => refuseAt env ["status"] (other.getD .null)

/-- The collections an event names, the first bad one refused at its place. -/
def parseEachChanged : ℕ → List Json → Parse (List String)
  | _, [] => .ok []
  | i, j :: rest =>
    match j with
    | .str s =>
      if s ∈ collections then (parseEachChanged (i + 1) rest).map (s :: ·)
      else refuseAt env ["changed", toString i] j
    | _ => refuseAt env ["changed", toString i] j

def parseChanged (j : Json) : Parse (List String) :=
  match j.field "changed" with
  | some (.arr l) => parseEachChanged env 0 l
  | other => refuseAt env ["changed"] (other.getD .null)

/-- `AuditEventSchema`, field by field in its own order. The values an event
carries are anything at all. -/
def parseAuditEvent (j : Json) : Parse AuditEvent := do
  parseObject env [] j
  let at_ ← parseStr env [] j "at" env.isoDatetime
  let requestId ← parseStr env [] j "requestId" fun _ => true
  let actor ← parseActor env j
  let action ← parseStr env [] j "action" fun s =>
    decide (1 ≤ codePoints s ∧ codePoints s ≤ 64)
  let method ← parseStr env [] j "method" fun _ => true
  let path ← parseStr env [] j "path" fun _ => true
  let target ← parseStr env [] j "target" fun _ => true
  let targetLoc ← parseStr env [] j "targetLoc" fun _ => true
  let outcome ← parseOutcome env j
  let status ← parseStatus env j
  let message ← parseStr env [] j "message" fun _ => true
  let cause ← parseNullable env [] j "cause"
  let request ← parseUnknown env j "request"
  let before ← parseUnknown env j "before"
  let result ← parseUnknown env j "result"
  let changed ← parseChanged env j
  let ip ← parseStr env [] j "ip" fun _ => true
  let userAgent ← parseStr env [] j "userAgent" fun _ => true
  parseStrict env [] j
    ["at", "requestId", "actor", "action", "method", "path", "target",
     "targetLoc", "outcome", "status", "message", "cause", "request", "before",
     "result", "changed", "ip", "userAgent"]
  pure
    { at_ := at_, requestId := requestId, actor := actor, action := action
      method := method, path := path, target := target, targetLoc := targetLoc
      outcome := outcome, status := status, message := message, cause := cause
      request := request, before := before, result := result
      changed := changed, ip := ip, userAgent := userAgent }

end Schema

/-! ## The tables -/

/-- A row of the outbox, apart from its id. -/
structure OutboxRow where
  at_ : String
  event : Json

/-- A row of the log, apart from its own id and the outbox id it is kept
under. -/
structure EventRow where
  at_ : String
  requestId : String
  actor : AuditActor
  action : String
  method : String
  path : String
  target : String
  targetLoc : String
  outcome : String
  status : ℤ
  message : String
  cause : Option String
  request : Json
  before : Option Json
  result : Option Json
  changed : List String
  ip : String
  userAgent : String

structure DeadLetter where
  outboxId : ℕ
  at_ : String
  event : Json
  issue : String

/-- A missing value is no value, not the literal null. -/
def jsonb : Json → Option Json
  | .null => none
  | j => some j

def eventRow (e : AuditEvent) : EventRow where
  at_ := e.at_
  requestId := e.requestId
  actor := e.actor
  action := e.action
  method := e.method
  path := e.path
  target := e.target
  targetLoc := e.targetLoc
  outcome := e.outcome.word
  status := e.status
  message := e.message
  cause := e.cause
  request := (jsonb e.request).getD (.obj [])
  before := jsonb e.before
  result := jsonb e.result
  changed := e.changed
  ip := e.ip
  userAgent := e.userAgent

/-! ## Sorting what was taken -/

/-- A row a pass has taken. -/
structure TakenRow where
  id : ℕ
  row : OutboxRow

structure Parsed where
  row : TakenRow
  event : AuditEvent

structure SetAside where
  row : TakenRow
  issue : String

def deadLetterRow (r : SetAside) : DeadLetter :=
  ⟨r.row.id, r.row.row.at_, r.row.row.event, r.issue⟩

def firstIssue (i : Issue) : String :=
  let path := ".".intercalate i.path
  if path = "" then i.message else path ++ ": " ++ i.message

/-- The rows whose event the schema takes, in the order given. -/
def validOf (env : DrainEnv) (taken : List TakenRow) : List Parsed :=
  taken.filterMap fun r => match parseAuditEvent env r.row.event with
    | .ok event => some ⟨r, event⟩
    | .error _ => none

/-- The rows whose event it refuses, each with its issue. -/
def refusedOf (env : DrainEnv) (taken : List TakenRow) : List SetAside :=
  taken.filterMap fun r => match parseAuditEvent env r.row.event with
    | .ok _ => none
    | .error i => some ⟨r, firstIssue i⟩

def refusedByDatabase (why : String) : String := "database refused it: " ++ why

/-- Why the log will not take this event: its values, or its outbox id, which is
there already. -/
def rowRefusal (env : DrainEnv) (events : Table ℕ EventRow) (p : Parsed) :
    Option String :=
  env.refuses p.event <|>
    if (events.get? p.row.id).isSome then
      some "duplicate key value violates unique constraint \"events_outbox_id_uq\""
    else none

/-- The events of a batch, all of them or none. -/
def insertEvents (list : List Parsed) (events : Table ℕ EventRow) :
    Table ℕ EventRow :=
  events.insertAll (list.map fun p => (p.row.id, eventRow p.event))

def insertDeadLetters (refused : List SetAside) (dead : List DeadLetter) :
    List DeadLetter :=
  dead ++ (refused.insertionSort fun a b => a.row.id ≤ b.row.id).map
    deadLetterRow

end Rch
