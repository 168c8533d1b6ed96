import Rch.Api.Refusal
import Rch.Domain.Json

/-!
# The audit trail of a write

A request that writes leaves one event behind. A write that succeeds stores its
event in the transaction that records its answer, so the two commit together.
Whatever else a request ends in is left to a hook that runs once the reply has
gone, and decides from the flags the request carries whether there is still
something to tell.

What the database decides is handed in: whether the claim row was still this
request's, whether an insert was taken, whether a COMMIT went through. One that
fails has rolled back.
-/

namespace Rch

open Kit

/-! ## Events -/

inductive AuditOutcome
  | done | refused | error
deriving DecidableEq, Repr

def AuditOutcome.word : AuditOutcome → String
  | done => "done"
  | refused => "refused"
  | error => "error"

/-- Who acted, as they stood at that moment. -/
structure AuditActor where
  id : Option String
  emp : String
  name : String
  role : String
  loc : String
deriving DecidableEq

structure AuditEvent where
  at_ : String
  requestId : String
  actor : AuditActor
  action : String
  method : String
  path : String
  target : String
  targetLoc : String
  outcome : AuditOutcome
  status : ℤ
  message : String
  cause : Option String
  request : Json
  before : Json
  result : Json
  changed : List String
  ip : String
  userAgent : String

/-- An account, in what an event keeps of it. -/
structure ActingUser where
  empNo : String
  name : String
  roleLabel : String
  admin : Bool
  system : Bool
  loc : String

def roleLabelOf (u : ActingUser) : String :=
  if u.admin = true then "Super Admin"
  else if u.system = true then "System" else u.roleLabel

/-- What an event is built from besides the request: the accounts as they read
at that moment, the clock, and how a number prints. -/
structure Moment where
  users : String → Option ActingUser
  now : String
  numeral : ℚ → String

def actorOf (m : Moment) (userId : Option String) : AuditActor :=
  match userId with
  | none => ⟨none, "", "", "", ""⟩
  | some id =>
    match m.users id with
    | none => ⟨some id, "", "", "", ""⟩
    | some u =>
      ⟨some id, u.empNo, u.name, roleLabelOf u,
        if u.admin = true ∨ u.system = true then "" else u.loc⟩

def Moment.text (m : Moment) (o : Json) (key : String) : Option String :=
  match o.field key with
  | some (.str s) => some s
  | some (.num n) => some (m.numeral n)
  | _ => none

def joined (sep : String) (parts : List (Option String)) : String :=
  sep.intercalate ((parts.filterMap id).filter fun p => decide (p ≠ ""))

/-- What an event is about, and where. -/
def targetOf (m : Moment) (action : String) (params body result : Json) :
    String × String :=
  let targetLoc := (m.text params "loc" <|> m.text body "loc" <|>
    m.text body "from" <|> m.text result "loc" <|>
    m.text result "from").getD ""
  if action = "savePrice" then
    (joined ":" [m.text params "list", m.text params "it"], targetLoc)
  else if action = "addMenuItem" ∨ action = "removeMenuItem" then
    (joined ":" [m.text params "loc", m.text params "it" <|> m.text body "it"],
      targetLoc)
  else if action = "toggleAvail" then
    (joined ":" [m.text body "loc", m.text body "it"], targetLoc)
  else if action = "updatePoLine" ∨ action = "removePoLine" then
    (joined "#" [m.text params "id", m.text params "n"], targetLoc)
  else
    ((m.text params "id" <|> m.text params "no" <|> m.text params "it" <|>
      m.text result "id" <|> m.text result "no" <|>
      m.text result "key").getD "", targetLoc)

/-- What `mount` knows about a write before its handler runs. `pending` is set
by the transaction that inserts the write's event and cleared once it settles;
`recorded` is set only when it committed. -/
structure AuditRequestContext where
  action : String
  method : String
  path : String
  requestId : String
  ip : String
  userAgent : String
  params : Json
  query : Json
  body : Json
  actorId : Option String
  before : Json
  pending : Bool
  recorded : Bool

/-- A request, and the account a valid token of it names. -/
structure WriteRequest where
  id : String
  ip : String
  userAgent : String
  params : Json
  query : Json
  body : Json
  user : Option String

/-- The route's side of a write: how the trail calls it, what its answer must
look like, and whether an answer that is not recorded is an error. -/
structure WriteRoute where
  action : String
  method : String
  path : String
  /-- The answer as its schema parses it, or what is wrong with it. -/
  response : Json → Except String Json
  strict : Bool

def auditContextOf (req : WriteRequest) (route : WriteRoute) :
    AuditRequestContext where
  action := route.action
  method := route.method
  path := route.path
  requestId := req.id
  ip := req.ip
  userAgent := String.ofList (req.userAgent.toList.take 512)
  params := req.params
  query := req.query
  body := req.body
  actorId := req.user
  before := .null
  pending := false
  recorded := false

/-- A reply read as a write's answer. -/
structure WriteOutcome where
  result : Json
  changed : List String
  message : String

def writeOutcomeOf (body : Json) : WriteOutcome :=
  match body.field "result", body.field "message" with
  | some result, some message =>
    { result := result
      changed := (((body.field "changed").bind Json.arr?).getD []).filterMap
        fun c => c.str?.filter fun s => decide (s ∈ collections)
      message := message.str?.getD "" }
  | _, _ => ⟨body, [], ""⟩

/-- How a request ended. -/
structure HowItEnded where
  outcome : AuditOutcome
  status : ℤ
  message : String
  cause : Option String
  result : Json
  changed : List String

def auditEventOf (m : Moment) (a : AuditRequestContext) (o : HowItEnded) :
    AuditEvent :=
  let (target, targetLoc) := targetOf m a.action a.params a.body o.result
  { at_ := m.now, requestId := a.requestId, actor := actorOf m a.actorId
    action := a.action, method := a.method, path := a.path
    target := target, targetLoc := targetLoc
    outcome := o.outcome, status := o.status, message := o.message
    cause := o.cause
    request := maskSecrets (.obj [("params", a.params), ("query", a.query),
      ("body", a.body)])
    before := maskSecrets a.before, result := maskSecrets o.result
    changed := o.changed, ip := a.ip, userAgent := a.userAgent }

end Rch
