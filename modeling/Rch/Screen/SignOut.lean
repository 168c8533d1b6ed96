import Rch.Screen.Till

/-!
# One tab's session, and the calls that outlive it

A terminal is shared: one operator signs out and the next signs in, in the same
tab. Every call goes on after its answer by writing what it was asked for into
the tab's token, the store's user or a till. A call refused for its token waits
for a refresh, of which the tab has one out at a time whoever asked for it, and
is sent again. Other tabs tell this one of the tokens they get.

The state also counts, for the statements, the sign-outs completed, and keeps
with each call and refresh how many there were when it was made.
-/

namespace Rch.SignOut

open Kit

/-- Who is signed in, as the store keeps it. -/
structure User where
  id : String
  n : String
  r : String
  admin : Bool
  perms : List String
deriving DecidableEq

inductive Auth
  | signedOut | signingIn | loading | ready | failed
deriving DecidableEq

/-- A call, by how it goes on. -/
inductive Ask
  | login
  /-- The refresh a page makes as it loads. -/
  | restore
  | logout
  | changePassword
  | saveProfile
  /-- Who am I, again: with who it was when it was asked. -/
  | me (before : Option User)
  | snapshot
  | pay (loc : LocKey) (bill : ℕ)
  /-- The event stream. -/
  | stream
  /-- A read or a write that touches neither the session nor a till. -/
  | other
deriving DecidableEq

/-- A route under `/auth/`: a 401 there is not refreshed behind. -/
def Ask.underAuth : Ask → Bool
  | .login | .restore | .logout | .changePassword => true
  | _ => false

/-- What the server answers without an access token. -/
def Ask.tokenless : Ask → Bool
  | .login | .restore | .logout => true
  | _ => false

inductive Phase
  | sent (token : Option String)
  /-- Refused for its token, the refresh not settled. -/
  | waiting
  /-- The refresh settled, and when it was asked for. -/
  | settled (ok : Bool) (born : ℕ)
  | resent (token : Option String)
  /-- A stream that is being read. -/
  | reading
deriving DecidableEq

structure Call where
  ask : Ask
  phase : Phase
  born : ℕ
  aborted : Bool

/-- The tab's refresh: behind whose token, and whether it has its turn. -/
structure Refresh where
  had : Option String
  sent : Bool
  born : ℕ

structure Terminal where
  token : Option String
  /-- Whether the tab listens for the other tabs' tokens. -/
  channel : Bool
  user : Option User
  auth : Auth
  tills : LocKey → Option Tills.Till
  seq : ℕ
  /-- Whether a snapshot has filled the master. -/
  hydrated : Bool
  /-- Whether the event stream is kept open. -/
  following : Bool
  calls : List Call
  refreshing : Option Refresh
  signOuts : ℕ
  /-- No sign-in asked for since the last sign-out has succeeded. -/
  out : Bool

/-- `stop()` aborts the stream's request, wherever it is. -/
def Call.stop (c : Call) : Call :=
  { c with aborted := c.aborted || decide (c.ask = .stream) }

/-- The stream follows `auth`: opened when ready, stopped when signed out. -/
def Terminal.setAuth (s : Terminal) (a : Auth) : Terminal :=
  { s with
    auth := a
    following := decide (a = .ready) || (s.following && decide (a ≠ .signedOut))
    calls := if a = .signedOut then s.calls.map Call.stop else s.calls }

def Terminal.call (s : Terminal) (a : Ask) : Terminal :=
  { s with
    channel := true
    calls := s.calls ++ [⟨a, .sent s.token, s.signOuts, false⟩] }

/-- A super admin has no hospital to load. The splash is the first boot's. -/
def Terminal.loadSnapshot (s : Terminal) : Terminal :=
  if s.user.any User.admin then s.setAuth .ready
  else (if s.hydrated then s else s.setAuth .loading).call .snapshot

def Terminal.live (s : Terminal) : Bool := s.token.isSome || s.user.isSome

def Terminal.sessionLost (s : Terminal) : Terminal :=
  ({ s with
    token := none
    channel := false
    user := none
    signOuts := if s.live then s.signOuts + 1 else s.signOuts
    out := s.out || s.live } : Terminal).setAuth .signedOut

def Terminal.signedOff (s : Terminal) : Terminal :=
  { s.sessionLost with tills := fun _ => none }

/-- Made before the last sign-out. -/
def Terminal.late (s : Terminal) (c : Call) : Bool := decide (c.born < s.signOuts)

/-! ## The tills -/

/-- The till of one counter, as far as the store keeps it. -/
def Terminal.counter (s : Terminal) (loc : LocKey) : Tills.Counter :=
  ⟨s.tills loc, s.seq, [], fun _ _ => 0, []⟩

def Terminal.setTill (s : Terminal) (loc : LocKey) (c : Tills.Counter) : Terminal :=
  { s with
    tills := fun l => if l = loc then c.till else s.tills l
    seq := c.seq }

def Terminal.tillAt (s : Terminal) (loc : LocKey) : Tills.Till :=
  (s.tills loc).getD Tills.freshTill

/-! ## How a call goes on -/

inductive Reply
  | session (token : String) (user : User) (mustChangePassword : Bool)
  | person (user : User)
  | done
  /-- A 401. -/
  | unauthorized
  /-- Any other refusal, or no answer at all. -/
  | refused
deriving DecidableEq

/-- The role or its permissions moved, so every screen's data may have. -/
def regranted (before after : User) : Bool :=
  decide (before.r ≠ after.r ∨ before.perms ≠ after.perms)

/-- A session taken on: a sign-in asked for since the last sign-out ends it. -/
def Terminal.takes (s : Terminal) (c : Call) (token : String) (user : User) :
    Terminal :=
  { s with token := some token, user := some user, out := s.out && s.late c }

def Terminal.rereads (s : Terminal) (before : Option User) (user : User) :
    Terminal :=
  match before with
  | none => s
  | some b =>
    if b = user then s
    else if regranted b user then
      ({ s with user := some user } : Terminal).loadSnapshot
    else { s with user := some user }

def Terminal.accepts (s : Terminal) (c : Call) : Reply → Option Terminal
  | .session token user must =>
    match c.ask with
    | .login =>
      some (if must then (s.takes c token user).setAuth .ready
        else ((s.takes c token user).setAuth .loading).loadSnapshot)
    | .restore =>
      some (if must then (s.takes c token user).setAuth .ready
        else (s.takes c token user).loadSnapshot)
    | .changePassword =>
      some ({ s with token := some token, user := some user } : Terminal).loadSnapshot
    | _ => none
  | .person user =>
    match c.ask with
    | .saveProfile => some { s with user := some user }
    | .me before => some (s.rereads before user)
    | .snapshot =>
      some (({ s with user := some user, hydrated := true } : Terminal).setAuth .ready)
    | _ => none
  | .done =>
    match c.ask with
    | .pay loc bill => some (s.setTill loc ((s.counter loc).drop bill))
    | .logout => some s.signedOff
    | .other => some s
    | _ => none
  | _ => none

/-- A call that fails. A snapshot that does asks first who is signed in. -/
def Terminal.fails (s : Terminal) (c : Call) : Terminal :=
  match c.ask with
  | .login | .restore => ({ s with user := none } : Terminal).setAuth .signedOut
  | .logout => s.signedOff
  | .snapshot =>
    if s.user = none then s
    else s.setAuth (if s.hydrated then .ready else .failed)
  | _ => s

/-! ## The refresh -/

/-- Wait for the refresh that is out, else ask for one. -/
def Terminal.waits (s : Terminal) (i : ℕ) (had : Option String) : Terminal :=
  { s with
    calls := s.calls.modify i fun c => { c with phase := .waiting }
    refreshing := some (s.refreshing.getD ⟨had, false, s.signOuts⟩) }

def Call.settle (ok : Bool) (born : ℕ) (c : Call) : Call :=
  if c.phase = .waiting then { c with phase := .settled ok born } else c

def Terminal.settles (s : Terminal) (ok : Bool) (born : ℕ) : Terminal :=
  { s with
    refreshing := none
    calls := s.calls.map (Call.settle ok born) }

/-- Another token than the one refused is a newer one: no refresh is due. -/
def Terminal.renewed (s : Terminal) (r : Refresh) : Bool :=
  r.had.isSome && s.token.isSome && decide (s.token ≠ r.had)

/-! ## The steps -/

inductive Event
  | signIn
  /-- A sign-out, a password or profile change, or any other read or write. -/
  | asks (a : Ask)
  | reread
  | load
  | pay (loc : LocKey)
  /-- The operator works on a till. -/
  | till (loc : LocKey) (e : Tills.Counter.Event)
  | connect
  /-- A call's answer. -/
  | reply (i : ℕ) (r : Reply)
  /-- The refresh has its turn among the tabs. -/
  | turn
  /-- The refresh's answer: a token, or none. -/
  | refreshed (token : Option String)
  /-- A call goes on after its refresh. -/
  | resume (i : ℕ)
  /-- Another tab's token. -/
  | broadcast (token : String)

def Ask.plain : Ask → Bool
  | .logout | .changePassword | .saveProfile | .other => true
  | _ => false

/-- An answer of the server's: to nobody what it serves to nobody, else to a
token's holder. -/
def Terminal.served (s : Terminal) (i : ℕ) (c : Call) (token : Option String)
    (r : Reply) : Option Terminal :=
  if token = none ∧ c.ask.tokenless = false then none
  else if c.ask = .stream then
    if r = .done then
      some { s with calls := s.calls.modify i fun c => { c with phase := .reading } }
    else none
  else ({ s with calls := s.calls.eraseIdx i } : Terminal).accepts c r

/-- A call's answer. Refused for its token, it waits for a refresh, once; a
stream refused again ends the session. -/
def Terminal.answer (s : Terminal) (i : ℕ) (c : Call) (r : Reply) : Option Terminal :=
  let rest := { s with calls := s.calls.eraseIdx i }
  match c.phase with
  | .sent token =>
    match r with
    | .refused => some (rest.fails c)
    | .unauthorized =>
      some (if c.ask.underAuth then rest.fails c else s.waits i token)
    | r => s.served i c token r
  | .resent token =>
    match r with
    | .refused => some (rest.fails c)
    | .unauthorized =>
      some (if c.ask = .stream then rest.sessionLost else rest.fails c)
    | r => s.served i c token r
  | .reading => if r = .refused then some (rest.fails c) else none
  | _ => none

/-- A request that was aborted is never given an answer: it fails. -/
def Terminal.reply (s : Terminal) (i : ℕ) (r : Reply) : Option Terminal :=
  (s.calls[i]?).bind fun c =>
    if c.aborted then
      if r = .refused then
        some (({ s with calls := s.calls.eraseIdx i } : Terminal).fails c)
      else none
    else s.answer i c r

/-- What follows the refresh: the request again, or the session's end. -/
def Terminal.resume (s : Terminal) (i : ℕ) : Option Terminal :=
  (s.calls[i]?).bind fun c =>
    let rest := { s with calls := s.calls.eraseIdx i }
    match c.phase with
    | .settled true _ =>
      some (if c.aborted then rest.fails c
        else { s with
          calls := s.calls.modify i fun c => { c with phase := .resent s.token } })
    | .settled false _ => some rest.sessionLost
    | _ => none

/-- The refresh has its turn: it is sent, unless somebody has done it. -/
def Terminal.turn (s : Terminal) : Option Terminal :=
  s.refreshing.bind fun r =>
    if r.sent then none
    else
      some (if s.renewed r then s.settles true r.born
        else { s with refreshing := some { r with sent := true } })

/-- A token it brings is the tab's, whoever is signed in. -/
def Terminal.refreshed (s : Terminal) (token : Option String) : Option Terminal :=
  s.refreshing.bind fun r =>
    if r.sent = false then none
    else
      some (match token with
        | some t =>
          ({ s with token := some t, channel := true } : Terminal).settles true r.born
        | none => s.settles false r.born)

/-- The bill on screen is sent, where it has a line and somebody is signed
in. -/
def Terminal.pays (s : Terminal) (loc : LocKey) : Option Terminal :=
  (Tills.activeBill (s.tillAt loc)).bind fun b =>
    if b.lines.rows = [] ∨ s.user = none then none else some (s.call (.pay loc b.id))

def Terminal.step (s : Terminal) : Event → Option Terminal
  | .signIn => some ((s.setAuth .signingIn).call .login)
  | .asks a => if a.plain then some (s.call a) else none
  | .reread => some (s.call (.me s.user))
  | .load => some s.loadSnapshot
  | .pay loc => s.pays loc
  | .till loc e => ((s.counter loc).step e).map (s.setTill loc)
  | .connect =>
    if s.following ∧ ∀ c ∈ s.calls, c.ask = .stream → c.aborted then
      some { s with calls := s.calls ++ [⟨.stream, .sent s.token, s.signOuts, false⟩] }
    else none
  | .reply i r => s.reply i r
  | .turn => s.turn
  | .refreshed token => s.refreshed token
  | .resume i => s.resume i
  | .broadcast token =>
    if s.channel then some { s with token := s.token.map fun _ => token } else none

/-- A page that has just loaded asks for its session back. -/
def loaded : Terminal where
  token := none
  channel := true
  user := none
  auth := .loading
  tills := fun _ => none
  seq := 1
  hydrated := false
  following := false
  calls := [⟨.restore, .sent none, 0, false⟩]
  refreshing := none
  signOuts := 0
  out := false

def terminal : Machine Terminal Event where
  init := (· = loaded)
  step := Terminal.step

end Rch.SignOut
