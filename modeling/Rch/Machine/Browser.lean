import Rch.Machine.Sessions

/-!
# The tabs of one browser and the refresh cookie they share

The cookie belongs to the browser: a request carries the one the jar holds when
it is sent, and an answer's replaces it when it lands. A tab refreshes when a
call or its event stream is refused, under a lock the tabs take in turn, and
tells the others of the token it got. A page that loads asks for its session
back at once, by an ordinary call.

The server answers a refresh as one transaction. None of its answers is lost.
-/

namespace Rch

open Kit

/-! ## The server's answer -/

inductive RefreshRefusal
  | noCookie | unknown | revoked | expired | inactive
  /-- Somebody had used the token already: its family is revoked. -/
  | reused
  | capped
deriving DecidableEq

inductive RefreshAnswer
  | session (secret accessToken : String)
  | refused (why : RefreshRefusal)
deriving DecidableEq

structure RefreshEnv where
  ttl : Instant
  sha256 : String → String

/-- What a refresh draws: the clock, the new row's id, the secret, and the
access token. -/
structure RefreshDraw where
  at_ : Instant
  id : String
  secret : String
  accessToken : String

/-- A cookie presented: its row claimed, and the family's next one stored. -/
def refreshCookie (env : RefreshEnv) (d : RefreshDraw) (raw : String)
    (s : SignIns) : SignIns × RefreshAnswer :=
  match refreshByHash s (env.sha256 raw) with
  | none => (s, .refused .unknown)
  | some (id, t) =>
    if t.revokedAt ≠ none then (s, .refused .revoked)
    else if t.expiresAt < d.at_ then (s, .refused .expired)
    else
      match (s.users.get? t.userId).filter AccountRow.active with
      | none => (s, .refused .inactive)
      | some u =>
        if t.usedAt ≠ none then
          (revokeRows (.family t.family) (liveIn (.family t.family) s) d.at_ s,
            .refused .reused)
        else
          let s := stampUsed id d.at_ s
          let startedAt := familyStartedAt s t.family
          if startedAt.any fun startedAt =>
              decide (startedAt + env.ttl ≤ d.at_) then
            (s, .refused .capped)
          else
            let c : SessionChoice :=
              ⟨d.at_, d.id, t.family, env.sha256 d.secret⟩
            (insertRefresh d.id (tokenRow env.ttl c t.userId t.family
                (startedAt.getD d.at_) (t.loc.getD u.loc)) s,
              .session d.secret d.accessToken)

def refresh (env : RefreshEnv) (d : RefreshDraw) (s : SignIns) :
    Option String → SignIns × RefreshAnswer
  | none => (s, .refused .noCookie)
  | some raw => refreshCookie env d raw s

/-- An id and a secret nobody has had: both columns are unique. -/
def freshDraw (env : RefreshEnv) (d : RefreshDraw) (s : SignIns) : Prop :=
  s.tokens.get? d.id = none ∧ refreshByHash s (env.sha256 d.secret) = none

instance (env : RefreshEnv) (d : RefreshDraw) (s : SignIns) :
    Decidable (freshDraw env d s) := by
  unfold freshDraw
  infer_instance

/-! ## The tabs -/

inductive Sender
  /-- A page that loads: `restore`. -/
  | restore
  /-- Whoever holds the lock: `refreshInLock`. -/
  | locked
deriving DecidableEq

/-- A refresh sent whose answer has not landed. -/
structure Flight where
  tab : ℕ
  by_ : Sender
  cookie : Option String
  answer : Option RefreshAnswer

inductive Awaiting
  | flying
  | landed (a : RefreshAnswer)
deriving DecidableEq

/-- A refusal being looked into, once a tab. `had` is the token it was raised
against. -/
inductive Refreshing
  | waiting (had : Option String)
  | out (p : Awaiting)
deriving DecidableEq

structure BrowserTab where
  token : Option String
  restoring : Option Awaiting
  refreshing : Option Refreshing
  /-- Tokens other tabs have announced, on their way. -/
  heard : List String
deriving DecidableEq

def BrowserTab.blank : BrowserTab := ⟨none, none, none, []⟩

structure Browser where
  server : SignIns
  jar : Option String
  tabs : List BrowserTab
  flights : List Flight
  /-- The tab in the lock. -/
  lock : Option ℕ
  /-- Every cookie the refresh route was shown. -/
  presented : List String
  /-- Why refreshes were refused. Nothing else signs a tab out. -/
  refusals : List RefreshRefusal

namespace Browser

inductive Event
  | load
  | restore (i : ℕ)
  /-- A call, or the stream, refused with the token it went out with. -/
  | unauthorized (i : ℕ) (had : Option String)
  | enter (i : ℕ)
  | serve (k : ℕ) (d : RefreshDraw)
  | land (k : ℕ)
  | resume (i : ℕ) (by_ : Sender)
  | hear (i : ℕ)

def setTab (b : Browser) (i : ℕ) (f : BrowserTab → BrowserTab) : Browser :=
  { b with tabs := b.tabs.modify i f }

/-- A request to the refresh route leaves with the jar's cookie. -/
def send (b : Browser) (i : ℕ) (by_ : Sender) : Browser :=
  { b with
    flights := b.flights ++ [⟨i, by_, b.jar, none⟩]
    presented := b.presented ++ b.jar.toList }

/-- Whether a tab let into the lock has to refresh: another may have finished
the job. -/
def mustRefresh (t : BrowserTab) (had : Option String) : Bool :=
  !(had.isSome && t.token.isSome && decide (t.token ≠ had))

def restore (b : Browser) (i : ℕ) : Option Browser :=
  (b.tabs[i]?).bind fun t =>
    if t.token = none ∧ t.restoring = none then
      some ((b.setTab i fun t => { t with restoring := some .flying }).send i
        .restore)
    else none

/-- A refusal while one is being looked into joins it. -/
def unauthorized (b : Browser) (i : ℕ) (had : Option String) : Browser :=
  b.setTab i fun t =>
    { t with refreshing := t.refreshing.orElse fun _ => some (.waiting had) }

def enter (b : Browser) (i : ℕ) : Option Browser :=
  (b.tabs[i]?).bind fun t =>
    match t.refreshing with
    | some (.waiting had) =>
      if b.lock = none then
        if mustRefresh t had then
          some ({ b.setTab i fun t =>
              { t with refreshing := some (.out .flying) } with
            lock := some i }.send i .locked)
        else some (b.setTab i fun t => { t with refreshing := none })
      else none
    | _ => none

def refusalOf : RefreshAnswer → List RefreshRefusal
  | .session _ _ => []
  | .refused why => [why]

def serve (env : RefreshEnv) (b : Browser) (k : ℕ) (d : RefreshDraw) :
    Option Browser :=
  (b.flights[k]?).bind fun f =>
    if f.answer = none ∧ freshDraw env d b.server then
      let (server, a) := Rch.refresh env d b.server f.cookie
      some { b with
        server
        flights := b.flights.modify k fun f => { f with answer := some a }
        refusals := b.refusals ++ refusalOf a }
    else none

/-- The cookie an answer leaves in the jar; a refusal clears it. -/
def cookieOf : RefreshAnswer → Option String
  | .session secret _ => some secret
  | .refused _ => none

def landed (by_ : Sender) (a : RefreshAnswer) (t : BrowserTab) : BrowserTab :=
  match by_ with
  | .restore => { t with restoring := some (.landed a) }
  | .locked => { t with refreshing := some (.out (.landed a)) }

def land (b : Browser) (k : ℕ) : Option Browser :=
  (b.flights[k]?).bind fun f => f.answer.map fun a =>
    { b.setTab f.tab (landed f.by_ a) with
      flights := b.flights.eraseIdx k
      jar := cookieOf a }

/-- The token an answer leaves with the tab that asked. -/
def tokenOf : RefreshAnswer → Option String
  | .session _ accessToken => some accessToken
  | .refused _ => none

def announce (b : Browser) (i : ℕ) (accessToken : String) : Browser :=
  { b with tabs := b.tabs.mapIdx fun j t =>
      if j = i then t else { t with heard := t.heard ++ [accessToken] } }

def resume (b : Browser) (i : ℕ) : Sender → Option Browser
  | .restore =>
    (b.tabs[i]?).bind fun t =>
      match t.restoring with
      | some (.landed a) =>
        some (b.setTab i fun t =>
          { t with token := tokenOf a, restoring := none })
      | _ => none
  | .locked =>
    (b.tabs[i]?).bind fun t =>
      match t.refreshing with
      | some (.out (.landed a)) =>
        let b := { b.setTab i fun t =>
            { t with token := tokenOf a, refreshing := none } with
          lock := none }
        some ((tokenOf a).elim b (b.announce i))
      | _ => none

/-- Another tab's token replaces one this tab holds, and is never its first. -/
def hear (b : Browser) (i : ℕ) : Option Browser :=
  (b.tabs[i]?).bind fun t =>
    match t.heard with
    | [] => none
    | m :: rest =>
      some (b.setTab i fun t =>
        { t with token := t.token.map fun _ => m, heard := rest })

def step (env : RefreshEnv) (b : Browser) : Event → Option Browser
  | .load => some { b with tabs := b.tabs ++ [.blank] }
  | .restore i => b.restore i
  | .unauthorized i had => some (b.unauthorized i had)
  | .enter i => b.enter i
  | .serve k d => b.serve env k d
  | .land k => b.land k
  | .resume i by_ => b.resume i by_
  | .hear i => b.hear i

/-- A cookie the server would take: its row is there, neither used nor
revoked. -/
def Ready (env : RefreshEnv) (s : SignIns) (raw : String) : Prop :=
  ∃ id t, refreshByHash s (env.sha256 raw) = some (id, t) ∧
    t.usedAt = none ∧ t.revokedAt = none

/-- Tabs at rest, some of them signed in, and a cookie nobody has used. -/
structure Opens (env : RefreshEnv) (b : Browser) : Prop where
  ready : ∀ raw, b.jar = some raw → Ready env b.server raw
  unended : b.server.ended = []
  rest : ∀ t ∈ b.tabs, t.restoring = none ∧ t.refreshing = none
  flights : b.flights = []
  lock : b.lock = none
  presented : b.presented = []
  refusals : b.refusals = []

end Browser

def browser (env : RefreshEnv) : Machine Browser Browser.Event where
  init := Browser.Opens env
  step := Browser.step env

end Rch
