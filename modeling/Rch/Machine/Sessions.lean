import Rch.Domain.Ids
import Rch.Domain.Master
import Rch.Kit.Table
import Rch.Kit.Transactions

/-!
# Sign-ins, refreshes and revocations

A session is a family of refresh tokens, each used once to mint the next. A
refresh reads its token in one statement, claims it in a second that tests only
whether it was used, and stores the successor in a third. A revocation is an
update of whatever rows match: it picks the rows it sees when it starts, and
stamps those of them that still match once it has their locks. A row stored in
between is not among them.

`ended` is not part of the system. It notes what the committed revocations were
for: the family of each that named one, and every family its account had at the
commit of each that named an account.
-/

namespace Rch

open Kit

structure TokenRow where
  userId : String
  family : String
  tokenHash : String
  expiresAt : Instant
  usedAt : Option Instant
  revokedAt : Option Instant
  /-- Where the session stands; none is the account's home. -/
  loc : Option LocKey
  createdAt : Instant
deriving DecidableEq

structure AccountRow where
  loc : LocKey
  active : Bool
deriving DecidableEq

structure SignIns where
  /-- `refresh_tokens`, by id. -/
  tokens : Table String TokenRow
  users : Table String AccountRow
  ended : List String

inductive SessionKey
  | token (id : String)
  | user (id : String)
  /-- A random id somebody has drawn. -/
  | drawn (uuid : String)
deriving DecidableEq

/-- The clock, and the fresh ids and secret a statement may draw. -/
structure SessionChoice where
  at_ : Instant
  id : String
  family : String
  hash : String

/-- The rows a revocation is for. -/
inductive Scope
  | family (family : String)
  | account (userId : String)
deriving DecidableEq

def Scope.covers (userId family : String) : Scope → Bool
  | .family f => decide (f = family)
  | .account u => decide (u = userId)

inductive LoginAt
  | begun
  | verified (u : AccountRow)
  | issued (family : String)

inductive RefreshAt
  | begun
  | read (id : String) (t : TokenRow)
  | known (id : String) (t : TokenRow) (u : AccountRow)
  | claimed (t : TokenRow) (u : AccountRow)
  /-- Past the family's absolute life: refused, and the token stays used. -/
  | capped
  | started (t : TokenRow) (u : AccountRow) (startedAt : Instant)
  | issued (t : TokenRow)
  /-- Somebody had used the token already. -/
  | reused (t : TokenRow)
  | picked (t : TokenRow) (ids : List String)
  | revoked (t : TokenRow)

inductive LogoutAt
  | begun
  | found (t : TokenRow)
  | picked (t : TokenRow) (ids : List String)
  | revoked (t : TokenRow)

inductive EndAt
  | begun
  | written
  | picked (ids : List String)
  | revoked
  /-- A changed password signs its account in again. -/
  | renewed (family : String)

/-- What ends every session of an account. -/
inductive Ending
  | resetPassword | changePassword | deactivate | postings
  | move (loc : LocKey)
deriving DecidableEq

inductive SessionTx
  | login (userId : String) (loc : Option LocKey) (p : LoginAt)
  | refresh (hash : String) (p : RefreshAt)
  | logout (hash : String) (p : LogoutAt)
  | endAll (userId : String) (why : Ending) (p : EndAt)
  /-- Any other write to the accounts. -/
  | elsewhere (users : Table String AccountRow) (written : Bool)

abbrev SessionStmt := Stmt SignIns SessionKey SessionTx

/-! ## The writes -/

def insertRefresh (id : String) (t : TokenRow) (s : SignIns) : SignIns :=
  { s with tokens := (s.tokens.insert? id t).getD s.tokens }

def stampUsed (id : String) (at_ : Instant) (s : SignIns) : SignIns :=
  { s with tokens := s.tokens.modify id fun t => { t with usedAt := some at_ } }

/-- Stamp those of the rows picked that are not revoked yet. -/
def stampRevoked (ids : List String) (at_ : Instant) (s : SignIns) : SignIns :=
  { s with tokens := s.tokens.update fun id t =>
    if id ∈ ids ∧ t.revokedAt = none then { t with revokedAt := some at_ }
    else t }

def familiesIn (scope : Scope) (s : SignIns) : List String :=
  (s.tokens.rows.filter fun t => scope.covers t.2.userId t.2.family).map
    fun t => t.2.family

def noteEnded (scope : Scope) (s : SignIns) : SignIns :=
  { s with ended := familiesIn scope s ++ s.ended }

def revokeRows (scope : Scope) (ids : List String) (at_ : Instant)
    (s : SignIns) : SignIns := noteEnded scope (stampRevoked ids at_ s)

/-- What the ending writes to the account: new postings are no part of it. -/
def Ending.account (u : AccountRow) : Ending → AccountRow
  | .resetPassword | .changePassword | .postings => u
  | .deactivate => { u with active := false }
  | .move loc => { u with loc := loc }

def writeAccount (userId : String) (why : Ending) (s : SignIns) : SignIns :=
  { s with users := s.users.modify userId fun u => why.account u }

def writeUsers (users : Table String AccountRow) (s : SignIns) : SignIns :=
  { s with users := users }

/-! ## The reads -/

def refreshByHash (s : SignIns) (hash : String) : Option (String × TokenRow) :=
  s.tokens.rows.find? fun t => decide (t.2.tokenHash = hash)

def liveIn (scope : Scope) (s : SignIns) : List String :=
  (s.tokens.rows.filter fun t => scope.covers t.2.userId t.2.family &&
    decide (t.2.revokedAt = none)).map Prod.fst

def familyStartedAt (s : SignIns) (family : String) : Option Instant :=
  ((s.tokens.rows.filter fun t => decide (t.2.family = family)).map fun t =>
    t.2.createdAt).min?

/-! ## The statements -/

section Statements

variable (ttl : Instant) (c : SessionChoice)

/-- The row a session is minted as: its idle clock from now, within the
family's thirty days. -/
def tokenRow (userId family : String) (startedAt : Instant) (loc : LocKey) :
    TokenRow where
  userId := userId
  family := family
  tokenHash := c.hash
  expiresAt := min (c.at_ + ttl) (startedAt + ttl)
  usedAt := none
  revokedAt := none
  loc := some loc
  createdAt := c.at_

/-- The row of a new session, under a family nobody has drawn. -/
def issueFamily (s : SignIns) (userId : String) (loc : LocKey)
    (next : SessionTx) : Option SessionStmt :=
  if c.family ∉ s.ended ∧ s.tokens.rows.all (fun t =>
      decide (t.2.family ≠ c.family)) = true then
    (s.tokens.insert? c.id (tokenRow ttl c userId c.family c.at_ loc)).map
      fun _ => ⟨[⟨.drawn c.family, .update⟩, ⟨.token c.id, .update⟩],
        insertRefresh c.id (tokenRow ttl c userId c.family c.at_ loc), next⟩
  else none

/-- The second half of a revocation, once the rows are picked. -/
def revokeStmt (scope : Scope) (ids : List String) (next : SessionTx) :
    SessionStmt :=
  ⟨ids.map fun id => ⟨.token id, .noKeyUpdate⟩, revokeRows scope ids c.at_,
    next⟩

def loginStmt (userId : String) (loc : Option LocKey) (s : SignIns) :
    LoginAt → Option SessionStmt
  | .begun =>
    ((s.users.get? userId).filter AccountRow.active).map fun u =>
      .read (.login userId loc (.verified u))
  | .verified u =>
    issueFamily ttl c s userId (loc.getD u.loc)
      (.login userId loc (.issued c.family))
  | .issued _ => none

def refreshStmt (hash : String) (s : SignIns) :
    RefreshAt → Option SessionStmt
  | .begun =>
    (refreshByHash s hash).bind fun t =>
      if t.2.revokedAt = none ∧ c.at_ ≤ t.2.expiresAt then
        some (.read (.refresh hash (.read t.1 t.2)))
      else none
  | .read id t =>
    ((s.users.get? t.userId).filter AccountRow.active).map fun u =>
      .read (.refresh hash (.known id t u))
  | .known id t u =>
    (s.tokens.get? id).map fun row =>
      if row.usedAt = none then
        ⟨[⟨.token id, .noKeyUpdate⟩], stampUsed id c.at_,
          .refresh hash (.claimed t u)⟩
      else .read (.refresh hash (.reused t))
  | .claimed t u =>
    let startedAt := familyStartedAt s t.family
    if startedAt.any (fun startedAt => decide (startedAt + ttl ≤ c.at_)) then
      some (.read (.refresh hash .capped))
    else some (.read (.refresh hash (.started t u (startedAt.getD c.at_))))
  | .started t u startedAt =>
    let row := tokenRow ttl c t.userId t.family startedAt (t.loc.getD u.loc)
    (s.tokens.insert? c.id row).map fun _ =>
      ⟨[⟨.token c.id, .update⟩], insertRefresh c.id row,
        .refresh hash (.issued t)⟩
  | .reused t =>
    some (.read (.refresh hash (.picked t (liveIn (.family t.family) s))))
  | .picked t ids =>
    some (revokeStmt c (.family t.family) ids (.refresh hash (.revoked t)))
  | .capped | .issued _ | .revoked _ => none

def logoutStmt (hash : String) (s : SignIns) : LogoutAt → Option SessionStmt
  | .begun =>
    (refreshByHash s hash).map fun t => .read (.logout hash (.found t.2))
  | .found t =>
    some (.read (.logout hash (.picked t (liveIn (.family t.family) s))))
  | .picked t ids =>
    some (revokeStmt c (.family t.family) ids (.logout hash (.revoked t)))
  | .revoked _ => none

def endStmt (userId : String) (why : Ending) (s : SignIns) :
    EndAt → Option SessionStmt
  | .begun =>
    (s.users.get? userId).map fun _ =>
      ⟨if why = .postings then [] else [⟨.user userId, .noKeyUpdate⟩],
        writeAccount userId why, .endAll userId why .written⟩
  | .written =>
    some (.read (.endAll userId why (.picked (liveIn (.account userId) s))))
  | .picked ids =>
    some (revokeStmt c (.account userId) ids (.endAll userId why .revoked))
  | .revoked =>
    if why = .changePassword then
      (s.users.get? userId).bind fun u =>
        issueFamily ttl c s userId u.loc
          (.endAll userId why (.renewed c.family))
    else none
  | .renewed _ => none

def SessionTx.stmt (t : SessionTx) (s : SignIns) : Option SessionStmt :=
  match t with
  | .login userId loc p => loginStmt ttl c userId loc s p
  | .refresh hash p => refreshStmt ttl c hash s p
  | .logout hash p => logoutStmt c hash s p
  | .endAll userId why p => endStmt ttl c userId why s p
  | .elsewhere users written =>
    if written then none else some ⟨[], writeUsers users, .elsewhere users true⟩

end Statements

def SessionTx.starts : SessionTx → Bool
  | .login _ _ .begun | .refresh _ .begun | .logout _ .begun
  | .endAll _ _ .begun | .elsewhere _ false => true
  | _ => false

def SessionTx.done : SessionTx → Bool
  | .login _ _ (.issued _) | .refresh _ .capped | .refresh _ (.issued _)
  | .refresh _ (.revoked _) | .logout _ (.revoked _)
  | .endAll _ _ (.renewed _) | .elsewhere _ true => true
  | .endAll _ why .revoked => decide (why ≠ .changePassword)
  | _ => false

/-- The sign-ins, with any number of these transactions open at once. -/
def signIns (ttl : Instant) :
    Database SignIns SessionKey SessionChoice SessionTx where
  init s := s.tokens = .empty ∧ s.ended = []
  starts := SessionTx.starts
  stmt := SessionTx.stmt ttl
  done := SessionTx.done

def SessionTx.rotation : SessionTx → Bool
  | .login _ _ _ | .refresh _ _ => true
  | _ => false

/-- Sign-ins and refreshes, and no other writer. -/
def rotations (ttl : Instant) :
    Database SignIns SessionKey SessionChoice SessionTx :=
  { signIns ttl with starts := fun t => t.starts && t.rotation }

end Rch
