import Mathlib.Data.List.Dedup
import Mathlib.Data.List.Sort
import Rch.Api.Refusal
import Rch.Domain.Doors
import Rch.Domain.Ids
import Rch.Domain.Locations
import Rch.Domain.NextNumbers
import Rch.Kit.Machine
import Rch.Kit.Table

/-!
# Accounts, roles and outlets

The super admin's registers. A role is a name, a desk and what it may open. An
account holds one, is based at a location where its desk works, and is posted
wherever it may stand. An outlet is opened and closed, never deleted. Signing
in opens a session that stands at one posting, and what takes a posting or the
account away ends the account's sessions.

Each function is one transaction, from the rows it finds to the rows it leaves.
Signing in and changing a password are two: the account is read and its password
checked first, and the transaction that opens the session trusts what was read.

The state also keeps, for the statements, the ids handed out, the accounts that
stopped being a super admin and were not placed since, whether a checked
account's sessions were ended before its transaction, and the families opened
for one whose were.
-/

namespace Rch.Staffing

open Kit

structure RoleRow where
  name : String
  desk : Role
  perms : Permissions
  active : Bool
  /-- Somebody was given it once. -/
  everAssigned : Bool

structure StaffRow where
  name : String
  email : String
  phone : String
  /-- The desk of the role. -/
  role : Role
  roleId : Option String
  roleLabel : String
  loc : LocKey
  empNo : String
  mustChangePassword : Bool
  active : Bool
  admin : Bool
  /-- An account the server acts as. -/
  system : Bool
deriving DecidableEq

structure PlaceRow where
  name : String
  code : String
  floor : String
  costCentre : String
  type : LocType
  active : Bool
deriving DecidableEq

/-- A refresh token. -/
structure SessionRow where
  userId : String
  family : String
  loc : LocKey
  used : Bool
  revoked : Bool
deriving DecidableEq

/-- What an account's password is checked for. -/
inductive Entry
  | login (loc : Option LocKey)
  | changePassword
deriving DecidableEq

/-- A checked password: whose it is and where they are based, as read then. -/
structure Attempt where
  userId : String
  home : LocKey
  entry : Entry
  ended : Bool
deriving DecidableEq

structure Staff where
  roles : Table String RoleRow
  users : Table String StaffRow
  /-- `user_postings`: where an account may stand. -/
  postings : List (String × LocKey)
  locations : Table LocKey PlaceRow
  sessions : Table String SessionRow
  attempts : List Attempt
  userSeq : ℕ
  roleSeq : ℕ
  given : List String
  restored : List String
  overtaken : List String

/-! ## The writes -/

def Staff.editUser (s : Staff) (id : String) (f : StaffRow → StaffRow) : Staff :=
  { s with users := s.users.modify id f }

def Staff.editRole (s : Staff) (id : String) (f : RoleRow → RoleRow) : Staff :=
  { s with roles := s.roles.modify id f }

def Staff.editPlace (s : Staff) (key : LocKey) (f : PlaceRow → PlaceRow) : Staff :=
  { s with locations := s.locations.modify key f }

def Staff.markAssigned (s : Staff) (id : String) : Staff :=
  s.editRole id fun r => { r with everAssigned := true }

def SessionRow.revokeFor (userId : String) (t : SessionRow) : SessionRow :=
  if t.userId = userId then { t with revoked := true } else t

def Attempt.endFor (userId : String) (a : Attempt) : Attempt :=
  if a.userId = userId then { a with ended := true } else a

def Staff.revokeAll (s : Staff) (userId : String) : Staff :=
  { s with
    sessions := s.sessions.update fun _ t => t.revokeFor userId
    attempts := s.attempts.map (Attempt.endFor userId) }

def Staff.postAt (s : Staff) (userId : String) (locs : List LocKey) : Staff :=
  { s with
    postings := s.postings ++
      (locs.map fun l => (userId, l)).filter fun p => decide (p ∉ s.postings) }

def Staff.unpost (s : Staff) (userId : String) : Staff :=
  { s with postings := s.postings.filter fun p => decide (p.1 ≠ userId) }

/-- The account is where it was last checked to work. -/
def Staff.placed (s : Staff) (userId : String) : Staff :=
  { s with restored := s.restored.filter fun id => decide (id ≠ userId) }

/-! ## The rules an account write keeps to -/

def MIN_PASSWORD_LENGTH : ℕ := 10

def checkPassword (password : String) : Outcome Unit :=
  assertValid (MIN_PASSWORD_LENGTH ≤ password.toList.length)
    ("password must be at least " ++ toString MIN_PASSWORD_LENGTH ++ " characters")

def atOutlet (role : Role) : Bool :=
  decide (role ≠ .prod) && decide (role ≠ .store) && decide (role ≠ .buyer)

def worksAt (role : Role) (key : LocKey) (location : PlaceRow) : Bool :=
  if atOutlet role then decide (location.type = .Outlet) && location.active
  else decide (key = if role = .prod then KITCHEN else STORE)

/-- Where each desk works, as the refusal says it. -/
def PLACE : Role → String
  | .prod => "the Central Kitchen"
  | .store | .buyer => "the Central Store"
  | .counter | .manager => "an open outlet"

def roleWord : Role → String
  | .counter => "counter"
  | .manager => "manager"
  | .store => "store"
  | .prod => "prod"
  | .buyer => "buyer"

def checkPairing (s : Staff) (desk : Role) (name : String) (loc : LocKey) :
    Outcome Unit := do
  let row ← someOr (s.locations.get? loc)
    ⟨.validation, "unknown location \"" ++ loc ++ "\""⟩
  assertValid (worksAt desk loc row = true)
    (if atOutlet desk ∧ row.type = .Outlet ∧ row.active = false then
      name ++ " works at " ++ PLACE desk ++ " - " ++ row.name ++ " is closed"
    else name ++ " works at " ++ PLACE desk ++ ", not at " ++ row.name)

/-- A role by its id, or the lowest-numbered active one on a desk. -/
inductive RolePick
  | id (roleId : String)
  | desk (role : Role)

def firstById : List (String × RoleRow) → Option (String × RoleRow)
  | [] => none
  | r :: l =>
    match firstById l with
    | none => some r
    | some b => if r.1 < b.1 then some r else some b

def pickRole (s : Staff) : RolePick → Outcome (String × RoleRow)
  | .id roleId =>
    someOr ((s.roles.get? roleId).map fun r => (roleId, r))
      ⟨.validation, "unknown role \"" ++ roleId ++ "\""⟩
  | .desk role =>
    someOr (firstById (s.roles.rows.filter fun r =>
        decide (r.2.desk = role) && r.2.active))
      ⟨.validation, "no active role works at the " ++ roleWord role ++ " desk"⟩

def takeRole (s : Staff) (pick : RolePick) : Outcome (String × RoleRow) := do
  let r ← pickRole s pick
  assertRule (r.2.active = true)
    ("Refused - " ++ r.2.name ++ " is deactivated, so it can't be given to anybody")
  pure r

/-- An account by its employee number. A system account reads as unknown. -/
def byEmp (s : Staff) (emp : String) : Outcome (String × StaffRow) :=
  someOr (s.users.rows.find? fun u => decide (u.2.empNo = emp) && !u.2.system)
    ⟨.validation, "no user with employee number " ++ emp⟩

def userNumber (id : String) : Option ℕ :=
  match id.toList with
  | 'u' :: ds =>
    if ds ≠ [] ∧ ds.all Char.isDigit = true then some (Nat.ofDigitChars 10 ds 0)
    else none
  | _ => none

/-- The next user id: past the counter, and past every id on file. -/
def allocateUserNumber (s : Staff) : ℕ :=
  max s.userSeq ((s.users.keys.filterMap userNumber).foldr max 0 + 1)

structure NewUser where
  pick : RolePick
  emp : Option String
  name : String
  email : String
  phone : String
  loc : LocKey
  password : String

def NewUser.row (i : NewUser) (emp roleId : String) (role : RoleRow) : StaffRow where
  name := i.name
  email := i.email
  phone := i.phone
  role := role.desk
  roleId := some roleId
  roleLabel := role.name
  loc := i.loc
  empNo := emp
  mustChangePassword := true
  active := true
  admin := false
  system := false

/-- The employee number it is given: the next one where none was asked for. -/
def NewUser.empNo (i : NewUser) (s : Staff) : String :=
  i.emp.getD (nextEmpNo (s.users.rows.map fun u => u.2.empNo))

def createUserTx (s : Staff) (i : NewUser) : Outcome Staff := do
  checkPassword i.password
  let role ← takeRole s i.pick
  checkPairing s role.2.desk role.2.name i.loc
  let n := allocateUserNumber s
  let emp := i.empNo s
  guardOr (∀ u ∈ s.users.rows, u.2.empNo ≠ emp)
    ⟨.conflict, "employee " ++ emp ++ " already exists"⟩
  let id := "u" ++ toString n
  let users ← orInternal (s.users.insert? id (i.row emp role.1 role.2)) "users_pkey"
  pure ((({ s with users, userSeq := n + 1, given := id :: s.given } : Staff
    ).markAssigned role.1).postAt id [i.loc])

def resetPasswordTx (s : Staff) (emp temporary : String) : Outcome Staff := do
  checkPassword temporary
  let u ← byEmp s emp
  pure ((s.editUser u.1 fun u => { u with mustChangePassword := true }).revokeAll u.1)

def deactivateUserTx (s : Staff) (emp : String) : Outcome Staff := do
  let u ← byEmp s emp
  pure ((s.editUser u.1 fun u => { u with active := false }).revokeAll u.1)

/-- An account comes back only somewhere it can work, onto a role that is
active. A super admin has neither. -/
def checkReturn (s : Staff) (u : StaffRow) : Outcome Unit :=
  if u.admin then pure ()
  else do
    let role := u.roleId.bind s.roles.get?
    assertRule (role.all RoleRow.active = true)
      ("Refused - " ++ u.name ++ "'s role, " ++ (role.map RoleRow.name).getD ""
        ++ ", is deactivated. Give them an active role first")
    checkPairing s u.role ((role.map RoleRow.name).getD u.roleLabel) u.loc

def reactivateUserTx (s : Staff) (emp : String) : Outcome Staff := do
  let u ← byEmp s emp
  checkReturn s u.2
  let back := s.editUser u.1 fun u => { u with active := true }
  pure (if u.2.admin then back else back.placed u.1)

/-- What an account leaves behind goes with it, unless the database's own
references keep it. -/
def deleteUserTx (s : Staff) (id : String) (u : StaffRow) (history : Bool) :
    Outcome Staff := do
  assertRule (history = false)
    ("Refused - " ++ u.name ++ " (" ++ u.empNo ++ ") has records in the hospital's "
      ++ "history, so the account can only be deactivated, never deleted")
  pure (({ s with
    sessions := s.sessions.filter fun _ t => decide (t.userId ≠ id)
    users := s.users.restrict fun k => decide (k ≠ id) } : Staff).unpost id)

/-- A move within the desk and the home changes only what the account may do.
Any other puts its postings back to the home row and ends its sessions. -/
def updateUserRoleLocTx (s : Staff) (emp : String) (pick : RolePick) (loc : LocKey) :
    Outcome Staff := do
  let role ← takeRole s pick
  checkPairing s role.2.desk role.2.name loc
  let u ← byEmp s emp
  let moved := ((s.editUser u.1 fun u => { u with
    role := role.2.desk, roleId := some role.1, roleLabel := role.2.name,
    loc }).markAssigned role.1).placed u.1
  pure (if role.2.desk = u.2.role ∧ loc = u.2.loc then moved
    else ((moved.unpost u.1).postAt u.1 [loc]).revokeAll u.1)

def setUserPostingsTx (s : Staff) (emp : String) (locs : List LocKey) :
    Outcome Staff := do
  let u ← byEmp s emp
  let wanted := locs.dedup.insertionSort (· ≤ ·)
  assertValid (wanted ≠ []) (u.2.empNo ++ " needs at least one posting")
  assertValid (u.2.loc ∈ wanted)
    ("the postings must include " ++ u.2.empNo ++ "'s own location \"" ++ u.2.loc
      ++ "\"")
  checkEach wanted (checkPairing s u.2.role u.2.roleLabel)
  pure (((s.unpost u.1).postAt u.1 wanted).revokeAll u.1)

/-- The one door in or out of admin status. Out of it, the account is given back
a role on the desk it still names. -/
def setAdmin (s : Staff) (emp : String) (on : Bool) : Outcome Staff := do
  let u ← byEmp s emp
  if on then
    pure (s.editUser u.1 fun u => { u with admin := true, roleId := none })
  else if u.2.roleId.isSome then
    pure (s.editUser u.1 fun u => { u with admin := false })
  else do
    let role ← takeRole s (.desk u.2.role)
    pure ((({ s with restored := u.1 :: s.restored } : Staff).editUser u.1 fun u =>
      { u with admin := false, roleId := some role.1, roleLabel := role.2.name }
      ).markAssigned role.1)

/-- The account QR captures are billed by, made the first time it is needed. The
insert does nothing where its number is taken. -/
def systemOperator (s : Staff) : Outcome Staff :=
  if (s.users.get? "sys-qr").isSome ∨ ∃ u ∈ s.users.rows, u.2.empNo = "SYS-QR" then
    pure s
  else do
    let users ← orInternal (s.users.insert? "sys-qr"
      { name := "QR Orders", email := "qr-orders@system.invalid", phone := "",
        role := .counter, roleId := none, roleLabel := "System", loc := STORE,
        empNo := "SYS-QR", mustChangePassword := false, active := true,
        admin := false, system := true }) "users_pkey"
    pure { s with users }

/-! ## The super admin's account writes -/

def requireTx (s : Staff) (id : String) : Outcome StaffRow :=
  orNotFound ((s.users.get? id).filter fun u => !u.system)
    ("There is no account " ++ id ++ ".")

def refuseSelf (sub id what : String) : Outcome Unit :=
  assertRule (sub ≠ id) ("You cannot " ++ what ++ " your own account from here.")

def adminReset (s : Staff) (id temporary : String) : Outcome Staff := do
  let row ← requireTx s id
  resetPasswordTx s row.empNo temporary

def adminDeactivate (s : Staff) (sub id : String) : Outcome Staff := do
  refuseSelf sub id "deactivate"
  let row ← requireTx s id
  deactivateUserTx s row.empNo

def adminReactivate (s : Staff) (id : String) : Outcome Staff := do
  let row ← requireTx s id
  reactivateUserTx s row.empNo

def updateRoleLoc (s : Staff) (sub id roleId : String) (loc : LocKey) :
    Outcome Staff := do
  refuseSelf sub id "change the role or location of"
  let row ← requireTx s id
  assertRule (row.admin = false)
    ("Refused - " ++ row.name ++ " (" ++ row.empNo ++ ") is a super admin, and a "
      ++ "super admin has no role or location to change")
  updateUserRoleLocTx s row.empNo (.id roleId) loc

def setPostings (s : Staff) (sub id : String) (locs : List LocKey) :
    Outcome Staff := do
  refuseSelf sub id "change the postings of"
  let row ← requireTx s id
  assertRule (row.admin = false)
    ("Refused - " ++ row.name ++ " (" ++ row.empNo ++ ") is a super admin, and a "
      ++ "super admin has no postings to change")
  setUserPostingsTx s row.empNo locs

/-- Permanent: a deactivated account that is nobody's own and no super admin's,
and left no history. -/
def removeUser (s : Staff) (sub id : String) (history : Bool) : Outcome Staff := do
  refuseSelf sub id "delete"
  let row ← requireTx s id
  assertRule (row.admin = false)
    ("Refused - " ++ row.name ++ " (" ++ row.empNo ++ ") is a super admin, and a "
      ++ "super admin account is never deleted")
  assertRule (row.active = false)
    ("Deactivate " ++ row.name ++ " (" ++ row.empNo ++ ") before deleting the account")
  deleteUserTx s id row history

/-! ## Roles -/

/-- The active accounts on a role, by employee number. -/
def roleHolders (s : Staff) (id : String) : List StaffRow :=
  ((s.users.rows.map Prod.snd).filter fun u =>
    decide (u.roleId = some id) && u.active && !u.admin).insertionSort
      fun u v => u.empNo ≤ v.empNo

def NAMED : ℕ := 5

def nameAll (people : List StaffRow) : String :=
  let named := (people.take NAMED).map fun p => p.name ++ " (" ++ p.empNo ++ ")"
  if NAMED < people.length then
    String.intercalate ", " named ++ " and " ++ toString (people.length - NAMED)
      ++ " more"
  else if 1 < named.length then
    String.intercalate ", " named.dropLast ++ " and " ++ named.getLast?.getD ""
  else String.join named

/-- Another role's name, whatever its case: the check before and the index
behind it refuse in the same words. -/
def refuseTaken (s : Staff) (name : String) (self : Option String) :
    Outcome Unit :=
  guardOr (∀ r ∈ s.roles.rows, r.2.name.toLower = name.toLower → some r.1 = self)
    ⟨.conflict, "Refused - a role named " ++ name ++ " already exists"⟩

def refuseGrant (desk : Role) (perms : Permissions) : Outcome Unit :=
  match grantRefusal desk perms with
  | none => pure ()
  | some refusal => throw ⟨.rule, refusal⟩

/-- The same permissions, in whatever order they are listed. -/
def samePerms (p q : Permissions) : Bool :=
  features.all (fun f => decide (p.f f = q.f f)) && p.a.isPerm q.a

structure RoleBody where
  name : String
  desk : Role
  perms : Permissions

def createRole (s : Staff) (body : RoleBody) (at_ : Instant) : Outcome Staff := do
  refuseTaken s body.name none
  refuseGrant body.desk body.perms
  let roles ← orInternal (s.roles.insert? (formatId .role s.roleSeq at_)
    ⟨body.name, body.desk, body.perms, true, false⟩) "roles_pkey"
  pure { s with roles, roleSeq := s.roleSeq + 1 }

structure RolePatch where
  name : Option String
  desk : Option Role
  perms : Option Permissions

/-- Once anybody was given the role its desk stays. A rename reaches every
account on it. -/
def updateRole (s : Staff) (id : String) (body : RolePatch) : Outcome Staff := do
  let row ← orNotFound (s.roles.get? id) ("There is no role " ++ id ++ ".")
  let name := body.name.getD row.name
  let desk := body.desk.getD row.desk
  let perms := body.perms.getD row.perms
  assertRule (name ≠ row.name ∨ desk ≠ row.desk ∨ samePerms perms row.perms = false)
    ("Nothing to save - " ++ row.name ++ " already reads that way")
  assertRule (desk = row.desk ∨ row.everAssigned = false)
    ("Refused - " ++ row.name ++ " has been given to staff, so its desk can no "
      ++ "longer change. Create a new role for the other desk instead.")
  if name = row.name then pure () else refuseTaken s name (some id)
  refuseGrant desk perms
  let edited := s.editRole id fun r => { r with name, desk, perms }
  pure (if name = row.name then edited
    else { edited with users := edited.users.update fun _ u =>
      if u.roleId = some id then { u with roleLabel := name } else u })

def deactivateRole (s : Staff) (id : String) : Outcome Staff := do
  let row ← orNotFound (s.roles.get? id) ("There is no role " ++ id ++ ".")
  assertRule (row.active = true) (row.name ++ " is already deactivated")
  let holders := roleHolders s id
  assertRule (holders = [])
    ("Refused - " ++ row.name ++ " is still held by " ++ nameAll holders ++ ". Move "
      ++ (if holders.length = 1 then "them" else "each of them")
      ++ " to another role first.")
  pure (s.editRole id fun r => { r with active := false })

def reactivateRole (s : Staff) (id : String) : Outcome Staff := do
  let row ← orNotFound (s.roles.get? id) ("There is no role " ++ id ++ ".")
  assertRule (row.active = false) (row.name ++ " is already active")
  pure (s.editRole id fun r => { r with active := true })

/-- Only a role nobody was ever given. -/
def removeRole (s : Staff) (id : String) : Outcome Staff := do
  let row ← orNotFound (s.roles.get? id) ("There is no role " ++ id ++ ".")
  assertRule (row.everAssigned = false)
    ("Refused - " ++ row.name ++ " has been given to staff, so it can only be "
      ++ "deactivated, never deleted")
  pure { s with roles := s.roles.restrict fun k => decide (k ≠ id) }

/-! ## Outlets -/

def requireOutletTx (s : Staff) (key : LocKey) : Outcome PlaceRow :=
  orNotFound ((s.locations.get? key).filter fun r => decide (r.type = .Outlet))
    ("There is no outlet " ++ key ++ ".")

/-- The two unique indexes, in the words the admin reads. -/
def refuseClash (s : Staff) (self : Option LocKey) (name code : String) :
    Outcome Unit := do
  guardOr (∀ r ∈ s.locations.rows, r.2.name.toLower = name.toLower → some r.1 = self)
    ⟨.conflict, "Refused - a location named " ++ name ++ " already exists"⟩
  guardOr (∀ r ∈ s.locations.rows, r.2.code.toUpper = code.toUpper → some r.1 = self)
    ⟨.conflict, "Refused - code " ++ code ++ " is already in use"⟩

structure OutletBody where
  name : String
  code : String
  floor : String
  cc : String

def openOutlet (s : Staff) (body : OutletBody) : Outcome Staff := do
  let key ← orInternal
    (outletKeyFor (s.locations.keys.length + 1) body.name s.locations.keys)
    "outletKeyFor"
  refuseClash s none body.name body.code
  let locations ← orInternal (s.locations.insert? key
    ⟨body.name, body.code, body.floor, body.cc, .Outlet, true⟩) "locations_pkey"
  pure { s with locations }

structure OutletPatch where
  name : Option String
  code : Option String
  floor : Option String
  cc : Option String

def updateOutlet (s : Staff) (key : LocKey) (body : OutletPatch) : Outcome Staff := do
  let row ← requireOutletTx s key
  let next : PlaceRow := { row with
    name := body.name.getD row.name
    code := body.code.getD row.code
    floor := body.floor.getD row.floor
    costCentre := body.cc.getD row.costCentre }
  assertRule (next ≠ row) ("Nothing to save - " ++ row.name ++ " already reads that way")
  refuseClash s (some key) next.name next.code
  pure (s.editPlace key fun r => { r with
    name := next.name, code := next.code, floor := next.floor,
    costCentre := next.costCentre })

/-- What still depends on an outlet, counted outside these registers. -/
structure OutletBlockers where
  stock : ℕ
  tickets : ℕ
  requests : ℕ
  kitchenOrders : ℕ
  shopAsks : ℕ
  productRequests : ℕ
  qrOrders : ℕ
  openRegister : Bool

/-- The employee numbers of the active accounts based there. -/
def staffAt (s : Staff) (key : LocKey) : List String :=
  (((s.users.rows.map Prod.snd).filter fun u =>
    decide (u.loc = key) && u.active && !u.admin).map StaffRow.empNo).insertionSort
      (· ≤ ·)

def counted (n : ℕ) (one : String) : String :=
  toString n ++ " " ++ one ++ if n = 1 then "" else "s"

/-- Every blocker in one sentence; none when the outlet may close. -/
def closeRefusal (name : String) (b : OutletBlockers) (staff : List String) :
    Option String :=
  let parts : List String :=
    (if 0 < b.stock then ["stock on hand (" ++ counted b.stock "item" ++ ")"] else []) ++
    (if 0 < b.tickets then [counted b.tickets "open ticket"] else []) ++
    (if 0 < b.requests then [counted b.requests "open stock request"] else []) ++
    (if 0 < b.kitchenOrders then [counted b.kitchenOrders "open kitchen order"]
      else []) ++
    (if 0 < b.shopAsks then [counted b.shopAsks "open shop ask"] else []) ++
    (if 0 < b.productRequests then [counted b.productRequests "open product request"]
      else []) ++
    (if 0 < b.qrOrders then [counted b.qrOrders "open QR order"] else []) ++
    (if staff ≠ [] then [toString staff.length ++ " active staff ("
      ++ String.intercalate ", " staff ++ ")"] else []) ++
    (if b.openRegister then ["an open register (take its Z-report first)"] else [])
  match parts with
  | [] => none
  | [part] => some ("Refused - " ++ name ++ " still has " ++ part)
  | _ => some ("Refused - " ++ name ++ " still has "
      ++ String.intercalate ", " parts.dropLast ++ " and " ++ parts.getLast?.getD "")

/-- Closed, never deleted. -/
def closeOutlet (s : Staff) (key : LocKey) (b : OutletBlockers) : Outcome Staff := do
  let row ← requireOutletTx s key
  assertRule (row.active = true) (row.name ++ " is already closed")
  match closeRefusal row.name b (staffAt s key) with
  | some refusal => throw ⟨.rule, refusal⟩
  | none => pure (s.editPlace key fun r => { r with active := false })

def reopenOutlet (s : Staff) (key : LocKey) : Outcome Staff := do
  let row ← requireOutletTx s key
  assertRule (row.active = false) (row.name ++ " is already open")
  pure (s.editPlace key fun r => { r with active := true })

/-! ## Sessions -/

/-- The id and the family of a token nobody has drawn. -/
structure TokenIds where
  id : String
  family : String

/-- The token's reference holds it to an account on file. -/
def issue (s : Staff) (userId : String) (d : TokenIds) (loc : LocKey) : Outcome Staff := do
  let _ ← orInternal (s.users.get? userId) "refresh_tokens_user_id_users_id_fk"
  let sessions ← orInternal
    (s.sessions.insert? d.id ⟨userId, d.family, loc, false, false⟩)
    "refresh_tokens_pkey"
  pure { s with sessions }

def admitTo (s : Staff) (userId : String) (loc : LocKey) : Outcome Unit := do
  let row ← orNotFound (s.locations.get? loc) ("There is no location " ++ loc ++ ".")
  assertRule ((userId, loc) ∈ s.postings) ("You are not posted to " ++ row.name ++ ".")
  assertRule (row.active = true)
    ("Refused - " ++ row.name ++ " is closed; nothing may be sold there")

def SIGN_IN_REFUSED : Refusal :=
  ⟨.unauthenticated, "That employee id and password do not match."⟩

/-- A sign-in's check. A system account is nobody to sign in as. -/
def login (s : Staff) (emp : String) (verified : Bool) (loc : Option LocKey) :
    Outcome Staff := do
  let u ← someOr (s.users.rows.find? fun u =>
    decide (u.2.empNo = emp) && !u.2.system) SIGN_IN_REFUSED
  guardOr (verified = true ∧ u.2.active = true) SIGN_IN_REFUSED
  pure { s with attempts := s.attempts ++ [⟨u.1, u.2.loc, .login loc, false⟩] }

def revokeFamily (s : Staff) (family : String) : Staff :=
  { s with sessions := s.sessions.update fun _ t =>
    if t.family = family then { t with revoked := true } else t }

def SESSION_ENDED : Refusal :=
  ⟨.unauthenticated, "Your session has ended - sign in again."⟩

/-- A token is used once for the next of its family. One used before ends the
family, and the request is answered with a refusal. -/
def refresh (s : Staff) (token : String) (d : TokenIds) : Outcome Staff := do
  let t ← someOr ((s.sessions.get? token).filter fun t => !t.revoked) SESSION_ENDED
  guardOr ((s.users.get? t.userId).any StaffRow.active = true) SESSION_ENDED
  let spent := { s with
    sessions := s.sessions.modify token fun t => { t with used := true } }
  if t.used = true then pure (revokeFamily s t.family)
  else (issue spent t.userId ⟨d.id, t.family⟩ t.loc)

/-- An unknown cookie signs nobody out. -/
def logout (s : Staff) (token : String) : Staff :=
  match s.sessions.get? token with
  | none => s
  | some t => revokeFamily s t.family

/-- Is the password offered the account's? None is a system account's, whose hash
nothing verifies. -/
def verifyPassword (u : StaffRow) (right : Bool) : Bool := right && !u.system

def PASSWORD_REFUSED : Refusal :=
  ⟨.unauthenticated, "Your current password is not right."⟩

def changePassword (s : Staff) (userId : String) (verified same : Bool) :
    Outcome Staff := do
  let u ← someOr (s.users.get? userId) PASSWORD_REFUSED
  guardOr (verifyPassword u verified = true ∧ u.active = true) PASSWORD_REFUSED
  assertRule (same = false) "Choose a different password from your current one."
  pure { s with attempts := s.attempts ++ [⟨userId, u.loc, .changePassword, false⟩] }

/-- What opens the session: at the counter asked for or at the home that was
read. Behind a new password every other session ends, and the account is read
again. -/
def Attempt.enter (s : Staff) (a : Attempt) (d : TokenIds) : Outcome Staff :=
  match a.entry with
  | .login none => issue s a.userId d a.home
  | .login (some loc) => do
    admitTo s a.userId loc
    issue s a.userId d loc
  | .changePassword => do
    let fresh ← someOr (s.users.get? a.userId)
      ⟨.unauthenticated, "That account no longer exists."⟩
    issue ((s.editUser a.userId fun u => { u with mustChangePassword := false }
      ).revokeAll a.userId) a.userId d fresh.loc

def enter (s : Staff) (i : ℕ) (d : TokenIds) : Outcome Staff := do
  let a ← orInternal s.attempts[i]? "nothing was checked"
  let s' ← a.enter { s with attempts := s.attempts.eraseIdx i } d
  pure { s' with
    overtaken := if a.ended then d.family :: s'.overtaken else s'.overtaken }

/-!
## The staff registers over their operations

Everything the super admin does to accounts, roles and outlets, what the users
CLI does, and the sign-ins, one committed transaction after another.
-/

inductive StaffOp
  | createUser (i : NewUser)
  | resetPassword (emp temporary : String)
  | deactivateUser (emp : String)
  | setAdmin (emp : String) (on : Bool)
  | adminReset (id temporary : String)
  | adminDeactivate (sub id : String)
  | adminReactivate (id : String)
  | updateRoleLoc (sub id roleId : String) (loc : LocKey)
  | setPostings (sub id : String) (locs : List LocKey)
  | removeUser (sub id : String) (history : Bool)
  | systemOperator
  | createRole (body : RoleBody) (at_ : Instant)
  | updateRole (id : String) (body : RolePatch)
  | deactivateRole (id : String)
  | reactivateRole (id : String)
  | removeRole (id : String)
  | openOutlet (body : OutletBody)
  | updateOutlet (key : LocKey) (body : OutletPatch)
  | closeOutlet (key : LocKey) (b : OutletBlockers)
  | reopenOutlet (key : LocKey)
  | login (emp : String) (verified : Bool) (loc : Option LocKey)
  | refresh (token : String) (d : TokenIds)
  | logout (token : String)
  | changePassword (userId : String) (verified same : Bool)
  | enter (i : ℕ) (d : TokenIds)

def runStaff (s : Staff) : StaffOp → Outcome Staff
  | .createUser i => createUserTx s i
  | .resetPassword emp temporary => resetPasswordTx s emp temporary
  | .deactivateUser emp => deactivateUserTx s emp
  | .setAdmin emp on => setAdmin s emp on
  | .adminReset id temporary => adminReset s id temporary
  | .adminDeactivate sub id => adminDeactivate s sub id
  | .adminReactivate id => adminReactivate s id
  | .updateRoleLoc sub id roleId loc => updateRoleLoc s sub id roleId loc
  | .setPostings sub id locs => setPostings s sub id locs
  | .removeUser sub id history => removeUser s sub id history
  | .systemOperator => systemOperator s
  | .createRole body at_ => createRole s body at_
  | .updateRole id body => updateRole s id body
  | .deactivateRole id => deactivateRole s id
  | .reactivateRole id => reactivateRole s id
  | .removeRole id => removeRole s id
  | .openOutlet body => openOutlet s body
  | .updateOutlet key body => updateOutlet s key body
  | .closeOutlet key b => closeOutlet s key b
  | .reopenOutlet key => reopenOutlet s key
  | .login emp verified loc => login s emp verified loc
  | .refresh token d => refresh s token d
  | .logout token => .ok (logout s token)
  | .changePassword userId verified same => changePassword s userId verified same
  | .enter i d => enter s i d

/-- The registers before anybody is on file: the seeded roles, each within what
its desk may be given, and whatever locations there are. -/
structure Unstaffed (s : Staff) : Prop where
  users : s.users = .empty
  postings : s.postings = []
  sessions : s.sessions = .empty
  attempts : s.attempts = []
  given : s.given = []
  restored : s.restored = []
  granted : ∀ id r, s.roles.get? id = some r → grantRefusal r.desk r.perms = none

def staffDesk : Machine Staff StaffOp where
  init := Unstaffed
  step s op := (runStaff s op).toOption

end Rch.Staffing
