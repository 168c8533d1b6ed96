import Rch.Api.Staff

/-!
# The staff registers stay in order

What an account's rows say of each other holds across every operation: the role
it holds is on file at its desk, home is on its postings, an open session stands
at one of them, an active operator is where the desk works. Each is kept by the
operation that could break it, and by no constraint of the schema: the foreign
key from an account to its role, and the check on its kind, never fire.

The one operator somewhere the desk does not work is an account that stopped
being a super admin and was not placed since: an outlet's close does not count
super admins, and the way back asks nothing of where the account is based. The
one open session that is not an active account's where it is posted was opened
for an account whose sessions were ended after its password was checked. Every
write that takes a posting, a home or the account away ends them, so a check
that was not overtaken is still right when the session opens.
-/

namespace Rch.Staffing

open Kit

/-- What holds of one account, by the roles, the postings, the locations and the
accounts restored. -/
structure AccountFits (R : Table String RoleRow) (P : List (String × LocKey))
    (L : Table LocKey PlaceRow) (X : List String) (id : String) (u : StaffRow) :
    Prop where
  holds : ∀ rid, u.roleId = some rid → ∃ r, R.get? rid = some r ∧ r.desk = u.role ∧
    r.name = u.roleLabel ∧ r.everAssigned = true ∧
    (u.active = true → r.active = true)
  admin : u.admin = true → u.roleId = none ∧ u.system = false
  held : u.admin = false → u.system = false → u.roleId.isSome = true
  home : u.system = false → (id, u.loc) ∈ P
  works : u.active = true → u.admin = false → u.system = false → id ∉ X →
    ∃ row, L.get? u.loc = some row ∧ worksAt u.role u.loc row = true

structure Orderly (s : Staff) : Prop where
  accounts : ∀ id u, s.users.get? id = some u →
    AccountFits s.roles s.postings s.locations s.restored id u
  emps : ∀ id id' u u', s.users.get? id = some u → s.users.get? id' = some u' →
    u.empNo = u'.empNo → id = id'
  posted : ∀ p ∈ s.postings, (s.users.get? p.1).isSome = true
  stands : ∀ k t, s.sessions.get? k = some t → t.revoked = false →
    t.family ∉ s.overtaken → (t.userId, t.loc) ∈ s.postings ∧
    ∃ u, s.users.get? t.userId = some u ∧ u.active = true
  checked : ∀ a ∈ s.attempts, a.ended = false → ∃ u, s.users.get? a.userId = some u ∧
    u.active = true ∧ u.system = false ∧ u.loc = a.home
  granted : ∀ rid r, s.roles.get? rid = some r → grantRefusal r.desk r.perms = none
  given : s.given.Nodup ∧ ∀ id ∈ s.given, ∃ n < s.userSeq, id = "u" ++ toString n

/-! ## What the rules let through -/

section Rules

variable {s s' : Staff} {u : Unit}

theorem checkPairing_ok {desk : Role} {name : String} {loc : LocKey} :
    checkPairing s desk name loc = .ok u ↔
      ∃ row, s.locations.get? loc = some row ∧ worksAt desk loc row = true := by
  simp only [checkPairing, bind_ok, someOr_ok, assertValid_ok]

theorem firstById_mem {l : List (String × RoleRow)} {r : String × RoleRow}
    (h : firstById l = some r) : r ∈ l := by
  induction l with
  | nil => cases h
  | cons a l ih =>
      rw [firstById] at h
      split at h
      · cases h
        exact List.mem_cons_self
      · next b hb =>
          split at h
          · cases h
            exact List.mem_cons_self
          · cases h
            exact List.mem_cons_of_mem a (ih hb)

theorem pickRole_ok {pick : RolePick} {r : String × RoleRow}
    (h : pickRole s pick = .ok r) :
    s.roles.get? r.1 = some r.2 ∧ ∀ d, pick = .desk d → r.2.desk = d := by
  cases pick with
  | id roleId =>
      obtain ⟨row, hrow, rfl⟩ := Option.map_eq_some_iff.1 (someOr_ok.1 h)
      exact ⟨hrow, fun d hd => by cases hd⟩
  | desk role =>
      have hmem := firstById_mem (someOr_ok.1 h)
      obtain ⟨hrow, hfits⟩ := List.mem_filter.1 hmem
      refine ⟨Table.get?_eq_some.2 hrow, fun d hd => ?_⟩
      cases hd
      exact of_decide_eq_true (Bool.and_eq_true_iff.1 hfits).1

theorem takeRole_ok {pick : RolePick} {r : String × RoleRow}
    (h : takeRole s pick = .ok r) :
    s.roles.get? r.1 = some r.2 ∧ r.2.active = true ∧
      ∀ d, pick = .desk d → r.2.desk = d := by
  simp only [takeRole, bind_ok, assertRule_ok, pure_ok] at h
  obtain ⟨r', hr', -, hactive, rfl⟩ := h
  obtain ⟨hget, hdesk⟩ := pickRole_ok hr'
  exact ⟨hget, hactive, hdesk⟩

theorem byEmp_ok {emp : String} {v : String × StaffRow} (h : byEmp s emp = .ok v) :
    s.users.get? v.1 = some v.2 ∧ v.2.empNo = emp ∧ v.2.system = false := by
  have hfind := someOr_ok.1 h
  have hfits := List.find?_some hfind
  simp only [Bool.and_eq_true, decide_eq_true_eq, Bool.not_eq_true'] at hfits
  exact ⟨Table.get?_eq_some.2 (List.mem_of_find?_eq_some hfind), hfits⟩

theorem requireTx_ok {id : String} {v : StaffRow} :
    requireTx s id = .ok v ↔ s.users.get? id = some v ∧ v.system = false := by
  simp only [requireTx, orNotFound_ok, Option.filter_eq_some_iff, Bool.not_eq_true']

end Rules

/-! ## What an operation leaves alone -/

section Frame

variable {s s' : Staff} {R R' : Table String RoleRow} {P P' : List (String × LocKey)}
  {L L' : Table LocKey PlaceRow} {X X' : List String} {id : String} {u : StaffRow}

/-- An account still fits where its role, its postings and its place do. -/
theorem AccountFits.mono (h : AccountFits R P L X id u)
    (roles : ∀ rid r, u.roleId = some rid → R.get? rid = some r →
      r.everAssigned = true → ∃ r', R'.get? rid = some r' ∧ r'.desk = r.desk ∧
        r'.name = r.name ∧ r'.everAssigned = true ∧
        (u.active = true → r.active = true → r'.active = true))
    (postings : (id, u.loc) ∈ P → (id, u.loc) ∈ P')
    (places : ∀ row, L.get? u.loc = some row → worksAt u.role u.loc row = true →
      u.active = true → u.admin = false →
      ∃ row', L'.get? u.loc = some row' ∧ worksAt u.role u.loc row' = true)
    (restored : id ∈ X → id ∈ X') : AccountFits R' P' L' X' id u where
  holds rid hrid := by
    obtain ⟨r, hr, hdesk, hname, hever, hactive⟩ := h.holds rid hrid
    obtain ⟨r', hr', hdesk', hname', hever', hactive'⟩ := roles rid r hrid hr hever
    exact ⟨r', hr', hdesk'.trans hdesk, hname'.trans hname, hever',
      fun hu => hactive' hu (hactive hu)⟩
  admin := h.admin
  held := h.held
  home hsys := postings (h.home hsys)
  works hactive hadmin hsys hnot := by
    obtain ⟨row, hrow, hworks⟩ := h.works hactive hadmin hsys fun hx => hnot (restored hx)
    exact places row hrow hworks hactive hadmin

/-- The roles are the same, but that somebody may have been given one. -/
structure Marked (R R' : Table String RoleRow) : Prop where
  kept : ∀ rid r, R.get? rid = some r → ∃ r', R'.get? rid = some r' ∧
    r'.desk = r.desk ∧ r'.name = r.name ∧ r'.active = r.active ∧
    (r.everAssigned = true → r'.everAssigned = true)
  granted : (∀ rid r, R.get? rid = some r → grantRefusal r.desk r.perms = none) →
    ∀ rid r, R'.get? rid = some r → grantRefusal r.desk r.perms = none

theorem Marked.refl (R : Table String RoleRow) : Marked R R :=
  ⟨fun _ r hr => ⟨r, hr, rfl, rfl, rfl, fun h => h⟩, fun h => h⟩

theorem marked_markAssigned (s : Staff) (rid : String) :
    Marked s.roles (s.markAssigned rid).roles where
  kept k r hr := by
    change ∃ r', (s.roles.modify rid _).get? k = some r' ∧ _
    rw [Table.get?_modify, hr]
    split
    · exact ⟨_, rfl, rfl, rfl, rfl, fun _ => rfl⟩
    · exact ⟨r, rfl, rfl, rfl, rfl, fun h => h⟩
  granted h k r hr := by
    change (s.roles.modify rid _).get? k = some r at hr
    rw [Table.get?_modify] at hr
    split at hr
    · obtain ⟨r₀, hr₀, rfl⟩ := Option.map_eq_some_iff.1 hr
      exact h k r₀ hr₀
    · exact h k r hr

theorem get?_markAssigned {rid : String} {r : RoleRow}
    (h : s.roles.get? rid = some r) :
    (s.markAssigned rid).roles.get? rid = some { r with everAssigned := true } := by
  change (s.roles.modify rid _).get? rid = _
  rw [Table.get?_modify_self, h]
  rfl

/-- An operation on one account: what it may change of the rest is a mark on a
role, and what it leaves open of the account's sessions still stands. -/
structure Edits (s s' : Staff) (id : String) (u u' : StaffRow) : Prop where
  was : s.users.get? id = some u
  users : ∀ k, s'.users.get? k = if k = id then some u' else s.users.get? k
  emp : u'.empNo = u.empNo
  fits : AccountFits s'.roles s'.postings s'.locations s'.restored id u'
  roles : Marked s.roles s'.roles
  postings : ∀ k l, k ≠ id → ((k, l) ∈ s'.postings ↔ (k, l) ∈ s.postings)
  locations : s'.locations = s.locations
  restored : ∀ k, k ≠ id → (k ∈ s.restored ↔ k ∈ s'.restored)
  open_ : ∀ k t, s'.sessions.get? k = some t → t.revoked = false →
    s.sessions.get? k = some t
  stands : ∀ k t, s'.sessions.get? k = some t → t.revoked = false → t.userId = id →
    t.family ∉ s.overtaken → (id, t.loc) ∈ s'.postings ∧ u'.active = true
  checked : ∀ a ∈ s'.attempts, a.ended = false → a ∈ s.attempts ∧
    (a.userId = id → u.active = true → u.system = false → u.loc = a.home →
      u'.active = true ∧ u'.system = false ∧ u'.loc = a.home)
  overtaken : s'.overtaken = s.overtaken
  ids : s'.userSeq = s.userSeq ∧ s'.given = s.given

theorem Orderly.edit {u u' : StaffRow} (h : Orderly s) (e : Edits s s' id u u') :
    Orderly s' where
  accounts k v hv := by
    rw [e.users] at hv
    split at hv
    · next hk =>
        subst hk
        cases hv
        exact e.fits
    · next hk =>
        refine (h.accounts k v hv).mono ?_ (e.postings k v.loc hk).2 ?_
          (e.restored k hk).1
        · intro rid r _ hr hever
          obtain ⟨r', hr', hdesk, hname, hactive, hmark⟩ := e.roles.kept rid r hr
          exact ⟨r', hr', hdesk, hname, hmark hever, fun _ ha => hactive.trans ha⟩
        · intro row hrow hworks _ _
          exact ⟨row, e.locations ▸ hrow, hworks⟩
  emps k k' v v' hv hv' hemp := by
    have hold : ∀ k v, s'.users.get? k = some v →
        ∃ w, s.users.get? k = some w ∧ w.empNo = v.empNo := by
      intro k v hv
      rw [e.users] at hv
      split at hv
      · next hk =>
          subst hk
          cases hv
          exact ⟨u, e.was, e.emp.symm⟩
      · exact ⟨v, hv, rfl⟩
    obtain ⟨w, hw, hwe⟩ := hold k v hv
    obtain ⟨w', hw', hwe'⟩ := hold k' v' hv'
    exact h.emps k k' w w' hw hw' (hwe.trans (hemp.trans hwe'.symm))
  posted p hp := by
    rw [e.users]
    split
    · rfl
    · next hk => exact h.posted p ((e.postings p.1 p.2 hk).1 hp)
  stands k t ht hopen hkept := by
    rw [e.overtaken] at hkept
    by_cases hid : t.userId = id
    · obtain ⟨hpost, hactive⟩ := e.stands k t ht hopen hid hkept
      refine ⟨hid ▸ hpost, u', ?_, hactive⟩
      rw [e.users, if_pos hid]
    · obtain ⟨hpost, v, hv, hactive⟩ := h.stands k t (e.open_ k t ht hopen) hopen hkept
      refine ⟨(e.postings _ _ hid).2 hpost, v, ?_, hactive⟩
      rw [e.users, if_neg hid]
      exact hv
  checked a ha hended := by
    obtain ⟨hold, hkept⟩ := e.checked a ha hended
    obtain ⟨v, hv, hactive, hsys, hhome⟩ := h.checked a hold hended
    by_cases hid : a.userId = id
    · rw [hid] at hv
      cases e.was.symm.trans hv
      refine ⟨u', ?_, hkept hid hactive hsys hhome⟩
      rw [e.users, if_pos hid]
    · refine ⟨v, ?_, hactive, hsys, hhome⟩
      rw [e.users, if_neg hid]
      exact hv
  granted := e.roles.granted h.granted
  given := by
    obtain ⟨hseq, hgiven⟩ := e.ids
    rw [hseq, hgiven]
    exact h.given

end Frame

/-! ## The operations on one account -/

section Accounts

variable {s s' : Staff} {id : String} {u : StaffRow}

theorem mem_postAt {locs : List LocKey} {k : String} {l : LocKey} :
    (k, l) ∈ (s.postAt id locs).postings ↔
      (k, l) ∈ s.postings ∨ (k = id ∧ l ∈ locs) := by
  simp only [Staff.postAt, List.mem_append, List.mem_filter, List.mem_map,
    Prod.mk.injEq, decide_eq_true_eq]
  constructor
  · rintro (h | ⟨⟨l', hl', rfl, rfl⟩, -⟩)
    · exact .inl h
    · exact .inr ⟨rfl, hl'⟩
  · rintro (h | ⟨rfl, hl⟩)
    · exact .inl h
    · by_cases hmem : (k, l) ∈ s.postings
      · exact .inl hmem
      · exact .inr ⟨⟨l, hl, rfl, rfl⟩, hmem⟩

theorem mem_unpost {k : String} {l : LocKey} :
    (k, l) ∈ (s.unpost id).postings ↔ (k, l) ∈ s.postings ∧ k ≠ id := by
  simp only [Staff.unpost, List.mem_filter, decide_eq_true_eq]

theorem open_revokeAll {k : String} {t : SessionRow}
    (h : (s.revokeAll id).sessions.get? k = some t) (hopen : t.revoked = false) :
    s.sessions.get? k = some t ∧ t.userId ≠ id := by
  change (s.sessions.update _).get? k = some t at h
  rw [Table.get?_update] at h
  obtain ⟨t₀, ht₀, rfl⟩ := Option.map_eq_some_iff.1 h
  unfold SessionRow.revokeFor at hopen ⊢
  by_cases hid : t₀.userId = id
  · rw [if_pos hid] at hopen
    cases hopen
  · rw [if_neg hid]
    exact ⟨ht₀, hid⟩

/-- A check that is not overtaken by the end of the sessions is another's. -/
theorem checked_revokeAll {a : Attempt} (h : a ∈ (s.revokeAll id).attempts)
    (hended : a.ended = false) : a ∈ s.attempts ∧ a.userId ≠ id := by
  obtain ⟨b, hb, rfl⟩ := List.mem_map.1 h
  unfold Attempt.endFor at hended ⊢
  by_cases hid : b.userId = id
  · rw [if_pos hid] at hended
    cases hended
  · rw [if_neg hid]
    exact ⟨hb, hid⟩

theorem get?_editUser (h : s.users.get? id = some u) (f : StaffRow → StaffRow)
    (k : String) : (s.editUser id f).users.get? k =
      if k = id then some (f u) else s.users.get? k :=
  Table.get?_modify_of_get? h f k

theorem mem_placed {k : String} :
    k ∈ (s.placed id).restored ↔ k ∈ s.restored ∧ k ≠ id := by
  simp only [Staff.placed, List.mem_filter, decide_eq_true_eq]

/-- A rewrite of the account alone, that ends its sessions or leaves it active
where it is. -/
theorem Orderly.editUser (h : Orderly s) {f : StaffRow → StaffRow}
    (hu : s.users.get? id = some u) (hemp : (f u).empNo = u.empNo)
    (hfits : AccountFits s.roles s.postings s.locations s.restored id (f u))
    (hactive : u.active = true → (f u).active = true)
    (hsame : (f u).system = u.system ∧ (f u).loc = u.loc) :
    Orderly (s.editUser id f) :=
  h.edit {
    was := hu
    users := get?_editUser hu f
    emp := hemp
    fits := hfits
    roles := Marked.refl _
    postings := fun _ _ _ => Iff.rfl
    locations := rfl
    restored := fun _ _ => Iff.rfl
    open_ := fun _ _ ht _ => ht
    stands := by
      intro k t ht hopen hid hkept
      obtain ⟨hpost, v, hv, hva⟩ := h.stands k t ht hopen hkept
      rw [hid] at hpost hv
      cases hu.symm.trans hv
      exact ⟨hpost, hactive hva⟩
    checked := fun _ ha _ => ⟨ha, fun _ hva hsys hhome =>
      ⟨hactive hva, hsame.1.trans hsys, hsame.2.trans hhome⟩⟩
    overtaken := rfl
    ids := ⟨rfl, rfl⟩ }

theorem Orderly.endSessions (h : Orderly s) {f : StaffRow → StaffRow}
    (hu : s.users.get? id = some u) (hemp : (f u).empNo = u.empNo)
    (hfits : AccountFits s.roles s.postings s.locations s.restored id (f u)) :
    Orderly ((s.editUser id f).revokeAll id) :=
  h.edit {
    was := hu
    users := get?_editUser hu f
    emp := hemp
    fits := hfits
    roles := Marked.refl _
    postings := fun _ _ _ => Iff.rfl
    locations := rfl
    restored := fun _ _ => Iff.rfl
    open_ := fun _ _ ht hopen => (open_revokeAll ht hopen).1
    stands := fun _ _ ht hopen hid => absurd hid (open_revokeAll ht hopen).2
    checked := fun _ ha hended => ⟨(checked_revokeAll ha hended).1,
      fun hid => absurd hid (checked_revokeAll ha hended).2⟩
    overtaken := rfl
    ids := ⟨rfl, rfl⟩ }

theorem AccountFits.switch {R : Table String RoleRow} {P : List (String × LocKey)}
    {L : Table LocKey PlaceRow} {X : List String} {active mustChange : Bool}
    (h : AccountFits R P L X id u) (hactive : active = true → u.active = true) :
    AccountFits R P L X id
      { u with active := active, mustChangePassword := mustChange } where
  holds rid hrid := by
    obtain ⟨r, hr, hdesk, hname, hever, ha⟩ := h.holds rid hrid
    exact ⟨r, hr, hdesk, hname, hever, fun hu => ha (hactive hu)⟩
  admin := h.admin
  held := h.held
  home := h.home
  works ha := h.works (hactive ha)

theorem resetPasswordTx_orderly {emp temporary : String} (h : Orderly s)
    (hs : resetPasswordTx s emp temporary = .ok s') : Orderly s' := by
  simp only [resetPasswordTx, checkPassword, bind_ok, assertValid_ok, exists_const,
    pure_ok] at hs
  obtain ⟨-, u, hu, rfl⟩ := hs
  obtain ⟨hget, -, -⟩ := byEmp_ok hu
  exact h.endSessions hget rfl ((h.accounts u.1 u.2 hget).switch fun ha => ha)

theorem deactivateUserTx_orderly {emp : String} (h : Orderly s)
    (hs : deactivateUserTx s emp = .ok s') : Orderly s' := by
  simp only [deactivateUserTx, bind_ok, pure_ok] at hs
  obtain ⟨u, hu, rfl⟩ := hs
  obtain ⟨hget, -, -⟩ := byEmp_ok hu
  refine h.endSessions hget rfl ((h.accounts u.1 u.2 hget).switch fun ha => ?_)
  cases ha

/-- What a way back asks of an account that is no super admin. -/
theorem checkReturn_ok {x : Unit} (h : checkReturn s u = .ok x)
    (hadmin : u.admin = false) :
    (∀ rid r, u.roleId = some rid → s.roles.get? rid = some r → r.active = true) ∧
      ∃ row, s.locations.get? u.loc = some row ∧ worksAt u.role u.loc row = true := by
  rw [checkReturn, hadmin, if_neg Bool.false_ne_true] at h
  simp only [bind_ok, assertRule_ok, exists_const] at h
  obtain ⟨hactive, hworks⟩ := h
  refine ⟨fun rid r hrid hr => ?_, checkPairing_ok.1 hworks⟩
  rw [hrid, Option.bind_some, hr] at hactive
  exact hactive

theorem reactivateUserTx_orderly {emp : String} (h : Orderly s)
    (hs : reactivateUserTx s emp = .ok s') : Orderly s' := by
  simp only [reactivateUserTx, bind_ok, pure_ok] at hs
  obtain ⟨u, hu, x, hback, rfl⟩ := hs
  obtain ⟨hget, -, hsys⟩ := byEmp_ok hu
  have hfits := h.accounts u.1 u.2 hget
  cases hadmin : u.2.admin with
  | true =>
      rw [if_pos rfl]
      refine h.editUser hget rfl ?_ (fun _ => rfl) ⟨rfl, rfl⟩
      -- a super admin holds no role and is based nowhere in particular
      exact {
        holds := fun rid hrid => by
          rw [(hfits.admin hadmin).1] at hrid
          cases hrid
        admin := hfits.admin
        held := hfits.held
        home := hfits.home
        works := fun _ hno => absurd (hadmin.symm.trans hno) Bool.noConfusion }
  | false =>
      rw [if_neg Bool.false_ne_true]
      obtain ⟨hrole, hplace⟩ := checkReturn_ok hback hadmin
      exact h.edit {
        was := hget
        users := get?_editUser hget _
        emp := rfl
        fits := {
          holds := fun rid hrid => by
            obtain ⟨r, hr, hdesk, hname, hever, -⟩ := hfits.holds rid hrid
            exact ⟨r, hr, hdesk, hname, hever, fun _ => hrole rid r hrid hr⟩
          admin := hfits.admin
          held := hfits.held
          home := hfits.home
          works := fun _ _ _ _ => hplace }
        roles := Marked.refl _
        postings := fun _ _ _ => Iff.rfl
        locations := rfl
        restored := fun k hk => by
          rw [mem_placed]
          exact ⟨fun hmem => ⟨hmem, hk⟩, fun hmem => hmem.1⟩
        open_ := fun _ _ ht _ => ht
        stands := by
          intro k t ht hopen hid hkept
          obtain ⟨hpost, -⟩ := h.stands k t ht hopen hkept
          exact ⟨hid ▸ hpost, rfl⟩
        checked := fun _ ha _ => ⟨ha, fun _ _ hsys hhome => ⟨rfl, hsys, hhome⟩⟩
        overtaken := rfl
        ids := ⟨rfl, rfl⟩ }

def StaffRow.moved (u : StaffRow) (rid : String) (r : RoleRow) (loc : LocKey) :
    StaffRow :=
  { u with role := r.desk, roleId := some rid, roleLabel := r.name, loc }

theorem fits_moved {R : Table String RoleRow} {P : List (String × LocKey)}
    {L : Table LocKey PlaceRow} {X : List String} {rid : String} {r : RoleRow}
    {loc : LocKey} {row : PlaceRow}
    (hr : R.get? rid = some { r with everAssigned := true }) (hactive : r.active = true)
    (hadmin : u.admin = false) (hhome : (id, loc) ∈ P) (hrow : L.get? loc = some row)
    (hworks : worksAt r.desk loc row = true) :
    AccountFits R P L X id (u.moved rid r loc) where
  holds rid' hrid' := by
    cases hrid'
    exact ⟨_, hr, rfl, rfl, rfl, fun _ => hactive⟩
  admin ha := absurd (hadmin.symm.trans ha) Bool.noConfusion
  held _ _ := rfl
  home _ := hhome
  works _ _ _ _ := ⟨row, hrow, hworks⟩

theorem updateUserRoleLocTx_orderly {emp : String} {pick : RolePick} {loc : LocKey}
    (h : Orderly s)
    (hno : ∀ id u, s.users.get? id = some u → u.empNo = emp → u.admin = false)
    (hs : updateUserRoleLocTx s emp pick loc = .ok s') : Orderly s' := by
  simp only [updateUserRoleLocTx, bind_ok, pure_ok] at hs
  obtain ⟨r, hr, x, hpair, u, hu, rfl⟩ := hs
  obtain ⟨hrow, hactive, -⟩ := takeRole_ok hr
  obtain ⟨row, hplace, hworks⟩ := checkPairing_ok.1 hpair
  obtain ⟨hget, hemp, hsys⟩ := byEmp_ok hu
  have hfits := h.accounts u.1 u.2 hget
  have hadmin := hno u.1 u.2 hget hemp
  have hmarked := marked_markAssigned s r.1
  have hgiven := get?_markAssigned hrow
  have hrest : ∀ k, k ≠ u.1 → (k ∈ s.restored ↔ k ∈ (s.placed u.1).restored) := by
    intro k hk
    rw [mem_placed]
    exact ⟨fun hmem => ⟨hmem, hk⟩, fun hmem => hmem.1⟩
  split
  · next hsame =>
      have hhome : (u.1, loc) ∈ s.postings := hsame.2 ▸ hfits.home hsys
      exact h.edit {
        was := hget
        users := get?_editUser hget fun v => v.moved r.1 r.2 loc
        emp := rfl
        fits := fits_moved hgiven hactive hadmin hhome hplace hworks
        roles := hmarked
        postings := fun _ _ _ => Iff.rfl
        locations := rfl
        restored := hrest
        open_ := fun _ _ ht _ => ht
        stands := by
          intro k t ht hopen hid hkept
          obtain ⟨hpost, v, hv, hva⟩ := h.stands k t ht hopen hkept
          rw [hid] at hpost hv
          cases hget.symm.trans hv
          exact ⟨hpost, hva⟩
        checked := fun _ ha _ => ⟨ha, fun _ hva hsys' hhome' =>
          ⟨hva, hsys', hsame.2.trans hhome'⟩⟩
        overtaken := rfl
        ids := ⟨rfl, rfl⟩ }
  · exact h.edit {
      was := hget
      users := get?_editUser hget fun v => v.moved r.1 r.2 loc
      emp := rfl
      fits := fits_moved hgiven hactive hadmin
        (mem_postAt.2 (.inr ⟨rfl, List.mem_singleton_self loc⟩)) hplace hworks
      roles := hmarked
      postings := fun k l hk => by
        refine mem_postAt.trans ⟨?_, fun hmem => .inl (mem_unpost.2 ⟨hmem, hk⟩)⟩
        rintro (hmem | ⟨hk', -⟩)
        · exact (mem_unpost.1 hmem).1
        · exact absurd hk' hk
      locations := rfl
      restored := hrest
      open_ := fun _ _ ht hopen => (open_revokeAll ht hopen).1
      stands := fun _ _ ht hopen hid => absurd hid (open_revokeAll ht hopen).2
      checked := fun _ ha hended => ⟨(checked_revokeAll ha hended).1,
        fun hid => absurd hid (checked_revokeAll ha hended).2⟩
      overtaken := rfl
      ids := ⟨rfl, rfl⟩ }

theorem setUserPostingsTx_orderly {emp : String} {locs : List LocKey} (h : Orderly s)
    (hs : setUserPostingsTx s emp locs = .ok s') : Orderly s' := by
  simp only [setUserPostingsTx, bind_ok, assertValid_ok, exists_const, pure_ok] at hs
  obtain ⟨u, hu, -, hmem, -, -, rfl⟩ := hs
  obtain ⟨hget, -, -⟩ := byEmp_ok hu
  have hfits := h.accounts u.1 u.2 hget
  exact h.edit {
    was := hget
    users := fun k => by
      split
      · next hk => exact hk ▸ hget
      · rfl
    emp := rfl
    fits := hfits.mono
      (fun _ r _ hr hever => ⟨r, hr, rfl, rfl, hever, fun _ ha => ha⟩)
      (fun _ => mem_postAt.2 (.inr ⟨rfl, hmem⟩))
      (fun row hrow hworks _ _ => ⟨row, hrow, hworks⟩) (fun hx => hx)
    roles := Marked.refl _
    postings := fun k l hk => by
      refine mem_postAt.trans ⟨?_, fun hmem => .inl (mem_unpost.2 ⟨hmem, hk⟩)⟩
      rintro (hmem | ⟨hk', -⟩)
      · exact (mem_unpost.1 hmem).1
      · exact absurd hk' hk
    locations := rfl
    restored := fun _ _ => Iff.rfl
    open_ := fun _ _ ht hopen => (open_revokeAll ht hopen).1
    stands := fun _ _ ht hopen hid => absurd hid (open_revokeAll ht hopen).2
    checked := fun _ ha hended => ⟨(checked_revokeAll ha hended).1,
      fun hid => absurd hid (checked_revokeAll ha hended).2⟩
    overtaken := rfl
    ids := ⟨rfl, rfl⟩ }

theorem setAdmin_orderly {emp : String} {on : Bool} (h : Orderly s)
    (hs : setAdmin s emp on = .ok s') : Orderly s' := by
  simp only [setAdmin, bind_ok] at hs
  obtain ⟨u, hu, hs⟩ := hs
  obtain ⟨hget, -, hsys⟩ := byEmp_ok hu
  have hfits := h.accounts u.1 u.2 hget
  split at hs
  · cases pure_ok.1 hs
    refine h.editUser hget rfl ?_ (fun ha => ha) ⟨rfl, rfl⟩
    exact {
      holds := fun rid hrid => by cases hrid
      admin := fun _ => ⟨rfl, hsys⟩
      held := fun hno => by cases hno
      home := hfits.home
      works := fun _ hno => by cases hno }
  · split at hs
    · next hrole =>
        cases pure_ok.1 hs
        have hadmin : u.2.admin = false := by
          cases hadmin : u.2.admin with
          | false => rfl
          | true =>
              rw [(hfits.admin hadmin).1] at hrole
              cases hrole
        refine h.editUser hget rfl ?_ (fun ha => ha) ⟨rfl, rfl⟩
        exact {
          holds := hfits.holds
          admin := fun hno => by cases hno
          held := fun _ _ => hrole
          home := hfits.home
          works := fun ha _ => hfits.works ha hadmin }
    · simp only [bind_ok, pure_ok] at hs
      obtain ⟨r, hr, rfl⟩ := hs
      obtain ⟨hrow, hactive, hdesk⟩ := takeRole_ok hr
      exact h.edit {
        was := hget
        users := get?_editUser hget fun v =>
          { v with admin := false, roleId := some r.1, roleLabel := r.2.name }
        emp := rfl
        fits := {
          holds := fun rid hrid => by
            cases hrid
            exact ⟨_, get?_markAssigned hrow, hdesk _ rfl, rfl, rfl, fun _ => hactive⟩
          admin := fun hno => by cases hno
          held := fun _ _ => rfl
          home := hfits.home
          -- where it is based was not asked
          works := fun _ _ _ hnot => absurd List.mem_cons_self hnot }
        roles := marked_markAssigned s r.1
        postings := fun _ _ _ => Iff.rfl
        locations := rfl
        restored := fun k hk => by
          change k ∈ s.restored ↔ k ∈ u.1 :: s.restored
          rw [List.mem_cons]
          exact ⟨.inr, fun hmem => hmem.resolve_left hk⟩
        open_ := fun _ _ ht _ => ht
        stands := by
          intro k t ht hopen hid hkept
          obtain ⟨hpost, v, hv, hva⟩ := h.stands k t ht hopen hkept
          rw [hid] at hpost hv
          cases hget.symm.trans hv
          exact ⟨hpost, hva⟩
        checked := fun _ ha _ => ⟨ha, fun _ hva hsys' hhome' => ⟨hva, hsys', hhome'⟩⟩
        overtaken := rfl
        ids := ⟨rfl, rfl⟩ }

end Accounts

/-! ## An account made, an account deleted -/

section Register

variable {s s' : Staff} {id : String} {u : StaffRow}

theorem userNumber_toString (n : ℕ) : userNumber ("u" ++ toString n) = some n := by
  have hds : (toString n : String).toList = Nat.toDigits 10 n := Nat.toList_repr
  have hne : Nat.toDigits 10 n ≠ [] := Nat.toDigits_ne_nil
  have hall : (Nat.toDigits 10 n).all Char.isDigit = true :=
    List.all_eq_true.2 fun c hc => Nat.isDigit_of_mem_toDigits (by decide) (by decide) hc
  unfold userNumber
  rw [String.toList_append, hds]
  change (if Nat.toDigits 10 n ≠ [] ∧ (Nat.toDigits 10 n).all Char.isDigit = true then
    some (Nat.ofDigitChars 10 (Nat.toDigits 10 n) 0) else none) = some n
  rw [if_pos ⟨hne, hall⟩, Nat.ofDigitChars_ten_toDigits]

theorem le_foldr_max {n : ℕ} {l : List ℕ} (h : n ∈ l) : n ≤ l.foldr max 0 := by
  induction l with
  | nil => cases h
  | cons m l ih =>
      rcases List.mem_cons.1 h with rfl | h
      · exact le_max_left n _
      · exact (ih h).trans (le_max_right m _)

/-- The next number names nobody on file. -/
theorem allocateUserNumber_free (s : Staff) :
    s.users.get? ("u" ++ toString (allocateUserNumber s)) = none := by
  rw [Table.get?_eq_none]
  intro hmem
  have hle := le_foldr_max (List.mem_filterMap.2
    ⟨_, hmem, userNumber_toString (allocateUserNumber s)⟩)
  have hlt : (s.users.keys.filterMap userNumber).foldr max 0 + 1 ≤
      allocateUserNumber s := le_max_right _ _
  exact absurd hle (by unfold Table.keys at hlt; omega)

/-- A new row: whatever was there is there still. -/
theorem Orderly.register (h : Orderly s)
    (hfree : s.users.get? id = none)
    (hemp : ∀ v ∈ s.users.rows, v.2.empNo ≠ u.empNo)
    (hfits : AccountFits s'.roles s'.postings s'.locations s'.restored id u)
    (husers : ∀ k, s'.users.get? k = if k = id then some u else s.users.get? k)
    (hroles : Marked s.roles s'.roles)
    (hposts : ∀ k l, (k, l) ∈ s'.postings ↔ (k, l) ∈ s.postings ∨ (k = id ∧ (k, l) ∈ s'.postings))
    (hrest : s'.locations = s.locations ∧ s'.restored = s.restored ∧
      s'.sessions = s.sessions)
    (hchecks : s'.attempts = s.attempts ∧ s'.overtaken = s.overtaken)
    (hgiven : s'.given.Nodup ∧ ∀ k ∈ s'.given, ∃ n < s'.userSeq, k = "u" ++ toString n) :
    Orderly s' where
  accounts k v hv := by
    obtain ⟨hlocs, hrestored, -⟩ := hrest
    rw [husers] at hv
    split at hv
    · next hk =>
        subst hk
        cases hv
        exact hfits
    · refine (h.accounts k v hv).mono ?_ (fun hmem => (hposts k v.loc).2 (.inl hmem)) ?_
        (fun hx => hrestored ▸ hx)
      · intro rid r _ hr hever
        obtain ⟨r', hr', hdesk, hname, hactive, hmark⟩ := hroles.kept rid r hr
        exact ⟨r', hr', hdesk, hname, hmark hever, fun _ ha => hactive.trans ha⟩
      · intro row hrow hworks _ _
        exact ⟨row, hlocs ▸ hrow, hworks⟩
  emps k k' v v' hv hv' hsame := by
    rw [husers] at hv hv'
    split at hv
    · next hk =>
        split at hv'
        · next hk' => exact hk.trans hk'.symm
        · cases hv
          exact absurd hsame.symm (hemp (k', v') (Table.get?_eq_some.1 hv'))
    · split at hv'
      · cases hv'
        exact absurd hsame (hemp (k, v) (Table.get?_eq_some.1 hv))
      · exact h.emps k k' v v' hv hv' hsame
  posted p hp := by
    rw [husers]
    split
    · rfl
    · next hk =>
        rcases (hposts p.1 p.2).1 hp with hold | ⟨hid, -⟩
        · exact h.posted p hold
        · exact absurd hid hk
  stands k t ht hopen hkept := by
    rw [hrest.2.2] at ht
    rw [hchecks.2] at hkept
    obtain ⟨hpost, v, hv, hva⟩ := h.stands k t ht hopen hkept
    refine ⟨(hposts _ _).2 (.inl hpost), v, ?_, hva⟩
    rw [husers, if_neg]
    · exact hv
    · intro hid
      rw [hid, hfree] at hv
      cases hv
  checked a ha hended := by
    rw [hchecks.1] at ha
    obtain ⟨v, hv, hstill⟩ := h.checked a ha hended
    refine ⟨v, ?_, hstill⟩
    rw [husers, if_neg]
    · exact hv
    · intro hid
      rw [hid, hfree] at hv
      cases hv
  granted := hroles.granted h.granted
  given := hgiven

theorem createUserTx_orderly {i : NewUser} (h : Orderly s)
    (hs : createUserTx s i = .ok s') : Orderly s' := by
  simp only [createUserTx, checkPassword, bind_ok, assertValid_ok, exists_const,
    guardOr_ok, orInternal_ok, pure_ok] at hs
  obtain ⟨-, r, hr, x, hpair, hemp, users, hins, rfl⟩ := hs
  obtain ⟨hrow, hactive, -⟩ := takeRole_ok hr
  obtain ⟨row, hplace, hworks⟩ := checkPairing_ok.1 hpair
  obtain ⟨hnodup, hgiven⟩ := h.given
  refine h.register (allocateUserNumber_free s) hemp ?_ (Table.get?_insert hins) ?_ ?_
    ⟨rfl, rfl, rfl⟩ ⟨rfl, rfl⟩ ⟨?_, ?_⟩
  · exact {
      holds := fun rid hrid => by
        cases hrid
        exact ⟨_, get?_markAssigned hrow, rfl, rfl, rfl, fun _ => hactive⟩
      admin := fun hno => by cases hno
      held := fun _ _ => rfl
      home := fun _ => mem_postAt.2 (.inr ⟨rfl, List.mem_singleton_self _⟩)
      works := fun _ _ _ _ => ⟨row, hplace, hworks⟩ }
  · exact marked_markAssigned s r.1
  · intro k l
    rw [mem_postAt]
    constructor
    · rintro (hmem | ⟨hk, hl⟩)
      · exact .inl hmem
      · exact .inr ⟨hk, .inr ⟨hk, hl⟩⟩
    · rintro (hmem | ⟨-, hmem⟩)
      · exact .inl hmem
      · exact hmem
  · refine List.nodup_cons.2 ⟨fun hmem => ?_, hnodup⟩
    obtain ⟨n, hn, hid⟩ := hgiven _ hmem
    have hsame : some (allocateUserNumber s) = some n := by
      rw [← userNumber_toString, hid, userNumber_toString]
    have hle : s.userSeq ≤ allocateUserNumber s := le_max_left _ _
    cases hsame
    omega
  · refine List.forall_mem_cons.2 ⟨⟨_, Nat.lt_succ_self _, rfl⟩, fun k hk => ?_⟩
    obtain ⟨n, hn, hid⟩ := hgiven k hk
    have hle : s.userSeq ≤ allocateUserNumber s := le_max_left _ _
    exact ⟨n, Nat.lt_succ_of_lt (hn.trans_le hle), hid⟩

theorem systemOperator_orderly (h : Orderly s) (hs : systemOperator s = .ok s') :
    Orderly s' := by
  unfold systemOperator at hs
  split at hs
  · cases pure_ok.1 hs
    exact h
  · next hfree =>
    simp only [bind_ok, orInternal_ok, pure_ok] at hs
    obtain ⟨users, hins, rfl⟩ := hs
    have hemp : ∀ v ∈ s.users.rows, v.2.empNo ≠ "SYS-QR" :=
      fun v hv hno => hfree (.inr ⟨v, hv, hno⟩)
    refine h.register (Table.insert?_eq_some hins).1 hemp ?_ (Table.get?_insert hins)
      (Marked.refl _) ?_ ⟨rfl, rfl, rfl⟩ ⟨rfl, rfl⟩ h.given
    · exact {
        holds := fun rid hrid => by cases hrid
        admin := fun hno => by cases hno
        held := fun _ hno => by cases hno
        home := fun hno => by cases hno
        works := fun _ _ hno => by cases hno }
    · intro k l
      exact ⟨.inl, fun hmem => hmem.elim (fun hold => hold) And.right⟩

/-- A deactivated account deleted: nothing checked for it is still right. -/
theorem deleteUserTx_orderly {history : Bool} (h : Orderly s)
    (hoff : ∀ v, s.users.get? id = some v → v.active = false)
    (hs : deleteUserTx s id u history = .ok s') : Orderly s' := by
  simp only [deleteUserTx, bind_ok, assertRule_ok, exists_const, pure_ok] at hs
  obtain ⟨-, rfl⟩ := hs
  have hkept : ∀ {k v}, (s.users.restrict fun k => decide (k ≠ id)).get? k = some v →
      k ≠ id ∧ s.users.get? k = some v := by
    intro k v hv
    rw [Table.get?_restrict] at hv
    split at hv
    · next hk => exact ⟨of_decide_eq_true hk, hv⟩
    · cases hv
  have hstays : ∀ {k}, k ≠ id → (s.users.restrict fun k => decide (k ≠ id)).get? k =
      s.users.get? k := by
    intro k hk
    rw [Table.get?_restrict, if_pos (decide_eq_true hk)]
  exact {
    accounts := fun k v hv => by
      obtain ⟨hk, hold⟩ := hkept hv
      exact (h.accounts k v hold).mono
        (fun _ r _ hr hever => ⟨r, hr, rfl, rfl, hever, fun _ ha => ha⟩)
        (fun hmem => mem_unpost.2 ⟨hmem, hk⟩)
        (fun row hrow hworks _ _ => ⟨row, hrow, hworks⟩) (fun hx => hx)
    emps := fun k k' v v' hv hv' => h.emps k k' v v' (hkept hv).2 (hkept hv').2
    posted := fun p hp => by
      obtain ⟨hold, hk⟩ := mem_unpost.1 hp
      change ((s.users.restrict _).get? p.1).isSome = true
      rw [hstays hk]
      exact h.posted p hold
    stands := fun k t ht hopen hkept => by
      change (s.sessions.filter _).get? k = some t at ht
      rw [Table.get?_filter, Option.filter_eq_some_iff] at ht
      obtain ⟨ht, hother⟩ := ht
      have hk : t.userId ≠ id := of_decide_eq_true hother
      obtain ⟨hpost, v, hv, hva⟩ := h.stands k t ht hopen hkept
      exact ⟨mem_unpost.2 ⟨hpost, hk⟩, v, (hstays hk).trans hv, hva⟩
    checked := fun a ha hended => by
      obtain ⟨v, hv, hva, hstill⟩ := h.checked a ha hended
      have hk : a.userId ≠ id := by
        intro hid
        rw [hoff v (hid ▸ hv)] at hva
        cases hva
      exact ⟨v, (hstays hk).trans hv, hva, hstill⟩
    granted := h.granted
    given := h.given }

end Register

/-! ## Roles -/

section Roles

variable {s s' : Staff} {id : String}

/-- A write on the roles alone: every role given to somebody stays as its
holders see it, active where one of them is. -/
theorem Orderly.roleWrite (h : Orderly s) {R : Table String RoleRow} {n : ℕ}
    (kept : ∀ rid r, s.roles.get? rid = some r → r.everAssigned = true →
      ∃ r', R.get? rid = some r' ∧ r'.desk = r.desk ∧ r'.name = r.name ∧
        r'.everAssigned = true ∧ (r.active = true →
          (∃ k v, s.users.get? k = some v ∧ v.roleId = some rid ∧ v.active = true) →
          r'.active = true))
    (granted : ∀ rid r, R.get? rid = some r → grantRefusal r.desk r.perms = none) :
    Orderly { s with roles := R, roleSeq := n } where
  accounts k v hv := (h.accounts k v hv).mono
    (fun rid r hrid hr hever => by
      obtain ⟨r', hr', hdesk, hname, hever', hactive⟩ := kept rid r hr hever
      exact ⟨r', hr', hdesk, hname, hever', fun hva ha =>
        hactive ha ⟨k, v, hv, hrid, hva⟩⟩)
    (fun hmem => hmem) (fun row hrow hworks _ _ => ⟨row, hrow, hworks⟩) (fun hx => hx)
  emps := h.emps
  posted := h.posted
  stands := h.stands
  checked := h.checked
  granted := granted
  given := h.given

theorem refuseGrant_ok {desk : Role} {perms : Permissions} {x : Unit} :
    refuseGrant desk perms = .ok x ↔ grantRefusal desk perms = none := by
  unfold refuseGrant
  cases hgrant : grantRefusal desk perms with
  | none => exact ⟨fun _ => rfl, fun _ => rfl⟩
  | some refusal => exact ⟨fun hx => (by cases hx), fun hx => (by cases hx)⟩

theorem createRole_orderly {body : RoleBody} {at_ : Instant} (h : Orderly s)
    (hs : createRole s body at_ = .ok s') : Orderly s' := by
  simp only [createRole, bind_ok, orInternal_ok, pure_ok] at hs
  obtain ⟨x, -, y, hgrant, R, hins, rfl⟩ := hs
  refine h.roleWrite (fun rid r hr hever => ⟨r, ?_, rfl, rfl, hever, fun ha _ => ha⟩)
    fun rid r hr => ?_
  · rw [Table.get?_insert hins, if_neg]
    · exact hr
    · intro hid
      rw [hid, (Table.insert?_eq_some hins).1] at hr
      cases hr
  · rw [Table.get?_insert hins] at hr
    split at hr
    · cases hr
      exact refuseGrant_ok.1 hgrant
    · exact h.granted rid r hr

theorem Orderly.switchRole (h : Orderly s) {b : Bool}
    (hheld : b = false → ∀ k v, s.users.get? k = some v → v.roleId = some id →
      v.active = false) : Orderly (s.editRole id fun r => { r with active := b }) := by
  refine h.roleWrite (n := s.roleSeq) (fun rid r hr hever => ?_) fun rid r hr => ?_
  · rw [Table.get?_modify, hr]
    split
    · next hid =>
        refine ⟨_, rfl, rfl, rfl, hever, fun _ hsome => ?_⟩
        obtain ⟨k, v, hv, hrole, hva⟩ := hsome
        cases b with
        | true => rfl
        | false =>
            have hoff := hheld rfl k v hv (hid ▸ hrole)
            rw [hva] at hoff
            cases hoff
    · exact ⟨r, rfl, rfl, rfl, hever, fun ha _ => ha⟩
  · rw [Table.get?_modify] at hr
    split at hr
    · obtain ⟨r₀, hr₀, rfl⟩ := Option.map_eq_some_iff.1 hr
      exact h.granted rid r₀ hr₀
    · exact h.granted rid r hr

theorem deactivateRole_orderly (h : Orderly s)
    (hs : deactivateRole s id = .ok s') : Orderly s' := by
  simp only [deactivateRole, bind_ok, orNotFound_ok, assertRule_ok, exists_const,
    pure_ok] at hs
  obtain ⟨r, hr, -, hnobody, rfl⟩ := hs
  refine h.switchRole fun _ k v hv hrole => ?_
  cases hva : v.active with
  | false => rfl
  | true =>
      have hadmin : v.admin = false := by
        cases hadmin : v.admin with
        | false => rfl
        | true =>
            rw [((h.accounts k v hv).admin hadmin).1] at hrole
            cases hrole
      have hmem : v ∈ roleHolders s id := by
        refine (List.mem_insertionSort _).2 (List.mem_filter.2 ⟨?_, ?_⟩)
        · exact List.mem_map.2 ⟨(k, v), Table.get?_eq_some.1 hv, rfl⟩
        · simp [hrole, hva, hadmin]
      rw [hnobody] at hmem
      cases hmem

theorem reactivateRole_orderly (h : Orderly s)
    (hs : reactivateRole s id = .ok s') : Orderly s' := by
  simp only [reactivateRole, bind_ok, orNotFound_ok, assertRule_ok, exists_const,
    pure_ok] at hs
  obtain ⟨r, -, -, rfl⟩ := hs
  exact h.switchRole fun hno => by cases hno

theorem removeRole_orderly (h : Orderly s) (hs : removeRole s id = .ok s') :
    Orderly s' := by
  simp only [removeRole, bind_ok, orNotFound_ok, assertRule_ok, exists_const,
    pure_ok] at hs
  obtain ⟨row, hrow, hnever, rfl⟩ := hs
  refine h.roleWrite (n := s.roleSeq)
    (fun rid r hr hever => ⟨r, ?_, rfl, rfl, hever, fun ha _ => ha⟩) fun rid r hr => ?_
  · rw [Table.get?_restrict, if_pos]
    · exact hr
    · refine decide_eq_true fun hid => ?_
      rw [hid, hrow] at hr
      cases hr
      rw [hnever] at hever
      cases hever
  · rw [Table.get?_restrict] at hr
    split at hr
    · exact h.granted rid r hr
    · cases hr

/-- The account's role, under the name it goes by now. -/
def StaffRow.relabel (id name : String) (u : StaffRow) : StaffRow :=
  if u.roleId = some id then { u with roleLabel := name } else u

theorem StaffRow.relabel_same (id name : String) (u : StaffRow) :
    (u.relabel id name).empNo = u.empNo ∧ (u.relabel id name).active = u.active ∧
      (u.relabel id name).system = u.system ∧ (u.relabel id name).loc = u.loc := by
  unfold StaffRow.relabel
  split
  · exact ⟨rfl, rfl, rfl, rfl⟩
  · exact ⟨rfl, rfl, rfl, rfl⟩

/-- A role edited: its accounts read its new name, and keep its desk. -/
theorem Orderly.editRole (h : Orderly s) {U : Table String StaffRow} {row : RoleRow}
    {name : String} {desk : Role} {perms : Permissions}
    (hrow : s.roles.get? id = some row)
    (hdesk : desk = row.desk ∨ row.everAssigned = false)
    (hgrant : grantRefusal desk perms = none)
    (husers : ∀ k, U.get? k = (s.users.get? k).map (StaffRow.relabel id name)) :
    Orderly { s with
      roles := s.roles.modify id fun r => { r with name, desk, perms }
      users := U } where
  accounts k v' hv' := by
    rw [husers] at hv'
    obtain ⟨v, hv, rfl⟩ := Option.map_eq_some_iff.1 hv'
    have hfits := h.accounts k v hv
    unfold StaffRow.relabel
    split
    · next hrole =>
        exact {
          holds := fun rid hrid => by
            obtain ⟨r, hr, hdesk', -, hever, hactive⟩ := hfits.holds rid hrid
            cases hrole.symm.trans hrid
            cases hrow.symm.trans hr
            have hkept : desk = row.desk := by
              refine hdesk.resolve_right fun hno => ?_
              rw [hno] at hever
              cases hever
            refine ⟨{ row with name, desk, perms }, ?_, hkept.trans hdesk', rfl, hever,
              hactive⟩
            rw [Table.get?_modify_self, hrow]
            rfl
          admin := hfits.admin
          held := hfits.held
          home := hfits.home
          works := hfits.works }
    · next hrole =>
        refine hfits.mono (fun rid r hrid hr hever => ?_) (fun hmem => hmem)
          (fun row hrow hworks _ _ => ⟨row, hrow, hworks⟩) fun hx => hx
        refine ⟨r, ?_, rfl, rfl, hever, fun _ ha => ha⟩
        rw [Table.get?_modify_ne]
        · exact hr
        · rintro rfl
          exact hrole hrid
  emps k k' v v' hv hv' hsame := by
    rw [husers] at hv hv'
    obtain ⟨w, hw, rfl⟩ := Option.map_eq_some_iff.1 hv
    obtain ⟨w', hw', rfl⟩ := Option.map_eq_some_iff.1 hv'
    rw [(StaffRow.relabel_same id name w).1, (StaffRow.relabel_same id name w').1] at hsame
    exact h.emps k k' w w' hw hw' hsame
  posted p hp := by
    rw [husers, Option.isSome_map]
    exact h.posted p hp
  stands k t ht hopen hkept := by
    obtain ⟨hpost, v, hv, hva⟩ := h.stands k t ht hopen hkept
    refine ⟨hpost, v.relabel id name, ?_, ?_⟩
    · rw [husers, hv]
      rfl
    · rw [(StaffRow.relabel_same id name v).2.1]
      exact hva
  checked a ha hended := by
    obtain ⟨v, hv, hva, hsys, hhome⟩ := h.checked a ha hended
    obtain ⟨-, hactive, hsystem, hloc⟩ := StaffRow.relabel_same id name v
    refine ⟨v.relabel id name, ?_, hactive.trans hva, hsystem.trans hsys,
      hloc.trans hhome⟩
    rw [husers, hv]
    rfl
  granted rid r hr := by
    rw [Table.get?_modify] at hr
    split at hr
    · obtain ⟨r₀, -, rfl⟩ := Option.map_eq_some_iff.1 hr
      exact hgrant
    · exact h.granted rid r hr
  given := h.given

theorem updateRole_orderly {body : RolePatch} (h : Orderly s)
    (hs : updateRole s id body = .ok s') : Orderly s' := by
  rw [updateRole, bind_ok] at hs
  obtain ⟨row, hrow, hs⟩ := hs
  simp only [bind_ok, assertRule_ok, exists_const] at hs
  obtain ⟨-, hdesk, hs⟩ := hs
  have hrow := orNotFound_ok.1 hrow
  split at hs
  · next hsame =>
      simp only [bind_ok, pure_ok, exists_const, refuseGrant_ok] at hs
      obtain ⟨hgrant, rfl⟩ := hs
      refine h.editRole hrow hdesk hgrant fun k => ?_
      -- under its old name, no account reads otherwise
      cases hv : s.users.get? k with
      | none => rfl
      | some v =>
          refine congrArg some ?_
          unfold StaffRow.relabel
          split
          · next hrole =>
              obtain ⟨r, hr, -, hname, -⟩ := (h.accounts k v hv).holds id hrole
              cases hrow.symm.trans hr
              rw [hsame, hname]
          · rfl
  · next hsame =>
      simp only [bind_ok, pure_ok, refuseGrant_ok] at hs
      obtain ⟨-, -, -, hgrant, rfl⟩ := hs
      exact h.editRole hrow hdesk hgrant fun k => Table.get?_update _ _ k

end Roles

/-! ## Outlets -/

section Outlets

variable {s s' : Staff} {key : LocKey}

/-- A write on the locations alone, under which nobody active stands anywhere
new. -/
theorem Orderly.placeWrite (h : Orderly s) {L : Table LocKey PlaceRow}
    (kept : ∀ k v row, s.users.get? k = some v → v.active = true → v.admin = false →
      s.locations.get? v.loc = some row → worksAt v.role v.loc row = true →
      ∃ row', L.get? v.loc = some row' ∧ worksAt v.role v.loc row' = true) :
    Orderly { s with locations := L } where
  accounts k v hv := (h.accounts k v hv).mono
    (fun _ r _ hr hever => ⟨r, hr, rfl, rfl, hever, fun _ ha => ha⟩)
    (fun hmem => hmem) (fun row hrow hworks ha hadmin => kept k v row hv ha hadmin hrow hworks)
    (fun hx => hx)
  emps := h.emps
  posted := h.posted
  stands := h.stands
  checked := h.checked
  granted := h.granted
  given := h.given

theorem openOutlet_orderly {body : OutletBody} (h : Orderly s)
    (hs : openOutlet s body = .ok s') : Orderly s' := by
  simp only [openOutlet, bind_ok, orInternal_ok, pure_ok] at hs
  obtain ⟨key, -, x, -, L, hins, rfl⟩ := hs
  refine h.placeWrite fun k v row _ _ _ hrow hworks => ⟨row, ?_, hworks⟩
  rw [Table.get?_insert hins, if_neg]
  · exact hrow
  · intro hkey
    rw [hkey, (Table.insert?_eq_some hins).1] at hrow
    cases hrow

/-- A location edited: where it stays what it was and no emptier, those who
worked there work there. -/
theorem Orderly.editPlace (h : Orderly s) {f : PlaceRow → PlaceRow}
    (hf : ∀ row, s.locations.get? key = some row → (f row).type = row.type ∧
      (row.active = true → (f row).active = true ∨
        row.type = .Outlet ∧ ∀ k v, s.users.get? k = some v → v.loc = key →
          v.active = true → v.admin = true)) :
    Orderly (s.editPlace key f) := by
  refine h.placeWrite fun k v row hv hva hadmin hrow hworks => ?_
  by_cases hkey : v.loc = key
  · refine ⟨f row, ?_, ?_⟩
    · rw [hkey] at hrow ⊢
      rw [Table.get?_modify_self, hrow]
      rfl
    · obtain ⟨htype, hclose⟩ := hf row (hkey ▸ hrow)
      unfold worksAt at hworks ⊢
      by_cases hat : atOutlet v.role = true
      · rw [if_pos hat] at hworks ⊢
        rw [Bool.and_eq_true_iff, decide_eq_true_eq] at hworks ⊢
        refine ⟨htype.trans hworks.1, (hclose hworks.2).elim (fun ha => ha) ?_⟩
        rintro ⟨-, hempty⟩
        exact absurd (hadmin.symm.trans (hempty k v hv hkey hva)) Bool.noConfusion
      · rw [if_neg hat] at hworks ⊢
        exact hworks
  · refine ⟨row, ?_, hworks⟩
    rw [Table.get?_modify_ne _ _ hkey]
    exact hrow

theorem updateOutlet_orderly {body : OutletPatch} (h : Orderly s)
    (hs : updateOutlet s key body = .ok s') : Orderly s' := by
  simp only [updateOutlet, bind_ok, pure_ok] at hs
  obtain ⟨row, -, x, -, y, -, rfl⟩ := hs
  exact h.editPlace fun row _ => ⟨rfl, .inl⟩

theorem reopenOutlet_orderly (h : Orderly s) (hs : reopenOutlet s key = .ok s') :
    Orderly s' := by
  simp only [reopenOutlet, bind_ok, pure_ok] at hs
  obtain ⟨row, -, x, -, rfl⟩ := hs
  exact h.editPlace fun row _ => ⟨rfl, fun _ => .inl rfl⟩

/-- Nobody's absence is a blocker, so a close that goes through found none. -/
theorem closeRefusal_none {name : String} {b : OutletBlockers} {staff : List String}
    (h : closeRefusal name b staff = none) : staff = [] := by
  by_contra hstaff
  unfold closeRefusal at h
  rw [if_pos hstaff] at h
  dsimp only at h
  split at h
  · next hparts => simp at hparts
  · cases h
  · cases h

theorem closeOutlet_orderly {b : OutletBlockers} (h : Orderly s)
    (hs : closeOutlet s key b = .ok s') : Orderly s' := by
  simp only [closeOutlet, bind_ok] at hs
  obtain ⟨row, hrow, x, -, hs⟩ := hs
  obtain ⟨hget, htype⟩ := Option.filter_eq_some_iff.1 (orNotFound_ok.1 hrow)
  have htype : row.type = .Outlet := of_decide_eq_true htype
  split at hs
  · cases hs
  · next hnone =>
      cases pure_ok.1 hs
      refine h.editPlace fun row' hrow' => ?_
      cases hget.symm.trans hrow'
      refine ⟨rfl, fun _ => .inr ⟨htype, fun k v hv hloc hva => ?_⟩⟩
      cases hadmin : v.admin with
      | true => rfl
      | false =>
          have hmem : v.empNo ∈ staffAt s key := by
            refine (List.mem_insertionSort _).2 (List.mem_map.2 ⟨v, ?_, rfl⟩)
            refine List.mem_filter.2 ⟨List.mem_map.2 ⟨(k, v), Table.get?_eq_some.1 hv, rfl⟩, ?_⟩
            simp [hloc, hva, hadmin]
          rw [closeRefusal_none hnone] at hmem
          cases hmem

end Outlets

/-! ## Sessions -/

section Sessions

variable {s s' : Staff}

/-- Sessions opened only where their accounts are posted, active, or for a check
that was overtaken. -/
theorem Orderly.sessionWrite (h : Orderly s) {T : Table String SessionRow}
    {O : List String} (hover : s.overtaken ⊆ O)
    (hopen : ∀ k t, T.get? k = some t → t.revoked = false → t.family ∉ O →
      s.sessions.get? k = some t ∨ ((t.userId, t.loc) ∈ s.postings ∧
        ∃ u, s.users.get? t.userId = some u ∧ u.active = true) ∨
      ∃ t₀, s.sessions.get? k = some t₀ ∧ t₀.revoked = false ∧
        t₀.family = t.family ∧ t₀.userId = t.userId ∧ t₀.loc = t.loc) :
    Orderly { s with sessions := T, overtaken := O } where
  accounts := h.accounts
  emps := h.emps
  posted := h.posted
  stands k t ht hrevoked hkept := by
    have hkept' : t.family ∉ s.overtaken := fun hmem => hkept (hover hmem)
    rcases hopen k t ht hrevoked hkept with hold | hnew | hwas
    · exact h.stands k t hold hrevoked hkept'
    · exact hnew
    · obtain ⟨t₀, hold, hrevoked₀, hfamily, huser, hloc⟩ := hwas
      rw [← huser, ← hloc]
      exact h.stands k t₀ hold hrevoked₀ (hfamily ▸ hkept')
  checked := h.checked
  granted := h.granted
  given := h.given

/-- A session opened by a check that was overtaken, or where its account is
posted, active. -/
theorem issue_orderly {userId : String} {d : TokenIds} {loc : LocKey} {late : Bool}
    (h : Orderly s) (hright : late = false → d.family ∉ s.overtaken →
      (userId, loc) ∈ s.postings ∧
      ∃ u, s.users.get? userId = some u ∧ u.active = true)
    (hs : issue s userId d loc = .ok s') :
    Orderly { s' with
      overtaken := if late then d.family :: s'.overtaken else s'.overtaken } := by
  simp only [issue, bind_ok, orInternal_ok, pure_ok] at hs
  obtain ⟨u, -, T, hins, rfl⟩ := hs
  refine h.sessionWrite ?_ fun k t ht _ hkept => ?_
  · split
    · exact List.subset_cons_self _ _
    · exact List.Subset.refl _
  rw [Table.get?_insert hins] at ht
  split at ht
  · cases ht
    refine .inr (.inl ?_)
    cases late with
    | true => exact absurd List.mem_cons_self hkept
    | false => exact hright rfl hkept
  · exact .inl ht

/-- What is checked may be added to where the account was read right. -/
theorem Orderly.attemptWrite (h : Orderly s) {A : List Attempt}
    (hchecked : ∀ a ∈ A, a.ended = false → a ∈ s.attempts ∨
      ∃ u, s.users.get? a.userId = some u ∧ u.active = true ∧ u.system = false ∧
        u.loc = a.home) : Orderly { s with attempts := A } where
  accounts := h.accounts
  emps := h.emps
  posted := h.posted
  stands := h.stands
  checked a ha hended := (hchecked a ha hended).elim
    (fun hold => h.checked a hold hended) fun hnew => hnew
  granted := h.granted
  given := h.given

theorem Orderly.check (h : Orderly s) {id : String} {u : StaffRow} (entry : Entry)
    (hget : s.users.get? id = some u) (hactive : u.active = true)
    (hsys : u.system = false) :
    Orderly { s with attempts := s.attempts ++ [⟨id, u.loc, entry, false⟩] } := by
  refine h.attemptWrite fun a ha _ => ?_
  rcases List.mem_append.1 ha with hold | hnew
  · exact .inl hold
  · cases List.mem_singleton.1 hnew
    exact .inr ⟨u, hget, hactive, hsys, rfl⟩

theorem login_orderly {emp : String} {verified : Bool} {loc : Option LocKey}
    (h : Orderly s) (hs : login s emp verified loc = .ok s') : Orderly s' := by
  simp only [login, bind_ok, someOr_ok, guardOr_ok, exists_const, pure_ok] at hs
  obtain ⟨u, hfind, ⟨-, hactive⟩, rfl⟩ := hs
  have hget : s.users.get? u.1 = some u.2 :=
    Table.get?_eq_some.2 (List.mem_of_find?_eq_some hfind)
  have hsys : u.2.system = false := by
    have hfits := List.find?_some hfind
    simp only [Bool.and_eq_true, Bool.not_eq_true'] at hfits
    exact hfits.2
  exact h.check (.login loc) hget hactive hsys

theorem changePassword_orderly {userId : String} {verified same : Bool}
    (h : Orderly s) (hs : changePassword s userId verified same = .ok s') :
    Orderly s' := by
  simp only [changePassword, bind_ok, someOr_ok, guardOr_ok, assertRule_ok,
    exists_const, pure_ok] at hs
  obtain ⟨u, hget, ⟨hverified, hactive⟩, -, rfl⟩ := hs
  have hsys : u.system = false := by
    simpa using (Bool.and_eq_true_iff.1 hverified).2
  exact h.check .changePassword hget hactive hsys

theorem revokeFamily_orderly {family : String} (h : Orderly s) :
    Orderly (revokeFamily s family) := by
  refine h.sessionWrite (List.Subset.refl _) fun k t ht hrevoked _ => ?_
  rw [Table.get?_update] at ht
  obtain ⟨t₀, hold, rfl⟩ := Option.map_eq_some_iff.1 ht
  by_cases hfamily : t₀.family = family
  · rw [if_pos hfamily] at hrevoked
    cases hrevoked
  · rw [if_neg hfamily]
    exact .inl hold

theorem refresh_orderly {token : String} {d : TokenIds} (h : Orderly s)
    (hs : refresh s token d = .ok s') : Orderly s' := by
  simp only [refresh, bind_ok, someOr_ok, guardOr_ok, exists_const] at hs
  obtain ⟨t, hfind, -, hs⟩ := hs
  obtain ⟨hget, hrevoked⟩ := Option.filter_eq_some_iff.1 hfind
  rw [Bool.not_eq_true'] at hrevoked
  split at hs
  · cases pure_ok.1 hs
    exact revokeFamily_orderly h
  · have hspent : Orderly { s with
        sessions := s.sessions.modify token fun t => { t with used := true } } := by
      refine h.sessionWrite (List.Subset.refl _) fun k t' ht' hrevoked' _ => ?_
      rw [Table.get?_modify] at ht'
      split at ht'
      · obtain ⟨t₀, hold, rfl⟩ := Option.map_eq_some_iff.1 ht'
        exact .inr (.inr ⟨t₀, hold, hrevoked', rfl, rfl, rfl⟩)
      · exact .inl ht'
    show Orderly { s' with
      overtaken := if false then t.family :: s'.overtaken else s'.overtaken }
    exact issue_orderly hspent (fun _ hkept => h.stands token t hget hrevoked hkept) hs

/-- Opened by a check that was not overtaken, the session is right; behind a new
password the account's other sessions end first. -/
theorem enter_orderly {i : ℕ} {d : TokenIds} (h : Orderly s)
    (hs : enter s i d = .ok s') : Orderly s' := by
  simp only [enter, bind_ok, orInternal_ok, pure_ok] at hs
  obtain ⟨a, ha, s₁, henter, rfl⟩ := hs
  have hleft : Orderly { s with attempts := s.attempts.eraseIdx i } :=
    h.attemptWrite fun b hb _ => .inl (List.mem_of_mem_eraseIdx hb)
  have hright := h.checked a (List.mem_of_getElem? ha)
  unfold Attempt.enter at henter
  cases hentry : a.entry with
  | login loc =>
      rw [hentry] at henter
      cases loc with
      | none =>
          refine issue_orderly hleft (fun hended _ => ?_) henter
          obtain ⟨u, hget, hactive, hsys, hhome⟩ := hright hended
          exact ⟨hhome ▸ (h.accounts _ u hget).home hsys, u, hget, hactive⟩
      | some loc =>
          obtain ⟨x, hadmit, henter⟩ := bind_ok.1 henter
          simp only [admitTo, bind_ok, assertRule_ok, exists_const] at hadmit
          obtain ⟨row, -, hpost, -⟩ := hadmit
          refine issue_orderly hleft (fun hended _ => ⟨hpost, ?_⟩) henter
          obtain ⟨u, hget, hactive, -, -⟩ := hright hended
          exact ⟨u, hget, hactive⟩
  | changePassword =>
      rw [hentry] at henter
      obtain ⟨u, hget, henter⟩ := bind_ok.1 henter
      have hget : s.users.get? a.userId = some u := someOr_ok.1 hget
      have hended := hleft.endSessions
        (f := fun u => { u with mustChangePassword := false }) hget rfl
        ((h.accounts a.userId u hget).switch fun ha => ha)
      have hstill := get?_editUser hget
        (fun u => { u with mustChangePassword := false }) a.userId
      rw [if_pos rfl] at hstill
      refine issue_orderly hended (fun hno _ => ?_) henter
      obtain ⟨v, hget', hactive, hsys, -⟩ := hright hno
      cases hget.symm.trans hget'
      exact ⟨(h.accounts a.userId u hget).home hsys, _, hstill, hactive⟩

theorem logout_orderly {token : String} (h : Orderly s) : Orderly (logout s token) := by
  unfold logout
  split
  · exact h
  · exact revokeFamily_orderly h

end Sessions

/-! ## Every operation -/

theorem runStaff_orderly {s s' : Staff} {op : StaffOp} (h : Orderly s)
    (hs : runStaff s op = .ok s') : Orderly s' := by
  cases op with
  | createUser i => exact createUserTx_orderly h hs
  | resetPassword emp temporary => exact resetPasswordTx_orderly h hs
  | deactivateUser emp => exact deactivateUserTx_orderly h hs
  | setAdmin emp on => exact setAdmin_orderly h hs
  | adminReset id temporary =>
      obtain ⟨u, -, hs⟩ := bind_ok.1 hs
      exact resetPasswordTx_orderly h hs
  | adminDeactivate sub id =>
      obtain ⟨x, -, hs⟩ := bind_ok.1 hs
      obtain ⟨u, -, hs⟩ := bind_ok.1 hs
      exact deactivateUserTx_orderly h hs
  | adminReactivate id =>
      obtain ⟨u, -, hs⟩ := bind_ok.1 hs
      exact reactivateUserTx_orderly h hs
  | updateRoleLoc sub id roleId loc =>
      simp only [runStaff, updateRoleLoc, bind_ok, requireTx_ok, assertRule_ok,
        exists_const] at hs
      obtain ⟨-, -, u, ⟨hget, -⟩, hadmin, hs⟩ := hs
      refine updateUserRoleLocTx_orderly h (fun k v hv hemp => ?_) hs
      -- one account bears the number
      cases h.emps k id v u hv hget hemp
      cases hv.symm.trans hget
      exact hadmin
  | setPostings sub id locs =>
      obtain ⟨x, -, hs⟩ := bind_ok.1 hs
      obtain ⟨u, -, hs⟩ := bind_ok.1 hs
      obtain ⟨y, -, hs⟩ := bind_ok.1 hs
      exact setUserPostingsTx_orderly h hs
  | removeUser sub id history =>
      simp only [runStaff, removeUser, bind_ok, requireTx_ok, assertRule_ok,
        exists_const] at hs
      obtain ⟨-, -, u, ⟨hget, -⟩, -, hoff, hs⟩ := hs
      refine deleteUserTx_orderly h (fun v hv => ?_) hs
      cases hget.symm.trans hv
      exact hoff
  | systemOperator => exact systemOperator_orderly h hs
  | createRole body at_ => exact createRole_orderly h hs
  | updateRole id body => exact updateRole_orderly h hs
  | deactivateRole id => exact deactivateRole_orderly h hs
  | reactivateRole id => exact reactivateRole_orderly h hs
  | removeRole id => exact removeRole_orderly h hs
  | openOutlet body => exact openOutlet_orderly h hs
  | updateOutlet key body => exact updateOutlet_orderly h hs
  | closeOutlet key b => exact closeOutlet_orderly h hs
  | reopenOutlet key => exact reopenOutlet_orderly h hs
  | login emp verified loc => exact login_orderly h hs
  | refresh token d => exact refresh_orderly h hs
  | logout token =>
      cases hs
      exact logout_orderly h
  | changePassword userId verified same => exact changePassword_orderly h hs
  | enter i d => exact enter_orderly h hs

theorem Unstaffed.orderly {s : Staff} (h : Unstaffed s) : Orderly s where
  accounts id u hu := by
    rw [h.users, Table.get?_empty] at hu
    cases hu
  emps id id' u u' hu := by
    rw [h.users, Table.get?_empty] at hu
    cases hu
  posted p hp := by
    rw [h.postings] at hp
    cases hp
  stands k t ht := by
    rw [h.sessions, Table.get?_empty] at ht
    cases ht
  checked a ha := by
    rw [h.attempts] at ha
    cases ha
  granted := h.granted
  given := by
    rw [h.given]
    exact ⟨List.nodup_nil, List.forall_mem_nil _⟩

/-- The registers are in order after every run of operations. -/
theorem staff_in_order {s : Staff} (h : staffDesk.Reach s) : Orderly s := by
  refine Machine.Reach.invariant ?_ ?_ h
  · intro s h₀
    exact Unstaffed.orderly h₀
  · intro s op s' _ ho hs
    exact runStaff_orderly ho (toOption_eq_some.1 hs)

def openingStaff : Staff where
  roles := ⟨[("RL-1", ⟨"Cashier", .counter, ⟨fun _ => none, []⟩, true, false⟩)], by decide⟩
  users := .empty
  postings := []
  locations := ⟨[("store", ⟨"Central Store", "ST", "", "", .Store, true⟩),
    ("coffee", ⟨"Coffee Shop", "CF", "", "", .Outlet, true⟩)], by decide⟩
  sessions := .empty
  attempts := []
  userSeq := 1
  roleSeq := 2
  given := []
  restored := []
  overtaken := []

theorem openingStaff_unstaffed : Unstaffed openingStaff where
  users := rfl
  postings := rfl
  sessions := rfl
  attempts := rfl
  given := rfl
  restored := rfl
  granted id r hr := by
    obtain ⟨-, rfl⟩ := Prod.mk.inj (List.mem_singleton.1 (Table.get?_eq_some.1 hr))
    decide +kernel

/-- An outlet closes over its operator while she is a super admin. -/
def closedOver : List StaffOp :=
  [.createUser ⟨.desk .counter, some "RC-1", "Asha", "", "", "coffee", "temporary-1"⟩,
    .login "RC-1" true none, .enter 0 ⟨"t1", "f1"⟩, .setAdmin "RC-1" true,
    .closeOutlet "coffee" ⟨0, 0, 0, 0, 0, 0, 0, false⟩, .setAdmin "RC-1" false,
    .refresh "t1" ⟨"t2", "f2"⟩]

theorem staff_in_order_closed_over : ∃ s, staffDesk.Reach s ∧
    (s.users.get? "u1").map (fun u => (u.active, u.admin, u.loc)) =
      some (true, false, "coffee") ∧
    (s.locations.get? "coffee").any (fun row => !row.active) = true ∧
    s.restored = ["u1"] ∧ Orderly s := by
  have hany : (staffDesk.run openingStaff closedOver).any (fun s =>
      decide ((s.users.get? "u1").map (fun u => (u.active, u.admin, u.loc)) =
        some (true, false, "coffee")) &&
      ((s.locations.get? "coffee").any (fun row => !row.active) &&
        decide (s.restored = ["u1"]))) = true := by decide +kernel
  obtain ⟨s, hrun, hs⟩ := (Option.any_eq_true _ _).1 hany
  simp only [Bool.and_eq_true, decide_eq_true_eq] at hs
  have hreach := Machine.reach_run (.init openingStaff_unstaffed) hrun
  exact ⟨s, hreach, hs.1, hs.2.1, hs.2.2, staff_in_order hreach⟩

/-- Her account is deactivated between her password and her session. -/
def overtaken : List StaffOp :=
  [.createUser ⟨.desk .counter, some "RC-1", "Asha", "", "", "coffee", "temporary-1"⟩,
    .login "RC-1" true none, .deactivateUser "RC-1", .enter 0 ⟨"t1", "f1"⟩]

/-- The session stands, and the account does not. -/
theorem overtaken_session_stands : ∃ s, staffDesk.Reach s ∧
    (s.users.get? "u1").any (fun u => !u.active) = true ∧
    (s.sessions.get? "t1").any (fun t => decide (t.userId = "u1") && !t.revoked) =
      true ∧ s.overtaken = ["f1"] := by
  have hany : (staffDesk.run openingStaff overtaken).any (fun s =>
      (s.users.get? "u1").any (fun u => !u.active) &&
        ((s.sessions.get? "t1").any (fun t =>
          decide (t.userId = "u1") && !t.revoked) &&
        decide (s.overtaken = ["f1"]))) = true := by decide +kernel
  obtain ⟨s, hrun, hs⟩ := (Option.any_eq_true _ _).1 hany
  simp only [Bool.and_eq_true, decide_eq_true_eq] at hs
  refine ⟨s, Machine.reach_run (.init openingStaff_unstaffed) hrun, hs.1, ?_, hs.2.2⟩
  simpa only [Bool.and_eq_true, decide_eq_true_eq] using hs.2.1

end Rch.Staffing
