import Rch.Kit.Outputs
import Rch.Proofs.Revocation

/-!
# Refresh tokens rotate once, and a session ends on time

Whoever exchanges a token has stamped it used under its own lock, and found it
unused there, so a token is exchanged once. A successor's life is cut at the
family's first token's, and the first row of a family stays the first. Both hold
over every run of sign-ins and refreshes.

A token presented again closes its family, but for what no snapshot of the
revocation shows: a rotation of the family's live token that is open meanwhile
stores its own successor, and that one stays.
-/

namespace Rch

open Kit

/-! ## Rows of a family -/

def firstOf (s : SignIns) (family : String) : Option (String × TokenRow) :=
  s.tokens.rows.find? fun t => decide (t.2.family = family)

/-- No later than the family's first token allows. -/
def Within (ttl : Instant) (s : SignIns) (family : String) (t : Instant) : Prop :=
  ∃ k first, firstOf s family = some (k, first) ∧ t ≤ first.createdAt + ttl

def Active (s : SignIns) (userId : String) : Prop :=
  ∃ u, s.users.get? userId = some u ∧ u.active = true

def Used (s : SignIns) (hash : String) : Prop :=
  ∃ id r, refreshByHash s hash = some (id, r) ∧ r.usedAt ≠ none

/-- A row before and after: only its stamps move, and never back. -/
structure TokenRow.Carries (r r' : TokenRow) : Prop where
  userId : r'.userId = r.userId
  family : r'.family = r.family
  tokenHash : r'.tokenHash = r.tokenHash
  expiresAt : r'.expiresAt = r.expiresAt
  createdAt : r'.createdAt = r.createdAt
  used : r.usedAt ≠ none → r'.usedAt ≠ none
  dead : r.revokedAt ≠ none → r'.revokedAt ≠ none

theorem TokenRow.Carries.refl (r : TokenRow) : r.Carries r :=
  ⟨rfl, rfl, rfl, rfl, rfl, id, id⟩

/-- A row about to be stored. -/
structure NewToken (ttl : Instant) (s : SignIns) (held : List (Lock SessionKey))
    (id : String) (row : TokenRow) : Prop where
  free : FreeToken s held id
  active : Active s row.userId
  live : row.revokedAt = none
  born : (FreshFamily s held row.family ∧
      row.expiresAt ≤ row.createdAt + ttl) ∨
    Within ttl s row.family row.expiresAt

/-- What a commit leaves: the old rows, stamped, and at most one new one. -/
structure Grown (ttl : Instant) (s : SignIns) (held : List (Lock SessionKey))
    (s' : SignIns) (f : String → TokenRow → TokenRow) (claimed : Option String)
    (new : Option (String × TokenRow)) : Prop where
  rows : s'.tokens.rows =
    s.tokens.rows.map (fun p => (p.1, f p.1 p.2)) ++ new.toList
  carries : ∀ k (r : TokenRow), r.Carries (f k r)
  unclaimed : ∀ k r, claimed ≠ some k → (f k r).usedAt = r.usedAt
  key : ∀ k, claimed = some k → ⟨.token k, .noKeyUpdate⟩ ∈ held
  stamped : s.tokens.All fun k r =>
    (f k r).revokedAt ≠ none → r.revokedAt ≠ none ∨ r.family ∈ s'.ended
  users : s'.users = s.users
  ended : ∀ family ∈ s.ended, family ∈ s'.ended
  noted : ∀ family ∈ s'.ended, family ∈ s.ended ∨
    ∃ k r, s.tokens.get? k = some r ∧ r.family = family
  stored : ∀ id row, new = some (id, row) → NewToken ttl s held id row

section Grown

variable {ttl : Instant} {s s' : SignIns} {held held' : List (Lock SessionKey)}
variable {f : String → TokenRow → TokenRow} {claimed : Option String}
variable {new : Option (String × TokenRow)}

theorem Grown.get?_old (h : Grown ttl s held s' f claimed new) {k : String}
    {r : TokenRow} (hr : s.tokens.get? k = some r) :
    s'.tokens.get? k = some (f k r) := by
  rw [Table.get?_eq_some, h.rows]
  exact List.mem_append_left _
    (List.mem_map.2 ⟨(k, r), Table.get?_eq_some.1 hr, rfl⟩)

theorem Grown.of_get? (h : Grown ttl s held s' f claimed new) {k : String}
    {r' : TokenRow} (hr' : s'.tokens.get? k = some r') :
    (∃ r, s.tokens.get? k = some r ∧ r' = f k r) ∨ new = some (k, r') := by
  rw [Table.get?_eq_some, h.rows, List.mem_append] at hr'
  rcases hr' with hr' | hr'
  · obtain ⟨⟨k₀, r⟩, hr, heq⟩ := List.mem_map.1 hr'
    obtain ⟨rfl, rfl⟩ := Prod.mk.inj heq
    exact .inl ⟨r, Table.get?_eq_some.2 hr, rfl⟩
  · exact .inr (Option.mem_toList.1 hr')

/-- Whoever was found first under a mark no stamp moves is found there still. -/
theorem Grown.find? (h : Grown ttl s held s' f claimed new)
    {q : TokenRow → Bool} (hq : ∀ k r, q (f k r) = q r) {k : String}
    {r : TokenRow}
    (hr : s.tokens.rows.find? (fun t => q t.2) = some (k, r)) :
    s'.tokens.rows.find? (fun t => q t.2) = some (k, f k r) := by
  rw [h.rows, List.find?_append, List.find?_map]
  have hcomp : (fun t : String × TokenRow => q t.2) ∘
      (fun p : String × TokenRow => (p.1, f p.1 p.2)) = fun t => q t.2 :=
    funext fun t => hq t.1 t.2
  rw [hcomp, hr, Option.map_some, Option.some_or]

theorem Grown.refreshByHash (h : Grown ttl s held s' f claimed new)
    {hash k : String} {r : TokenRow} (hr : refreshByHash s hash = some (k, r)) :
    Rch.refreshByHash s' hash = some (k, f k r) :=
  h.find? (q := fun r => decide (r.tokenHash = hash))
    (fun k r => by rw [(h.carries k r).tokenHash]) hr

theorem Grown.firstOf (h : Grown ttl s held s' f claimed new)
    {family k : String} {r : TokenRow}
    (hr : firstOf s family = some (k, r)) :
    Rch.firstOf s' family = some (k, f k r) :=
  h.find? (q := fun r => decide (r.family = family))
    (fun k r => by rw [(h.carries k r).family]) hr

theorem Within.grown (h : Grown ttl s held s' f claimed new) {family : String}
    {t : Instant} (ht : Within ttl s family t) : Within ttl s' family t := by
  obtain ⟨k, first, hfirst, hle⟩ := ht
  exact ⟨k, f k first, h.firstOf hfirst, by rwa [(h.carries k first).createdAt]⟩

theorem Used.grown (h : Grown ttl s held s' f claimed new) {hash : String}
    (hu : Used s hash) : Used s' hash := by
  obtain ⟨id, r, hr, hused⟩ := hu
  exact ⟨id, f id r, h.refreshByHash hr, (h.carries id r).used hused⟩

theorem Active.grown (h : Grown ttl s held s' f claimed new) {userId : String}
    (ha : Active s userId) : Active s' userId := by
  unfold Active
  rwa [h.users]

theorem Within.some_row {family : String} {t : Instant}
    (h : Within ttl s family t) :
    ∃ k r, s.tokens.get? k = some r ∧ r.family = family := by
  obtain ⟨k, first, hfirst, -⟩ := h
  exact ⟨k, first, Table.get?_eq_some.2 (List.mem_of_find?_eq_some hfirst),
    of_decide_eq_true (List.find?_some
      (p := fun t : String × TokenRow => decide (t.2.family = family)) hfirst)⟩

theorem firstOf_isSome {family k : String} {r : TokenRow}
    (hr : s.tokens.get? k = some r) (hf : r.family = family) :
    ∃ k first, firstOf s family = some (k, first) := by
  cases hfirst : firstOf s family with
  | some p => exact ⟨p.1, p.2, rfl⟩
  | none =>
      have := List.find?_eq_none.1 hfirst _ (Table.get?_eq_some.1 hr)
      exact absurd (decide_eq_true hf) this

section Clash

variable (hclash : clash held held' = false)

include hclash

theorem Grown.free (h : Grown ttl s held s' f claimed new) {id : String}
    (hid : FreeToken s held' id) : FreeToken s' held' id := by
  refine ⟨hid.key, ?_⟩
  cases hg : s'.tokens.get? id with
  | none => rfl
  | some r' =>
      rcases h.of_get? hg with ⟨r, hr, -⟩ | hnew
      · rw [hid.free] at hr
        cases hr
      · rw [clash_of_mem (h.stored _ _ hnew).free.key hid.key rfl] at hclash
        cases hclash

theorem Grown.fresh (h : Grown ttl s held s' f claimed new) {family : String}
    (hf : FreshFamily s held' family) : FreshFamily s' held' family := by
  refine ⟨hf.key, fun hend => ?_, fun k r' hr' hrf => ?_⟩
  · rcases h.noted family hend with hend | ⟨k, r, hr, hrf⟩
    · exact hf.live hend
    · exact hf.free k r hr hrf
  · rcases h.of_get? hr' with ⟨r, hr, rfl⟩ | hnew
    · exact hf.free k r hr ((h.carries k r).family ▸ hrf)
    · rcases (h.stored _ _ hnew).born with ⟨hfresh, -⟩ | hwithin
      · rw [hrf] at hfresh
        rw [clash_of_mem hfresh.key hf.key rfl] at hclash
        cases hclash
      · obtain ⟨k₀, r₀, hr₀, hf₀⟩ := hwithin.some_row
        exact hf.free k₀ r₀ hr₀ (hf₀.trans hrf)

theorem Grown.unused (h : Grown ttl s held s' f claimed new) {id : String}
    {r : TokenRow} (hkey : ⟨.token id, .noKeyUpdate⟩ ∈ held')
    (hr : r.usedAt = none) : (f id r).usedAt = none := by
  rw [h.unclaimed id r ?_, hr]
  intro hc
  rw [clash_of_mem (h.key id hc) hkey rfl] at hclash
  cases hclash

end Clash

end Grown

/-! ## Where each transaction stands -/

/-- The token a secret names is of this family and this account's. -/
def Presented (s : SignIns) (hash id : String) (t : TokenRow) : Prop :=
  ∃ r, refreshByHash s hash = some (id, r) ∧ r.family = t.family ∧
    r.userId = t.userId

/-- The token a refresh has claimed: nobody else's to use. -/
def Claimed (s : SignIns) (held : List (Lock SessionKey)) (hash id : String)
    (t : TokenRow) : Prop :=
  ⟨.token id, .noKeyUpdate⟩ ∈ held ∧ ∃ r, refreshByHash s hash = some (id, r) ∧
    r.family = t.family ∧ r.userId = t.userId ∧ r.usedAt = none

def Picked (s : SignIns) (family : String) (ids : List String) : Prop :=
  ∀ k ∈ ids, ∃ r, s.tokens.get? k = some r ∧ r.family = family

def LoginShaped (ttl : Instant) (s : SignIns) (held : List (Lock SessionKey))
    (write : SignIns → SignIns) (userId : String) : LoginAt → Prop
  | .begun => write = fun x => x
  | .verified _ => Active s userId ∧ write = fun x => x
  | .issued family => ∃ id row, NewToken ttl s held id row ∧
    row.family = family ∧ FreshFamily s held family ∧
    write = insertRefresh id row

def RefreshShaped (ttl : Instant) (s : SignIns) (held : List (Lock SessionKey))
    (write : SignIns → SignIns) (hash : String) : RefreshAt → Prop
  | .begun => write = fun x => x
  | .read id t | .known id t _ => Presented s hash id t ∧ write = fun x => x
  | .claimed t _ => ∃ id at_, Claimed s held hash id t ∧ write = stampUsed id at_
  | .capped => ∃ id at_ t, Claimed s held hash id t ∧ write = stampUsed id at_
  | .started t _ startedAt => ∃ id at_, Claimed s held hash id t ∧
    Within ttl s t.family (startedAt + ttl) ∧ write = stampUsed id at_
  | .issued t => ∃ id at_ id' row, Claimed s held hash id t ∧
    NewToken ttl s held id' row ∧ row.family = t.family ∧
    write = fun s => insertRefresh id' row (stampUsed id at_ s)
  | .reused t => (∃ id, Presented s hash id t) ∧ write = fun x => x
  | .picked t ids => (∃ id, Presented s hash id t) ∧ Picked s t.family ids ∧
    write = fun x => x
  | .revoked t => ∃ ids at_, (∃ id, Presented s hash id t) ∧
    Picked s t.family ids ∧ write = revokeRows (.family t.family) ids at_

def RotationShaped (ttl : Instant) (s : SignIns)
    (x : Tx SignIns SessionKey SessionTx) : Prop :=
  match x.at_ with
  | .login userId _ p => LoginShaped ttl s x.held x.write userId p
  | .refresh hash p => RefreshShaped ttl s x.held x.write hash p
  | _ => False

/-- Committed, a token's life is within its family's, its account may sign in, and
what is revoked is of a family that was ended. -/
structure RotationsKept (ttl : Instant) (s : SignIns) : Prop where
  lives : s.tokens.All fun _ r => Within ttl s r.family r.expiresAt
  active : s.tokens.All fun _ r => Active s r.userId
  ended : s.tokens.All fun _ r => r.revokedAt ≠ none → r.family ∈ s.ended

/-! ## A statement keeps it -/

section Runs

variable {ttl : Instant} {c : SessionChoice} {s : SignIns}
variable {held : List (Lock SessionKey)} {write : SignIns → SignIns}
variable {st : SessionStmt}

theorem refreshByHash_get? {hash id : String} {r : TokenRow}
    (h : refreshByHash s hash = some (id, r)) : s.tokens.get? id = some r :=
  Table.get?_eq_some.2 (List.mem_of_find?_eq_some h)

theorem get?_of_stampUsed {id k : String} {at_ : Instant}
    (h : (stampUsed id at_ s).tokens.get? k = none) : s.tokens.get? k = none := by
  cases hg : s.tokens.get? k with
  | none => rfl
  | some r =>
      obtain ⟨r', hr', -⟩ := (stamped_stampUsed s id at_).kept k r hg
      rw [h] at hr'
      cases hr'

/-- The earliest of a family is no later than its first. -/
theorem within_startedAt {at_ : Instant} {id family : String} {r : TokenRow}
    (hr : s.tokens.get? id = some r) (hf : r.family = family) (z : Instant) :
    Within ttl s family
      ((familyStartedAt (stampUsed id at_ s) family).getD z + ttl) := by
  obtain ⟨k, first, hfirst⟩ := firstOf_isSome hr hf
  refine ⟨k, first, hfirst, ?_⟩
  have hget : s.tokens.get? k = some first :=
    Table.get?_eq_some.2 (List.mem_of_find?_eq_some hfirst)
  have hfam : first.family = family := of_decide_eq_true (List.find?_some
    (p := fun t : String × TokenRow => decide (t.2.family = family)) hfirst)
  have hmem : first.createdAt ∈ ((stampUsed id at_ s).tokens.rows.filter fun t =>
      decide (t.2.family = family)).map fun t => t.2.createdAt := by
    have hstamp : (stampUsed id at_ s).tokens.get? k = some
        (if k = id then { first with usedAt := some at_ } else first) := by
      unfold stampUsed
      dsimp only
      rw [Table.get?_modify, hget]
      split <;> rfl
    refine List.mem_map.2 ⟨_, List.mem_filter.2
      ⟨Table.get?_eq_some.1 hstamp, decide_eq_true ?_⟩, ?_⟩
    · dsimp only
      split <;> exact hfam
    · dsimp only
      split <;> rfl
  unfold familyStartedAt
  cases hmin : (((stampUsed id at_ s).tokens.rows.filter fun t =>
      decide (t.2.family = family)).map fun t => t.2.createdAt).min? with
  | none => exact absurd (List.min?_eq_none_iff.1 hmin) (List.ne_nil_of_mem hmem)
  | some m =>
      rw [Option.getD_some]
      exact add_le_add_left ((List.min?_eq_some_iff.1 hmin).2 _ hmem) ttl

theorem RotationShaped.login_runs {userId : String} {loc : Option LocKey}
    {p : LoginAt}
    (hx : LoginShaped ttl s held write userId p)
    (hs : loginStmt ttl c userId loc (write s) p = some st) :
    RotationShaped ttl s (Tx.after ⟨.login userId loc p, held, write⟩ st) := by
  cases p with
  | begun =>
      obtain rfl := hx
      obtain ⟨u, hu, rfl⟩ := Option.map_eq_some_iff.1 hs
      obtain ⟨hget, hactive⟩ := Option.filter_eq_some_iff.1 hu
      exact ⟨⟨u, hget, hactive⟩, rfl⟩
  | verified u =>
      obtain ⟨hactive, rfl⟩ := hx
      rw [loginStmt] at hs
      unfold issueFamily at hs
      split at hs
      · next hfresh =>
          obtain ⟨hlive, hall⟩ := hfresh
          obtain ⟨t', ht', rfl⟩ := Option.map_eq_some_iff.1 hs
          have hfam : FreshFamily s ([⟨.drawn c.family, .update⟩,
              ⟨.token c.id, .update⟩] ++ held) c.family :=
            ⟨by simp, hlive, fun k r hr hf => of_decide_eq_true
              (List.all_eq_true.1 hall _ (Table.get?_eq_some.1 hr)) hf⟩
          exact ⟨c.id, tokenRow ttl c userId c.family c.at_ (loc.getD u.loc),
            ⟨⟨List.mem_cons_of_mem _ List.mem_cons_self,
              (Table.insert?_eq_some ht').1⟩, hactive, rfl,
              .inl ⟨hfam, min_le_left _ _⟩⟩, rfl, hfam, rfl⟩
      · cases hs
  | issued family => cases hs

theorem RotationShaped.refresh_runs (hi : RotationsKept ttl s) {hash : String}
    {p : RefreshAt} (hx : RefreshShaped ttl s held write hash p)
    (hs : refreshStmt ttl c hash (write s) p = some st) :
    RotationShaped ttl s (Tx.after ⟨.refresh hash p, held, write⟩ st) := by
  cases p with
  | begun =>
      obtain rfl := hx
      obtain ⟨t, ht, hs⟩ := Option.bind_eq_some_iff.1 hs
      split at hs
      · cases hs
        exact ⟨⟨t.2, ht, rfl, rfl⟩, rfl⟩
      · cases hs
  | read id t =>
      obtain ⟨hp, rfl⟩ := hx
      obtain ⟨u, -, rfl⟩ := Option.map_eq_some_iff.1 hs
      exact ⟨hp, rfl⟩
  | known id t u =>
      obtain ⟨⟨r, hr, hf, hu⟩, rfl⟩ := hx
      obtain ⟨row, hrow, rfl⟩ := Option.map_eq_some_iff.1 hs
      rw [refreshByHash_get? hr] at hrow
      cases hrow
      split
      · next hunused =>
          exact ⟨id, c.at_, ⟨List.mem_cons_self, r, hr, hf, hu, hunused⟩, rfl⟩
      · exact ⟨⟨id, r, hr, hf, hu⟩, rfl⟩
  | claimed t u =>
      obtain ⟨id, at_, hclaim, rfl⟩ := hx
      have hfound := hclaim.2
      obtain ⟨r, hr, hf, -⟩ := hfound
      simp only [refreshStmt] at hs
      split at hs
      · cases hs
        exact ⟨id, at_, t, hclaim, rfl⟩
      · cases hs
        exact ⟨id, at_, hclaim, within_startedAt (refreshByHash_get? hr) hf _, rfl⟩
  | started t u startedAt =>
      obtain ⟨id, at_, ⟨hkey, r, hr, hf, hu, hunused⟩, hwithin, rfl⟩ := hx
      obtain ⟨t', ht', rfl⟩ := Option.map_eq_some_iff.1 hs
      have hactive : Active s t.userId :=
        hu ▸ hi.active id r (refreshByHash_get? hr)
      obtain ⟨k, first, hfirst, hle⟩ := hwithin
      exact ⟨id, at_, c.id,
        tokenRow ttl c t.userId t.family startedAt (t.loc.getD u.loc),
        ⟨List.mem_cons_of_mem _ hkey, r, hr, hf, hu, hunused⟩,
        ⟨⟨List.mem_cons_self, get?_of_stampUsed (Table.insert?_eq_some ht').1⟩,
          hactive, rfl, .inr ⟨k, first, hfirst, (min_le_right _ _).trans hle⟩⟩,
        rfl, rfl⟩
  | reused t =>
      obtain ⟨hp, rfl⟩ := hx
      cases hs
      refine ⟨hp, fun k hk => ?_, rfl⟩
      obtain ⟨⟨k', r⟩, hr, rfl⟩ := List.mem_map.1 hk
      obtain ⟨hr, hlive⟩ := List.mem_filter.1 hr
      exact ⟨r, Table.get?_eq_some.2 hr,
        (of_decide_eq_true (Bool.and_eq_true_iff.1 hlive).1).symm⟩
  | picked t ids =>
      obtain ⟨hp, hids, rfl⟩ := hx
      cases hs
      exact ⟨ids, c.at_, hp, hids, rfl⟩
  | capped | issued _ | revoked _ => cases hs

theorem RotationShaped.runs (hi : RotationsKept ttl s)
    {x : Tx SignIns SessionKey SessionTx} (hx : RotationShaped ttl s x)
    (hs : x.at_.stmt ttl c (x.write s) = some st) :
    RotationShaped ttl s (x.after st) := by
  obtain ⟨t, held, write⟩ := x
  cases t with
  | login userId loc p => exact RotationShaped.login_runs hx hs
  | refresh hash p => exact RotationShaped.refresh_runs hi hx hs
  | logout _ _ | endAll _ _ _ | elsewhere _ _ => exact hx.elim

end Runs

/-! ## What a commit does -/

section Commit

variable {ttl : Instant} {s : SignIns} {held : List (Lock SessionKey)}

theorem rows_insertRefresh {id : String} {row : TokenRow}
    (h : s.tokens.get? id = none) :
    (insertRefresh id row s).tokens.rows = s.tokens.rows ++ [(id, row)] := by
  obtain ⟨t', ht'⟩ := Table.insert?_of_free h row
  unfold insertRefresh
  dsimp only
  rw [ht', Option.getD_some, (Table.insert?_eq_some ht').2]

theorem grown_insertRefresh {id : String} {row : TokenRow}
    (h : NewToken ttl s held id row) :
    Grown ttl s held (insertRefresh id row s) (fun _ r => r) none
      (some (id, row)) where
  rows := by
    rw [rows_insertRefresh h.free.free, Option.toList_some]
    congr 1
    exact (List.map_id _).symm
  carries _ r := .refl r
  unclaimed _ _ _ := rfl
  key _ hk := by cases hk
  stamped _ _ _ hdead := .inl hdead
  users := rfl
  ended _ hf := hf
  noted _ hf := .inl hf
  stored _ _ hnew := by
    cases hnew
    exact h

def usedStamp (id : String) (at_ : Instant) (k : String) (r : TokenRow) :
    TokenRow := if k = id then { r with usedAt := some at_ } else r

theorem carries_usedStamp (id : String) (at_ : Instant) (k : String)
    (r : TokenRow) : r.Carries (usedStamp id at_ k r) := by
  unfold usedStamp
  split
  · exact ⟨rfl, rfl, rfl, rfl, rfl, fun _ h => Option.some_ne_none _ h, fun h => h⟩
  · exact .refl r

/-- A refresh stamps its token, and stores the successor where it has one. -/
theorem grown_stampUsed {id : String} {at_ : Instant} {s' : SignIns}
    {new : Option (String × TokenRow)}
    (hkey : ⟨.token id, .noKeyUpdate⟩ ∈ held)
    (hrows : s'.tokens.rows = (stampUsed id at_ s).tokens.rows ++ new.toList)
    (husers : s'.users = s.users) (hended : s'.ended = s.ended)
    (hnew : ∀ id' row, new = some (id', row) → NewToken ttl s held id' row) :
    Grown ttl s held s' (usedStamp id at_) (some id) new where
  rows := hrows
  carries := carries_usedStamp id at_
  unclaimed k r hk := by
    unfold usedStamp
    rw [if_neg fun h => hk (congrArg some h.symm)]
  key k hk := by
    cases hk
    exact hkey
  stamped k r _ hdead := by
    refine .inl fun hlive => hdead ?_
    unfold usedStamp
    split <;> exact hlive
  users := husers
  ended _ hf := hended ▸ hf
  noted _ hf := .inl (hended ▸ hf)
  stored := hnew

theorem mem_ended_revokeRows {family k : String} {r : TokenRow}
    {ids : List String} {at_ : Instant} (hr : s.tokens.get? k = some r)
    (hf : r.family = family) :
    family ∈ (revokeRows (.family family) ids at_ s).ended := by
  have hget := get?_stampRevoked ids at_ s k
  rw [hr, Option.map_some] at hget
  have hb := becomes_stampRevoked k ids at_ r
  exact List.mem_append_left _ (List.mem_map.2 ⟨_, List.mem_filter.2
    ⟨Table.get?_eq_some.1 hget, decide_eq_true (hb.family.trans hf).symm⟩,
    hb.family.trans hf⟩)

/-- A revocation stamps the rows it has picked, and ends the family. -/
theorem grown_revokeRows {family : String} {ids : List String} {at_ : Instant}
    (hids : Picked s family ids) :
    Grown ttl s held (revokeRows (.family family) ids at_ s)
      (fun k r => if k ∈ ids ∧ r.revokedAt = none then
        { r with revokedAt := some at_ } else r) none none where
  rows := (List.append_nil _).symm
  carries k r := by
    split
    · exact ⟨rfl, rfl, rfl, rfl, rfl, fun h => h, fun _ h => Option.some_ne_none _ h⟩
    · exact .refl r
  unclaimed k r _ := by
    split <;> rfl
  key _ hk := by cases hk
  stamped k r hr hdead := by
    split at hdead
    · next hpicked =>
        obtain ⟨r₀, hr₀, hf⟩ := hids k hpicked.1
        rw [hr] at hr₀
        cases hr₀
        rw [hf]
        exact .inr (mem_ended_revokeRows hr hf)
    · exact .inl hdead
  users := rfl
  ended _ hf := List.mem_append_right _ hf
  noted f hf := by
    rcases List.mem_append.1 hf with hf | hf
    · obtain ⟨userId, ⟨k, r', hr', -, rfl⟩, -⟩ := seen_of_mem_familiesIn hf
      rw [get?_stampRevoked] at hr'
      obtain ⟨r, hr, rfl⟩ := Option.map_eq_some_iff.1 hr'
      refine .inr ⟨k, r, hr, ?_⟩
      split <;> rfl
    · exact .inl hf
  stored _ _ hnew := by cases hnew

theorem grown_issued {write : SignIns → SignIns} {hash : String} {t : TokenRow}
    (hx : RefreshShaped ttl s held write hash (.issued t)) :
    ∃ id at_ id' row, Claimed s held hash id t ∧ row.family = t.family ∧
      Grown ttl s held (write s) (usedStamp id at_) (some id) (some (id', row)) ∧
      (write s).ended = s.ended := by
  obtain ⟨id, at_, id', row, hclaim, hnew, hf, rfl⟩ := hx
  have hfree : (stampUsed id at_ s).tokens.get? id' = none := by
    cases hg : (stampUsed id at_ s).tokens.get? id' with
    | none => rfl
    | some r' =>
        obtain ⟨r, hr, -⟩ := (stamped_stampUsed s id at_).old id' r' hg
        rw [hnew.free.free] at hr
        cases hr
  refine ⟨id, at_, id', row, hclaim, hf, grown_stampUsed hclaim.1
    (rows_insertRefresh hfree) rfl rfl fun _ _ heq => ?_, rfl⟩
  cases heq
  exact hnew

/-- What any of them leaves once it commits: the families it ends are the one it is
for, and the row it stores is of the family it brings. -/
theorem RotationShaped.commit {x : Tx SignIns SessionKey SessionTx}
    (hx : RotationShaped ttl s x) (hd : x.at_.done = true) :
    ∃ f claimed new, Grown ttl s x.held (x.write s) f claimed new ∧
      (∀ family ∈ (x.write s).ended, family ∈ s.ended ∨
        x.at_.ends = some (.family family)) ∧
      ∀ id row, new = some (id, row) →
        ∃ u, x.at_.brings = some (u, row.family) := by
  obtain ⟨t, held, write⟩ := x
  cases t with
  | login userId loc p =>
      cases p with
      | issued family =>
          obtain ⟨id, row, hnew, rfl, -, rfl⟩ := hx
          refine ⟨_, _, _, grown_insertRefresh hnew, fun _ hf => .inl hf,
            fun _ _ heq => ⟨userId, ?_⟩⟩
          cases heq
          rfl
      | _ => cases hd
  | refresh hash p =>
      cases p with
      | capped =>
          obtain ⟨id, at_, t, hclaim, rfl⟩ := hx
          refine ⟨_, _, none, grown_stampUsed hclaim.1 (List.append_nil _).symm rfl
            rfl fun _ _ hnew => ?_, fun _ hf => .inl hf, fun _ _ hnew => ?_⟩
          all_goals cases hnew
      | issued t =>
          obtain ⟨id, at_, id', row, -, hf, h, hended⟩ := grown_issued hx
          refine ⟨_, _, _, h, fun _ hfam => .inl (hended ▸ hfam),
            fun _ _ heq => ⟨t.userId, ?_⟩⟩
          cases heq
          rw [hf]
          rfl
      | revoked t =>
          obtain ⟨ids, at_, -, hids, rfl⟩ := hx
          refine ⟨_, _, _, grown_revokeRows hids, fun family hf => ?_,
            fun _ _ hnew => ?_⟩
          · rcases List.mem_append.1 hf with hf | hf
            · obtain ⟨u, -, hc⟩ := seen_of_mem_familiesIn hf
              have hfam : t.family = family := of_decide_eq_true hc
              exact .inr (hfam ▸ rfl)
            · exact .inl hf
          · cases hnew
      | _ => cases hd
  | logout _ _ | endAll _ _ _ | elsewhere _ _ => exact hx.elim

theorem RotationsKept.commit (hi : RotationsKept ttl s) {s' : SignIns}
    {f : String → TokenRow → TokenRow} {claimed : Option String}
    {new : Option (String × TokenRow)}
    (h : Grown ttl s held s' f claimed new) : RotationsKept ttl s' := by
  refine ⟨fun k r' hr' => ?_, fun k r' hr' => ?_, fun k r' hr' hdead => ?_⟩
  · rcases h.of_get? hr' with ⟨r, hr, rfl⟩ | hnew
    · rw [(h.carries k r).family, (h.carries k r).expiresAt]
      exact (hi.lives k r hr).grown h
    · rcases (h.stored _ _ hnew).born with ⟨hfresh, hle⟩ | hwithin
      · -- the family is this row's own, and no older row has it
        refine ⟨k, r', ?_, hle⟩
        unfold firstOf
        rw [h.rows, List.find?_append, List.find?_map, hnew]
        have hnone : s.tokens.rows.find? ((fun t : String × TokenRow =>
            decide (t.2.family = r'.family)) ∘ fun p => (p.1, f p.1 p.2)) = none := by
          refine List.find?_eq_none.2 fun p hp hq => ?_
          refine hfresh.free p.1 p.2 (Table.get?_eq_some.2 hp) ?_
          exact ((h.carries p.1 p.2).family).symm.trans (of_decide_eq_true hq)
        rw [hnone, Option.map_none, Option.none_or, Option.toList_some,
          List.find?_singleton, if_pos (decide_eq_true rfl)]
      · exact hwithin.grown h
  · rcases h.of_get? hr' with ⟨r, hr, rfl⟩ | hnew
    · rw [(h.carries k r).userId]
      exact (hi.active k r hr).grown h
    · exact (h.stored _ _ hnew).active.grown h
  · rcases h.of_get? hr' with ⟨r, hr, rfl⟩ | hnew
    · rw [(h.carries k r).family]
      rcases h.stamped k r hr hdead with hdead | hended
      · exact h.ended _ (hi.ended k r hr hdead)
      · exact hended
    · exact absurd (h.stored _ _ hnew).live hdead

/-! ## What the others keep -/

section Stable

variable {s' : SignIns} {held' : List (Lock SessionKey)}
  {f : String → TokenRow → TokenRow} {claimed : Option String}
  {new : Option (String × TokenRow)}

theorem Presented.grown (h : Grown ttl s held s' f claimed new)
    {hash id : String} {t : TokenRow} (hp : Presented s hash id t) :
    Presented s' hash id t := by
  obtain ⟨r, hr, hf, hu⟩ := hp
  exact ⟨f id r, h.refreshByHash hr, (h.carries id r).family.trans hf,
    (h.carries id r).userId.trans hu⟩

theorem Picked.grown (h : Grown ttl s held s' f claimed new) {family : String}
    {ids : List String} (hids : Picked s family ids) : Picked s' family ids := by
  intro k hk
  obtain ⟨r, hr, hf⟩ := hids k hk
  exact ⟨f k r, h.get?_old hr, (h.carries k r).family.trans hf⟩

variable (hclash : clash held held' = false)

include hclash

theorem Claimed.grown (h : Grown ttl s held s' f claimed new)
    {hash id : String} {t : TokenRow} (hc : Claimed s held' hash id t) :
    Claimed s' held' hash id t := by
  obtain ⟨hkey, r, hr, hf, hu, hunused⟩ := hc
  exact ⟨hkey, f id r, h.refreshByHash hr, (h.carries id r).family.trans hf,
    (h.carries id r).userId.trans hu, h.unused hclash hkey hunused⟩

theorem NewToken.grown (h : Grown ttl s held s' f claimed new) {id : String}
    {row : TokenRow} (hn : NewToken ttl s held' id row) :
    NewToken ttl s' held' id row where
  free := h.free hclash hn.free
  active := hn.active.grown h
  live := hn.live
  born := hn.born.imp (fun hfresh => ⟨h.fresh hclash hfresh.1, hfresh.2⟩)
    fun hwithin => hwithin.grown h

theorem RotationShaped.grown (h : Grown ttl s held s' f claimed new)
    {y : Tx SignIns SessionKey SessionTx} (hheld : y.held = held')
    (hy : RotationShaped ttl s y) : RotationShaped ttl s' y := by
  obtain ⟨t, held', write⟩ := y
  obtain rfl := hheld
  cases t with
  | login userId loc p =>
      cases p with
      | begun => exact hy
      | verified u => exact ⟨hy.1.grown h, hy.2⟩
      | issued family =>
          obtain ⟨id, row, hnew, hf, hfresh, hw⟩ := hy
          exact ⟨id, row, hnew.grown hclash h, hf, h.fresh hclash hfresh, hw⟩
  | refresh hash p =>
      cases p with
      | begun => exact hy
      | read id t | known id t u => exact ⟨hy.1.grown h, hy.2⟩
      | claimed t u =>
          obtain ⟨id, at_, hc, hw⟩ := hy
          exact ⟨id, at_, hc.grown hclash h, hw⟩
      | capped =>
          obtain ⟨id, at_, t, hc, hw⟩ := hy
          exact ⟨id, at_, t, hc.grown hclash h, hw⟩
      | started t u startedAt =>
          obtain ⟨id, at_, hc, hwithin, hw⟩ := hy
          exact ⟨id, at_, hc.grown hclash h, hwithin.grown h, hw⟩
      | issued t =>
          obtain ⟨id, at_, id', row, hc, hnew, hf, hw⟩ := hy
          exact ⟨id, at_, id', row, hc.grown hclash h, hnew.grown hclash h, hf, hw⟩
      | reused t =>
          obtain ⟨⟨id, hp⟩, hw⟩ := hy
          exact ⟨⟨id, hp.grown h⟩, hw⟩
      | picked t ids =>
          obtain ⟨⟨id, hp⟩, hids, hw⟩ := hy
          exact ⟨⟨id, hp.grown h⟩, hids.grown h, hw⟩
      | revoked t =>
          obtain ⟨ids, at_, ⟨id, hp⟩, hids, hw⟩ := hy
          exact ⟨ids, at_, ⟨id, hp.grown h⟩, hids.grown h, hw⟩
  | logout _ _ | endAll _ _ _ | elsewhere _ _ => exact hy.elim

end Stable

end Commit

theorem rotationShaped_begins {ttl : Instant} {s : SignIns} {t : SessionTx}
    (h : (t.starts && t.rotation) = true) : RotationShaped ttl s (.fresh t) := by
  cases t with
  | login _ _ p | refresh _ p =>
      cases p <;> first | exact rfl | cases h
  | logout _ p | endAll _ _ p => cases p <;> cases h
  | elsewhere _ written => cases written <;> cases h

theorem rotations_kept (ttl : Instant)
    (C : World SignIns SessionKey SessionTx →
      TxEvent SessionChoice SessionTx → Prop) :
    (rotations ttl).Kept C (RotationsKept ttl) (RotationShaped ttl) where
  init s hs := by
    obtain ⟨tokens, users, ended⟩ := s
    obtain ⟨rfl, rfl⟩ := hs
    exact ⟨Table.all_empty _, Table.all_empty _, Table.all_empty _⟩
  begins s t _ ht := rotationShaped_begins ht
  runs _ _ x c st _ _ hi hx hs := hx.runs hi hs
  commits w i x _ _ hi hx hd := by
    obtain ⟨f, claimed, new, h, -⟩ := hx.commit hd
    exact hi.commit h
  stable w i j x y _ _ _ _ _ hox hoy hd hc := by
    obtain ⟨f, claimed, new, h, -⟩ := hox.commit hd
    exact RotationShaped.grown hc h rfl hoy

/-! ## A token is exchanged once -/

def SessionTx.exchanges : SessionTx → Option String
  | .refresh hash (.issued _) => some hash
  | _ => none

/-- The token an event exchanges, by its secret: the commit of its successor. -/
def exchanged (w : World SignIns SessionKey SessionTx) :
    TxEvent SessionChoice SessionTx → Option String
  | .commit i => (w.tx i).bind fun x => x.at_.exchanges
  | _ => none

section Runs

variable {ttl : Instant} {w w' : World SignIns SessionKey SessionTx}
  {e : TxEvent SessionChoice SessionTx}

theorem rotations_step (h : (rotations ttl).machine.step w e = some w') :
    w'.committed = w.committed ∧ exchanged w e = none ∨
      ∃ i x, e = .commit i ∧ w.tx i = some x ∧ x.at_.done = true ∧
        w'.committed = x.write w.committed := by
  cases e with
  | begin_ t =>
      obtain ⟨-, rfl⟩ := Database.step_begin h
      exact .inl ⟨rfl, rfl⟩
  | run i c =>
      obtain ⟨x, st, -, -, -, rfl⟩ := Database.step_run h
      exact .inl ⟨rfl, rfl⟩
  | commit i =>
      obtain ⟨x, hx, hd, rfl⟩ := Database.step_commit h
      exact .inr ⟨i, x, rfl, hx, hd, rfl⟩
  | abort i =>
      obtain ⟨x, -, rfl⟩ := Database.step_abort (d := rotations ttl) h
      exact .inl ⟨rfl, rfl⟩

theorem exchange_some (hr : (rotations ttl).machine.Reach w)
    (h : (rotations ttl).machine.step w e = some w') {hash : String}
    (he : exchanged w e = some hash) :
    ∃ id r at_, refreshByHash w.committed hash = some (id, r) ∧
      r.usedAt = none ∧
      refreshByHash w'.committed hash = some (id, usedStamp id at_ id r) := by
  rcases rotations_step h with ⟨-, hnone⟩ | ⟨i, x, rfl, hx, -, hw⟩
  · rw [hnone] at he
    cases he
  · have hsafe := (rotations_kept ttl fun _ _ => True).safe hr
    have hshaped := hsafe.ok i x hx
    obtain ⟨t, held, write⟩ := x
    change (w.tx i).bind (fun x => x.at_.exchanges) = some hash at he
    rw [hx, Option.bind_some] at he
    cases t with
    | refresh hash' p =>
        cases p with
        | issued t =>
            cases he
            obtain ⟨id, at_, id', row, ⟨-, r, hfound, -, -, hunused⟩, -, hgrown,
              -⟩ := grown_issued hshaped
            exact ⟨id, r, at_, hfound, hunused, hw ▸ hgrown.refreshByHash hfound⟩
        | _ => cases he
    | _ => cases he

theorem exchanges_spend (ttl : Instant) :
    (rotations ttl).machine.Spends (fun _ _ => True) exchanged
      fun w hash => Used w.committed hash where
  fresh w e w' hash hr _ h he hused := by
    obtain ⟨id, r, at_, hfound, hunused, -⟩ := exchange_some hr h he
    obtain ⟨id', r', hfound', hused⟩ := hused
    rw [hfound] at hfound'
    cases hfound'
    exact hused hunused
  spends w e w' hash hr _ h he := by
    obtain ⟨id, r, at_, -, -, hfound⟩ := exchange_some hr h he
    refine ⟨id, _, hfound, ?_⟩
    unfold usedStamp
    rw [if_pos rfl]
    exact Option.some_ne_none _
  stays w e w' hash hr _ h hused := by
    rcases rotations_step h with ⟨hw, -⟩ | ⟨i, x, rfl, hx, hd, hw⟩
    · rwa [hw]
    · have hsafe := (rotations_kept ttl fun _ _ => True).safe hr
      obtain ⟨f, claimed, new, hgrown, -⟩ := (hsafe.ok i x hx).commit hd
      rw [hw]
      exact hused.grown hgrown

end Runs

/-! ## A token presented again -/

/-- The secret a refresh goes on with, and the family of its token. -/
def SessionTx.presents : SessionTx → Option (String × String)
  | .refresh hash (.read _ t) | .refresh hash (.known _ t _)
  | .refresh hash (.claimed t _) | .refresh hash (.started t _ _)
  | .refresh hash (.issued t) => some (hash, t.family)
  | _ => none

/-- One commits beside another: where it ends a family the other has only a used
token of it in hand, and where it stores a token the other has not picked that
family's rows to revoke. -/
structure RotatesBeside (s : SignIns) (x y : SessionTx) : Prop where
  ends : ∀ family hash, x.ends = some (.family family) →
    y.presents = some (hash, family) → Used s hash
  brings : ∀ userId family, x.brings = some (userId, family) →
    y.sweeps ≠ some (.family family)

def RotatesAlone (w : World SignIns SessionKey SessionTx) :
    TxEvent SessionChoice SessionTx → Prop
  | .commit i => ∀ x, w.tx i = some x → ∀ j y, i ≠ j → w.tx j = some y →
    RotatesBeside w.committed x.at_ y.at_
  | _ => True

/-- No token of an ended family is left. -/
def FamiliesClosed (s : SignIns) : Prop :=
  s.tokens.All fun _ r => r.family ∈ s.ended → r.revokedAt ≠ none

def FamilyShaped (s : SignIns) (x : Tx SignIns SessionKey SessionTx) : Prop :=
  match x.at_ with
  | .refresh hash (.read _ t) | .refresh hash (.known _ t _) =>
    t.family ∈ s.ended → Used s hash
  | .refresh _ (.claimed t _) | .refresh _ (.started t _ _)
  | .refresh _ (.issued t) => t.family ∉ s.ended
  | .refresh _ (.picked t ids) => Swept s (.family t.family) ids
  | .refresh _ (.revoked t) => ∃ ids at_, Swept s (.family t.family) ids ∧
    x.write = revokeRows (.family t.family) ids at_
  | _ => True

section Closed

variable {ttl : Instant} {s : SignIns}

theorem FamilyShaped.runs (hi : FamiliesClosed s)
    {x : Tx SignIns SessionKey SessionTx} {c : SessionChoice} {st : SessionStmt}
    (hr : RotationShaped ttl s x) (hx : FamilyShaped s x)
    (hs : x.at_.stmt ttl c (x.write s) = some st) :
    FamilyShaped s (x.after st) := by
  obtain ⟨t, held, write⟩ := x
  cases t with
  | login userId loc p =>
      cases p with
      | begun =>
          obtain ⟨u, -, rfl⟩ := Option.map_eq_some_iff.1 hs
          exact trivial
      | verified u =>
          change loginStmt ttl c userId loc (write s) (.verified u) = some st at hs
          rw [loginStmt] at hs
          unfold issueFamily at hs
          split at hs
          · obtain ⟨t', -, rfl⟩ := Option.map_eq_some_iff.1 hs
            exact trivial
          · cases hs
      | issued family => cases hs
  | refresh hash p =>
      cases p with
      | begun =>
          obtain rfl : write = fun x => x := hr
          obtain ⟨t, ht, hs⟩ := Option.bind_eq_some_iff.1 hs
          split at hs
          · next hlive =>
              cases hs
              intro hended
              exact absurd hlive.1
                (hi t.1 t.2 (refreshByHash_get? (s := s) ht) hended)
          · cases hs
      | read id t =>
          obtain ⟨u, -, rfl⟩ := Option.map_eq_some_iff.1 hs
          exact hx
      | known id t u =>
          obtain ⟨⟨r, hfound, hf, -⟩, rfl⟩ := hr
          obtain ⟨row, hrow, rfl⟩ := Option.map_eq_some_iff.1 hs
          rw [refreshByHash_get? hfound] at hrow
          cases hrow
          split
          · next hunused =>
              intro hended
              obtain ⟨id', r', hfound', hused⟩ := hx hended
              rw [hfound] at hfound'
              cases hfound'
              exact hused hunused
          · exact trivial
      | claimed t u =>
          change refreshStmt ttl c hash (write s) (.claimed t u) = some st at hs
          simp only [refreshStmt] at hs
          split at hs
          · cases hs
            exact trivial
          · cases hs
            exact hx
      | started t u startedAt =>
          obtain ⟨t', -, rfl⟩ := Option.map_eq_some_iff.1 hs
          exact hx
      | reused t =>
          obtain ⟨-, rfl⟩ := hr
          cases hs
          exact swept_liveIn (.family t.family) s
      | picked t ids =>
          obtain ⟨-, -, rfl⟩ := hr
          cases hs
          exact ⟨ids, c.at_, hx, rfl⟩
      | capped | issued _ | revoked _ => cases hs
  | logout _ _ | endAll _ _ _ | elsewhere _ _ => exact hr.elim

/-- Old rows stay dead, and the new one is of no ended family. -/
theorem FamiliesClosed.grown (hi : FamiliesClosed s)
    {held : List (Lock SessionKey)} {s' : SignIns}
    {f : String → TokenRow → TokenRow} {claimed : Option String}
    {new : Option (String × TokenRow)}
    (h : Grown ttl s held s' f claimed new)
    (hended : s'.ended = s.ended)
    (hnew : ∀ id row, new = some (id, row) → row.family ∉ s.ended) :
    FamiliesClosed s' := by
  intro k r' hr' hfam
  rw [hended] at hfam
  rcases h.of_get? hr' with ⟨r, hr, rfl⟩ | hstored
  · exact (h.carries k r).dead (hi k r hr ((h.carries k r).family ▸ hfam))
  · exact absurd hfam (hnew _ _ hstored)

theorem FamiliesClosed.commit (hi : FamiliesClosed s)
    {x : Tx SignIns SessionKey SessionTx} (hr : RotationShaped ttl s x)
    (hx : FamilyShaped s x) (hd : x.at_.done = true) :
    FamiliesClosed (x.write s) := by
  obtain ⟨t, held, write⟩ := x
  cases t with
  | login userId loc p =>
      cases p with
      | issued family =>
          obtain ⟨id, row, hnew, rfl, hfresh, rfl⟩ := hr
          refine hi.grown (grown_insertRefresh hnew) rfl fun _ _ heq => ?_
          cases heq
          exact hfresh.live
      | _ => cases hd
  | refresh hash p =>
      cases p with
      | capped =>
          obtain ⟨id, at_, t, hclaim, rfl⟩ := hr
          have h : Grown ttl s held (stampUsed id at_ s) (usedStamp id at_) (some id)
              none := by
            refine grown_stampUsed hclaim.1 (List.append_nil _).symm rfl rfl
              fun _ _ hnew => ?_
            cases hnew
          refine hi.grown h rfl fun _ _ hnew => ?_
          cases hnew
      | issued t =>
          obtain ⟨id, at_, id', row, -, hf, h, hended⟩ := grown_issued hr
          refine hi.grown h hended fun _ _ heq => ?_
          cases heq
          rw [hf]
          exact hx
      | revoked t =>
          obtain ⟨ids, at_, hsw, hw⟩ := hx
          dsimp only at hw ⊢
          rw [hw]
          have hst := stamped_revokeRows hsw at_
          intro k r' hr' hfam
          rcases List.mem_append.1 hfam with hfam | hfam
          · obtain ⟨u, -, hc⟩ := seen_of_mem_familiesIn hfam
            exact hst.swept _ rfl k r' hr' hc
          · obtain ⟨r, hr₀, hb⟩ := hst.old k r' hr'
            exact hb.dead (hi k r hr₀ (hb.family ▸ hfam))
      | _ => cases hd
  | logout _ _ | endAll _ _ _ | elsewhere _ _ => exact hr.elim

theorem FamilyShaped.stable {x y : Tx SignIns SessionKey SessionTx}
    (hx : RotationShaped ttl s x) (hd : x.at_.done = true)
    (hr : RotationShaped ttl s y) (hy : FamilyShaped s y)
    (hbeside : RotatesBeside s x.at_ y.at_)
    (hclash : clash x.held y.held = false) : FamilyShaped (x.write s) y := by
  obtain ⟨f, claimed, new, h, hends, hbrings⟩ := hx.commit hd
  obtain ⟨u, held, write⟩ := y
  have hswept {family : String} {ids : List String}
      (hs : u.sweeps = some (.family family)) (hsw : Swept s (.family family) ids) :
      Swept (x.write s) (.family family) ids := by
    intro k r' hr' hc
    rcases h.of_get? hr' with ⟨r, hr₀, rfl⟩ | hstored
    · have hcover : Scope.covers r.userId r.family (.family family) = true := by
        rw [← (h.carries k r).family]
        exact hc
      exact (hsw k r hr₀ hcover).imp_right (h.carries k r).dead
    · obtain ⟨v, hbr⟩ := hbrings k r' hstored
      have hfam : family = r'.family := of_decide_eq_true hc
      exact absurd (hfam ▸ hs) (hbeside.brings v r'.family hbr)
  -- a token nobody has used is of a family that this commit does not end
  have hlive {hash id : String} {t : TokenRow}
      (hp : u.presents = some (hash, t.family))
      (hc : Claimed s held hash id t) (hfree : t.family ∉ s.ended) :
      t.family ∉ (x.write s).ended := by
    intro hfam
    rcases hends _ hfam with hfam | hends
    · exact hfree hfam
    · obtain ⟨-, r, hfound, -, -, hunused⟩ := hc
      obtain ⟨id', r', hfound', hused⟩ := hbeside.ends _ _ hends hp
      rw [hfound] at hfound'
      cases hfound'
      exact hused hunused
  have hgone {hash : String} {t : TokenRow}
      (hp : u.presents = some (hash, t.family))
      (hused : t.family ∈ s.ended → Used s hash) :
      t.family ∈ (x.write s).ended → Used (x.write s) hash := by
    intro hfam
    rcases hends _ hfam with hfam | hends
    · exact (hused hfam).grown h
    · exact (hbeside.ends _ _ hends hp).grown h
  cases u with
  | refresh hash p =>
      cases p with
      | read id t | known id t u => exact hgone rfl hy
      | claimed t u | started t u startedAt =>
          obtain ⟨id, at_, hc, -⟩ := hr
          exact hlive rfl hc hy
      | issued t =>
          obtain ⟨id, at_, id', row, hc, -⟩ := hr
          exact hlive rfl hc hy
      | picked t ids => exact hswept rfl hy
      | revoked t =>
          obtain ⟨ids, at_, hsw, hw⟩ := hy
          exact ⟨ids, at_, hswept rfl hsw, hw⟩
      | _ => exact trivial
  | _ => exact trivial

end Closed

theorem families_kept (ttl : Instant) :
    (rotations ttl).Kept RotatesAlone
      (fun s => RotationsKept ttl s ∧ FamiliesClosed s)
      fun s x => RotationShaped ttl s x ∧ FamilyShaped s x where
  init s hs := by
    obtain ⟨tokens, users, ended⟩ := s
    obtain ⟨rfl, rfl⟩ := hs
    exact ⟨(rotations_kept ttl RotatesAlone).init _ ⟨rfl, rfl⟩, Table.all_empty _⟩
  begins s t hi ht := by
    refine ⟨rotationShaped_begins ht, ?_⟩
    cases t with
    | refresh _ p => cases p <;> first | exact trivial | cases ht
    | _ => exact trivial
  runs _ _ x c st _ _ hi hx hs :=
    ⟨hx.1.runs hi.1 hs, FamilyShaped.runs hi.2 hx.1 hx.2 hs⟩
  commits w i x hC hx hi hox hd :=
    ⟨(rotations_kept ttl RotatesAlone).commits w i x hC hx hi.1 hox.1 hd,
      hi.2.commit hox.1 hox.2 hd⟩
  stable w i j x y hC hij hx hy hi hox hoy hd hc :=
    ⟨(rotations_kept ttl RotatesAlone).stable w i j x y hC hij hx hy hi.1 hox.1
        hoy.1 hd hc,
      FamilyShaped.stable hox.1 hd hoy.1 hoy.2 (hC x hx j y hij hy) hc⟩

/-! ## The three promises -/

/-- What a presentation of a used token comes to. Refused outright it was late, or
its family had ended. Read, it is never exchanged: whatever statement it has come to
has a next one, and its commit ends the family. -/
structure PresentedAgain (ttl : Instant) (w : World SignIns SessionKey SessionTx)
    (hash : String) (r : TokenRow) : Prop where
  outright : ∀ c : SessionChoice, c.at_ ≤ r.expiresAt →
    refreshStmt ttl c hash w.committed .begun = none →
      r.family ∈ w.committed.ended
  ends : ∀ i x p, w.tx i = some x → x.at_ = .refresh hash p → p ≠ .begun →
    x.at_.done = true → r.family ∈ (x.write w.committed).ended
  goesOn : ∀ i x p, w.tx i = some x → x.at_ = .refresh hash p → p ≠ .begun →
    x.at_.done = false →
      ∀ c, (x.at_.stmt ttl c (x.write w.committed)).isSome = true

theorem presentedAgain {ttl : Instant} {w : World SignIns SessionKey SessionTx}
    (hsafe : Database.Safe (RotationsKept ttl) (RotationShaped ttl) w)
    {hash id : String} {r : TokenRow}
    (hfound : refreshByHash w.committed hash = some (id, r))
    (hused : r.usedAt ≠ none) : PresentedAgain ttl w hash r := by
  have hnot {held : List (Lock SessionKey)} {id' : String} {t : TokenRow}
      (hc : Claimed w.committed held hash id' t) : False := by
    obtain ⟨-, r', hfound', -, -, hunused⟩ := hc
    rw [hfound] at hfound'
    cases hfound'
    exact hused hunused
  have hfamily {id' : String} {t : TokenRow}
      (hp : Presented w.committed hash id' t) : r.family = t.family := by
    obtain ⟨r', hfound', hf, -⟩ := hp
    rw [hfound] at hfound'
    cases hfound'
    exact hf
  refine ⟨fun c hle hnone => ?_, fun i x p hx hp hbegun hd => ?_,
    fun i x p hx hp hbegun hd c => ?_⟩
  · rw [refreshStmt, hfound, Option.bind_some] at hnone
    by_cases hlive : r.revokedAt = none
    · rw [if_pos ⟨hlive, hle⟩] at hnone
      cases hnone
    · exact hsafe.inv.ended id r (refreshByHash_get? hfound) hlive
  · have hshaped := hsafe.ok i x hx
    obtain ⟨t, held, write⟩ := x
    obtain rfl : t = .refresh hash p := hp
    cases p with
    | capped =>
        obtain ⟨id', at_, t, hc, -⟩ := hshaped
        exact (hnot hc).elim
    | issued t =>
        obtain ⟨id', at_, id'', row, hc, -⟩ := hshaped
        exact (hnot hc).elim
    | revoked t =>
        obtain ⟨ids, at_, ⟨id', hp⟩, -, rfl⟩ := hshaped
        rw [hfamily hp]
        exact mem_ended_revokeRows (refreshByHash_get? hfound) (hfamily hp)
    | _ => cases hd
  · have hshaped := hsafe.ok i x hx
    obtain ⟨t, held, write⟩ := x
    obtain rfl : t = .refresh hash p := hp
    cases p with
    | begun => exact absurd rfl hbegun
    | read id' t =>
        obtain ⟨⟨r', hfound', -, hu⟩, rfl⟩ := hshaped
        obtain ⟨u, hget, hactive⟩ :=
          hsafe.inv.active id' r' (refreshByHash_get? hfound')
        change (((w.committed.users.get? t.userId).filter
          AccountRow.active).map _).isSome = true
        rw [← hu, hget, Option.filter_some, if_pos hactive]
        rfl
    | known id' t u =>
        obtain ⟨⟨r', hfound', -⟩, rfl⟩ := hshaped
        change ((w.committed.tokens.get? id').map _).isSome = true
        rw [refreshByHash_get? hfound']
        rfl
    | claimed t u | started t u startedAt =>
        obtain ⟨id', at_, hc, -⟩ := hshaped
        exact (hnot hc).elim
    | reused t | picked t ids => rfl
    | capped | issued t | revoked t => cases hd

/-- Sign-ins and refreshes, any number open at once. No token is exchanged twice. No
token of a family outlives the family's first by the configured days, and none is
accepted later than that. And where no commit ends a family beside an unused token of
it in another's hands, and none stores a token of a family whose rows another has
picked to revoke, every family that was ended has no token left, and a token
presented again, by its expiry, has its family ended. -/
theorem tokens_rotate_once (ttl : Instant) :
    (∀ w₀ es, (rotations ttl).machine.init w₀ →
      ((rotations ttl).machine.outputs exchanged w₀ es).Nodup) ∧
    (∀ w, (rotations ttl).machine.Reach w →
      (w.committed.tokens.All fun _ r =>
        Within ttl w.committed r.family r.expiresAt) ∧
      ∀ hash c st, refreshStmt ttl c hash w.committed .begun = some st →
        ∃ id r, refreshByHash w.committed hash = some (id, r) ∧
          Within ttl w.committed r.family c.at_) ∧
    ∀ w, (rotations ttl).machine.ReachVia RotatesAlone w →
      FamiliesClosed w.committed ∧
      ∀ hash id r, refreshByHash w.committed hash = some (id, r) →
        r.usedAt ≠ none → PresentedAgain ttl w hash r := by
  refine ⟨fun w₀ es h₀ => (exchanges_spend ttl).nodup (.init h₀)
    fun _ _ _ => trivial, fun w hr => ?_, fun w hr => ?_⟩
  · have hsafe := (rotations_kept ttl fun _ _ => True).safe hr
    refine ⟨hsafe.inv.lives, fun hash c st hst => ?_⟩
    obtain ⟨t, ht, hst⟩ := Option.bind_eq_some_iff.1 hst
    split at hst
    · next hlive =>
        obtain ⟨k, first, hfirst, hle⟩ :=
          hsafe.inv.lives t.1 t.2 (refreshByHash_get? ht)
        exact ⟨t.1, t.2, ht, k, first, hfirst, hlive.2.trans hle⟩
    · cases hst
  · have hsafe := (families_kept ttl).safe hr
    exact ⟨hsafe.inv.2, fun hash id r hfound hused =>
      presentedAgain ((rotations_kept ttl RotatesAlone).safe hr) hfound hused⟩

/-! ## The race -/

/-- One account signs in and its token is exchanged for "h2". -/
def exchangedOnce : List (TxEvent SessionChoice SessionTx) :=
  signedIn ++ .begin_ (.refresh "h1" .begun) ::
    List.replicate 5 (.run 1 ⟨1, "t2", "", "h2"⟩) ++ [.commit 1]

/-- The live token is being exchanged for "h3" while the old one is presented again;
the reuse picks the rows it sees, waits for the exchange, and revokes those. -/
def reusedBeside : List (TxEvent SessionChoice SessionTx) :=
  exchangedOnce ++ .begin_ (.refresh "h2" .begun) ::
    List.replicate 5 (.run 2 ⟨2, "t3", "", "h3"⟩) ++
    .begin_ (.refresh "h1" .begun) ::
    List.replicate 4 (.run 3 ⟨3, "", "", ""⟩) ++
    [.commit 2, .run 3 ⟨3, "", "", ""⟩, .commit 3]

theorem reuse_misses_successor : ∃ w,
    (rotations 30).machine.run ⟨oneAccount, []⟩ reusedBeside = some w ∧
      (rotations 30).machine.Reach w ∧ "f1" ∈ w.committed.ended ∧
      ¬FamiliesClosed w.committed := by
  have hany : ((rotations 30).machine.run ⟨oneAccount, []⟩ reusedBeside).any
      (fun w => decide ("f1" ∈ w.committed.ended ∧
        (w.committed.tokens.get? "t3").any (fun r =>
          decide (r.family = "f1" ∧ r.revokedAt = none)) = true)) = true := by
    decide +kernel
  obtain ⟨w, hrun, hd⟩ := (Option.any_eq_true _ _).1 hany
  obtain ⟨hended, hd⟩ := of_decide_eq_true hd
  obtain ⟨r, hr, hd⟩ := (Option.any_eq_true _ _).1 hd
  obtain ⟨hf, hlive⟩ := of_decide_eq_true hd
  have hinit : (rotations 30).machine.Reach ⟨oneAccount, []⟩ :=
    .init ⟨⟨rfl, rfl⟩, rfl⟩
  exact ⟨w, hrun, Machine.reach_run hinit hrun, hended,
    fun hw => hw "t3" r hr (hf ▸ hended) hlive⟩

/-- The same token again with nothing beside it: its family is ended, and the token
it had been exchanged for is refused. -/
theorem tokens_rotate_once_alone : ∃ w,
    (rotations 30).machine.runVia revokesAlone ⟨oneAccount, []⟩
        (exchangedOnce ++ .begin_ (.refresh "h1" .begun) ::
          List.replicate 5 (.run 2 ⟨2, "", "", ""⟩) ++ [.commit 2]) = some w ∧
      FamiliesClosed w.committed ∧ "f1" ∈ w.committed.ended ∧
      ((rotations 30).machine.outputs exchanged ⟨oneAccount, []⟩
        exchangedOnce).Nodup ∧
      (w.committed.tokens.All fun _ r => Within 30 w.committed r.family r.expiresAt) := by
  have hany : ((rotations 30).machine.runVia revokesAlone ⟨oneAccount, []⟩
      (exchangedOnce ++ .begin_ (.refresh "h1" .begun) ::
        List.replicate 5 (.run 2 ⟨2, "", "", ""⟩) ++ [.commit 2])).any
      (fun w => decide ("f1" ∈ w.committed.ended)) = true := by
    decide +kernel
  obtain ⟨w, hrun, hended⟩ := (Option.any_eq_true _ _).1 hany
  have h₀ : (rotations 30).machine.init ⟨oneAccount, []⟩ := ⟨⟨rfl, rfl⟩, rfl⟩
  have hsound (w : World SignIns SessionKey SessionTx)
      (e : TxEvent SessionChoice SessionTx) (h : revokesAlone w e = true) :
      RotatesAlone w e := by
    cases e with
    | commit i =>
        intro x _ j y hij hy
        have := List.all_eq_true.1 h j (List.mem_range.2 (World.lt_of_tx hy))
        simp [hij, hy] at this
    | _ => exact trivial
  have hreach := Machine.reachVia_runVia hsound (.init h₀) hrun
  obtain ⟨honce, hlife, hclosed⟩ := tokens_rotate_once 30
  exact ⟨w, hrun, (hclosed w hreach).1, of_decide_eq_true hended,
    honce _ exchangedOnce h₀, (hlife w hreach.reach).1⟩

end Rch
