import Rch.Machine.Sessions

/-!
# A revocation and the refresh beside it

A refresh that has read its token before a revocation commits goes on after it:
its claim of the token asks only whether the token was used, and its successor
is a row no revocation has picked. So a family that was ended has a token that
works. The same happens to a session stored between the instant a revocation
picks its rows and the instant it commits.

Where neither happens, a revocation is final.
-/

namespace Rch

open Kit

/-! ## What a transaction is up to -/

def SessionTx.ends : SessionTx → Option Scope
  | .refresh _ (.revoked t) | .logout _ (.revoked t) => some (.family t.family)
  | .endAll userId _ .revoked | .endAll userId _ (.renewed _) =>
    some (.account userId)
  | _ => none

def SessionTx.sweeps : SessionTx → Option Scope
  | .refresh _ (.picked t _) | .refresh _ (.revoked t)
  | .logout _ (.picked t _) | .logout _ (.revoked t) => some (.family t.family)
  | .endAll userId _ (.picked _) | .endAll userId _ .revoked
  | .endAll userId _ (.renewed _) => some (.account userId)
  | _ => none

def SessionTx.rotates : SessionTx → Option TokenRow
  | .refresh _ (.read _ t) | .refresh _ (.known _ t _)
  | .refresh _ (.claimed t _) | .refresh _ (.started t _ _)
  | .refresh _ (.issued t) => some t
  | _ => none

/-- The account and the family a transaction's commit stores a token for. -/
def SessionTx.brings : SessionTx → Option (String × String)
  | .login userId _ (.issued family)
  | .endAll userId _ (.renewed family) => some (userId, family)
  | .refresh _ (.issued t) => some (t.userId, t.family)
  | _ => none

/-! ## Rows and what is done to them -/

/-- Some token of this family is stored, and is this account's. -/
def Seen (s : SignIns) (userId family : String) : Prop :=
  ∃ k r, s.tokens.get? k = some r ∧ r.userId = userId ∧ r.family = family

/-- What is left of the scope, apart from the rows picked, is revoked. -/
def Swept (s : SignIns) (scope : Scope) (ids : List String) : Prop :=
  s.tokens.All fun k r => scope.covers r.userId r.family = true →
    k ∈ ids ∨ r.revokedAt ≠ none

/-- The family somebody has drawn is nobody else's. -/
structure FreshFamily (s : SignIns) (held : List (Lock SessionKey))
    (family : String) : Prop where
  key : ⟨.drawn family, .update⟩ ∈ held
  live : family ∉ s.ended
  free : s.tokens.All fun _ r => r.family ≠ family

/-- A row about to be stored under an id nobody else has. -/
structure FreeToken (s : SignIns) (held : List (Lock SessionKey))
    (id : String) : Prop where
  key : ⟨.token id, .update⟩ ∈ held
  free : s.tokens.get? id = none

/-- A row before and after: whose it is stays, and so does its revocation. -/
structure TokenRow.Becomes (r r' : TokenRow) : Prop where
  userId : r'.userId = r.userId
  family : r'.family = r.family
  dead : r.revokedAt ≠ none → r'.revokedAt ≠ none

theorem TokenRow.Becomes.refl (r : TokenRow) : r.Becomes r := ⟨rfl, rfl, id⟩

/-- Rows were stamped and none stored; of a scope, every row is dead. -/
structure Stamped (s s' : SignIns) (scope : Option Scope) : Prop where
  old : ∀ k r', s'.tokens.get? k = some r' →
    ∃ r, s.tokens.get? k = some r ∧ r.Becomes r'
  kept : ∀ k r, s.tokens.get? k = some r →
    ∃ r', s'.tokens.get? k = some r' ∧ r.Becomes r'
  swept : ∀ sc, scope = some sc → s'.tokens.All fun _ r =>
    sc.covers r.userId r.family = true → r.revokedAt ≠ none
  ended : ∀ f ∈ s'.ended, f ∈ s.ended ∨ ∃ sc userId, scope = some sc ∧
    Seen s userId f ∧ sc.covers userId f = true

theorem Stamped.free {s s' : SignIns} {scope : Option Scope}
    (h : Stamped s s' scope) {id : String} (hid : s.tokens.get? id = none) :
    s'.tokens.get? id = none := by
  cases hg : s'.tokens.get? id with
  | none => rfl
  | some r' =>
      obtain ⟨r, hr, -⟩ := h.old id r' hg
      rw [hid] at hr
      cases hr

theorem Stamped.of_eq {s s' : SignIns} (ht : s'.tokens = s.tokens)
    (he : s'.ended = s.ended) : Stamped s s' none where
  old _ r' hr' := ⟨r', ht ▸ hr', .refl r'⟩
  kept _ r hr := ⟨r, ht.symm ▸ hr, .refl r⟩
  swept := nofun
  ended _ hf := .inl (he ▸ hf)

/-- What only the accounts tell apart is stamped alike. -/
theorem Stamped.from_same {s s₁ s' : SignIns} {scope : Option Scope}
    (h : Stamped s₁ s' scope) (ht : s₁.tokens = s.tokens)
    (he : s₁.ended = s.ended) : Stamped s s' scope := by
  refine ⟨ht ▸ h.old, ht ▸ h.kept, h.swept, fun f hf => ?_⟩
  rcases h.ended f hf with hf | ⟨sc, userId, hsc, ⟨k, r, hr, hrest⟩, hc⟩
  · exact .inl (he ▸ hf)
  · exact .inr ⟨sc, userId, hsc, ⟨k, r, ht ▸ hr, hrest⟩, hc⟩

theorem stamped_stampUsed (s : SignIns) (id : String) (at_ : Instant) :
    Stamped s (stampUsed id at_ s) none where
  old k r' hr' := by
    change (s.tokens.modify id _).get? k = some r' at hr'
    rw [Table.get?_modify] at hr'
    split at hr'
    · next hk =>
        obtain ⟨r, hr, rfl⟩ := Option.map_eq_some_iff.1 hr'
        exact ⟨r, hk ▸ hr, rfl, rfl, fun h => h⟩
    · exact ⟨r', hr', .refl r'⟩
  kept k r hr := by
    change ∃ r', (s.tokens.modify id _).get? k = some r' ∧ _
    rw [Table.get?_modify]
    split
    · next hk =>
        subst hk
        rw [hr]
        exact ⟨_, rfl, rfl, rfl, fun h => h⟩
    · exact ⟨r, hr, .refl r⟩
  swept := nofun
  ended _ hf := .inl hf

theorem get?_stampRevoked (ids : List String) (at_ : Instant) (s : SignIns)
    (k : String) : (stampRevoked ids at_ s).tokens.get? k =
      (s.tokens.get? k).map fun r =>
        if k ∈ ids ∧ r.revokedAt = none then { r with revokedAt := some at_ }
        else r := Table.get?_update ..

theorem becomes_stampRevoked (k : String) (ids : List String) (at_ : Instant)
    (r : TokenRow) : r.Becomes (if k ∈ ids ∧ r.revokedAt = none then
      { r with revokedAt := some at_ } else r) := by
  split
  · exact ⟨rfl, rfl, nofun⟩
  · exact .refl r

theorem seen_of_mem_familiesIn {scope : Scope} {s : SignIns} {f : String}
    (h : f ∈ familiesIn scope s) :
    ∃ userId, Seen s userId f ∧ scope.covers userId f = true := by
  obtain ⟨⟨k, r⟩, hr, rfl⟩ := List.mem_map.1 h
  obtain ⟨hr, hc⟩ := List.mem_filter.1 hr
  exact ⟨r.userId, ⟨k, r, Table.get?_eq_some.2 hr, rfl, rfl⟩, hc⟩

/-- A revocation that has picked all there is kills all there is. -/
theorem stamped_revokeRows {s : SignIns} {scope : Scope} {ids : List String}
    (h : Swept s scope ids) (at_ : Instant) :
    Stamped s (revokeRows scope ids at_ s) (some scope) := by
  have hget : ∀ k, (revokeRows scope ids at_ s).tokens.get? k = _ :=
    get?_stampRevoked ids at_ s
  refine ⟨fun k r' hr' => ?_, fun k r hr => ?_, ?_, fun f hf => ?_⟩
  · rw [hget] at hr'
    obtain ⟨r, hr, rfl⟩ := Option.map_eq_some_iff.1 hr'
    exact ⟨r, hr, becomes_stampRevoked k ids at_ r⟩
  · exact ⟨_, (hget k).trans (by rw [hr, Option.map_some]),
      becomes_stampRevoked k ids at_ r⟩
  · rintro sc ⟨⟩ k r' hr' hc
    rw [hget] at hr'
    obtain ⟨r, hr, rfl⟩ := Option.map_eq_some_iff.1 hr'
    split
    · nofun
    · next hlive =>
        rw [if_neg hlive] at hc
        rcases h k r hr hc with hid | hdead
        · exact fun h₀ => hlive ⟨hid, h₀⟩
        · exact hdead
  · rcases List.mem_append.1 hf with hf | hf
    · obtain ⟨userId, ⟨k, r', hr', rfl, rfl⟩, hc⟩ := seen_of_mem_familiesIn hf
      rw [get?_stampRevoked] at hr'
      obtain ⟨r, hr, rfl⟩ := Option.map_eq_some_iff.1 hr'
      have hb := becomes_stampRevoked k ids at_ r
      exact .inr ⟨scope, _, rfl, ⟨k, r, hr, hb.userId.symm, hb.family.symm⟩, hc⟩
    · exact .inl hf

theorem stamped_endAll {s : SignIns} {userId : String} {ids : List String}
    (h : Swept s (.account userId) ids) (why : Ending) (at_ : Instant) :
    Stamped s (revokeRows (.account userId) ids at_ (writeAccount userId why s))
      (some (.account userId)) :=
  have h' : Swept (writeAccount userId why s) (.account userId) ids := h
  (stamped_revokeRows h' at_).from_same rfl rfl

theorem swept_liveIn (scope : Scope) (s : SignIns) :
    Swept s scope (liveIn scope s) := by
  intro k r hr hc
  by_cases hlive : r.revokedAt = none
  · refine .inl (List.mem_map.2 ⟨(k, r), List.mem_filter.2
      ⟨Table.get?_eq_some.1 hr, ?_⟩, rfl⟩)
    rw [hc, hlive]
    rfl
  · exact .inr hlive

/-! ## Where each transaction stands -/

/-- Committed, a family that was ended has no token left, and a family is one
account's. -/
structure SessionsKept (s : SignIns) : Prop where
  dead : s.tokens.All fun _ r => r.family ∈ s.ended → r.revokedAt ≠ none
  whose : ∀ k r userId, s.tokens.get? k = some r → Seen s userId r.family →
    r.userId = userId

def Minting (s : SignIns) (held : List (Lock SessionKey))
    (userId family : String) (insert : SignIns → SignIns) : Prop :=
  FreshFamily s held family ∧ ∃ id row, FreeToken s held id ∧
    row.userId = userId ∧ row.family = family ∧ insert = insertRefresh id row

def Usable (s : SignIns) (t : TokenRow) : Prop :=
  Seen s t.userId t.family ∧ t.family ∉ s.ended

/-- What each transaction has locked, written and picked so far. -/
def SessionShaped (s : SignIns) (x : Tx SignIns SessionKey SessionTx) : Prop :=
  match x.at_ with
  | .login _ _ .begun | .login _ _ (.verified _) | .refresh _ .begun
  | .refresh _ (.reused _) | .logout _ .begun | .logout _ (.found _)
  | .endAll _ _ .begun | .elsewhere _ false => x.write = fun x => x
  | .login userId _ (.issued family) =>
    Minting s x.held userId family x.write
  | .refresh _ (.read _ t) | .refresh _ (.known _ t _) =>
    Usable s t ∧ x.write = fun x => x
  | .refresh _ (.claimed t _) | .refresh _ (.started t _ _) =>
    Usable s t ∧ ∃ id at_, x.write = stampUsed id at_
  | .refresh _ .capped => ∃ id at_, x.write = stampUsed id at_
  | .refresh _ (.issued t) =>
    Usable s t ∧ ∃ id at_ id' row, FreeToken s x.held id' ∧
      row.userId = t.userId ∧ row.family = t.family ∧
      x.write = fun s => insertRefresh id' row (stampUsed id at_ s)
  | .refresh _ (.picked t ids) | .logout _ (.picked t ids) =>
    Swept s (.family t.family) ids ∧ x.write = fun x => x
  | .refresh _ (.revoked t) | .logout _ (.revoked t) =>
    ∃ ids at_, Swept s (.family t.family) ids ∧
      x.write = revokeRows (.family t.family) ids at_
  | .endAll userId why .written => x.write = writeAccount userId why
  | .endAll userId why (.picked ids) =>
    Swept s (.account userId) ids ∧ x.write = writeAccount userId why
  | .endAll userId why .revoked =>
    ∃ ids at_, Swept s (.account userId) ids ∧
      x.write = fun s => revokeRows (.account userId) ids at_
        (writeAccount userId why s)
  | .endAll userId why (.renewed family) =>
    ∃ ids at_ insert, Swept s (.account userId) ids ∧
      Minting s x.held userId family insert ∧
      x.write = fun s => insert (revokeRows (.account userId) ids at_
        (writeAccount userId why s))
  | .elsewhere users true => x.write = writeUsers users

theorem sessionShaped_begins {s : SignIns} {t : SessionTx}
    (h : t.starts = true) : SessionShaped s (.fresh t) := by
  cases t with
  | login _ _ p | refresh _ p | logout _ p | endAll _ _ p =>
      cases p <;> first | rfl | cases h
  | elsewhere users written => cases written <;> first | rfl | cases h

/-! ## A statement keeps it -/

section Runs

variable {ttl : Instant} {c : SessionChoice} {s : SignIns}
variable {held : List (Lock SessionKey)} {write : SignIns → SignIns}
variable {st : SessionStmt}

/-- What a statement that issues a family does, over writes that free no
family and no id. -/
theorem minting_issueFamily {s' : SignIns} {scope : Option Scope}
    (hw : Stamped s s' scope) (hended : ∀ f ∈ s.ended, f ∈ s'.ended)
    {userId : String} {loc : LocKey} {next : SessionTx}
    (hs : issueFamily ttl c s' userId loc next = some st) :
    st.next = next ∧
      Minting s (st.locks ++ held) userId c.family st.write := by
  unfold issueFamily at hs
  split at hs
  · next hfresh =>
      obtain ⟨hlive, hall⟩ := hfresh
      obtain ⟨t', ht', rfl⟩ := Option.map_eq_some_iff.1 hs
      have hfree : s.tokens.get? c.id = none := by
        cases hg : s.tokens.get? c.id with
        | none => rfl
        | some r =>
            obtain ⟨r', hr', -⟩ := hw.kept c.id r hg
            rw [(Table.insert?_eq_some ht').1] at hr'
            cases hr'
      refine ⟨rfl, ⟨by simp, fun hf => hlive (hended _ hf), fun k r hr hf => ?_⟩,
        c.id, _, ⟨by simp, hfree⟩, rfl, rfl, rfl⟩
      obtain ⟨r', hr', hb⟩ := hw.kept k r hr
      have := List.all_eq_true.1 hall _ (Table.get?_eq_some.1 hr')
      exact of_decide_eq_true this (hb.family.trans hf)
  · cases hs

/-- A token read unrevoked is of a family that was not ended. -/
theorem SessionsKept.usable (hi : SessionsKept s) {hash : String}
    {t : String × TokenRow} (ht : refreshByHash s hash = some t)
    (hlive : t.2.revokedAt = none) : Usable s t.2 := by
  have hget : s.tokens.get? t.1 = some t.2 :=
    Table.get?_eq_some.2 (List.mem_of_find?_eq_some ht)
  exact ⟨⟨t.1, t.2, hget, rfl, rfl⟩,
    fun hf => hi.dead t.1 t.2 hget hf hlive⟩

theorem SessionShaped.login_runs {userId : String} {loc : Option LocKey}
    {p : LoginAt} (hx : SessionShaped s ⟨.login userId loc p, held, write⟩)
    (hs : loginStmt ttl c userId loc (write s) p = some st) :
    SessionShaped s (Tx.after ⟨.login userId loc p, held, write⟩ st) := by
  cases p with
  | begun =>
      obtain rfl := hx
      obtain ⟨u, -, rfl⟩ := Option.map_eq_some_iff.1 hs
      exact rfl
  | verified u =>
      obtain rfl := hx
      obtain ⟨hnext, hm⟩ :=
        minting_issueFamily (.of_eq (s := s) rfl rfl) (fun _ hf => hf) hs
      unfold SessionShaped Tx.after
      rw [hnext]
      exact hm
  | issued family => cases hs

theorem SessionShaped.refresh_runs (hi : SessionsKept s) {hash : String}
    {p : RefreshAt} (hx : SessionShaped s ⟨.refresh hash p, held, write⟩)
    (hs : refreshStmt ttl c hash (write s) p = some st) :
    SessionShaped s (Tx.after ⟨.refresh hash p, held, write⟩ st) := by
  cases p with
  | begun =>
      obtain rfl := hx
      obtain ⟨t, ht, hs⟩ := Option.bind_eq_some_iff.1 hs
      split at hs
      · next hlive =>
          cases hs
          exact ⟨hi.usable ht hlive.1, rfl⟩
      · cases hs
  | read id t =>
      obtain ⟨hu, rfl⟩ := hx
      obtain ⟨u, -, rfl⟩ := Option.map_eq_some_iff.1 hs
      exact ⟨hu, rfl⟩
  | known id t u =>
      obtain ⟨hu, rfl⟩ := hx
      obtain ⟨row, -, rfl⟩ := Option.map_eq_some_iff.1 hs
      split
      · exact ⟨hu, id, c.at_, rfl⟩
      · exact rfl
  | claimed t u =>
      obtain ⟨hu, id, at_, rfl⟩ := hx
      simp only [refreshStmt] at hs
      split at hs <;> cases hs
      · exact ⟨id, at_, rfl⟩
      · exact ⟨hu, id, at_, rfl⟩
  | started t u startedAt =>
      obtain ⟨hu, id, at_, rfl⟩ := hx
      obtain ⟨t', ht', rfl⟩ := Option.map_eq_some_iff.1 hs
      have hfree : s.tokens.get? c.id = none := by
        cases hg : s.tokens.get? c.id with
        | none => rfl
        | some r =>
            obtain ⟨r', hr', -⟩ := (stamped_stampUsed s id at_).kept c.id r hg
            rw [(Table.insert?_eq_some ht').1] at hr'
            cases hr'
      exact ⟨hu, id, at_, c.id, tokenRow ttl c t.userId t.family startedAt
        (t.loc.getD u.loc), ⟨List.mem_cons_self, hfree⟩, rfl, rfl, rfl⟩
  | reused t =>
      obtain rfl := hx
      cases hs
      exact ⟨swept_liveIn (.family t.family) s, rfl⟩
  | picked t ids =>
      obtain ⟨hsw, rfl⟩ := hx
      cases hs
      exact ⟨ids, c.at_, hsw, rfl⟩
  | capped | issued _ | revoked _ => cases hs

theorem SessionShaped.logout_runs {hash : String} {p : LogoutAt}
    (hx : SessionShaped s ⟨.logout hash p, held, write⟩)
    (hs : logoutStmt c hash (write s) p = some st) :
    SessionShaped s (Tx.after ⟨.logout hash p, held, write⟩ st) := by
  cases p with
  | begun =>
      obtain rfl := hx
      obtain ⟨t, -, rfl⟩ := Option.map_eq_some_iff.1 hs
      exact rfl
  | found t =>
      obtain rfl := hx
      cases hs
      exact ⟨swept_liveIn (.family t.family) s, rfl⟩
  | picked t ids =>
      obtain ⟨hsw, rfl⟩ := hx
      cases hs
      exact ⟨ids, c.at_, hsw, rfl⟩
  | revoked t => cases hs

theorem SessionShaped.end_runs {userId : String} {why : Ending} {p : EndAt}
    (hx : SessionShaped s ⟨.endAll userId why p, held, write⟩)
    (hs : endStmt ttl c userId why (write s) p = some st) :
    SessionShaped s (Tx.after ⟨.endAll userId why p, held, write⟩ st) := by
  cases p with
  | begun =>
      obtain rfl := hx
      obtain ⟨u, -, rfl⟩ := Option.map_eq_some_iff.1 hs
      exact rfl
  | written =>
      obtain rfl := hx
      cases hs
      exact ⟨swept_liveIn (.account userId) (writeAccount userId why s), rfl⟩
  | picked ids =>
      obtain ⟨hsw, rfl⟩ := hx
      cases hs
      exact ⟨ids, c.at_, hsw, rfl⟩
  | revoked =>
      obtain ⟨ids, at_, hsw, rfl⟩ := hx
      simp only [endStmt] at hs
      split at hs
      · obtain ⟨u, -, hs⟩ := Option.bind_eq_some_iff.1 hs
        obtain ⟨hnext, hm⟩ := minting_issueFamily
          (stamped_endAll hsw why at_) (fun f hf => List.mem_append_right _ hf)
          hs
        unfold SessionShaped Tx.after
        rw [hnext]
        exact ⟨ids, at_, st.write, hsw, hm, rfl⟩
      · cases hs
  | renewed family => cases hs

theorem SessionShaped.runs (hi : SessionsKept s)
    {x : Tx SignIns SessionKey SessionTx} (hx : SessionShaped s x)
    (hs : x.at_.stmt ttl c (x.write s) = some st) :
    SessionShaped s (x.after st) := by
  obtain ⟨t, held, write⟩ := x
  cases t with
  | login userId loc p => exact hx.login_runs hs
  | refresh hash p => exact hx.refresh_runs hi hs
  | logout hash p => exact hx.logout_runs hs
  | endAll userId why p => exact hx.end_runs hs
  | elsewhere users written =>
      cases written with
      | false =>
          obtain rfl := hx
          cases hs
          exact rfl
      | true => cases hs

end Runs

/-! ## What a commit does -/

/-- A row a commit stores: of a family just drawn, or of one still in use. -/
def Stores (s : SignIns) (held : List (Lock SessionKey)) (t : SessionTx)
    (id : String) (row : TokenRow) : Prop :=
  FreeToken s held id ∧ t.brings = some (row.userId, row.family) ∧
    (FreshFamily s held row.family ∨ t.ends = none ∧ Usable s row)

inductive SessionCommit (s : SignIns) (held : List (Lock SessionKey))
    (t : SessionTx) : SignIns → Prop
  | stamps (s' : SignIns) (stamped : Stamped s s' t.ends) :
      SessionCommit s held t s'
  | adds (s₁ : SignIns) (id : String) (row : TokenRow)
      (stamped : Stamped s s₁ t.ends) (stores : Stores s held t id row) :
      SessionCommit s held t (insertRefresh id row s₁)

theorem SessionShaped.commit {s : SignIns}
    {x : Tx SignIns SessionKey SessionTx} (hx : SessionShaped s x)
    (hd : x.at_.done = true) : SessionCommit s x.held x.at_ (x.write s) := by
  obtain ⟨t, held, write⟩ := x
  cases t with
  | login userId loc p =>
      cases p with
      | issued family =>
          obtain ⟨hfresh, id, row, hid, rfl, rfl, rfl⟩ := hx
          exact .adds s id row (.of_eq rfl rfl) ⟨hid, rfl, .inl hfresh⟩
      | _ => cases hd
  | refresh hash p =>
      cases p with
      | capped =>
          obtain ⟨id, at_, rfl⟩ := hx
          exact .stamps _ (stamped_stampUsed s id at_)
      | issued t =>
          obtain ⟨hu, id, at_, id', row, hid, hu', hf', rfl⟩ := hx
          refine .adds _ id' row (stamped_stampUsed s id at_)
            ⟨hid, ?_, .inr ⟨rfl, ?_⟩⟩
          · rw [hu', hf']
            rfl
          · unfold Usable
            rwa [hu', hf']
      | revoked t =>
          obtain ⟨ids, at_, hsw, rfl⟩ := hx
          exact .stamps _ (stamped_revokeRows hsw at_)
      | _ => cases hd
  | logout hash p =>
      cases p with
      | revoked t =>
          obtain ⟨ids, at_, hsw, rfl⟩ := hx
          exact .stamps _ (stamped_revokeRows hsw at_)
      | _ => cases hd
  | endAll userId why p =>
      cases p with
      | revoked =>
          obtain ⟨ids, at_, hsw, rfl⟩ := hx
          exact .stamps _ (stamped_endAll hsw why at_)
      | renewed family =>
          obtain ⟨ids, at_, insert, hsw, ⟨hfresh, id, row, hid, rfl, rfl, rfl⟩,
            rfl⟩ := hx
          exact .adds _ id row (stamped_endAll hsw why at_)
            ⟨hid, rfl, .inl hfresh⟩
      | _ => cases hd
  | elsewhere users written =>
      cases written with
      | true =>
          obtain rfl := hx
          exact .stamps _ (.of_eq rfl rfl)
      | false => cases hd

section Commit

variable {s s' : SignIns} {held held' : List (Lock SessionKey)} {t : SessionTx}

theorem SessionCommit.old_or_new (h : SessionCommit s held t s') {k : String}
    {r' : TokenRow} (hr' : s'.tokens.get? k = some r') :
    (∃ r, s.tokens.get? k = some r ∧ r.Becomes r') ∨ Stores s held t k r' := by
  cases h with
  | stamps _ stamped => exact .inl (stamped.old k r' hr')
  | adds s₁ id row stamped stores =>
      change ((s₁.tokens.insert? id row).getD s₁.tokens).get? k = some r' at hr'
      rw [Table.get?_insert_of_free (stamped.free stores.1.free)] at hr'
      split at hr'
      · next hk =>
          cases hr'
          exact .inr (hk ▸ stores)
      · exact .inl (stamped.old k r' hr')

theorem SessionCommit.kept (h : SessionCommit s held t s') {k : String}
    {r : TokenRow} (hr : s.tokens.get? k = some r) :
    ∃ r', s'.tokens.get? k = some r' ∧ r.Becomes r' := by
  cases h with
  | stamps _ stamped => exact stamped.kept k r hr
  | adds s₁ id row stamped stores =>
      have hk : k ≠ id := by
        rintro rfl
        rw [stores.1.free] at hr
        cases hr
      change ∃ r', ((s₁.tokens.insert? id row).getD s₁.tokens).get? k =
        some r' ∧ _
      rw [Table.get?_insert_of_free (stamped.free stores.1.free), if_neg hk]
      exact stamped.kept k r hr

theorem SessionCommit.ended (h : SessionCommit s held t s') {f : String}
    (hf : f ∈ s'.ended) : f ∈ s.ended ∨ ∃ sc userId, t.ends = some sc ∧
      Seen s userId f ∧ sc.covers userId f = true := by
  cases h with
  | stamps _ stamped => exact stamped.ended f hf
  | adds s₁ id row stamped _ => exact stamped.ended f hf

/-- Of the scope it ends, a commit leaves nothing alive but what it stores. -/
theorem SessionCommit.swept (h : SessionCommit s held t s') {sc : Scope}
    (hsc : t.ends = some sc) {k : String} {r r' : TokenRow}
    (hr : s.tokens.get? k = some r) (hr' : s'.tokens.get? k = some r')
    (hc : sc.covers r'.userId r'.family = true) : r'.revokedAt ≠ none := by
  cases h with
  | stamps _ stamped => exact stamped.swept sc hsc k r' hr' hc
  | adds s₁ id row stamped stores =>
      have hk : k ≠ id := by
        rintro rfl
        rw [stores.1.free] at hr
        cases hr
      change ((s₁.tokens.insert? id row).getD s₁.tokens).get? k = some r' at hr'
      rw [Table.get?_insert_of_free (stamped.free stores.1.free),
        if_neg hk] at hr'
      exact stamped.swept sc hsc k r' hr' hc

theorem SessionCommit.seen (h : SessionCommit s held t s')
    {userId family : String} (hseen : Seen s userId family) :
    Seen s' userId family := by
  obtain ⟨k, r, hr, rfl, rfl⟩ := hseen
  obtain ⟨r', hr', hb⟩ := h.kept hr
  exact ⟨k, r', hr', hb.userId, hb.family⟩

/-- Seen afterwards, a family was there before, or its row was just stored. -/
theorem SessionCommit.of_seen (h : SessionCommit s held t s')
    {userId family : String} (hseen : Seen s' userId family) :
    Seen s userId family ∨
      (t.brings = some (userId, family) ∧ FreshFamily s held family) := by
  obtain ⟨k, r', hr', rfl, rfl⟩ := hseen
  rcases h.old_or_new hr' with ⟨r, hr, hb⟩ | ⟨-, hbr, hfresh | ⟨-, hu⟩⟩
  · exact .inl ⟨k, r, hr, hb.userId.symm, hb.family.symm⟩
  · exact .inr ⟨hbr, hfresh⟩
  · exact .inl hu.1

/-- A family no row has and nothing ended is ended by no commit. -/
theorem SessionCommit.fresh_live (h : SessionCommit s held t s')
    {family : String} (hlive : family ∉ s.ended)
    (hfree : s.tokens.All fun _ r => r.family ≠ family) :
    family ∉ s'.ended := by
  intro hf
  rcases h.ended hf with hf | ⟨_, _, -, ⟨k, r, hr, -, hrf⟩, -⟩
  · exact hlive hf
  · exact hfree k r hr hrf

theorem SessionsKept.commit (hi : SessionsKept s)
    (h : SessionCommit s held t s') : SessionsKept s' := by
  refine ⟨fun k r' hr' hf => ?_, fun k r' userId hr' hseen => ?_⟩
  · rcases h.old_or_new hr' with ⟨r, hr, hb⟩ | ⟨-, -, hfresh | ⟨hends, hu⟩⟩
    · rcases h.ended hf with hf | ⟨sc, userId, hsc, hseen, hc⟩
      · exact hb.dead (hi.dead k r hr (hb.family ▸ hf))
      · have hwhose : r.userId = userId := hi.whose k r userId hr (hb.family ▸ hseen)
        exact h.swept hsc hr hr' (by rwa [hb.userId, hwhose])
    · exact absurd hf (h.fresh_live hfresh.live hfresh.free)
    · rcases h.ended hf with hf | ⟨sc, userId, hsc, -⟩
      · exact absurd hf hu.2
      · rw [hends] at hsc
        cases hsc
  · -- the families of both rows were there before, or the two rows are one
    rcases h.of_seen ⟨k, r', hr', rfl, rfl⟩ with ⟨k₀, r₀, hr₀, hu₀, hf₀⟩ | ⟨hbr, hfresh⟩
    · rcases h.of_seen hseen with hseen | ⟨-, hfresh⟩
      · rw [← hf₀] at hseen
        exact hu₀.symm.trans (hi.whose k₀ r₀ userId hr₀ hseen)
      · exact absurd hf₀ (hfresh.free k₀ r₀ hr₀)
    · rcases h.of_seen hseen with ⟨k₀, r₀, hr₀, -, hf₀⟩ | ⟨hbr', -⟩
      · exact absurd hf₀ (hfresh.free k₀ r₀ hr₀)
      · rw [hbr] at hbr'
        exact (Prod.mk.inj (Option.some.inj hbr')).1

/-! ## What the others keep -/

theorem Usable.commit (hi : SessionsKept s) (h : SessionCommit s held t s')
    {r : TokenRow} (hu : Usable s r)
    (hends : ∀ sc, t.ends = some sc → sc.covers r.userId r.family = false) :
    Usable s' r := by
  refine ⟨h.seen hu.1, fun hf => ?_⟩
  rcases h.ended hf with hf | ⟨sc, userId, hsc, ⟨k, r₀, hr₀, hu₀, hf₀⟩, hc⟩
  · exact hu.2 hf
  · have hwhose : r₀.userId = r.userId :=
      hi.whose k r₀ r.userId hr₀ (hf₀ ▸ hu.1)
    rw [← hu₀, hwhose, hends sc hsc] at hc
    cases hc

theorem Swept.commit (h : SessionCommit s held t s') {sc : Scope}
    {ids : List String} (hsw : Swept s sc ids)
    (hbrings : ∀ u f, t.brings = some (u, f) → sc.covers u f = false) :
    Swept s' sc ids := by
  intro k r' hr' hc
  rcases h.old_or_new hr' with ⟨r, hr, hb⟩ | ⟨-, hbr, -⟩
  · rcases hsw k r hr (by rwa [← hb.userId, ← hb.family]) with hid | hdead
    · exact .inl hid
    · exact .inr (hb.dead hdead)
  · rw [hbrings _ _ hbr] at hc
    cases hc

variable (hclash : clash held held' = false)

include hclash

theorem FreeToken.commit (h : SessionCommit s held t s') {id : String}
    (hid : FreeToken s held' id) : FreeToken s' held' id := by
  refine ⟨hid.key, ?_⟩
  cases hg : s'.tokens.get? id with
  | none => rfl
  | some r' =>
      rcases h.old_or_new hg with ⟨r, hr, -⟩ | ⟨hnew, -⟩
      · rw [hid.free] at hr
        cases hr
      · rw [clash_of_mem hnew.key hid.key rfl] at hclash
        cases hclash

theorem FreshFamily.commit (h : SessionCommit s held t s') {family : String}
    (hf : FreshFamily s held' family) : FreshFamily s' held' family := by
  refine ⟨hf.key, h.fresh_live hf.live hf.free, fun k r' hr' hrf => ?_⟩
  subst hrf
  rcases h.old_or_new hr' with ⟨r, hr, hb⟩ | ⟨-, -, hfresh | ⟨-, hu⟩⟩
  · exact hf.free k r hr hb.family.symm
  · rw [clash_of_mem hfresh.key hf.key rfl] at hclash
    cases hclash
  · obtain ⟨k₀, r₀, hr₀, -, hf₀⟩ := hu.1
    exact hf.free k₀ r₀ hr₀ hf₀

theorem Minting.commit (h : SessionCommit s held t s')
    {userId family : String} {insert : SignIns → SignIns}
    (hm : Minting s held' userId family insert) :
    Minting s' held' userId family insert := by
  obtain ⟨hfresh, id, row, hid, hrest⟩ := hm
  exact ⟨hfresh.commit hclash h, id, row, hid.commit hclash h, hrest⟩

end Commit

/-- One commits beside another: nothing the other is about to replace is
revoked, and nothing is stored among what it has picked to revoke. -/
structure Beside (x y : SessionTx) : Prop where
  ends : ∀ sc r, x.ends = some sc → y.rotates = some r →
    sc.covers r.userId r.family = false
  brings : ∀ u f sc, x.brings = some (u, f) → y.sweeps = some sc →
    sc.covers u f = false

theorem SessionShaped.stable {s s' : SignIns} {held : List (Lock SessionKey)}
    {t : SessionTx} (hi : SessionsKept s)
    {y : Tx SignIns SessionKey SessionTx} (hy : SessionShaped s y)
    (h : SessionCommit s held t s') (hbeside : Beside t y.at_)
    (hclash : clash held y.held = false) : SessionShaped s' y := by
  obtain ⟨u, held', write⟩ := y
  have husable {r : TokenRow} (hr : u.rotates = some r) (hu : Usable s r) :
      Usable s' r := hu.commit hi h fun sc hsc => hbeside.ends sc r hsc hr
  have hswept {sc : Scope} {ids : List String} (hsc : u.sweeps = some sc)
      (hsw : Swept s sc ids) : Swept s' sc ids :=
    hsw.commit h fun v f hbr => hbeside.brings v f sc hbr hsc
  cases u with
  | login userId loc p =>
      cases p with
      | issued family => exact Minting.commit hclash h hy
      | _ => exact hy
  | refresh hash p =>
      cases p with
      | read id r | known id r u => exact ⟨husable rfl hy.1, hy.2⟩
      | claimed r u | started r u startedAt => exact ⟨husable rfl hy.1, hy.2⟩
      | issued r =>
          obtain ⟨hu, id, at_, id', row, hid, hrest⟩ := hy
          exact ⟨husable rfl hu, id, at_, id', row, hid.commit hclash h, hrest⟩
      | picked r ids => exact ⟨hswept rfl hy.1, hy.2⟩
      | revoked r =>
          obtain ⟨ids, at_, hsw, hw⟩ := hy
          exact ⟨ids, at_, hswept rfl hsw, hw⟩
      | _ => exact hy
  | logout hash p =>
      cases p with
      | picked r ids => exact ⟨hswept rfl hy.1, hy.2⟩
      | revoked r =>
          obtain ⟨ids, at_, hsw, hw⟩ := hy
          exact ⟨ids, at_, hswept rfl hsw, hw⟩
      | _ => exact hy
  | endAll userId why p =>
      cases p with
      | picked ids => exact ⟨hswept rfl hy.1, hy.2⟩
      | revoked =>
          obtain ⟨ids, at_, hsw, hw⟩ := hy
          exact ⟨ids, at_, hswept rfl hsw, hw⟩
      | renewed family =>
          obtain ⟨ids, at_, insert, hsw, hm, hw⟩ := hy
          exact ⟨ids, at_, insert, hswept rfl hsw, hm.commit hclash h, hw⟩
      | _ => exact hy
  | elsewhere users written => cases written <;> exact hy

/-! ## Over whole runs -/

/-- Nothing that commits passes a transaction still open. -/
def RevokesAlone (w : World SignIns SessionKey SessionTx) :
    TxEvent SessionChoice SessionTx → Prop
  | .commit i => ∀ x, w.tx i = some x → ∀ j y, i ≠ j → w.tx j = some y →
    Beside x.at_ y.at_
  | _ => True

theorem sessions_kept (ttl : Instant) :
    (signIns ttl).Kept RevokesAlone SessionsKept SessionShaped where
  init s hs := by
    obtain ⟨tokens, users, ended⟩ := s
    obtain ⟨rfl, rfl⟩ := hs
    exact ⟨Table.all_empty _, nofun⟩
  begins s t _ ht := sessionShaped_begins ht
  runs _ _ x c st _ _ hi hx hs := hx.runs hi hs
  commits w i x _ _ hi hx hd := hi.commit (hx.commit hd)
  stable w i j x y hC hij hx hy hi hox hoy hd hc :=
    hoy.stable hi (hox.commit hd) (hC x hx j y hij hy) hc

/-- No token of an ended family works, and no refresh is about to commit the
replacement of one. -/
structure RevocationsStand (w : World SignIns SessionKey SessionTx) :
    Prop where
  tokens : w.committed.tokens.All fun _ r =>
    r.family ∈ w.committed.ended → r.revokedAt ≠ none
  refreshes : ∀ i x hash r, w.tx i = some x →
    x.at_ = .refresh hash (.issued r) → r.family ∉ w.committed.ended

theorem revocation_is_final {ttl : Instant}
    {w : World SignIns SessionKey SessionTx}
    (h : (signIns ttl).machine.ReachVia RevokesAlone w) :
    RevocationsStand w := by
  have hsafe := (sessions_kept ttl).safe h
  refine ⟨hsafe.inv.dead, fun i x hash r hx hat => ?_⟩
  have hshaped := hsafe.ok i x hx
  obtain ⟨t, held, write⟩ := x
  obtain rfl := hat
  exact hshaped.1.2

/-! ## The gap -/

/-- The consultant signs in: a token under the family "f1". -/
def signedIn : List (TxEvent SessionChoice SessionTx) :=
  [.begin_ (.login "u1" none .begun), .run 0 ⟨0, "t1", "f1", "h1"⟩,
   .run 0 ⟨0, "t1", "f1", "h1"⟩, .commit 0]

def oneAccount : SignIns where
  tokens := .empty
  users := ⟨[("u1", ⟨"cafe", true⟩)], by decide⟩
  ended := []

/-- The refresh reads its token, the sign-out comes and goes, and the refresh
stores a token of the family that was signed out. -/
def passedRefresh : List (TxEvent SessionChoice SessionTx) :=
  let c : SessionChoice := ⟨1, "t2", "", "h2"⟩
  signedIn ++ [.begin_ (.refresh "h1" .begun), .run 1 c,
    .begin_ (.logout "h1" .begun), .run 2 c, .run 2 c, .run 2 c, .commit 2] ++
    List.replicate 4 (.run 1 c) ++ [.commit 1]

theorem revocation_is_final_refresh : ∃ w,
    (signIns 30).machine.run ⟨oneAccount, []⟩ passedRefresh = some w ∧
      (signIns 30).machine.Reach w ∧ ¬RevocationsStand w := by
  have hany : ((signIns 30).machine.run ⟨oneAccount, []⟩ passedRefresh).any
      (fun w => decide ("f1" ∈ w.committed.ended ∧
        (w.committed.tokens.get? "t2").any (fun r =>
          decide (r.family = "f1" ∧ r.revokedAt = none)) = true)) = true := by
    decide +kernel
  obtain ⟨w, hrun, hd⟩ := (Option.any_eq_true _ _).1 hany
  obtain ⟨hended, hd⟩ := of_decide_eq_true hd
  obtain ⟨r, hr, hd⟩ := (Option.any_eq_true _ _).1 hd
  obtain ⟨hf, hlive⟩ := of_decide_eq_true hd
  have hinit : (signIns 30).machine.Reach ⟨oneAccount, []⟩ :=
    .init ⟨⟨rfl, rfl⟩, rfl⟩
  exact ⟨w, hrun, Machine.reach_run hinit hrun,
    fun hw => hw.tokens "t2" r hr (hf ▸ hended) hlive⟩

/-- The check behind the condition, where nothing else is open. -/
def revokesAlone (w : World SignIns SessionKey SessionTx) :
    TxEvent SessionChoice SessionTx → Bool
  | .commit i => (List.range w.txs.length).all fun j =>
    decide (i = j) || (w.tx j).isNone
  | _ => true

theorem revokesAlone_sound (w : World SignIns SessionKey SessionTx)
    (e : TxEvent SessionChoice SessionTx) (h : revokesAlone w e = true) :
    RevokesAlone w e := by
  cases e with
  | commit i =>
      intro x _ j y hij hy
      have := List.all_eq_true.1 h j (List.mem_range.2 (World.lt_of_tx hy))
      simp [hij, hy] at this
  | _ => exact trivial

/-- One after the other: the refresh is over, the sign-out ends its family, and
the token it left is refused. -/
theorem revocation_is_final_alone : ∃ w,
    (signIns 30).machine.runVia revokesAlone ⟨oneAccount, []⟩
        (signedIn ++ .begin_ (.refresh "h1" .begun) ::
          List.replicate 5 (.run 1 ⟨1, "t2", "", "h2"⟩) ++ .commit 1 ::
          .begin_ (.logout "h2" .begun) ::
          List.replicate 3 (.run 2 ⟨2, "", "", ""⟩) ++ [.commit 2]) = some w ∧
      RevocationsStand w ∧
      ((signIns 30).machine.run w
        [.begin_ (.refresh "h2" .begun), .run 3 ⟨3, "", "", ""⟩]).isNone =
          true := by
  have hany : ((signIns 30).machine.runVia revokesAlone ⟨oneAccount, []⟩
      (signedIn ++ .begin_ (.refresh "h1" .begun) ::
        List.replicate 5 (.run 1 ⟨1, "t2", "", "h2"⟩) ++ .commit 1 ::
        .begin_ (.logout "h2" .begun) ::
        List.replicate 3 (.run 2 ⟨2, "", "", ""⟩) ++ [.commit 2])).any
      (fun w => ((signIns 30).machine.run w
        [.begin_ (.refresh "h2" .begun), .run 3 ⟨3, "", "", ""⟩]).isNone) =
          true := by
    decide +kernel
  obtain ⟨w, hrun, hnone⟩ := (Option.any_eq_true _ _).1 hany
  have hinit : (signIns 30).machine.ReachVia RevokesAlone ⟨oneAccount, []⟩ :=
    .init ⟨⟨rfl, rfl⟩, rfl⟩
  have hreach := Machine.reachVia_runVia revokesAlone_sound hinit hrun
  exact ⟨w, hrun, revocation_is_final hreach, hnone⟩

end Rch
