import Rch.Machine.Browser

/-!
# No refresh token presented twice

Under the lock one tab's answer has landed before the next one's request is
sent, so each carries a cookie of its own. A page that loads takes no lock: as
long as it never asks while another refresh is out, nor another while it does,
the jar's cookie is either unseen, or on its way in one request alone. The
first step that breaks this shows a cookie a second time.
-/

namespace Rch

open Kit

namespace Browser

/-! ## The condition -/

/-- Whether the tab about to enter the lock will send. -/
def tabSends (t : BrowserTab) : Bool :=
  match t.refreshing with
  | some (.waiting had) => mustRefresh t had
  | _ => false

def sends (b : Browser) (i : ℕ) : Bool := (b.tabs[i]?).any tabSends

/-- A page's own refresh and another are never out together, where there is a
cookie to show. -/
def Careful (b : Browser) : Event → Prop
  | .restore _ => b.jar = none ∨ b.flights = []
  | .enter i => b.jar = none ∨ b.sends i = false ∨
    ∀ f ∈ b.flights, f.by_ ≠ .restore
  | _ => True

/-- A refusal that is no alarm: the session had ended by itself. -/
def Fair (why : RefreshRefusal) : Prop :=
  why = .noCookie ∨ why = .expired ∨ why = .inactive ∨ why = .capped

/-! ## The server -/

section Server

variable {env : RefreshEnv} {s s' : SignIns} {d : RefreshDraw}

theorem refreshByHash_stampUsed (id : String) (at_ : Instant) (hash : String) :
    (refreshByHash (stampUsed id at_ s) hash).isSome =
      (refreshByHash s hash).isSome := by
  have hrows : (stampUsed id at_ s).tokens.rows = s.tokens.rows.map fun p =>
      (p.1, if p.1 = id then { p.2 with usedAt := some at_ } else p.2) := rfl
  unfold refreshByHash
  rw [hrows, List.find?_map, Option.isSome_map]
  congr 2
  funext p
  simp only [Function.comp]
  split <;> rfl

/-- A row stored under a hash of its own is the row of that hash, and hides
nobody else's. -/
theorem refreshByHash_insert {id : String} {t : TokenRow}
    (hid : s.tokens.get? id = none)
    (hhash : refreshByHash s t.tokenHash = none) :
    refreshByHash (insertRefresh id t s) t.tokenHash = some (id, t) ∧
      ∀ hash, (refreshByHash s hash).isSome = true →
        (refreshByHash (insertRefresh id t s) hash).isSome = true := by
  obtain ⟨tokens, hins⟩ := Table.insert?_of_free hid t
  have hrows : (insertRefresh id t s).tokens.rows =
      s.tokens.rows ++ [(id, t)] := by
    rw [insertRefresh, hins]
    exact (Table.insert?_eq_some hins).2
  unfold refreshByHash at hhash ⊢
  rw [hrows]
  refine ⟨?_, fun hash h => ?_⟩
  · rw [List.find?_append, hhash, Option.none_or]
    exact List.find?_cons_of_pos (decide_eq_true rfl)
  · rw [List.find?_append]
    obtain ⟨p, hp⟩ := Option.isSome_iff_exists.1 h
    rw [hp]
    rfl

/-- What the server makes of a cookie it would take. -/
structure Answered (env : RefreshEnv) (s : SignIns) (d : RefreshDraw)
    (s' : SignIns) (a : RefreshAnswer) : Prop where
  ended : s'.ended = s.ended
  known : ∀ hash, (refreshByHash s hash).isSome = true →
    (refreshByHash s' hash).isSome = true
  fair : ∀ why, a = .refused why → Fair why
  next : ∀ secret accessToken, a = .session secret accessToken →
    secret = d.secret ∧ Ready env s' secret

theorem Answered.refused {why : RefreshRefusal} (h : Fair why)
    (hended : s'.ended = s.ended)
    (hknown : ∀ hash, (refreshByHash s hash).isSome = true →
      (refreshByHash s' hash).isSome = true) :
    Answered env s d s' (.refused why) := by
  refine ⟨hended, hknown, fun why' hwhy => ?_, fun _ _ ha => by cases ha⟩
  cases hwhy
  exact h

theorem refreshCookie_ready {raw : String} (h : Ready env s raw)
    (hfresh : freshDraw env d s) :
    Answered env s d (refreshCookie env d raw s).1
      (refreshCookie env d raw s).2 := by
  obtain ⟨id, t, hfind, hunused, hlive⟩ := h
  have hsame : ∀ hash, (refreshByHash s hash).isSome = true →
      (refreshByHash s hash).isSome = true := fun _ h => h
  have hstamp : ∀ hash, (refreshByHash s hash).isSome = true →
      (refreshByHash (stampUsed id d.at_ s) hash).isSome = true := by
    intro hash hsome
    rw [refreshByHash_stampUsed]
    exact hsome
  simp only [refreshCookie, hfind, hlive, ne_eq, not_true_eq_false, if_false,
    hunused]
  split
  · exact .refused (.inr (.inl rfl)) rfl hsame
  · split
    · exact .refused (.inr (.inr (.inl rfl))) rfl hsame
    · next u hu =>
        split
        · exact .refused (.inr (.inr (.inr rfl))) rfl hstamp
        · have hid : (stampUsed id d.at_ s).tokens.get? d.id = none := by
            change (s.tokens.modify id _).get? d.id = none
            rw [Table.get?_modify, hfresh.1]
            split <;> rfl
          have hhash : refreshByHash (stampUsed id d.at_ s)
              (env.sha256 d.secret) = none := by
            rw [← Option.not_isSome_iff_eq_none, refreshByHash_stampUsed,
              hfresh.2]
            exact Bool.false_ne_true
          generalize hrow : tokenRow env.ttl _ t.userId t.family _ _ = row
          have hown : row.tokenHash = env.sha256 d.secret := by
            rw [← hrow]
            rfl
          obtain ⟨hnew, hkept⟩ := refreshByHash_insert (t := row) hid
            (hown ▸ hhash)
          refine ⟨rfl, fun hash hsome => hkept hash (hstamp hash hsome),
            fun _ hwhy => RefreshAnswer.noConfusion hwhy,
            fun secret accessToken ha => ?_⟩
          cases ha
          refine ⟨rfl, d.id, row, hown ▸ hnew, ?_, ?_⟩
          · rw [← hrow]
            rfl
          · rw [← hrow]
            rfl

end Server

/-! ## The tabs -/

def outOf (t : BrowserTab) : Option Awaiting :=
  match t.refreshing with
  | some (.out p) => some p
  | _ => none

def outAt (b : Browser) (i : ℕ) : Option Awaiting :=
  (b.tabs[i]?).bind outOf

section Tabs

variable {b : Browser} {i j : ℕ}

theorem outAt_setTab (b : Browser) (i : ℕ) (f : BrowserTab → BrowserTab)
    (j : ℕ) : outAt (b.setTab i f) j =
      if i = j then (b.tabs[j]?).bind fun t => outOf (f t) else outAt b j := by
  unfold outAt setTab
  dsimp only
  rw [List.getElem?_modify]
  cases b.tabs[j]? with
  | none => split <;> rfl
  | some t => split <;> rfl

/-- An edit that is no business of the lock's. -/
theorem outAt_setTab_same {f : BrowserTab → BrowserTab}
    (h : ∀ t, b.tabs[i]? = some t → outOf (f t) = outOf t) (j : ℕ) :
    outAt (b.setTab i f) j = outAt b j := by
  rw [outAt_setTab]
  split
  · next hij =>
      unfold outAt
      rw [← hij]
      cases ht : b.tabs[i]? with
      | none => rfl
      | some t => exact h t ht
  · rfl

end Tabs

/-! ## One cookie on its way -/

/-- A request on its way: what it carries is good until it is answered, and
then what the answer carries is, and has not been shown. -/
def Carrying (env : RefreshEnv) (b : Browser) (raw : String) (f : Flight) :
    Prop :=
  match f.answer with
  | none => Ready env b.server raw
  | some (.session secret _) =>
    Ready env b.server secret ∧ secret ∉ b.presented
  | some (.refused _) => True

def Held (b : Browser) : Prop := ∀ i p, outAt b i = some p → b.lock = some i

inductive Traffic (env : RefreshEnv) (b : Browser) : Prop
  /-- No cookie, and none on its way. -/
  | dry (jar : b.jar = none)
      (flights : ∀ f ∈ b.flights, f.cookie = none ∧
        ∀ a, f.answer = some a → cookieOf a = none)
  /-- A cookie nobody has shown. -/
  | idle (raw : String) (jar : b.jar = some raw) (flights : b.flights = [])
      (held : Held b) (ready : Ready env b.server raw)
      (unseen : raw ∉ b.presented)
  /-- A cookie shown, by one request. -/
  | busy (raw : String) (f : Flight) (jar : b.jar = some raw)
      (flights : b.flights = [f]) (held : Held b) (cookie : f.cookie = some raw)
      (carrying : Carrying env b raw f) (seen : raw ∈ b.presented)
      (mine : f.by_ = .locked →
        b.lock = some f.tab ∧ outAt b f.tab = some .flying)

structure Orderly (env : RefreshEnv) (b : Browser) : Prop where
  traffic : Traffic env b
  known : ∀ raw ∈ b.presented,
    (refreshByHash b.server (env.sha256 raw)).isSome = true
  once : b.presented.Nodup
  ended : b.server.ended = []
  fair : ∀ why ∈ b.refusals, Fair why

section Steps

variable {env : RefreshEnv} {b b' : Browser} {i k : ℕ}

theorem ready_known {s : SignIns} {raw : String} (h : Ready env s raw) :
    (refreshByHash s (env.sha256 raw)).isSome = true := by
  obtain ⟨id, t, hfind, -⟩ := h
  rw [hfind]
  rfl

theorem Orderly.tabs (h : Orderly env b) {tabs : List BrowserTab}
    (hout : ∀ i, outAt { b with tabs } i = outAt b i) :
    Orderly env { b with tabs } := by
  have hheld : Held b → Held { b with tabs } := by
    intro hheld i p hp
    rw [hout] at hp
    exact hheld i p hp
  refine ⟨?_, h.known, h.once, h.ended, h.fair⟩
  cases h.traffic with
  | dry jar flights => exact .dry jar flights
  | idle raw jar flights held ready unseen =>
      exact .idle raw jar flights (hheld held) ready unseen
  | busy raw f jar flights held cookie carrying seen mine =>
      refine .busy raw f jar flights (hheld held) cookie carrying seen ?_
      intro hby
      rw [hout]
      exact mine hby

/-- A request sent while none is out, or with no cookie to show. -/
theorem Orderly.send (h : Orderly env b) {by_ : Sender}
    (hlone : b.jar = none ∨ b.flights = [])
    (hlock : by_ = .locked → b.lock = some i ∧ outAt b i = some .flying) :
    Orderly env (b.send i by_) := by
  cases h.traffic with
  | dry jar flights =>
      have hsame : (b.send i by_).presented = b.presented := by
        simp only [Browser.send, jar, Option.toList_none, List.append_nil]
      refine ⟨.dry jar ?_, hsame ▸ h.known, hsame ▸ h.once, h.ended, h.fair⟩
      intro f hf
      rcases List.mem_append.1 hf with hf | hf
      · exact flights f hf
      · rw [List.mem_singleton.1 hf]
        refine ⟨jar, ?_⟩
        intro a ha
        cases ha
  | idle raw jar flights held ready unseen =>
      have hshown : (b.send i by_).presented = b.presented ++ [raw] := by
        simp only [Browser.send, jar, Option.toList_some]
      refine ⟨?_, ?_, ?_, h.ended, h.fair⟩
      · refine .busy raw ⟨i, by_, b.jar, none⟩ jar ?_ held jar ready ?_ hlock
        · simp only [Browser.send, flights, List.nil_append]
        · rw [hshown]
          exact List.mem_append_right _ List.mem_cons_self
      · intro raw' hraw'
        rw [hshown, List.mem_append, List.mem_singleton] at hraw'
        rcases hraw' with hraw' | rfl
        · exact h.known raw' hraw'
        · exact ready_known ready
      · rw [hshown]
        exact List.nodup_append.2 ⟨h.once, List.nodup_singleton raw,
          fun x hx y hy => by
            rw [List.mem_singleton.1 hy]
            rintro rfl
            exact unseen hx⟩
  | busy raw f jar flights held cookie carrying seen mine =>
      rcases hlone with hjar | hnone
      · cases hjar.symm.trans jar
      · cases hnone.symm.trans flights

theorem Orderly.restore (h : Orderly env b) (hC : Careful b (.restore i))
    (he : b.restore i = some b') : Orderly env b' := by
  obtain ⟨t, ht, he⟩ := Option.bind_eq_some_iff.1 he
  rw [Option.ite_none_right_eq_some] at he
  obtain ⟨-, hb⟩ := he
  cases hb
  have htabs : Orderly env (b.setTab i fun t =>
      { t with restoring := some .flying }) :=
    h.tabs (outAt_setTab_same fun _ _ => rfl)
  exact htabs.send hC fun hby => by cases hby

/-- With the lock free and no page asking, nothing is out. -/
theorem Orderly.lone (h : Orderly env b) (hfree : b.lock = none)
    (hC : b.jar = none ∨ ∀ f ∈ b.flights, f.by_ ≠ .restore) :
    b.jar = none ∨ b.flights = [] := by
  cases h.traffic with
  | dry jar flights => exact .inl jar
  | idle raw jar flights held ready unseen => exact .inr flights
  | busy raw f jar flights held cookie carrying seen mine =>
      rcases hC with hC | hC
      · exact .inl hC
      · have hf : f.by_ ≠ .restore := by
          apply hC
          rw [flights]
          exact List.mem_cons_self
        cases hby : f.by_ with
        | restore => exact absurd hby hf
        | locked => cases hfree.symm.trans (mine hby).1

def entered (b : Browser) (i : ℕ) : Browser :=
  { b.setTab i fun t => { t with refreshing := some (.out .flying) } with
    lock := some i }

theorem outAt_entered {t : BrowserTab} (ht : b.tabs[i]? = some t) :
    outAt (b.entered i) i = some .flying := by
  have hset := outAt_setTab b i
    (fun t => { t with refreshing := some (.out .flying) }) i
  rw [if_pos rfl, ht] at hset
  exact hset

theorem Orderly.locks (h : Orderly env b) (hfree : b.lock = none)
    (hlone : b.jar = none ∨ b.flights = []) : Orderly env (b.entered i) := by
  refine ⟨?_, h.known, h.once, h.ended, h.fair⟩
  cases h.traffic with
  | dry jar flights => exact .dry jar flights
  | idle raw jar flights held ready unseen =>
      refine .idle raw jar flights (fun j p hp => ?_) ready unseen
      have hset := outAt_setTab b i
        (fun t => { t with refreshing := some (.out .flying) }) j
      rw [show outAt (b.entered i) j = outAt (b.setTab i _) j from rfl,
        hset] at hp
      split at hp
      · next hij => exact hij ▸ rfl
      · cases hfree.symm.trans (held j p hp)
  | busy raw f jar flights held cookie carrying seen mine =>
      rcases hlone with hjar | hnone
      · cases hjar.symm.trans jar
      · cases hnone.symm.trans flights

theorem enter_cases (he : b.enter i = some b') :
    b.lock = none ∧ ∃ t, b.tabs[i]? = some t ∧ outOf t = none ∧
      ((b.sends i = true ∧ b' = (b.entered i).send i .locked) ∨
        (b.sends i = false ∧
          b' = b.setTab i fun t => { t with refreshing := none })) := by
  obtain ⟨t, ht, he⟩ := Option.bind_eq_some_iff.1 he
  have hsends : b.sends i = tabSends t := by
    unfold sends
    rw [ht, Option.any_some]
  cases hr : t.refreshing with
  | none =>
      simp only [hr] at he
      cases he
  | some r =>
      cases r with
      | out p =>
          simp only [hr] at he
          cases he
      | waiting had =>
          simp only [hr, Option.ite_none_right_eq_some] at he
          obtain ⟨hfree, he⟩ := he
          have hout : outOf t = none := by
            unfold outOf
            rw [hr]
          have hmust : tabSends t = mustRefresh t had := by
            unfold tabSends
            rw [hr]
          refine ⟨hfree, t, ht, hout, ?_⟩
          rw [hsends, hmust]
          split at he
          · next hmust =>
              cases he
              exact .inl ⟨hmust, rfl⟩
          · next hmust =>
              cases he
              exact .inr ⟨Bool.not_eq_true _ ▸ hmust, rfl⟩

theorem Orderly.enter (h : Orderly env b) (hC : Careful b (.enter i))
    (he : b.enter i = some b') : Orderly env b' := by
  obtain ⟨hfree, t, ht, hout, ⟨hsends, rfl⟩ | ⟨-, rfl⟩⟩ := enter_cases he
  · have hlone := h.lone hfree (hC.imp id fun hC => by
      rcases hC with hC | hC
      · rw [hsends] at hC
        cases hC
      · exact hC)
    refine (h.locks hfree hlone).send hlone fun _ => ⟨rfl, ?_⟩
    exact outAt_entered ht
  · refine h.tabs (outAt_setTab_same fun t' ht' => ?_)
    obtain rfl := Option.some.inj (ht.symm.trans ht')
    exact hout.symm

theorem mem_modify_answer {fs : List Flight} {a : RefreshAnswer} {f : Flight}
    (hf : f ∈ fs.modify k fun f => { f with answer := some a }) :
    ∃ f₀ ∈ fs, f = f₀ ∨ f = { f₀ with answer := some a } := by
  obtain ⟨j, hj⟩ := List.mem_iff_getElem?.1 hf
  rw [List.getElem?_modify] at hj
  obtain ⟨f₀, hf₀, rfl⟩ := Option.map_eq_some_iff.1 hj
  refine ⟨f₀, List.mem_of_getElem? hf₀, ?_⟩
  split
  · exact .inr rfl
  · exact .inl rfl

theorem Orderly.serve (h : Orderly env b) {d : RefreshDraw}
    (he : b.serve env k d = some b') : Orderly env b' := by
  obtain ⟨f, hf, he⟩ := Option.bind_eq_some_iff.1 he
  rw [Option.ite_none_right_eq_some] at he
  obtain ⟨⟨hnone, hfresh⟩, hb⟩ := he
  cases h.traffic with
  | dry jar flights =>
      have hcookie := (flights f (List.mem_of_getElem? hf)).1
      rw [hcookie] at hb
      cases hb
      refine ⟨.dry jar fun f' hf' => ?_, h.known, h.once, h.ended,
        fun why hwhy => ?_⟩
      · obtain ⟨f₀, hf₀, rfl | rfl⟩ := mem_modify_answer hf'
        · exact flights f' hf₀
        · refine ⟨(flights f₀ hf₀).1, fun a ha => ?_⟩
          cases ha
          rfl
      · rcases List.mem_append.1 hwhy with hwhy | hwhy
        · exact h.fair why hwhy
        · rw [List.mem_singleton.1 hwhy]
          exact .inl rfl
  | idle raw jar flights held ready unseen =>
      rw [flights] at hf
      cases hf
  | busy raw f₀ jar flights held cookie carrying seen mine =>
      rw [flights] at hf
      obtain ⟨rfl, rfl⟩ : k = 0 ∧ f₀ = f := by
        cases k with
        | zero => exact ⟨rfl, Option.some.inj hf⟩
        | succ k => cases hf
      unfold Carrying at carrying
      rw [hnone] at carrying
      have hans := refreshCookie_ready carrying hfresh
      obtain ⟨⟨server, a⟩, hr⟩ : ∃ r, refreshCookie env d raw b.server = r :=
        ⟨_, rfl⟩
      have hserved : Rch.refresh env d b.server f₀.cookie = (server, a) := by
        rw [cookie]
        exact hr
      rw [hr] at hans
      rw [hserved] at hb
      cases hb
      have hknown : ∀ raw ∈ b.presented,
          (refreshByHash server (env.sha256 raw)).isSome = true :=
        fun raw hraw => hans.known _ (h.known raw hraw)
      refine ⟨?_, hknown, h.once, hans.ended.trans h.ended, fun why hwhy => ?_⟩
      · refine .busy raw { f₀ with answer := some a } jar ?_ held cookie ?_ seen
          mine
        · simp only [flights]
          rfl
        · cases a with
          | refused why => trivial
          | session secret accessToken =>
              obtain ⟨rfl, hready⟩ := hans.next secret accessToken rfl
              refine ⟨hready, fun hmem => ?_⟩
              have hsome := h.known d.secret hmem
              rw [hfresh.2] at hsome
              cases hsome
      · rcases List.mem_append.1 hwhy with hwhy | hwhy
        · exact h.fair why hwhy
        · cases a with
          | session secret accessToken => cases hwhy
          | refused why' =>
              rw [List.mem_singleton.1 hwhy]
              exact hans.fair why' rfl

theorem outOf_landed_restore (a : RefreshAnswer) (t : BrowserTab) :
    outOf (landed .restore a t) = outOf t := rfl

theorem Orderly.land (h : Orderly env b) (he : b.land k = some b') :
    Orderly env b' := by
  obtain ⟨f, hf, he⟩ := Option.bind_eq_some_iff.1 he
  obtain ⟨a, ha, rfl⟩ := Option.map_eq_some_iff.1 he
  refine ⟨?_, h.known, h.once, h.ended, h.fair⟩
  cases h.traffic with
  | dry jar flights =>
      have hdry := (flights f (List.mem_of_getElem? hf)).2 a ha
      exact .dry hdry fun f' hf' => flights f' (List.mem_of_mem_eraseIdx hf')
  | idle raw jar flights held ready unseen =>
      rw [flights] at hf
      cases hf
  | busy raw f₀ jar flights held cookie carrying seen mine =>
      rw [flights] at hf
      obtain ⟨rfl, rfl⟩ : k = 0 ∧ f₀ = f := by
        cases k with
        | zero => exact ⟨rfl, Option.some.inj hf⟩
        | succ k => cases hf
      have hgone : b.flights.eraseIdx 0 = [] := by
        rw [flights]
        rfl
      cases a with
      | refused why =>
          refine .dry rfl fun f' hf' => ?_
          cases (hgone ▸ hf' : f' ∈ [])
      | session secret accessToken =>
          unfold Carrying at carrying
          rw [ha] at carrying
          obtain ⟨hready, hunseen⟩ := carrying
          refine .idle secret rfl hgone (fun j p hp => ?_) hready hunseen
          change b.lock = some j
          change outAt (b.setTab f₀.tab _) j = some p at hp
          -- Only a request of the lock's own changes what is out there.
          cases hby : f₀.by_ with
          | restore =>
              rw [hby, outAt_setTab_same fun _ _ => outOf_landed_restore _ _]
                at hp
              exact held j p hp
          | locked =>
              rw [outAt_setTab] at hp
              split at hp
              · next hij => exact hij ▸ (mine hby).1
              · exact held j p hp

theorem outAt_announce (b : Browser) (i : ℕ) (accessToken : String) (j : ℕ) :
    outAt (b.announce i accessToken) j = outAt b j := by
  unfold outAt Browser.announce
  dsimp only
  rw [List.getElem?_mapIdx]
  cases b.tabs[j]? with
  | none => rfl
  | some t =>
      rw [Option.map_some, Option.bind_some, Option.bind_some]
      split <;> rfl

theorem Orderly.told (h : Orderly env b) (i : ℕ) (m : Option String) :
    Orderly env (m.elim b (b.announce i)) := by
  cases m with
  | none => exact h
  | some accessToken => exact h.tabs fun j => outAt_announce b i accessToken j

theorem Orderly.unlocks (h : Orderly env b) {t : BrowserTab} {a : RefreshAnswer}
    (ht : b.tabs[i]? = some t) (hr : t.refreshing = some (.out (.landed a))) :
    Orderly env { b.setTab i fun t =>
        { t with token := tokenOf a, refreshing := none } with
      lock := none } := by
  have hout : outAt b i = some (.landed a) := by
    unfold outAt outOf
    rw [ht, Option.bind_some, hr]
  -- Nobody else was out in the lock, and nobody is now.
  have hclear (held : Held b) (j : ℕ) (p : Awaiting)
      (hp : outAt (b.setTab i fun t =>
        { t with token := tokenOf a, refreshing := none }) j = some p) :
      False := by
    rw [outAt_setTab] at hp
    split at hp
    · obtain ⟨t', -, ht'⟩ := Option.bind_eq_some_iff.1 hp
      cases ht'
    · next hij =>
        have hlock := (held i _ hout).symm.trans (held j p hp)
        exact hij (Option.some.inj hlock)
  refine ⟨?_, h.known, h.once, h.ended, h.fair⟩
  cases h.traffic with
  | dry jar flights => exact .dry jar flights
  | idle raw jar flights held ready unseen =>
      exact .idle raw jar flights (fun j p hp => (hclear held j p hp).elim)
        ready unseen
  | busy raw f jar flights held cookie carrying seen mine =>
      refine .busy raw f jar flights (fun j p hp => (hclear held j p hp).elim)
        cookie carrying seen fun hby => ?_
      obtain ⟨hlock, hflying⟩ := mine hby
      have hi : i = f.tab :=
        Option.some.inj ((held i _ hout).symm.trans hlock)
      rw [← hi, hout] at hflying
      cases hflying

theorem Orderly.resume (h : Orderly env b) {by_ : Sender}
    (he : b.resume i by_ = some b') : Orderly env b' := by
  cases by_ with
  | restore =>
      obtain ⟨t, ht, he⟩ := Option.bind_eq_some_iff.1 he
      split at he
      · cases he
        exact h.tabs (outAt_setTab_same fun _ _ => rfl)
      · cases he
  | locked =>
      obtain ⟨t, ht, he⟩ := Option.bind_eq_some_iff.1 he
      split at he
      · next a hr =>
          cases he
          exact (h.unlocks ht hr).told i (tokenOf a)
      · cases he

theorem Orderly.hear (h : Orderly env b) (he : b.hear i = some b') :
    Orderly env b' := by
  obtain ⟨t, ht, he⟩ := Option.bind_eq_some_iff.1 he
  split at he
  · cases he
  · cases he
    exact h.tabs (outAt_setTab_same fun _ _ => rfl)

theorem Orderly.unauthorized (h : Orderly env b) (i : ℕ) (had : Option String) :
    Orderly env (b.unauthorized i had) := by
  refine h.tabs (outAt_setTab_same fun t _ => ?_)
  unfold outOf
  cases t.refreshing <;> rfl

theorem Orderly.load (h : Orderly env b) :
    Orderly env { b with tabs := b.tabs ++ [.blank] } := by
  refine h.tabs fun j => ?_
  unfold outAt
  dsimp only
  rw [List.getElem?_append]
  split
  · rfl
  · next hj =>
      rw [List.getElem?_eq_none (Nat.le_of_not_lt hj)]
      cases hsub : j - b.tabs.length <;> rfl

theorem Orderly.step (h : Orderly env b) {e : Event} (hC : Careful b e)
    (he : b.step env e = some b') : Orderly env b' := by
  cases e with
  | load =>
      cases he
      exact h.load
  | restore i => exact h.restore hC he
  | unauthorized i had =>
      cases he
      exact h.unauthorized i had
  | enter i => exact h.enter hC he
  | serve k d => exact h.serve he
  | land k => exact h.land he
  | resume i by_ => exact h.resume he
  | hear i => exact h.hear he

theorem orderly_reach (hr : (browser env).ReachVia Careful b) :
    Orderly env b := by
  refine hr.invariant (fun b hb => ?_) fun b e b' _ h hC he => h.step hC he
  have hheld : Held b := by
    intro i p hp
    obtain ⟨t, ht, hout⟩ := Option.bind_eq_some_iff.1 hp
    have hrest := (hb.rest t (List.mem_of_getElem? ht)).2
    unfold outOf at hout
    rw [hrest] at hout
    cases hout
  refine ⟨?_, ?_, ?_, hb.unended, ?_⟩
  · cases hjar : b.jar with
    | none =>
        refine .dry hjar fun f hf => ?_
        rw [hb.flights] at hf
        cases hf
    | some raw =>
        refine .idle raw hjar hb.flights hheld (hb.ready raw hjar) ?_
        rw [hb.presented]
        exact List.not_mem_nil
  · rw [hb.presented]
    exact List.forall_mem_nil _
  · rw [hb.presented]
    exact List.nodup_nil
  · rw [hb.refusals]
    exact List.forall_mem_nil _

/-! ## The alarm -/

/-- No token twice, no family revoked, no tab signed out on another's
account. -/
structure Unalarmed (b : Browser) : Prop where
  once : b.presented.Nodup
  unended : b.server.ended = []
  fair : ∀ why ∈ b.refusals,
    why ≠ .reused ∧ why ≠ .revoked ∧ why ≠ .unknown

/-- A request sent while another carries the cookie shows it again. -/
theorem Orderly.shows_again (h : Orderly env b) {by_ : Sender}
    (hjar : b.jar ≠ none) (hout : b.flights ≠ []) :
    ¬(b.send i by_).presented.Nodup := by
  cases h.traffic with
  | dry jar flights => exact absurd jar hjar
  | idle raw jar flights held ready unseen => exact absurd flights hout
  | busy raw f jar flights held cookie carrying seen mine =>
      simp only [Browser.send, jar, Option.toList_some]
      intro hnodup
      exact (List.nodup_append.1 hnodup).2.2 raw seen raw List.mem_cons_self rfl

/-- As long as no page asks for its session while another refresh is out, nor
another while one does, no token is shown twice and no alarm goes off; the
first step that is otherwise shows a token again. -/
theorem never_presented_twice (hr : (browser env).ReachVia Careful b) :
    Unalarmed b ∧ ∀ e b', (browser env).step b e = some b' → ¬Careful b e →
      ¬b'.presented.Nodup := by
  have h := orderly_reach hr
  refine ⟨⟨h.once, h.ended, fun why hwhy => ?_⟩, fun e b' he hC => ?_⟩
  · rcases h.fair why hwhy with rfl | rfl | rfl | rfl <;> decide
  · cases e with
    | restore i =>
        obtain ⟨hjar, hout⟩ := not_or.1 hC
        obtain ⟨t, ht, he⟩ := Option.bind_eq_some_iff.1 he
        rw [Option.ite_none_right_eq_some] at he
        obtain ⟨-, hb⟩ := he
        cases hb
        have htabs : Orderly env (b.setTab i fun t =>
            { t with restoring := some .flying }) :=
          h.tabs (outAt_setTab_same fun _ _ => rfl)
        exact htabs.shows_again hjar hout
    | enter i =>
        obtain ⟨hjar, hsends⟩ := not_or.1 hC
        obtain ⟨hsends, hpage⟩ := not_or.1 hsends
        obtain ⟨hfree, t, ht, hout, ⟨-, rfl⟩ | ⟨hstays, rfl⟩⟩ := enter_cases he
        · have hflights : b.flights ≠ [] := by
            intro hnone
            rw [hnone] at hpage
            exact hpage (List.forall_mem_nil _)
          have hagain : ¬(b.send i .locked).presented.Nodup :=
            h.shows_again hjar hflights
          exact hagain
        · exact absurd hstays hsends
    | load | unauthorized | serve | land | resume | hear =>
        exact absurd trivial hC

end Steps

/-! ## Two tabs -/

/-- A browser signed in once, its cookie unused, and both its pages loading. -/
def signedInOnce : SignIns where
  tokens := ⟨[("t1", ⟨"u1", "f1", "digest of s1", 3000, none, none, none, 0⟩)],
    List.nodup_singleton _⟩
  users := ⟨[("u1", ⟨"cafe", true⟩)], List.nodup_singleton _⟩
  ended := []

def twoTabs : Browser :=
  ⟨signedInOnce, some "s1", [.blank, .blank], [], none, [], []⟩

def tabsEnv : RefreshEnv := ⟨3000, fun raw => "digest of " ++ raw⟩

theorem twoTabs_opens : (browser tabsEnv).init twoTabs := by
  refine ⟨fun raw hraw => ?_, rfl, ?_, rfl, rfl, rfl, rfl⟩
  · cases hraw
    exact ⟨"t1", _, rfl, rfl, rfl⟩
  · decide

/-- Both pages ask for the session before either is answered. -/
def loadedTogether : List Event :=
  [.restore 0, .restore 1, .serve 0 ⟨10, "t2", "s2", "a2"⟩,
    .serve 1 ⟨11, "t3", "s3", "a3"⟩]

theorem loaded_together_alarmed : ∃ b, (browser tabsEnv).Reach b ∧
    b.presented = ["s1", "s1"] ∧ b.refusals = [.reused] ∧
    "f1" ∈ b.server.ended := by
  have hany : ((browser tabsEnv).run twoTabs loadedTogether).any (fun b =>
      decide (b.presented = ["s1", "s1"] ∧ b.refusals = [.reused] ∧
        "f1" ∈ b.server.ended)) = true := by decide +kernel
  obtain ⟨b, hrun, hb⟩ := (Option.any_eq_true _ _).1 hany
  exact ⟨b, Machine.reach_run (.init twoTabs_opens) hrun, of_decide_eq_true hb⟩

/-- The pages load one after the other, and then both are refused at once: the
second finds the job done. -/
def loadedInTurn : List Event :=
  [.restore 0, .serve 0 ⟨10, "t2", "s2", "a2"⟩, .land 0, .resume 0 .restore,
    .restore 1, .serve 0 ⟨20, "t3", "s3", "a3"⟩, .land 0, .resume 1 .restore,
    .unauthorized 0 (some "a2"), .unauthorized 1 (some "a3"), .enter 0,
    .serve 0 ⟨30, "t4", "s4", "a4"⟩, .land 0, .resume 0 .locked, .hear 1,
    .enter 1]

def careful (b : Browser) : Event → Bool
  | .restore _ => b.jar.isNone || b.flights.isEmpty
  | .enter i => b.jar.isNone || !b.sends i ||
    b.flights.all fun f => decide (f.by_ ≠ .restore)
  | _ => true

theorem careful_sound (b : Browser) (e : Event) (h : careful b e = true) :
    Careful b e := by
  cases e with
  | restore i =>
      simp only [careful, Bool.or_eq_true, Option.isNone_iff_eq_none,
        List.isEmpty_iff] at h
      exact h
  | enter i =>
      simp only [careful, Bool.or_eq_true, Option.isNone_iff_eq_none,
        Bool.not_eq_true', List.all_eq_true, decide_eq_true_eq, or_assoc] at h
      exact h
  | load | unauthorized | serve | land | resume | hear => trivial

theorem never_presented_twice_in_turn : ∃ b,
    (browser tabsEnv).ReachVia Careful b ∧
      b.presented = ["s1", "s2", "s3"] ∧ b.jar = some "s4" ∧
      b.tabs = [⟨some "a4", none, none, []⟩, ⟨some "a4", none, none, []⟩] ∧
      Unalarmed b := by
  have hany : ((browser tabsEnv).runVia careful twoTabs loadedInTurn).any
      (fun b => decide (b.presented = ["s1", "s2", "s3"] ∧
        b.jar = some "s4" ∧ b.tabs = [⟨some "a4", none, none, []⟩,
          ⟨some "a4", none, none, []⟩])) = true := by decide +kernel
  obtain ⟨b, hrun, hb⟩ := (Option.any_eq_true _ _).1 hany
  have hr : (browser tabsEnv).ReachVia Careful b :=
    Machine.reachVia_runVia careful_sound (.init twoTabs_opens) hrun
  obtain ⟨hshown, hjar, htabs⟩ := of_decide_eq_true hb
  exact ⟨b, hr, hshown, hjar, htabs, (never_presented_twice hr).1⟩

end Browser

end Rch
