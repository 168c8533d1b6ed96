import Rch.Screen.AuditTab

/-!
# What the Audit log tab shows

While the log grows under it, in whatever order its events become visible, the
list on screen names every event its filter matches that was there when the list
was begun, newest first, each once, as far down as it goes.

Two things have to hold when Load more is pressed. No load is in flight: its
answer would put a new list under the page. And the filter's period still covers
the days the list was begun with, for "today" is another day after midnight.
-/

namespace Rch.AuditLog

open Kit

variable {env : LogEnv}

/-! ## What a page is of -/

/-- Does an event match what a filter asks for over these days? -/
def wants (env : LogEnv) (filter : TabFilter) (days : Option (String × String))
    (e : StoredEvent) : Bool :=
  match days.map fun days => toFilter 0 (queryOver filter days none none) with
  | some (.ok f) => matching env f e
  | _ => false

theorem toFilter_queryOver {filter : TabFilter} {days : String × String}
    {before limit : Option ℕ} {now : Instant} {f : AuditFilter}
    (h : toFilter now (queryOver filter days before limit) = .ok f) :
    f.before = before ∧ f.limit = limit.getD 100 ∧
      matching env f = wants env filter (some days) := by
  simp only [toFilter, queryOver, Option.getD_some, bind_ok, assertValid_ok, exists_const,
    pure_ok] at h
  obtain ⟨fromAt, hfrom, toStart, hto, hle, rfl⟩ := h
  refine ⟨rfl, rfl, funext fun e => ?_⟩
  have hwants : toFilter 0 (queryOver filter days none none) = .ok {
      fromAt, toAt := nextIstDay toStart
      actor := filled filter.actor, role := filled filter.role, loc := filled filter.loc
      actions := wantedActions filter.group none
      outcome := filter.outcome
      q := ((filled (filter.q.map trim)).map trim).filter fun text => decide (text ≠ "")
      before := none, limit := 100 } := by
    simp only [toFilter, queryOver, Option.getD_some, bind_ok, assertValid_ok,
      exists_const, pure_ok]
    exact ⟨fromAt, hfrom, toStart, hto, hle, rfl⟩
  rw [wants, Option.map_some, hwants]
  rfl

theorem ask_some {log : List StoredEvent} {now : Instant} {filter : TabFilter}
    {days : Option (String × String)} {before limit : Option ℕ} {page : AuditPage}
    (h : ask env log now (days.map fun days => queryOver filter days before limit) =
      some page) :
    let p := Keyset.page StoredEvent.id (log.filter (wants env filter days)) before
      (limit.getD 100)
    page.rows = p.rows.map toRow ∧ page.next = p.next ∧ 0 < limit.getD 100 := by
  cases days with
  | none => cases h
  | some days =>
      rw [Option.map_some, ask, Option.bind_some, toOption_eq_some] at h
      simp only [list, bind_ok, guardOr_ok, exists_const, pure_ok] at h
      obtain ⟨hwell, f, hf, rfl⟩ := h
      have hquery : f.before = before ∧ f.limit = limit.getD 100 ∧
          matching env f = wants env filter (some days) := toFilter_queryOver hf
      obtain ⟨hbefore, hlimit, hmatch⟩ := hquery
      have hpos : 0 < limit.getD 100 := by
        cases limit with
        | none => decide
        | some n =>
            simp only [AuditQuery.wellFormed, queryOver, Bool.and_eq_true] at hwell
            exact (of_decide_eq_true hwell.2).1
      dsimp only
      unfold page
      rw [hbefore, hlimit, hmatch]
      exact ⟨rfl, rfl, hpos⟩

/-! ## A list of rows -/

/-- The rows are those of events on file that are wanted, and every event wanted
that was there at first is among them, as far down as they go. -/
structure Shown (env : LogEnv) (log : List StoredEvent) (filter : TabFilter)
    (days : Option (String × String)) (since : List StoredEvent)
    (events : List StoredEvent) (next : Option ℕ) : Prop where
  stored : ∀ e ∈ events, e ∈ log ∧ wants env filter days e = true
  listed : Keyset.Listed StoredEvent.id (since.filter (wants env filter days)) events next

variable {log log' since : List StoredEvent} {filter : TabFilter}
  {days : Option (String × String)} {next : Option ℕ}

theorem Shown.grow {events : List StoredEvent}
    (h : Shown env log filter days since events next) (hgrown : ∀ e ∈ log, e ∈ log') :
    Shown env log' filter days since events next :=
  ⟨fun e he => ⟨hgrown e (h.stored e he).1, (h.stored e he).2⟩, h.listed⟩

theorem nodup_filter (h : (log.map StoredEvent.id).Nodup) (p : StoredEvent → Bool) :
    ((log.filter p).map StoredEvent.id).Nodup :=
  h.sublist (List.filter_sublist.map _)

theorem Shown.begin (env : LogEnv) (filter : TabFilter)
    (days : Option (String × String)) {limit : ℕ}
    (hids : (log.map StoredEvent.id).Nodup) (hlimit : 0 < limit) :
    let p := Keyset.page StoredEvent.id (log.filter (wants env filter days)) none limit
    Shown env log filter days log p.rows p.next := by
  have hpage := Keyset.page_spec (nodup_filter hids (wants env filter days)) hlimit none
  exact ⟨fun e he => List.mem_filter.1 (hpage.mem e he).1, hpage.listed⟩

theorem Shown.goOn {limit n : ℕ} {events : List StoredEvent}
    (h : Shown env log filter days since events (some n))
    (hids : (log'.map StoredEvent.id).Nodup) (hlimit : 0 < limit)
    (hsince : ∀ e ∈ since, e ∈ log') (hgrown : ∀ e ∈ log', e ∈ log) :
    let p := Keyset.page StoredEvent.id (log'.filter (wants env filter days)) (some n) limit
    Shown env log filter days since (events ++ p.rows) p.next := by
  have hpage := Keyset.page_spec (nodup_filter hids (wants env filter days)) hlimit (some n)
  refine ⟨fun e he => ?_, h.listed.append (fun e he => ?_) hpage⟩
  · rcases List.mem_append.1 he with he | he
    · exact h.stored e he
    · obtain ⟨hmem, hwants⟩ := List.mem_filter.1 (hpage.mem e he).1
      exact ⟨hgrown e hmem, hwants⟩
  · obtain ⟨hmem, hwants⟩ := List.mem_filter.1 he
    exact List.mem_filter.2 ⟨hsince e hmem, hwants⟩

/-! ## The tab -/

/-- What an answer says is a page of the log it saw. -/
structure Heard (env : LogEnv) (log : List StoredEvent) (c : Call) (said : Said) :
    Prop where
  seen : ∀ e ∈ said.seen, e ∈ log
  ids : (said.seen.map StoredEvent.id).Nodup
  page : ∀ page, said.page = some page → ∃ now, ask env said.seen now c.query = some page

/-- A request for more of the list on screen: it goes on from the list's own mark,
and saw whatever the list was begun with. -/
structure Continues (t : Tab) (c : Call) (mount : ℕ) : Prop where
  ready : t.status = .ready
  filter : c.filter = t.filter
  days : c.days = t.days
  before : c.before = t.next
  next : t.next.isSome = true
  mount : mount = t.mount
  seen : ∀ said, c.said = some said → said.page.isSome = true →
    ∀ e ∈ t.since, e ∈ said.seen

/-- The tab, whatever list it shows. -/
structure TabBase (env : LogEnv) (t : Tab) : Prop where
  ids : (t.log.map StoredEvent.id).Nodup
  since : ∀ e ∈ t.since, e ∈ t.log
  mine : ∀ k c, t.calls.get? k = some c → c.mine ≤ t.latest
  heard : ∀ k c, t.calls.get? k = some c → ∀ said, c.said = some said →
    Heard env t.log c said
  waits : ∀ k c mount, t.calls.get? k = some c → c.purpose = .more mount →
    mount ≤ t.mount ∧ (mount = t.mount → t.more = true)
  single : ∀ k k' c c', t.calls.get? k = some c → t.calls.get? k' = some c' →
    c.purpose = .more t.mount → c'.purpose = .more t.mount → k = k'

/-- The tab, as every step keeps it. -/
structure TabOk (env : LogEnv) (t : Tab) : Prop extends TabBase env t where
  quiet : t.status = .idle ∨ t.status = .failed → t.next = none
  shown : t.status = .ready → ∃ events, t.rows = events.map toRow ∧
    Shown env t.log t.filter t.days t.since events t.next
  loads : ∀ k c, t.calls.get? k = some c → c.purpose = .load → c.mine = t.latest →
    t.status = .loading ∧ c.filter = t.filter ∧ c.before = none
  one : ∀ k k' c c', t.calls.get? k = some c → t.calls.get? k' = some c' →
    c.purpose = .load → c'.purpose = .load → c.mine = t.latest → c'.mine = t.latest →
    k = k'
  mores : ∀ k c mount, t.calls.get? k = some c → c.purpose = .more mount →
    c.mine = t.latest → Continues t c mount

/-- Load more is pressed only over a list that is not being read again, on the
days the list was begun with. -/
def Steady (t : Tab) (e : TabEvent) : Prop :=
  ∀ now, e = .loadMore now → t.status ≠ .loading ∧ t.filter.range now = t.days

section Steps

variable {t t' : Tab}

theorem guard_some {p : Prop} [Decidable p] {u : Unit} :
    (guard p : Option Unit) = some u ↔ p := by
  by_cases h : p <;> simp [guard, h]

theorem Unread.ok (h : Unread t) : TabOk env t := by
  have hnone : ∀ k c, t.calls.get? k = some c → False := by
    intro k c hc
    rw [h.calls, Table.get?_empty] at hc
    cases hc
  exact {
    ids := h.ids
    since := fun e he => by
      rw [h.since] at he
      cases he
    quiet := fun _ => h.next
    shown := fun hready => by
      rw [h.status] at hready
      cases hready
    mine := fun k c hc => (hnone k c hc).elim
    heard := fun k c hc => (hnone k c hc).elim
    loads := fun k c hc => (hnone k c hc).elim
    one := fun k _ c _ hc => (hnone k c hc).elim
    mores := fun k c _ hc => (hnone k c hc).elim
    waits := fun k c _ hc => (hnone k c hc).elim
    single := fun k _ c _ hc => (hnone k c hc).elim }

theorem Heard.grow {c : Call} {said : Said} (h : Heard env log c said)
    (hgrown : ∀ e ∈ log, e ∈ log') : Heard env log' c said :=
  ⟨fun e he => hgrown e (h.seen e he), h.ids, h.page⟩

theorem store_ok {events : List StoredEvent} (h : TabOk env t)
    (hs : t.store events = some t') : TabOk env t' := by
  simp only [Tab.store, Option.bind_eq_bind, Option.bind_eq_some_iff, guard_some,
    exists_const, Option.pure_def, Option.some.injEq] at hs
  obtain ⟨hids, rfl⟩ := hs
  have hgrown : ∀ e ∈ t.log, e ∈ t.log ++ events := fun e => List.mem_append_left events
  exact {
    ids := hids
    since := fun e he => hgrown e (h.since e he)
    quiet := h.quiet
    shown := fun hready => by
      obtain ⟨l, hrows, hshown⟩ := h.shown hready
      exact ⟨l, hrows, hshown.grow hgrown⟩
    mine := h.mine
    heard := fun k c hc said hsaid => (h.heard k c hc said hsaid).grow hgrown
    loads := h.loads
    one := h.one
    mores := fun k c m hc hp hm => by
      obtain ⟨h₁, h₂, h₃, h₄, h₅, h₆, h₇⟩ := h.mores k c m hc hp hm
      exact ⟨h₁, h₂, h₃, h₄, h₅, h₆, h₇⟩
    waits := h.waits
    single := h.single }

/-- Reading the list again leaves no request that goes on with it. -/
theorem TabBase.loadAudit {filter : Option TabFilter} {now : Instant} (h : TabBase env t) :
    TabOk env (t.loadAudit filter now) := by
  have hcalls : ∀ k c, (t.loadAudit filter now).calls.get? k = some c →
      (k = t.seq ∧ c = ⟨.load, t.latest + 1, filter.getD t.filter,
        (filter.getD t.filter).range now, none, none⟩) ∨
      (k ≠ t.seq ∧ t.calls.get? k = some c) := by
    intro k c hc
    have hset : (t.loadAudit filter now).calls = t.calls.set t.seq ⟨.load, t.latest + 1,
        filter.getD t.filter, (filter.getD t.filter).range now, none, none⟩ := by
      cases filter <;> rfl
    rw [hset, Table.get?_set] at hc
    split at hc
    · next hk =>
        cases hc
        exact .inl ⟨hk, rfl⟩
    · next hk => exact .inr ⟨hk, hc⟩
  have hlog : (t.loadAudit filter now).log = t.log := by cases filter <;> rfl
  have hsince : (t.loadAudit filter now).since = t.since := by cases filter <;> rfl
  have hstatus : (t.loadAudit filter now).status = .loading := by cases filter <;> rfl
  have hlatest : (t.loadAudit filter now).latest = t.latest + 1 := by cases filter <;> rfl
  have hmount : (t.loadAudit filter now).mount = t.mount := by cases filter <;> rfl
  have hmore : (t.loadAudit filter now).more = t.more := by cases filter <;> rfl
  have hfilter : (t.loadAudit filter now).filter = filter.getD t.filter := by
    cases filter <;> rfl
  exact {
    ids := hlog ▸ h.ids
    since := hlog ▸ hsince ▸ h.since
    quiet := fun hq => by
      rw [hstatus] at hq
      rcases hq with hq | hq <;> cases hq
    shown := fun hq => by
      rw [hstatus] at hq
      cases hq
    mine := fun k c hc => by
      rw [hlatest]
      rcases hcalls k c hc with ⟨-, rfl⟩ | ⟨-, hc⟩
      · exact Nat.le_refl _
      · exact (h.mine k c hc).trans (Nat.le_succ _)
    heard := fun k c hc said hsaid => by
      rcases hcalls k c hc with ⟨-, rfl⟩ | ⟨-, hc⟩
      · cases hsaid
      · exact hlog ▸ h.heard k c hc said hsaid
    loads := fun k c hc _ hm => by
      rw [hlatest] at hm
      rcases hcalls k c hc with ⟨-, rfl⟩ | ⟨-, hc⟩
      · exact ⟨hstatus, hfilter.symm, rfl⟩
      · have hle := h.mine k c hc
        omega
    one := fun k k' c c' hc hc' _ _ hm hm' => by
      rw [hlatest] at hm hm'
      rcases hcalls k c hc with ⟨hk, -⟩ | ⟨-, hc⟩
      · rcases hcalls k' c' hc' with ⟨hk', -⟩ | ⟨-, hc'⟩
        · exact hk.trans hk'.symm
        · have hle := h.mine k' c' hc'
          omega
      · have hle := h.mine k c hc
        omega
    mores := fun k c m hc hp hm => by
      rw [hlatest] at hm
      rcases hcalls k c hc with ⟨-, rfl⟩ | ⟨-, hc⟩
      · cases hp
      · have hle := h.mine k c hc
        omega
    waits := fun k c m hc hp => by
      rw [hmount, hmore]
      rcases hcalls k c hc with ⟨-, rfl⟩ | ⟨-, hc⟩
      · cases hp
      · exact h.waits k c m hc hp
    single := fun k k' c c' hc hc' hp hp' => by
      rw [hmount] at hp hp'
      rcases hcalls k c hc with ⟨-, rfl⟩ | ⟨-, hc⟩
      · cases hp
      · rcases hcalls k' c' hc' with ⟨-, rfl⟩ | ⟨-, hc'⟩
        · cases hp'
        · exact h.single k k' c c' hc hc' hp hp' }

theorem open_ok {now : Instant} (h : TabOk env t) : TabOk env (t.open_ now) := by
  refine TabBase.loadAudit {
    ids := h.ids
    since := h.since
    mine := h.mine
    heard := h.heard
    waits := fun k c m hc hp => ?_
    single := fun k k' c c' hc _ hp _ => ?_ }
  · have hle := (h.waits k c m hc hp).1
    exact ⟨hle.trans (Nat.le_succ _), fun hm => by dsimp only at hm; omega⟩
  · have hle := (h.waits k c _ hc hp).1
    dsimp only at hle
    omega

/-- The next page is asked for over a list that is ready, from its mark. -/
theorem loadMoreAudit_ok {now : Instant} (h : TabOk env t)
    (hsteady : t.status ≠ .loading ∧ t.filter.range now = t.days)
    (hs : t.loadMoreAudit now = some t') : TabOk env t' := by
  unfold Tab.loadMoreAudit at hs
  split at hs
  · cases hs
  · next hmore =>
      obtain ⟨before, hnext, rfl⟩ := Option.map_eq_some_iff.1 hs
      have hready : t.status = .ready := by
        cases hstatus : t.status with
        | ready => rfl
        | loading => exact absurd hstatus hsteady.1
        | idle =>
            rw [h.quiet (.inl hstatus)] at hnext
            cases hnext
        | failed =>
            rw [h.quiet (.inr hstatus)] at hnext
            cases hnext
      have hcalls : ∀ k c, (t.calls.set t.seq ⟨.more t.mount, t.latest, t.filter,
          t.filter.range now, some before, none⟩).get? k = some c →
          (k = t.seq ∧ c = ⟨.more t.mount, t.latest, t.filter, t.filter.range now,
            some before, none⟩) ∨ t.calls.get? k = some c := by
        intro k c hc
        rw [Table.get?_set] at hc
        split at hc
        · next hk =>
            cases hc
            exact .inl ⟨hk, rfl⟩
        · exact .inr hc
      -- the button did not wait, so nothing of this tab's was in flight
      have hfree : ∀ k c, t.calls.get? k = some c → c.purpose ≠ .more t.mount :=
        fun k c hc hp => hmore ((h.waits k c _ hc hp).2 rfl)
      exact {
        ids := h.ids
        since := h.since
        quiet := h.quiet
        shown := h.shown
        mine := fun k c hc => by
          rcases hcalls k c hc with ⟨-, rfl⟩ | hc
          · exact Nat.le_refl _
          · exact h.mine k c hc
        heard := fun k c hc said hsaid => by
          rcases hcalls k c hc with ⟨-, rfl⟩ | hc
          · cases hsaid
          · exact h.heard k c hc said hsaid
        loads := fun k c hc hp hm => by
          rcases hcalls k c hc with ⟨-, rfl⟩ | hc
          · cases hp
          · exact h.loads k c hc hp hm
        one := fun k k' c c' hc hc' hp hp' => by
          rcases hcalls k c hc with ⟨-, rfl⟩ | hc
          · cases hp
          · rcases hcalls k' c' hc' with ⟨-, rfl⟩ | hc'
            · cases hp'
            · exact h.one k k' c c' hc hc' hp hp'
        mores := fun k c m hc hp hm => by
          rcases hcalls k c hc with ⟨-, rfl⟩ | hc
          · cases hp
            exact {
              ready := hready
              filter := rfl
              days := hsteady.2
              before := hnext.symm
              next := by
                change t.next.isSome = true
                rw [hnext]
                rfl
              mount := rfl
              seen := fun said hsaid => by cases hsaid }
          · obtain ⟨h₁, h₂, h₃, h₄, h₅, h₆, h₇⟩ := h.mores k c m hc hp hm
            exact ⟨h₁, h₂, h₃, h₄, h₅, h₆, h₇⟩
        waits := fun k c m hc hp => by
          rcases hcalls k c hc with ⟨-, rfl⟩ | hc
          · cases hp
            exact ⟨Nat.le_refl _, fun _ => rfl⟩
          · exact ⟨(h.waits k c m hc hp).1, fun _ => rfl⟩
        single := fun k k' c c' hc hc' hp hp' => by
          rcases hcalls k c hc with ⟨hk, -⟩ | hc
          · rcases hcalls k' c' hc' with ⟨hk', -⟩ | hc'
            · exact hk.trans hk'.symm
            · exact absurd hp' (hfree k' c' hc')
          · exact absurd hp (hfree k c hc) }

/-- An answer changes nothing of a request but what was said. -/
theorem said_ok {k : ℕ} {c : Call} {said : Said} (h : TabOk env t)
    (hc : t.calls.get? k = some c) (hheard : Heard env t.log c said)
    (hseen : said.page.isSome = true → ∀ e ∈ t.since, e ∈ said.seen) :
    TabOk env { t with calls := t.calls.set k { c with said := some said } } := by
  have hcalls : ∀ k' c', (t.calls.set k { c with said := some said }).get? k' = some c' →
      ∃ c₀, t.calls.get? k' = some c₀ ∧ c'.purpose = c₀.purpose ∧ c'.mine = c₀.mine ∧
        c'.filter = c₀.filter ∧ c'.days = c₀.days ∧ c'.before = c₀.before ∧
        (c'.said = c₀.said ∨ k' = k ∧ c₀ = c ∧ c'.said = some said) := by
    intro k' c' hc'
    rw [Table.get?_set] at hc'
    split at hc'
    · next hk =>
        cases hc'
        exact ⟨c, hk ▸ hc, rfl, rfl, rfl, rfl, rfl, .inr ⟨hk, rfl, rfl⟩⟩
    · exact ⟨c', hc', rfl, rfl, rfl, rfl, rfl, .inl rfl⟩
  exact {
    ids := h.ids
    since := h.since
    quiet := h.quiet
    shown := h.shown
    mine := fun k' c' hc' => by
      obtain ⟨c₀, hc₀, -, hm, -⟩ := hcalls k' c' hc'
      exact hm ▸ h.mine k' c₀ hc₀
    heard := fun k' c' hc' said' hsaid' => by
      obtain ⟨c₀, hc₀, -, -, hf, hd, hb, hold | ⟨-, rfl, hnew⟩⟩ := hcalls k' c' hc'
      · have hquery : c'.query = c₀.query := by rw [Call.query, Call.query, hf, hd, hb]
        obtain ⟨h₁, h₂, h₃⟩ := h.heard k' c₀ hc₀ said' (hold ▸ hsaid')
        exact ⟨h₁, h₂, fun page hpage => by rw [hquery]; exact h₃ page hpage⟩
      · have hquery : c'.query = c₀.query := by rw [Call.query, Call.query, hf, hd, hb]
        cases hnew.symm.trans hsaid'
        exact ⟨hheard.seen, hheard.ids, fun page hpage => by
          rw [hquery]; exact hheard.page page hpage⟩
    loads := fun k' c' hc' hp hm => by
      obtain ⟨c₀, hc₀, hp₀, hm₀, hf, -, hb, -⟩ := hcalls k' c' hc'
      rw [hf, hb]
      exact h.loads k' c₀ hc₀ (hp₀ ▸ hp) (hm₀ ▸ hm)
    one := fun k₁ k₂ c₁ c₂ hc₁ hc₂ hp₁ hp₂ hm₁ hm₂ => by
      obtain ⟨d₁, hd₁, hq₁, hn₁, -⟩ := hcalls k₁ c₁ hc₁
      obtain ⟨d₂, hd₂, hq₂, hn₂, -⟩ := hcalls k₂ c₂ hc₂
      exact h.one k₁ k₂ d₁ d₂ hd₁ hd₂ (hq₁ ▸ hp₁) (hq₂ ▸ hp₂) (hn₁ ▸ hm₁) (hn₂ ▸ hm₂)
    mores := fun k' c' m hc' hp hm => by
      obtain ⟨c₀, hc₀, hp₀, hm₀, hf, hd, hb, hsaid⟩ := hcalls k' c' hc'
      obtain ⟨h₁, h₂, h₃, h₄, h₅, h₆, h₇⟩ := h.mores k' c₀ m hc₀ (hp₀ ▸ hp) (hm₀ ▸ hm)
      refine ⟨h₁, hf.trans h₂, hd.trans h₃, hb.trans h₄, h₅, h₆, fun said' hsaid' => ?_⟩
      rcases hsaid with hold | ⟨-, -, hnew⟩
      · exact h₇ said' (hold ▸ hsaid')
      · cases hnew.symm.trans hsaid'
        exact hseen
    waits := fun k' c' m hc' hp => by
      obtain ⟨c₀, hc₀, hp₀, -⟩ := hcalls k' c' hc'
      exact h.waits k' c₀ m hc₀ (hp₀ ▸ hp)
    single := fun k₁ k₂ c₁ c₂ hc₁ hc₂ hp₁ hp₂ => by
      obtain ⟨d₁, hd₁, hq₁, -⟩ := hcalls k₁ c₁ hc₁
      obtain ⟨d₂, hd₂, hq₂, -⟩ := hcalls k₂ c₂ hc₂
      exact h.single k₁ k₂ d₁ d₂ hd₁ hd₂ (hq₁ ▸ hp₁) (hq₂ ▸ hp₂) }

theorem answer_ok {k : ℕ} {now : Instant} (h : TabOk env t)
    (hs : t.answer env k now = some t') : TabOk env t' := by
  simp only [Tab.answer, Option.bind_eq_bind, Option.bind_eq_some_iff, guard_some,
    exists_const, Option.pure_def, Option.some.injEq] at hs
  obtain ⟨c, hc, -, rfl⟩ := hs
  exact said_ok h hc ⟨fun _ he => he, h.ids, fun _ hpage => ⟨now, hpage⟩⟩
    fun _ => h.since

theorem lose_ok {k : ℕ} (h : TabOk env t) (hs : t.lose k = some t') : TabOk env t' := by
  simp only [Tab.lose, Option.bind_eq_bind, Option.bind_eq_some_iff, guard_some,
    exists_const, Option.pure_def, Option.some.injEq] at hs
  obtain ⟨c, hc, -, rfl⟩ := hs
  exact said_ok h hc ⟨List.forall_mem_nil _, List.nodup_nil, fun _ hpage => by cases hpage⟩
    fun hsome => by cases hsome

theorem get?_without {k k' : ℕ} {c : Call}
    (h : (t.calls.restrict fun j => decide (j ≠ k)).get? k' = some c) :
    k' ≠ k ∧ t.calls.get? k' = some c := by
  rw [Table.get?_restrict] at h
  split at h
  · next hk => exact ⟨of_decide_eq_true hk, h⟩
  · cases h

theorem without_ok {k : ℕ} (h : TabOk env t) :
    TabOk env { t with calls := t.calls.restrict fun j => decide (j ≠ k) } where
  ids := h.ids
  since := h.since
  quiet := h.quiet
  shown := h.shown
  mine k' c hc := h.mine k' c (get?_without hc).2
  heard k' c hc := h.heard k' c (get?_without hc).2
  loads k' c hc := h.loads k' c (get?_without hc).2
  one k₁ k₂ c₁ c₂ hc₁ hc₂ :=
    h.one k₁ k₂ c₁ c₂ (get?_without hc₁).2 (get?_without hc₂).2
  mores k' c m hc hp hm := by
    obtain ⟨h₁, h₂, h₃, h₄, h₅, h₆, h₇⟩ := h.mores k' c m (get?_without hc).2 hp hm
    exact ⟨h₁, h₂, h₃, h₄, h₅, h₆, h₇⟩
  waits k' c m hc := h.waits k' c m (get?_without hc).2
  single k₁ k₂ c₁ c₂ hc₁ hc₂ :=
    h.single k₁ k₂ c₁ c₂ (get?_without hc₁).2 (get?_without hc₂).2

/-- The latest load's answer begins a list, or leaves none. -/
theorem loaded_ok {c : Call} {said : Said} (h : TabOk env t)
    (hload : c.mine = t.latest → t.status = .loading ∧ c.filter = t.filter ∧
      c.before = none ∧ ∀ k c', t.calls.get? k = some c' → c'.purpose = .load →
        c'.mine ≠ t.latest) (hheard : Heard env t.log c said) :
    TabOk env (t.loaded c said) := by
  unfold Tab.loaded
  split
  · next hmine =>
      obtain ⟨hloading, hfilter, hbefore, hlast⟩ := hload hmine
      have hnone : ∀ k c m, t.calls.get? k = some c → c.purpose = .more m →
          c.mine ≠ t.latest := by
        intro k c m hc hp hm
        have hready := (h.mores k c m hc hp hm).ready
        rw [hloading] at hready
        cases hready
      cases hpage : said.page with
      | some page =>
          obtain ⟨now, hask⟩ := hheard.page page hpage
          rw [Call.query, hbefore] at hask
          obtain ⟨hrows, hnext, hpos⟩ := ask_some hask
          have hbegin := Shown.begin env c.filter c.days hheard.ids hpos
          exact {
            ids := h.ids
            since := hheard.seen
            quiet := fun hq => by rcases hq with hq | hq <;> cases hq
            shown := fun _ => by
              rw [hfilter] at hrows hnext hbegin
              refine ⟨_, hrows, ?_⟩
              dsimp only
              rw [hnext]
              exact hbegin.grow hheard.seen
            mine := h.mine
            heard := h.heard
            loads := fun k c' hc' hp hm => absurd hm (hlast k c' hc' hp)
            one := fun k _ c' _ hc' _ hp _ hm => absurd hm (hlast k c' hc' hp)
            mores := fun k c m hc hp hm => absurd hm (hnone k c m hc hp)
            waits := h.waits
            single := h.single }
      | none =>
          exact {
            ids := h.ids
            since := h.since
            quiet := fun _ => rfl
            shown := fun hq => by cases hq
            mine := h.mine
            heard := h.heard
            loads := fun k c' hc' hp hm => absurd hm (hlast k c' hc' hp)
            one := fun k _ c' _ hc' _ hp _ hm => absurd hm (hlast k c' hc' hp)
            mores := fun k c m hc hp hm => absurd hm (hnone k c m hc hp)
            waits := h.waits
            single := h.single }
  · exact h

theorem appended_ok {c : Call} {said : Said} {m : ℕ} (h : TabOk env t)
    (hmore : c.mine = t.latest → Continues t c m) (hsaid : c.said = some said)
    (hlast : ∀ k c' m', t.calls.get? k = some c' → c'.purpose = .more m' →
      c.mine = t.latest → c'.mine ≠ t.latest)
    (hheard : Heard env t.log c said) : TabOk env (t.appended c said) := by
  unfold Tab.appended
  split
  · next hmine =>
      have hcont := hmore hmine
      cases hpage : said.page with
      | none => exact h
      | some page =>
          obtain ⟨before, hbefore⟩ := Option.isSome_iff_exists.1 hcont.next
          obtain ⟨now, hask⟩ := hheard.page page hpage
          rw [Call.query, hcont.before, hcont.filter, hcont.days, hbefore] at hask
          obtain ⟨hrows, hnext, hpos⟩ := ask_some hask
          obtain ⟨events, hold, hshown⟩ := h.shown hcont.ready
          rw [hbefore] at hshown
          have hgo := hshown.goOn hheard.ids hpos
            (hcont.seen said hsaid (hpage ▸ rfl)) hheard.seen
          dsimp only at hgo
          rw [← hnext] at hgo
          exact {
            ids := h.ids
            since := h.since
            quiet := fun hq => by
              change t.status = .idle ∨ t.status = .failed at hq
              rw [hcont.ready] at hq
              rcases hq with hq | hq <;> cases hq
            shown := fun _ =>
              ⟨_, (congrArg₂ (· ++ ·) hold hrows).trans List.map_append.symm, hgo⟩
            mine := h.mine
            heard := h.heard
            loads := h.loads
            one := h.one
            mores := fun k c' m' hc' hp hm => absurd hm (hlast k c' m' hc' hp hmine)
            waits := h.waits
            single := h.single }
  · exact h

/-- The button that waited for the tab's one request waits no more. -/
theorem released_ok (h : TabOk env t)
    (hfree : ∀ k c, t.calls.get? k = some c → c.purpose ≠ .more t.mount) :
    TabOk env { t with more := false } where
  ids := h.ids
  since := h.since
  quiet := h.quiet
  shown := h.shown
  mine := h.mine
  heard := h.heard
  loads := h.loads
  one := h.one
  mores k c m hc hp hm := by
    obtain ⟨h₁, h₂, h₃, h₄, h₅, h₆, h₇⟩ := h.mores k c m hc hp hm
    exact ⟨h₁, h₂, h₃, h₄, h₅, h₆, h₇⟩
  waits k c m hc hp := by
    refine ⟨(h.waits k c m hc hp).1, fun hm => ?_⟩
    cases hm
    exact absurd hp (hfree k c hc)
  single := h.single

theorem appended_same (t : Tab) (c : Call) (said : Said) :
    (t.appended c said).calls = t.calls ∧ (t.appended c said).mount = t.mount := by
  unfold Tab.appended
  split
  · cases said.page <;> exact ⟨rfl, rfl⟩
  · exact ⟨rfl, rfl⟩

theorem land_ok {k : ℕ} (h : TabOk env t) (hs : t.land k = some t') : TabOk env t' := by
  simp only [Tab.land, Option.bind_eq_bind, Option.bind_eq_some_iff] at hs
  obtain ⟨c, hc, said, hsaid, hs⟩ := hs
  have hwithout := without_ok (k := k) h
  have hheard := h.heard k c hc said hsaid
  cases hpurpose : c.purpose with
  | load =>
      rw [hpurpose] at hs
      cases hs
      refine loaded_ok hwithout (fun hmine => ?_) hheard
      obtain ⟨h₁, h₂, h₃⟩ := h.loads k c hc hpurpose hmine
      refine ⟨h₁, h₂, h₃, fun k' c' hc' hp' hm' => ?_⟩
      obtain ⟨hne, hget⟩ := get?_without hc'
      exact hne (h.one k' k c' c hget hc hp' hpurpose hm' hmine)
  | more m =>
      rw [hpurpose] at hs
      dsimp only at hs
      have hmore : c.mine = t.latest → Continues t c m := h.mores k c m hc hpurpose
      have happended := appended_ok (m := m) hwithout (fun hmine => by
          obtain ⟨h₁, h₂, h₃, h₄, h₅, h₆, h₇⟩ := hmore hmine
          exact ⟨h₁, h₂, h₃, h₄, h₅, h₆, h₇⟩) hsaid
        (fun k' c' m' hc' hp' hmine hm' => by
          obtain ⟨hne, hget⟩ := get?_without hc'
          have hmount := (hmore hmine).mount
          have hmount' := (h.mores k' c' m' hget hp' hm').mount
          exact hne (h.single k' k c' c hget hc (hmount' ▸ hp') (hmount ▸ hpurpose)))
        hheard
      obtain ⟨hcalls, hmount⟩ := appended_same
        { t with calls := t.calls.restrict fun j => decide (j ≠ k) } c said
      cases hs
      split
      · next hm =>
          refine released_ok happended fun k' c' hc' hp' => ?_
          rw [hcalls] at hc'
          rw [hmount] at hp' hm
          obtain ⟨hne, hget⟩ := get?_without hc'
          cases hm
          exact hne (h.single k' k c' c hget hc hp' hpurpose)
      · exact happended

/-- What no request of the list's touches. -/
theorem aside_ok {X : Table ℕ Export} {n fresh : ℕ} (h : TabOk env t) :
    TabOk env { t with exports := X, seq := n, fresh } where
  ids := h.ids
  since := h.since
  quiet := h.quiet
  shown := h.shown
  mine := h.mine
  heard := h.heard
  loads := h.loads
  one := h.one
  mores k c m hc hp hm := by
    obtain ⟨h₁, h₂, h₃, h₄, h₅, h₆, h₇⟩ := h.mores k c m hc hp hm
    exact ⟨h₁, h₂, h₃, h₄, h₅, h₆, h₇⟩
  waits := h.waits
  single := h.single

theorem exportAnswer_ok {k : ℕ} {now : Instant} (h : TabOk env t)
    (hs : t.exportAnswer env k now = some t') : TabOk env t' := by
  obtain ⟨x, -, hs⟩ := Option.bind_eq_some_iff.1 hs
  split at hs
  · cases hs
    exact aside_ok h
  · cases hs

theorem exportLose_ok {k : ℕ} (h : TabOk env t) (hs : t.exportLose k = some t') :
    TabOk env t' := by
  obtain ⟨x, -, hs⟩ := Option.bind_eq_some_iff.1 hs
  split at hs
  · cases hs
    exact aside_ok h
  · cases hs

theorem exportLand_ok {k : ℕ} {now : Instant} (h : TabOk env t)
    (hs : t.exportLand k now = some t') : TabOk env t' := by
  obtain ⟨x, -, hs⟩ := Option.bind_eq_some_iff.1 hs
  split at hs
  · cases hs
    exact aside_ok h
  · cases hs
    exact aside_ok h
  · cases hs

theorem step_ok {e : TabEvent} (h : TabOk env t) (hsteady : Steady t e)
    (hs : t.step env e = some t') : TabOk env t' := by
  cases e with
  | store events => exact store_ok h hs
  | notice =>
      cases hs
      exact aside_ok h
  | open_ now =>
      cases hs
      exact open_ok h
  | load filter now =>
      cases hs
      exact h.toTabBase.loadAudit
  | loadMore now => exact loadMoreAudit_ok h (hsteady now rfl) hs
  | answer k now => exact answer_ok h hs
  | lose k => exact lose_ok h hs
  | land k => exact land_ok h hs
  | export_ now =>
      cases hs
      exact aside_ok h
  | exportAnswer k now => exact exportAnswer_ok h hs
  | exportLose k => exact exportLose_ok h hs
  | exportLand k now => exact exportLand_ok h hs

end Steps

/-- A list that is ready shows the log as it was when it was begun, newest first,
every event the filter wants once, down to its mark. -/
theorem audit_listed {t : Tab} (h : (auditTab env).ReachVia Steady t)
    (hready : t.status = .ready) :
    ∃ events, t.rows = events.map toRow ∧
      Shown env t.log t.filter t.days t.since events t.next := by
  have hok : TabOk env t := by
    refine Machine.ReachVia.invariant ?_ ?_ h
    · intro t h₀
      exact Unread.ok h₀
    · intro t e t' _ ht hsteady hs
      exact step_ok ht hsteady hs
  exact hok.shown hready

/-! ## A list of two pages -/

def plainEnv : LogEnv := ⟨id, fun _ => ""⟩

def filed (n : ℕ) : StoredEvent :=
  ⟨n, 1767225600000, ⟨"2026-01-01T00:00:00Z", "", ⟨none, "", "", "", ""⟩, "pay", "", "",
    "", "", .done, 200, "", none, .null, .null, .null, [], "", ""⟩⟩

def quietTab : Tab where
  log := (List.range 102).map fun k => filed (k + 1)
  rows := []
  next := none
  counts := none
  filter := initialFilter
  fresh := 0
  status := .idle
  latest := 0
  mount := 0
  more := false
  calls := .empty
  exports := .empty
  seq := 0
  since := []
  days := none

theorem quietTab_unread : Unread quietTab where
  rows := rfl
  next := rfl
  status := rfl
  calls := rfl
  exports := rfl
  since := rfl
  ids := by decide +kernel

def noon : Instant := 1767225600000

def steady (t : Tab) : TabEvent → Bool
  | .loadMore now => decide (t.status ≠ .loading) && decide (t.filter.range now = t.days)
  | _ => true

theorem steady_sound (t : Tab) (e : TabEvent) (h : steady t e = true) : Steady t e := by
  intro now he
  subst he
  rw [steady, Bool.and_eq_true_iff, decide_eq_true_eq, decide_eq_true_eq] at h
  exact h

def twoPages : List TabEvent :=
  [.open_ noon, .answer 0 noon, .land 0, .store [filed 103], .loadMore noon,
    .answer 1 noon, .land 1]

set_option maxRecDepth 10000 in
theorem audit_listed_two_pages : ∃ t, (auditTab plainEnv).ReachVia Steady t ∧
    t.status = .ready ∧ t.rows.length = 102 ∧ ∃ events, t.rows = events.map toRow ∧
      Shown plainEnv t.log t.filter t.days t.since events t.next := by
  have hany : ((auditTab plainEnv).runVia steady quietTab twoPages).any (fun t =>
      decide (t.status = .ready) && decide (t.rows.length = 102)) = true := by
    decide +kernel
  obtain ⟨t, hrun, ht⟩ := (Option.any_eq_true _ _).1 hany
  rw [Bool.and_eq_true_iff, decide_eq_true_eq, decide_eq_true_eq] at ht
  have hreach := Machine.reachVia_runVia steady_sound (.init quietTab_unread) hrun
  exact ⟨t, hreach, ht.1, ht.2, audit_listed hreach ht.1⟩

/-- Load more pressed while the list is read again: the page goes under the new
list from the old one's mark, and what lies between is missing. -/
def overReload : List TabEvent :=
  [.open_ noon, .answer 0 noon, .land 0, .store [filed 103], .load none noon,
    .loadMore noon, .answer 1 noon, .land 1, .answer 2 noon, .land 2]

set_option maxRecDepth 10000 in
example : ((auditTab plainEnv).run quietTab overReload).any (fun t =>
    decide (t.status = .ready) && decide (t.next = none) &&
    decide (3 ∈ t.since.map StoredEvent.id) && decide (3 ∉ t.rows.map AuditRow.id) &&
    decide (t.rows.length = 102)) = true := by
  decide +kernel

end Rch.AuditLog
