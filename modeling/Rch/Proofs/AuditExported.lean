import Rch.Proofs.AuditListed

/-!
# What an export hands over

An export asks for its pages while the log grows. What it hands over is every
event its filter matched when the first page was answered, newest first, each
once: all of them where it says so, and otherwise the newest fifty thousand, with
older ones left on file. It never asks for more pages than that takes.

The period has to cover the same days throughout. An export of "today" that runs
past midnight goes on over another day.
-/

namespace Rch.AuditLog

open Kit

variable {env : LogEnv}

/-- An export that asks for what lies past a mark: so many full pages in hand, and
fewer rows than it takes. -/
structure Going (env : LogEnv) (log : List StoredEvent) (x : Export)
    (before : Option ℕ) : Prop where
  full : x.rows.length + EXPORT_PAGE = x.pages * EXPORT_PAGE
  short : x.rows.length < EXPORT_CAP
  first : before = none → x.rows = []
  shown : ∀ n, before = some n → ∃ events, x.rows = events.map toRow ∧
    Shown env log x.filter x.days x.since events (some n)

/-- What was handed over, of the log the first page was of. -/
structure Delivered (env : LogEnv) (log : List StoredEvent) (x : Export)
    (out : Exported) (events : List StoredEvent) : Prop where
  csv : out.csv = auditCsv (events.map toRow)
  rows : out.rows = events.length
  stored : ∀ e ∈ events, e ∈ log ∧ wants env x.filter x.days e = true
  newest : Keyset.Newest StoredEvent.id events
  complete : ∀ e ∈ x.since, wants env x.filter x.days e = true →
    (out.capped = false ∨ ∃ a ∈ events, a.id ≤ e.id) → e ∈ events
  capped : out.capped = true → events.length = EXPORT_CAP ∧
    ∃ e ∈ log, wants env x.filter x.days e = true ∧ ∀ a ∈ events, e.id < a.id

structure ExportOk (env : LogEnv) (log : List StoredEvent) (x : Export) : Prop where
  since : ∀ e ∈ x.since, e ∈ log
  few : x.pages * EXPORT_PAGE ≤ EXPORT_CAP
  asking : ∀ before days, x.progress = .asking before days →
    days = x.days ∧ Going env log x before
  answered : ∀ page, x.progress = .answered (some page) →
    ∃ before log' now, Going env log x before ∧ (∀ e ∈ log', e ∈ log) ∧
      (log'.map StoredEvent.id).Nodup ∧ (∀ e ∈ x.since, e ∈ log') ∧
      (before = none → x.since = log') ∧
      ask env log' now (x.days.map fun days =>
        queryOver x.filter days before (some EXPORT_PAGE)) = some page
  done : ∀ out, x.progress = .done (some out) → ∃ events, Delivered env log x out events

/-- The next page is asked for over the days of the first. -/
def SamePeriod (t : Tab) (e : TabEvent) : Prop :=
  ∀ k now x, e = .exportLand k now → t.exports.get? k = some x →
    x.filter.range now = x.days

variable {log log' : List StoredEvent} {x : Export}

theorem Going.grow {before : Option ℕ} (h : Going env log x before)
    (hgrown : ∀ e ∈ log, e ∈ log') : Going env log' x before where
  full := h.full
  short := h.short
  first := h.first
  shown n hn := by
    obtain ⟨events, hrows, hshown⟩ := h.shown n hn
    exact ⟨events, hrows, hshown.grow hgrown⟩

theorem ExportOk.grow (h : ExportOk env log x) (hgrown : ∀ e ∈ log, e ∈ log') :
    ExportOk env log' x where
  since e he := hgrown e (h.since e he)
  few := h.few
  asking before days hp := ⟨(h.asking before days hp).1,
    (h.asking before days hp).2.grow hgrown⟩
  answered page hp := by
    obtain ⟨before, l, now, hgoing, hsub, hids, hsince, hfirst, hask⟩ := h.answered page hp
    exact ⟨before, l, now, hgoing.grow hgrown, fun e he => hgrown e (hsub e he), hids,
      hsince, hfirst, hask⟩
  done out hp := by
    obtain ⟨events, hd⟩ := h.done out hp
    exact ⟨events, {
      csv := hd.csv
      rows := hd.rows
      stored := fun e he => ⟨hgrown e (hd.stored e he).1, (hd.stored e he).2⟩
      newest := hd.newest
      complete := hd.complete
      capped := fun hc => by
        obtain ⟨hlen, e, he, hrest⟩ := hd.capped hc
        exact ⟨hlen, e, hgrown e he, hrest⟩ }⟩

/-! ## The loop -/

theorem Going.take {before : Option ℕ} {now : Instant} {page : AuditPage}
    (h : Going env log x before) (hsub : ∀ e ∈ log', e ∈ log)
    (hids : (log'.map StoredEvent.id).Nodup) (hsince : ∀ e ∈ x.since, e ∈ log')
    (hfirst : before = none → x.since = log')
    (hask : ask env log' now (x.days.map fun days =>
      queryOver x.filter days before (some EXPORT_PAGE)) = some page) :
    (∃ events, x.rows ++ page.rows = events.map toRow ∧
      Shown env log x.filter x.days x.since events page.next) ∧
    page.rows.length ≤ EXPORT_PAGE ∧
    (∀ n, page.next = some n → page.rows.length = EXPORT_PAGE ∧
      ∃ e ∈ log', wants env x.filter x.days e = true ∧ e.id < n) := by
  obtain ⟨hrows, hnext, hpos⟩ := ask_some hask
  have hkeys := nodup_filter hids (wants env x.filter x.days)
  rw [Option.getD_some] at hrows hnext hpos
  refine ⟨?_, ?_, fun n hn => ⟨?_, ?_⟩⟩
  · cases before with
    | none =>
        have hbegin := Shown.begin env x.filter x.days hids hpos
        dsimp only at hbegin
        rw [← hnext, ← hfirst rfl] at hbegin
        rw [h.first rfl, List.nil_append]
        exact ⟨_, hfirst rfl ▸ hrows, hbegin.grow (hfirst rfl ▸ hsub)⟩
    | some n =>
        obtain ⟨events, hold, hshown⟩ := h.shown n rfl
        have hgo := hshown.goOn hids hpos hsince hsub
        dsimp only at hgo
        rw [← hnext] at hgo
        exact ⟨_, (congrArg₂ (· ++ ·) hold hrows).trans List.map_append.symm, hgo⟩
  · rw [hrows, List.length_map]
    exact Keyset.length_page_le
  · rw [hrows, List.length_map]
    exact Keyset.length_of_next (hnext ▸ hn)
  · obtain ⟨e, he, hlt⟩ := Keyset.exists_past hkeys hpos (hnext ▸ hn)
    obtain ⟨hmem, hwants⟩ := List.mem_filter.1 he
    exact ⟨e, hmem, hwants, hlt⟩

theorem next_ok {page : AuditPage} {now : Instant} (h : ExportOk env log x)
    (hperiod : x.filter.range now = x.days) (hp : x.progress = .answered (some page)) :
    ExportOk env log (x.next page now) := by
  obtain ⟨before, l, now', hgoing, hsub, hids, hsince, hfirst, hask⟩ := h.answered page hp
  obtain ⟨⟨events, hrows, hshown⟩, hlen, hmore⟩ :=
    hgoing.take hsub hids hsince hfirst hask
  have hfull := hgoing.full
  have hfew := h.few
  have hsum : (x.rows ++ page.rows).length = x.rows.length + page.rows.length :=
    List.length_append
  have hevents : events.length = x.rows.length + page.rows.length := by
    rw [← hsum, hrows, List.length_map]
  have hcomplete : ∀ e ∈ x.since, wants env x.filter x.days e = true →
      Keyset.Reached StoredEvent.id page.next e → e ∈ events :=
    fun e he hwants => hshown.listed.complete e (List.mem_filter.2 ⟨he, hwants⟩)
  unfold Export.next
  by_cases hcap : EXPORT_CAP ≤ (x.rows ++ page.rows).length
  · rw [if_pos hcap]
    have hexact : (x.rows ++ page.rows).length = EXPORT_CAP := by omega
    have hkept : (x.rows ++ page.rows).take EXPORT_CAP = x.rows ++ page.rows :=
      List.take_of_length_le hexact.le
    have hnomore : decide (EXPORT_CAP < (x.rows ++ page.rows).length) = false :=
      decide_eq_false (Nat.not_lt.2 hexact.le)
    refine ⟨h.since, h.few, fun _ _ hno => (by cases hno), fun _ hno => (by cases hno), ?_⟩
    intro out hout
    cases hout
    rw [hkept, hnomore, Bool.false_or]
    refine ⟨events, ⟨by rw [hrows], by rw [hsum, hevents], hshown.stored,
      hshown.listed.newest, fun e he hwants hreach => hcomplete e he hwants ?_,
      fun hcapped => ⟨by omega, ?_⟩⟩⟩
    · intro n hn
      rcases hreach with hnone | ⟨a, ha, hle⟩
      · dsimp only at hnone
        rw [hn] at hnone
        cases hnone
      · exact (hshown.listed.reached a ha n hn).trans hle
    · obtain ⟨n, hn⟩ := Option.isSome_iff_exists.1 hcapped
      obtain ⟨-, e, he, hwants, hlt⟩ := hmore n hn
      exact ⟨e, hsub e he, hwants, fun a ha =>
        hlt.trans_le (hshown.listed.reached a ha n hn)⟩
  · rw [if_neg hcap]
    cases hnext : page.next with
    | none =>
        refine ⟨h.since, h.few, fun _ _ hno => (by cases hno), fun _ hno => (by cases hno), ?_⟩
        intro out hout
        cases hout
        exact ⟨events, {
          csv := by rw [hrows]
          rows := by rw [hsum, hevents]
          stored := hshown.stored
          newest := hshown.listed.newest
          complete := fun e he hwants _ => by
            refine hcomplete e he hwants fun n hn => ?_
            rw [hnext] at hn
            cases hn
          capped := fun hno => by cases hno }⟩
    | some n =>
        have hpage := (hmore n hnext).1
        have hlt := Nat.not_le.1 hcap
        have hpos : EXPORT_PAGE = 500 := rfl
        have hmax : EXPORT_CAP = 50000 := rfl
        rw [hsum, hpage] at hlt
        refine ⟨h.since, ?_, ?_, fun _ hno => (by cases hno), fun _ hno => (by cases hno)⟩
        · dsimp only
          rw [hpos] at hfull hlt ⊢
          rw [hmax] at hlt ⊢
          omega
        · intro before' days' hasking
          cases hasking
          refine ⟨hperiod, ?_, Nat.not_le.1 hcap, fun hno => (by cases hno), ?_⟩
          · dsimp only
            rw [Nat.succ_mul]
            omega
          · intro m hm
            cases hm
            rw [hnext] at hshown
            exact ⟨events, hrows, hshown⟩

/-! ## Every export -/

structure ExportsOk (env : LogEnv) (t : Tab) : Prop where
  ids : (t.log.map StoredEvent.id).Nodup
  exports : ∀ k x, t.exports.get? k = some x → ExportOk env t.log x

section Steps

variable {t t' : Tab}

theorem ExportsOk.set {k n : ℕ} (h : ExportsOk env t) (hx : ExportOk env t.log x) :
    ExportsOk env { t with exports := t.exports.set k x, seq := n } where
  ids := h.ids
  exports k' x' hx' := by
    rw [Table.get?_set] at hx'
    split at hx'
    · cases hx'
      exact hx
    · exact h.exports k' x' hx'

/-- What the list's requests do leaves the exports and the log alone. -/
theorem ExportsOk.same (h : ExportsOk env t)
    (hs : t'.log = t.log ∧ t'.exports = t.exports) : ExportsOk env t' := by
  obtain ⟨hlog, hexports⟩ := hs
  exact ⟨hlog ▸ h.ids, fun k x hx => hlog ▸ h.exports k x (hexports ▸ hx)⟩

theorem exportAudit_exports {now : Instant} (h : ExportsOk env t) :
    ExportsOk env (t.exportAudit now) := by
  have hcap : 0 < EXPORT_CAP := by decide
  have hpage : 1 * EXPORT_PAGE ≤ EXPORT_CAP := by decide
  refine h.set ⟨List.forall_mem_nil _, hpage, ?_, fun _ hno => (by cases hno),
    fun _ hno => (by cases hno)⟩
  intro before days hp
  cases hp
  exact ⟨rfl, (Nat.zero_add _).trans (Nat.one_mul _).symm, hcap, fun _ => rfl,
    fun _ hno => (by cases hno)⟩

theorem exportAnswer_exports {k : ℕ} {now : Instant} (h : ExportsOk env t)
    (hs : t.exportAnswer env k now = some t') : ExportsOk env t' := by
  obtain ⟨x, hx, hs⟩ := Option.bind_eq_some_iff.1 hs
  have hok := h.exports k x hx
  split at hs
  · next before days hprogress =>
      cases hs
      obtain ⟨rfl, hgoing⟩ := hok.asking before days hprogress
      have hsince : ∀ e ∈ (if before.isNone = true then t.log else x.since), e ∈ t.log := by
        split
        · exact fun _ he => he
        · exact hok.since
      refine h.set ⟨hsince, hok.few, fun _ _ hno => (by cases hno), ?_,
        fun _ hno => (by cases hno)⟩
      intro page hpage
      refine ⟨before, t.log, now, ⟨hgoing.full, hgoing.short, hgoing.first, ?_⟩,
        fun _ he => he, h.ids, hsince, ?_, Progress.answered.inj hpage⟩
      · intro n hn
        cases hn
        exact hgoing.shown n rfl
      · intro hnone
        rw [hnone]
        rfl
  · cases hs

theorem exportLose_exports {k : ℕ} (h : ExportsOk env t)
    (hs : t.exportLose k = some t') : ExportsOk env t' := by
  obtain ⟨x, hx, hs⟩ := Option.bind_eq_some_iff.1 hs
  have hok := h.exports k x hx
  split at hs
  · cases hs
    exact h.set ⟨hok.since, hok.few, fun _ _ hno => (by cases hno),
      fun _ hno => (by cases hno), fun _ hno => (by cases hno)⟩
  · cases hs

theorem exportLand_exports {k : ℕ} {now : Instant} (h : ExportsOk env t)
    (hperiod : ∀ x, t.exports.get? k = some x → x.filter.range now = x.days)
    (hs : t.exportLand k now = some t') : ExportsOk env t' := by
  obtain ⟨x, hx, hs⟩ := Option.bind_eq_some_iff.1 hs
  have hok := h.exports k x hx
  split at hs
  · next page hprogress =>
      cases hs
      exact h.set (next_ok hok (hperiod x hx) hprogress)
  · cases hs
    exact h.set ⟨hok.since, hok.few, fun _ _ hno => (by cases hno),
      fun _ hno => (by cases hno), fun _ hno => (by cases hno)⟩
  · cases hs

theorem land_same {k : ℕ} (hs : t.land k = some t') :
    t'.log = t.log ∧ t'.exports = t.exports := by
  simp only [Tab.land, Option.bind_eq_bind, Option.bind_eq_some_iff] at hs
  obtain ⟨c, -, said, -, hs⟩ := hs
  split at hs
  · cases hs
    unfold Tab.loaded
    split
    · cases said.page <;> exact ⟨rfl, rfl⟩
    · exact ⟨rfl, rfl⟩
  · cases hs
    have happended : ∀ t : Tab, (t.appended c said).log = t.log ∧
        (t.appended c said).exports = t.exports := by
      intro t
      unfold Tab.appended
      split
      · cases said.page <;> exact ⟨rfl, rfl⟩
      · exact ⟨rfl, rfl⟩
    split
    · exact happended _
    · exact happended _

theorem step_exports {e : TabEvent} (h : ExportsOk env t) (hperiod : SamePeriod t e)
    (hs : t.step env e = some t') : ExportsOk env t' := by
  cases e with
  | store events =>
      simp only [Tab.step, Tab.store, Option.bind_eq_bind, Option.bind_eq_some_iff,
        guard_some, exists_const, Option.pure_def, Option.some.injEq] at hs
      obtain ⟨hids, rfl⟩ := hs
      exact ⟨hids, fun k x hx =>
        (h.exports k x hx).grow fun e => List.mem_append_left events⟩
  | notice =>
      cases hs
      exact h.same ⟨rfl, rfl⟩
  | open_ now =>
      cases hs
      exact h.same ⟨rfl, rfl⟩
  | load filter now =>
      cases hs
      exact h.same (by cases filter <;> exact ⟨rfl, rfl⟩)
  | loadMore now =>
      simp only [Tab.step, Tab.loadMoreAudit] at hs
      split at hs
      · cases hs
      · obtain ⟨before, -, rfl⟩ := Option.map_eq_some_iff.1 hs
        exact h.same ⟨rfl, rfl⟩
  | answer k now =>
      simp only [Tab.step, Tab.answer, Option.bind_eq_bind, Option.bind_eq_some_iff,
        Option.pure_def, Option.some.injEq] at hs
      obtain ⟨c, -, -, -, rfl⟩ := hs
      exact h.same ⟨rfl, rfl⟩
  | lose k =>
      simp only [Tab.step, Tab.lose, Option.bind_eq_bind, Option.bind_eq_some_iff,
        Option.pure_def, Option.some.injEq] at hs
      obtain ⟨c, -, -, -, rfl⟩ := hs
      exact h.same ⟨rfl, rfl⟩
  | land k => exact h.same (land_same hs)
  | export_ now =>
      cases hs
      exact exportAudit_exports h
  | exportAnswer k now => exact exportAnswer_exports h hs
  | exportLose k => exact exportLose_exports h hs
  | exportLand k now => exact exportLand_exports h (fun x hx => hperiod k now x rfl hx) hs

end Steps

theorem next_onward (x : Export) (page : AuditPage) (now : Instant) :
    (∃ out, (x.next page now).progress = .done out) ∨
      (x.next page now).pages = x.pages + 1 := by
  unfold Export.next
  dsimp only
  split
  · exact .inl ⟨_, rfl⟩
  · cases page.next with
    | none => exact .inl ⟨_, rfl⟩
    | some before => exact .inr rfl

/-- An answer, or the loss of one, leaves an export done or a page further. -/
theorem land_onward {t : Tab} {k : ℕ} {x : Export} (hx : t.exports.get? k = some x)
    {answer : Option AuditPage} (hp : x.progress = .answered answer) (now : Instant) :
    ∃ t' x', (auditTab env).step t (.exportLand k now) = some t' ∧
      t'.exports.get? k = some x' ∧
      ((∃ out, x'.progress = .done out) ∨ x'.pages = x.pages + 1) := by
  have hset : ∀ x' : Export, (t.exports.set k x').get? k = some x' := by
    intro x'
    rw [Table.get?_set, if_pos rfl]
  have hland : (auditTab env).step t (.exportLand k now) = t.exportLand k now := rfl
  rw [hland]
  unfold Tab.exportLand
  rw [hx, Option.bind_eq_bind, Option.bind_some, hp]
  cases answer with
  | none => exact ⟨_, _, rfl, hset _, .inl ⟨none, rfl⟩⟩
  | some page => exact ⟨_, _, rfl, hset _, next_onward x page now⟩

/-- An export asks for at most a hundred pages, each answered one leaves it done or
a page further, and it hands over what the log held when the first was answered. -/
theorem audit_exported {t : Tab} (h : (auditTab env).ReachVia SamePeriod t) {k : ℕ}
    {x : Export} (hx : t.exports.get? k = some x) : x.pages ≤ 100 ∧
      (∀ answer now, x.progress = .answered answer →
        ∃ t' x', (auditTab env).step t (.exportLand k now) = some t' ∧
          t'.exports.get? k = some x' ∧
          ((∃ out, x'.progress = .done out) ∨ x'.pages = x.pages + 1)) ∧
      ∀ out, x.progress = .done (some out) → ∃ events, Delivered env t.log x out events := by
  have hok : ExportsOk env t := by
    refine Machine.ReachVia.invariant ?_ ?_ h
    · intro t h₀
      refine ⟨h₀.ids, fun k x hx => ?_⟩
      rw [h₀.exports, Table.get?_empty] at hx
      cases hx
    · intro t e t' _ ht hperiod hs
      exact step_exports ht hperiod hs
  have hexport := hok.exports k x hx
  have hfew := hexport.few
  have hpos : EXPORT_PAGE = 500 := rfl
  have hmax : EXPORT_CAP = 50000 := rfl
  rw [hpos, hmax] at hfew
  exact ⟨by omega, fun answer now hp => land_onward hx hp now, hexport.done⟩

/-! ## An export the log grows under -/

def samePeriod (t : Tab) : TabEvent → Bool
  | .exportLand k now =>
    (t.exports.get? k).all fun x => decide (x.filter.range now = x.days)
  | _ => true

theorem samePeriod_sound (t : Tab) (e : TabEvent) (h : samePeriod t e = true) :
    SamePeriod t e := by
  intro k now x he hx
  subst he
  rw [samePeriod, hx] at h
  exact of_decide_eq_true h

def oneExportPage : List TabEvent :=
  [.export_ noon, .exportAnswer 0 noon, .store [filed 103], .exportLand 0 noon]

def handedOver (t : Tab) : Option (Export × Exported) := do
  let x ← t.exports.get? 0
  match x.progress with
  | .done (some out) => some (x, out)
  | _ => none

theorem handedOver_some {t : Tab} {x : Export} {out : Exported}
    (h : handedOver t = some (x, out)) :
    t.exports.get? 0 = some x ∧ x.progress = .done (some out) := by
  obtain ⟨y, hy, h⟩ := Option.bind_eq_some_iff.1 h
  split at h
  · next hprogress =>
      cases h
      exact ⟨hy, hprogress⟩
  · cases h

set_option maxRecDepth 10000 in
theorem audit_exported_one_page : ∃ t x out,
    (auditTab plainEnv).ReachVia SamePeriod t ∧ t.exports.get? 0 = some x ∧
    x.progress = .done (some out) ∧ out.rows = 102 ∧ x.pages = 1 ∧
    ∃ events, Delivered plainEnv t.log x out events := by
  have hany : ((auditTab plainEnv).runVia samePeriod quietTab oneExportPage).any (fun t =>
      (handedOver t).any fun p => decide (p.2.rows = 102) && decide (p.1.pages = 1)) =
      true := by
    decide +kernel
  obtain ⟨t, hrun, ht⟩ := (Option.any_eq_true _ _).1 hany
  obtain ⟨⟨x, out⟩, hover, hrows⟩ := (Option.any_eq_true _ _).1 ht
  rw [Bool.and_eq_true_iff, decide_eq_true_eq, decide_eq_true_eq] at hrows
  obtain ⟨hx, hdone⟩ := handedOver_some hover
  have hreach := Machine.reachVia_runVia samePeriod_sound (.init quietTab_unread) hrun
  exact ⟨t, x, out, hreach, hx, hdone, hrows.1, hrows.2,
    (audit_exported hreach hx).2.2 out hdone⟩

end Rch.AuditLog
