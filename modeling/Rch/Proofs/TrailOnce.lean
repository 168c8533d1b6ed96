import Rch.Api.Write

/-!
# The trail tells what happened, once

A transaction inserts an event only where no other transaction of its request
has recorded, so there is at most one in a request, and it is in the outbox
exactly if its transaction committed. The hook after the reply stays quiet when
it is. Otherwise it stores one event at most, and calls it done only where the
handler answered, which it does after its last COMMIT went through.
-/

namespace Rch

open Kit

def inserting (done : List TxDone) : List TxDone :=
  done.filter fun t => t.inserted.isSome

def committedEvents (done : List TxDone) : List AuditEvent :=
  done.flatMap fun t => if t.committed then t.inserted.toList else []

/-- Between two transactions of a write. -/
structure Told (s : WriteState) : Prop where
  settled : s.audit.pending = false
  outbox : s.outbox = committedEvents s.done
  /-- The hook is told off exactly by an event that is there. -/
  recorded : s.audit.recorded = true ↔ s.outbox ≠ []
  once : (inserting s.done).length ≤ 1
  /-- Until one has recorded, none has inserted. -/
  open_ : s.recorded = false → inserting s.done = []
  outcome : ∀ t ∈ s.done, ∀ ev, t.inserted = some ev → ev.outcome = .done

theorem told_fresh (audit : AuditRequestContext)
    (hp : audit.pending = false) (hr : audit.recorded = false) :
    Told ⟨false, none, audit, [], []⟩ where
  settled := hp
  outbox := rfl
  recorded := by simp [hr]
  once := Nat.zero_le 1
  open_ _ := rfl
  outcome := nofun

theorem inserting_append (done : List TxDone) (t : TxDone) :
    inserting (done ++ [t]) =
      inserting done ++ if t.inserted.isSome then [t] else [] := by
  unfold inserting
  rw [List.filter_append]
  cases h : t.inserted.isSome <;> simp [h]

theorem committedEvents_append (done : List TxDone) (t : TxDone) :
    committedEvents (done ++ [t]) =
      committedEvents done ++ if t.committed then t.inserted.toList else [] := by
  unfold committedEvents
  rw [List.flatMap_append, List.flatMap_singleton]

theorem committedEvents_of_inserting {done : List TxDone}
    (h : inserting done = []) : committedEvents done = [] := by
  unfold committedEvents
  rw [List.flatMap_eq_nil_iff]
  intro t ht
  have hnone := List.filter_eq_nil_iff.1 h t ht
  split
  · rw [Option.toList_eq_nil_iff]
    simpa using hnone
  · rfl

/-! ## One transaction -/

section Transaction

variable {route : WriteRoute} {tx : TxRun} {s s' : WriteState}

/-- What a transaction does before its COMMIT: nothing to tell of, or the one
event, of a write no transaction had recorded. -/
inductive BeforeCommit (s : WriteState) : WriteState → Option AuditEvent → Prop
  | quiet (s' : WriteState) (pending : s'.audit.pending = s.audit.pending)
      (told : s'.audit.recorded = s.audit.recorded)
      (done : s'.done = s.done) (outbox : s'.outbox = s.outbox)
      (recorded : s'.recorded = s.recorded) : BeforeCommit s s' none
  | tells (s' : WriteState) (ev : AuditEvent) (outcome : ev.outcome = .done)
      (first : s.recorded = false) (pending : s'.audit.pending = true)
      (told : s'.audit.recorded = s.audit.recorded)
      (done : s'.done = s.done) (outbox : s'.outbox = s.outbox)
      (recorded : s'.recorded = true) : BeforeCommit s s' (some ev)

theorem beforeCommit_runTx (route : WriteRoute) (tx : TxRun) (s : WriteState) :
    BeforeCommit s (runTx route tx s).1 (runTx route tx s).2.1 := by
  unfold runTx
  dsimp only
  split
  · exact .quiet _ rfl rfl rfl rfl rfl
  · split
    · exact .quiet _ rfl rfl rfl rfl rfl
    · next hfirst =>
        have hfirst : s.recorded = false := Bool.eq_false_iff.2 hfirst
        split
        · exact .quiet _ rfl rfl rfl rfl rfl
        · split
          · exact .quiet _ rfl rfl rfl rfl rfl
          · split
            · exact .quiet _ rfl rfl rfl rfl rfl
            · exact .tells _ _ rfl hfirst rfl rfl rfl rfl rfl
          · exact .quiet _ rfl rfl rfl rfl hfirst.symm

theorem Told.settle (h : Told s) {inserted : Option AuditEvent}
    (hb : BeforeCommit s s' inserted) (committed : Bool) :
    Told (settleTx s' inserted committed) := by
  cases hb with
  | quiet pending told done outbox recorded =>
      have hout : (settleTx s' none committed).outbox = s.outbox := by
        unfold settleTx
        cases committed <;> simp [outbox]
      have hins : inserting (s'.done ++ [⟨none, committed⟩]) =
          inserting s.done := by
        rw [inserting_append, done]
        exact List.append_nil _
      refine ⟨rfl, ?_, ?_, ?_, fun hr => ?_, fun t ht ev hev => ?_⟩
      · rw [hout, h.outbox]
        change _ = committedEvents (s'.done ++ [⟨none, committed⟩])
        rw [committedEvents_append, done]
        cases committed <;> exact (List.append_nil _).symm
      · rw [hout, ← h.recorded]
        change (s'.audit.recorded || committed && s'.audit.pending) = true ↔ _
        rw [pending, h.settled, told, Bool.and_false, Bool.or_false]
      · exact hins ▸ h.once
      · exact hins.trans (h.open_ (recorded ▸ hr))
      · rcases List.mem_append.1 ht with ht | ht
        · exact h.outcome t (done ▸ ht) ev hev
        · obtain rfl := List.mem_singleton.1 ht
          cases hev
  | tells ev outcome first pending told done outbox recorded =>
      have hnone := h.open_ first
      have hempty : s.outbox = [] :=
        h.outbox.trans (committedEvents_of_inserting hnone)
      have hout : (settleTx s' (some ev) committed).outbox =
          if committed then [ev] else [] := by
        unfold settleTx
        cases committed <;> simp [outbox, hempty]
      have hquiet : s.audit.recorded = false :=
        Bool.eq_false_iff.2 fun hr => h.recorded.1 hr hempty
      refine ⟨rfl, ?_, ?_, ?_, fun hr => ?_, fun t ht ev' hev => ?_⟩
      · rw [hout]
        change _ = committedEvents (s'.done ++ [⟨some ev, committed⟩])
        rw [committedEvents_append, done, committedEvents_of_inserting hnone]
        rfl
      · rw [hout]
        change (s'.audit.recorded || committed && s'.audit.pending) = true ↔ _
        rw [pending, told, hquiet]
        cases committed <;> simp
      · change (inserting (s'.done ++ [⟨some ev, committed⟩])).length ≤ 1
        rw [inserting_append, done, hnone]
        exact le_refl 1
      · exact absurd (recorded.symm.trans hr) (by decide)
      · rcases List.mem_append.1 ht with ht | ht
        · exact h.outcome t (done ▸ ht) ev' hev
        · obtain rfl := List.mem_singleton.1 ht
          cases hev
          exact outcome

theorem BeforeCommit.done {inserted : Option AuditEvent}
    (h : BeforeCommit s s' inserted) : s'.done = s.done := by
  cases h <;> assumption

/-- What a transaction leaves: one more behind it, committed if it answered. -/
theorem Told.withTransaction (h : Told s) (route : WriteRoute) (tx : TxRun) :
    Told (withTransaction route tx s).1 ∧
      ∃ t, (Rch.withTransaction route tx s).1.done = s.done ++ [t] ∧
        ∀ v, (Rch.withTransaction route tx s).2 = .ok v → t.committed = true := by
  have hb := beforeCommit_runTx route tx s
  unfold Rch.withTransaction
  revert hb
  generalize runTx route tx s = r
  obtain ⟨s', inserted, answer⟩ := r
  intro hb
  dsimp only at hb ⊢
  have hdone (c : Bool) : (settleTx s' inserted c).done =
      s.done ++ [⟨inserted, c⟩] := by rw [← hb.done]; rfl
  cases answer with
  | error e => exact ⟨h.settle hb false, _, hdone false, nofun⟩
  | ok value =>
      cases tx.commit with
      | error e => exact ⟨h.settle hb false, _, hdone false, nofun⟩
      | ok u => exact ⟨h.settle hb true, _, hdone true, fun _ _ => rfl⟩

end Transaction

/-! ## One after another -/

/-- Where the handler got past its transactions, each of them committed. -/
theorem Told.runTxs (route : WriteRoute) (txs : List TxRun) :
    ∀ {s : WriteState}, Told s →
      Told (runTxs route txs s).1 ∧
        ((Rch.runTxs route txs s).2 = .ok () →
          (∀ t ∈ (Rch.runTxs route txs s).1.done,
            t ∈ s.done ∨ t.committed = true) ∧
          (txs ≠ [] → ∃ t ∈ (Rch.runTxs route txs s).1.done,
            t.committed = true)) := by
  induction txs with
  | nil => exact fun h => ⟨h, fun _ => ⟨fun _ ht => .inl ht, fun h => absurd rfl h⟩⟩
  | cons tx txs ih =>
      intro s h
      obtain ⟨htold, t, hdone, hcommitted⟩ := h.withTransaction route tx
      rw [Rch.runTxs]
      split
      · next s' e hr =>
          rw [hr] at htold
          exact ⟨htold, nofun⟩
      · next s' v hr =>
          rw [hr] at htold hdone hcommitted
          have ht : t.committed = true := hcommitted v rfl
          refine ⟨(ih htold).1, fun hok => ?_⟩
          obtain ⟨hall, hsome⟩ := (ih htold).2 hok
          refine ⟨fun u hu => ?_, fun _ => ?_⟩
          · rcases hall u hu with hu | hu
            · rw [hdone] at hu
              rcases List.mem_append.1 hu with hu | hu
              · exact .inl hu
              · exact .inr (List.mem_singleton.1 hu ▸ ht)
            · exact .inr hu
          · cases txs with
            | nil =>
                exact ⟨t, by rw [Rch.runTxs, hdone]; simp, ht⟩
            | cons tx' txs => exact hsome (List.cons_ne_nil _ _)

theorem Told.handle {route : WriteRoute} {s : WriteState} (h : Told s)
    (hs : s.done = []) (run : HandlerRun) :
    Told (handle route run s).1 ∧
      ∀ v, (Rch.handle route run s).2 = .ok v →
        (∀ t ∈ (Rch.handle route run s).1.done, t.committed = true) ∧
        ∃ t ∈ (Rch.handle route run s).1.done, t.committed = true := by
  obtain ⟨htold, hok⟩ := Told.runTxs route run.txs h
  unfold Rch.handle
  split
  · next s' e hr =>
      rw [hr] at htold
      exact ⟨htold, nofun⟩
  · next s' hr =>
      rw [hr] at htold hok
      obtain ⟨hall, hsome⟩ := hok rfl
      split
      · exact ⟨htold, nofun⟩
      · next value hv =>
          have hne : run.txs ≠ [] := run.opens (by rw [hv]; rfl)
          split
          · exact ⟨htold, nofun⟩
          · refine ⟨htold, fun _ _ => ⟨fun t ht => ?_, hsome hne⟩⟩
            rcases hall t ht with ht | ht
            · rw [hs] at ht
              cases ht
            · exact ht

/-! ## The reply and the hook after it -/

theorem errorReply_status (id : String) (e : Thrown) :
    400 ≤ (errorReply id e).status := by
  cases e with
  | app e cause =>
      have h : 400 ≤ e.code.status := by cases e.code <;> decide
      rw [errorReply]
      split
      · exact h
      · exact h
  | coded status message =>
      rw [errorReply]
      split
      · exact Nat.le_of_ble_eq_true rfl
      · split
        · exact Nat.le_of_ble_eq_true rfl
        · split
          · exact Nat.le_of_ble_eq_true rfl
          · split
            · next h => exact h.1
            · exact Nat.le_of_ble_eq_true rfl
  | _ => exact Nat.le_of_ble_eq_true rfl

/-- Only an answer goes out below 400. -/
theorem send_status {route : WriteRoute} {req : WriteRequest}
    {answer : Except Thrown Json} (h : (send route req answer).status < 400) :
    ∃ v, answer = .ok v := by
  cases answer with
  | error e => exact absurd h (Nat.not_lt.2 (errorReply_status req.id e))
  | ok v => exact ⟨v, rfl⟩

theorem outcomeOf_done {status : ℕ} (h : outcomeOf status = .done) :
    status < 400 := by
  unfold outcomeOf at h
  split at h
  · assumption
  · split at h <;> cases h

theorem onResponse_told {m : Moment} {stores : Bool} {a : AuditRequestContext}
    {reply : Reply} (h : a.recorded = true) :
    onResponse m stores a reply = none := by
  unfold onResponse
  rw [if_pos h]

theorem onResponse_quiet {m : Moment} {stores : Bool}
    {a : AuditRequestContext} {reply : Reply}
    (h : reply.status = 401 ∨ reply.replayed = true) :
    onResponse m stores a reply = none := by
  unfold onResponse
  split
  · rfl
  · rfl

/-- What the hook stores is called done only below 400. -/
theorem onResponse_done {m : Moment} {stores : Bool} {a : AuditRequestContext}
    {reply : Reply} {ev : AuditEvent} (h : onResponse m stores a reply = some ev)
    (hd : ev.outcome = .done) : reply.status < 400 := by
  unfold onResponse at h
  split at h
  · cases h
  · split at h
    · cases h
    · split at h
      · unfold storeEvent at h
        split at h
        · cases h
        · cases h
          exact outcomeOf_done hd
      · cases h

/-! ## The whole request -/

/-- The trail of one request. -/
structure TellsOnce (e : Served) : Prop where
  once : e.trail.length ≤ 1
  done : ∀ ev ∈ e.trail, ev.outcome = .done →
    ∃ t ∈ e.done, t.committed = true
  inside : ∀ t ∈ e.done, ∀ ev, t.inserted = some ev →
    ev.outcome = .done ∧ (ev ∈ e.trail ↔ t.committed = true)
  quiet : e.reply.status = 401 ∨ e.reply.replayed = true →
    (∀ t ∈ e.done, t.committed = true → t.inserted = none) → e.trail = []

theorem committedEvents_inserting (done : List TxDone) :
    committedEvents done = committedEvents (inserting done) := by
  induction done with
  | nil => rfl
  | cons t done ih =>
      obtain ⟨inserted, committed⟩ := t
      unfold committedEvents inserting at ih ⊢
      rw [List.flatMap_cons, ih]
      cases inserted with
      | none => cases committed <;> rfl
      | some ev => rfl

/-- Of the one transaction that inserted, its event is in the outbox if it
committed, and nothing is if not. -/
theorem Told.outbox_of_inserted {s : WriteState} (h : Told s) {t : TxDone}
    (ht : t ∈ s.done) {ev : AuditEvent} (hev : t.inserted = some ev) :
    s.outbox = if t.committed then [ev] else [] := by
  have hmem : t ∈ inserting s.done :=
    List.mem_filter.2 ⟨ht, by rw [hev]; rfl⟩
  have hone : inserting s.done = [t] := by
    obtain ⟨u, hu⟩ := List.length_eq_one_iff.1
      (le_antisymm h.once (List.length_pos_of_mem hmem))
    rw [hu] at hmem ⊢
    rw [List.mem_singleton.1 hmem]
  rw [h.outbox, committedEvents_inserting, hone]
  unfold committedEvents
  rw [List.flatMap_singleton, hev]
  rfl

/-- Before the handler there is nothing but what the hook stores. -/
theorem tellsOnce_early (m : Moment) (stores : Bool) (a : AuditRequestContext)
    {reply : Reply} (h : 400 ≤ reply.status ∨ reply.replayed = true) :
    TellsOnce ⟨reply, [], (onResponse m stores a reply).toList⟩ where
  once := by cases onResponse m stores a reply <;> simp
  done ev hev hd := by
    have hon := Option.mem_toList.1 hev
    have hlt := onResponse_done hon hd
    rcases h with h | h
    · exact absurd hlt (Nat.not_lt.2 h)
    · rw [onResponse_quiet (.inr h)] at hon
      cases hon
  inside := nofun
  quiet hq _ := by
    change (onResponse m stores a reply).toList = []
    rw [onResponse_quiet hq]
    rfl

/-- However an audited write request ends, and however many transactions its
handler opens: its trail holds at most one event; a done event is there only if
one of its transactions committed; an event inserted in a transaction is there
exactly if that transaction committed; and a replay or a 401 with no recorded
write behind it leaves none. -/
theorem trail_tells_once (route : WriteRoute) (req : WriteRequest)
    (arrival : Arrival) (m : Moment) (stores : Bool) :
    TellsOnce (serve route req arrival m stores) := by
  cases arrival with
  | refused e => exact tellsOnce_early m stores _ (.inl (errorReply_status ..))
  | replayed status body => exact tellsOnce_early m stores _ (.inr rfl)
  | claimed run =>
      have hfresh := told_fresh (auditContextOf req route) rfl rfl
      obtain ⟨htold, hok⟩ := Told.handle hfresh rfl run
      unfold serve
      dsimp only
      revert htold hok
      generalize handle route run _ = r
      obtain ⟨s, answer⟩ := r
      intro htold hok
      dsimp only at htold hok ⊢
      -- the hook is quiet where an event is there already
      have hhook : s.outbox ≠ [] →
          onResponse m stores s.audit (send route req answer) = none :=
        fun h => onResponse_told (htold.recorded.2 h)
      refine ⟨?_, fun ev hev hd => ?_, fun t ht ev hev => ?_, fun hq hnone => ?_⟩
      · by_cases hout : s.outbox = []
        · rw [hout]
          cases onResponse m stores s.audit (send route req answer) <;>
            simp
        · rw [hhook hout, htold.outbox, committedEvents_inserting]
          have hle := htold.once
          cases hins : inserting s.done with
          | nil => simp [committedEvents]
          | cons t rest =>
              rw [hins] at hle
              obtain rfl := List.length_eq_zero_iff.1
                (Nat.le_zero.1 (Nat.le_of_succ_le_succ hle))
              obtain ⟨inserted, committed⟩ := t
              cases committed <;> cases inserted <;> simp [committedEvents]
      · rcases List.mem_append.1 hev with hev | hev
        · rw [htold.outbox] at hev
          obtain ⟨t, ht, hev⟩ := List.mem_flatMap.1 hev
          split at hev
          · exact ⟨t, ht, by assumption⟩
          · cases hev
        · have hlt := onResponse_done (Option.mem_toList.1 hev) hd
          obtain ⟨v, rfl⟩ := send_status hlt
          exact (hok v rfl).2
      · refine ⟨htold.outcome t ht ev hev, ?_⟩
        have hout := htold.outbox_of_inserted ht hev
        cases hc : t.committed with
        | true =>
            rw [hc] at hout
            simp [hout]
        | false =>
            rw [hc] at hout
            refine iff_of_false (fun hmem => ?_) Bool.false_ne_true
            rw [hout] at hmem
            have hlt := onResponse_done
              (Option.mem_toList.1 (by simpa using hmem))
              (htold.outcome t ht ev hev)
            obtain ⟨v, rfl⟩ := send_status hlt
            have := (hok v rfl).1 t ht
            rw [hc] at this
            cases this
      · change s.outbox ++ _ = []
        rw [onResponse_quiet hq, htold.outbox, Option.toList_none, List.append_nil]
        unfold committedEvents
        rw [List.flatMap_eq_nil_iff]
        intro t ht
        split
        · next hc =>
            rw [hnone t ht hc]
            rfl
        · rfl

end Rch
