import Rch.Proofs.PaidOnce

/-!
# What a retried refund does not hear

A retry clears the gateway refund of the send that failed, and a report is held
against the one a row has stored. So news of an earlier send finds nothing to
match, neither by its id nor, once the row has been sent again, by the note it
carries.

Two things bring an earlier gateway refund back while the row waits. A worker
writes it down as the row's own: the next send looks for one that has not failed
and takes it up, and a send that had its answer before the retry may be as late
as it likes. And a row has then no id to hold a report against, so the note alone
lets the report in, though a retry means to forget the refund that failed.
-/

namespace Rch

open Kit

/-! ## What a move does to a row -/

theorem moveRefund_get? {db db' : Db} {id : String} {next : RefundStatus}
    {p : RefundPatch} (h : moveRefund db id next p = .ok db') (k : String) :
    db'.refunds.get? k = if k = id then
      (db.refunds.get? k).map fun r => patchRefund r next p
    else db.refunds.get? k := by
  obtain ⟨r, -, -, rfl⟩ := moveRefund_ok h
  exact Table.get?_modify ..

theorem moveRefund_other {db db' : Db} {id k : String} {next : RefundStatus}
    {p : RefundPatch} (h : moveRefund db id next p = .ok db') (hk : k ≠ id) :
    db'.refunds.get? k = db.refunds.get? k := by
  rw [moveRefund_get? h, if_neg hk]

/-- What a report did: nothing, or its row went to one of its ends, by way of
`Sent` or straight there. -/
theorem settleRefund_ok {db db' : Db} {g : String} {rid : Option String}
    {o : RefundOutcome} {at_ : Instant}
    (h : settleRefund db g rid o at_ = .ok db') :
    db' = db ∨ ∃ k r db₁ next p, refundForGateway db g rid = some (k, r) ∧
      (r.status = .pending ∨ r.status = .sent) ∧
      (r.rzpRefundId.isSome = true → r.rzpRefundId = some g) ∧
      (db₁ = db ∨ moveRefund db k .sent ⟨some g, none, at_⟩ = .ok db₁) ∧
      next ≠ .sent ∧ moveRefund db₁ k next p = .ok db' := by
  unfold settleRefund at h
  split at h
  · cases pure_ok.1 h
    exact .inl rfl
  · next k r hfound =>
      split at h
      · cases pure_ok.1 h
        exact .inl rfl
      · next hopen =>
          split at h
          · cases pure_ok.1 h
            exact .inl rfl
          · next hheld =>
              have hopen' : r.status = .pending ∨ r.status = .sent := by
                tauto
              have hheld' : r.rzpRefundId.isSome = true →
                  r.rzpRefundId = some g := by
                tauto
              refine .inr ⟨k, r, ?_⟩
              split at h
              · split at h
                · obtain ⟨db₁, h₁, h⟩ := bind_ok.1 h
                  exact ⟨db₁, _, _, hfound, hopen', hheld', .inr h₁,
                    by decide, h⟩
                · exact ⟨db, _, _, hfound, hopen', hheld', .inl rfl,
                    by decide, h⟩
              · exact ⟨db, _, _, hfound, hopen', hheld', .inl rfl,
                  by decide, h⟩

/-! ## A row that does not hear of a gateway refund -/

/-- A row waits with no gateway refund, or was sent under another. -/
structure DeafTo (g : String) (r : RefundRow) : Prop where
  waiting : r.status = .pending → r.rzpRefundId = none
  sent : r.status = .sent → ∃ g', r.rzpRefundId = some g' ∧ g' ≠ g

def Waiting (id : String) (db : Db) : Prop :=
  ∃ r, db.refunds.get? id = some r ∧ r.status = .pending

def RowDeaf (g id : String) (db : Db) : Prop :=
  ∃ r, db.refunds.get? id = some r ∧ DeafTo g r

theorem deafTo_patch {g : String} (r : RefundRow) {next : RefundStatus}
    {p : RefundPatch}
    (h : next = .sent → ∃ g', p.rzpRefundId = some g' ∧ g' ≠ g) :
    DeafTo g (patchRefund r next p) := by
  cases next with
  | pending => exact ⟨fun _ => rfl, fun h => nomatch h⟩
  | sent =>
      obtain ⟨g', hg, hne⟩ := h rfl
      refine ⟨fun h => (nomatch h), fun _ => ⟨g', ?_, hne⟩⟩
      simp only [patchRefund, hg, Option.orElse_some]
  | processed => exact ⟨fun h => (nomatch h), fun h => nomatch h⟩
  | failed => exact ⟨fun h => (nomatch h), fun h => nomatch h⟩

/-- A report about `g` does not open a row that is deaf to it, unless by the
note and while the row waits. -/
theorem DeafTo.closed {g : String} {r : RefundRow} (h : DeafTo g r)
    (hopen : r.status = .pending ∨ r.status = .sent)
    (hheld : r.rzpRefundId.isSome = true → r.rzpRefundId = some g) :
    r.status = .pending ∧ r.rzpRefundId = none := by
  rcases hopen with hp | hst
  · exact ⟨hp, h.waiting hp⟩
  · obtain ⟨g', hg, hne⟩ := h.sent hst
    rw [hg] at hheld
    exact absurd (Option.some.inj (hheld rfl)) hne

section Kept

variable {db db' : Db} {g id : String}

theorem RowDeaf.of_get? (h : RowDeaf g id db)
    (hget : db'.refunds.get? id = db.refunds.get? id) : RowDeaf g id db' := by
  obtain ⟨r, hr, hdeaf⟩ := h
  exact ⟨r, hget.trans hr, hdeaf⟩

/-- A move of any row, as long as it does not send this one under `g`. -/
theorem RowDeaf.move (h : RowDeaf g id db) {k : String} {next : RefundStatus}
    {p : RefundPatch} (hm : moveRefund db k next p = .ok db')
    (hsent : next = .sent → k = id →
      ∃ g', p.rzpRefundId = some g' ∧ g' ≠ g) : RowDeaf g id db' := by
  obtain ⟨r, hr, hdeaf⟩ := h
  unfold RowDeaf
  rw [moveRefund_get? hm, hr]
  split
  · next hk => exact ⟨_, rfl, deafTo_patch r fun hn => hsent hn hk.symm⟩
  · exact ⟨r, rfl, hdeaf⟩

/-- A move to either end, whatever the row was. -/
theorem rowDeaf_of_end {next : RefundStatus} {p : RefundPatch}
    (hm : moveRefund db id next p = .ok db') (hnext : next ≠ .sent) :
    RowDeaf g id db' := by
  obtain ⟨r, hr, -, -⟩ := moveRefund_ok hm
  refine ⟨patchRefund r next p, ?_, deafTo_patch r fun h => absurd h hnext⟩
  rw [moveRefund_get? hm, if_pos rfl, hr, Option.map_some]

/-- A row keeps its status and its gateway refund, or comes to an end. -/
theorem RowDeaf.modify (h : RowDeaf g id db) (k : String)
    {f : RefundRow → RefundRow} (hf : ∀ r, DeafTo g r → DeafTo g (f r)) :
    RowDeaf g id { db with refunds := db.refunds.modify k f } := by
  obtain ⟨r, hr, hdeaf⟩ := h
  unfold RowDeaf
  rw [Table.get?_modify, hr]
  split
  · exact ⟨_, rfl, hf r hdeaf⟩
  · exact ⟨r, rfl, hdeaf⟩

theorem RowDeaf.claim (h : RowDeaf g id db) {now : Instant} {ids : List String}
    (hc : claimDueRefunds db now ids = some db') : RowDeaf g id db' := by
  unfold claimDueRefunds at hc
  split at hc
  · cases hc
    obtain ⟨r, hr, hdeaf⟩ := h
    refine ⟨_, (Table.get?_update ..).trans (congrArg (Option.map _) hr), ?_⟩
    dsimp only
    split
    · exact ⟨hdeaf.waiting, hdeaf.sent⟩
    · exact hdeaf
  · cases hc

theorem RowDeaf.queue (h : RowDeaf g id db) {d : RefundDraft}
    (hq : queueRefund db d = .ok db') : RowDeaf g id db' := by
  obtain ⟨-, refunds, hins, rfl⟩ := queueRefund_ok hq
  refine h.of_get? ?_
  have hfree := (Table.insert?_eq_some hins).1
  rw [Table.get?_insert hins, if_neg]
  rintro rfl
  obtain ⟨r, hr, -⟩ := h
  rw [hfree] at hr
  cases hr

theorem RowDeaf.recordSend (h : RowDeaf g id db) {k g' : String}
    {o : Option RefundOutcome} {at_ : Instant}
    (hr : recordSend db k g' o at_ = .ok db')
    (hne : k = id → Waiting id db → g' ≠ g) : RowDeaf g id db' := by
  unfold Rch.recordSend at hr
  split at hr
  · cases pure_ok.1 hr
    exact h
  · next cur hcur =>
      split at hr
      · cases pure_ok.1 hr
        exact h
      · next hpending =>
          obtain ⟨db₁, h₁, hr⟩ := bind_ok.1 hr
          have hsent := h.move h₁ fun _ hk => ⟨g', rfl, hne hk
            ⟨cur, hk ▸ hcur, not_not.1 hpending⟩⟩
          split at hr
          · cases pure_ok.1 hr
            exact hsent
          · exact hsent.move hr fun hn => nomatch hn
          · exact hsent.move hr fun hn => nomatch hn

theorem RowDeaf.recordFailure (h : RowDeaf g id db) {k : String}
    {e : SendFailure} (hr : recordFailure db k e = .ok db') :
    RowDeaf g id db' := by
  unfold Rch.recordFailure at hr
  split at hr
  · cases pure_ok.1 hr
    exact h
  · split at hr
    · cases pure_ok.1 hr
      exact h
    · simp only [deferRefund, bind_ok, orNotFound_ok, ite_eq_iff,
        assertTransition_ok, exists_const, pure_ok] at hr
      -- Put off, it stays what it was; failed, it is at an end.
      obtain ⟨r, -, ⟨-, -, rfl⟩ | ⟨-, rfl⟩⟩ := hr
      · refine h.modify k fun _ _ => ⟨fun hs => ?_, fun hs => ?_⟩
        · cases hs
        · cases hs
      · exact h.modify k fun _ hd => ⟨hd.waiting, hd.sent⟩

theorem RowDeaf.settleRefund (h : RowDeaf g id db) {g' : String}
    {rid : Option String} {o : RefundOutcome} {at_ : Instant}
    (hs : settleRefund db g' rid o at_ = .ok db') : RowDeaf g id db' := by
  rcases settleRefund_ok hs with
    rfl | ⟨k, r, db₁, next, p, -, -, -, h₁, hnext, hm⟩
  · exact h
  · by_cases hk : k = id
    · subst hk
      exact rowDeaf_of_end hm hnext
    · refine RowDeaf.move ?_ hm fun hn => absurd hn hnext
      rcases h₁ with rfl | h₁
      · exact h
      · exact h.move h₁ fun _ hk' => absurd hk' hk

theorem RowDeaf.retry (h : RowDeaf g id db) {k : String} {at_ : Instant}
    (hr : retryRefund db k at_ = .ok db') : RowDeaf g id db' := by
  simp only [retryRefund, bind_ok, orNotFound_ok, assertRule_ok,
    exists_const] at hr
  obtain ⟨r, -, -, hr⟩ := hr
  refine h.move hr fun hn => ?_
  cases hn

/-- A row just retried hears of no gateway refund at all. -/
theorem rowDeaf_of_retry (g : String) {at_ : Instant}
    (hr : retryRefund db id at_ = .ok db') : RowDeaf g id db' := by
  simp only [retryRefund, bind_ok, orNotFound_ok, assertRule_ok,
    exists_const] at hr
  obtain ⟨r, -, -, hr⟩ := hr
  exact rowDeaf_of_end hr (by decide)

/-- The report it does not hear. -/
theorem RowDeaf.unheard (h : RowDeaf g id db) {rid : Option String}
    {o : RefundOutcome} {at_ : Instant}
    (hlate : rid = some id → ¬Waiting id db)
    (hs : Rch.settleRefund db g rid o at_ = .ok db') :
    db'.refunds.get? id = db.refunds.get? id := by
  rcases settleRefund_ok hs with
    rfl | ⟨k, r, db₁, next, p, hfound, hopen, hheld, h₁, -, hm⟩
  · rfl
  · by_cases hk : k = id
    · subst hk
      have hrow : db.refunds.get? k = some r :=
        Table.get?_eq_some.2 (List.mem_of_find?_eq_some hfound)
      have hby := List.find?_some hfound
      simp only [Bool.or_eq_true, decide_eq_true_eq] at hby
      obtain ⟨r', hr', hdeaf⟩ := h
      cases hrow.symm.trans hr'
      obtain ⟨hp, hnone⟩ := hdeaf.closed hopen hheld
      rcases hby with hby | hby
      · rw [hnone] at hby
        cases hby
      · exact absurd ⟨r, hrow, hp⟩ (hlate hby)
    · rw [moveRefund_other hm (Ne.symm hk)]
      rcases h₁ with rfl | h₁
      · rfl
      · exact moveRefund_other h₁ (Ne.symm hk)

end Kept

/-! ## The runs after a retry -/

/-- A worker writes down, while the row waits, that it went out under `g`. -/
def TakesUp (id g : String) (s : Payouts) (e : Payouts.Event) : Prop :=
  Waiting id s.db ∧ ∃ i at_ row q made, e = .record i at_ ∧
    s.sends[i]? = some ⟨id, row, .answered made, q⟩ ∧ made.id = g

theorem RowDeaf.write {g id : String} {s : Payouts} (h : RowDeaf g id s.db)
    {x : Outcome Db} (hx : ∀ db, x = .ok db → RowDeaf g id db) :
    RowDeaf g id (s.write x).db := by
  cases x with
  | ok db => exact hx db rfl
  | error _ => exact h

theorem RowDeaf.step {g id : String} {s s' : Payouts} {e : Payouts.Event}
    (h : RowDeaf g id s.db) (hnot : ¬TakesUp id g s e)
    (hs : s.step e = some s') : RowDeaf g id s'.db := by
  cases e with
  | queue d =>
      cases hs
      exact h.write fun _ hdb => h.queue hdb
  | claim now ids =>
      simp only [Payouts.step] at hs
      split at hs
      · obtain ⟨db, hdb, rfl⟩ := Option.map_eq_some_iff.1 hs
        exact h.claim hdb
      · cases hs
  | record i at_ =>
      simp only [Payouts.step] at hs
      split at hs <;> cases hs
      · next k row made q hx =>
          refine h.write fun _ hdb => h.recordSend hdb ?_
          rintro rfl hwaiting hg
          exact hnot ⟨hwaiting, i, at_, row, q, made, rfl, hx, hg⟩
      · exact h.write fun _ hdb => h.recordFailure hdb
  | retry k at_ =>
      cases hs
      exact h.write fun _ hdb => h.retry hdb
  | report g' rid outcome at_ =>
      simp only [Payouts.step] at hs
      split at hs <;> cases hs
      exact h.write fun _ hdb => h.settleRefund hdb
  | crash i =>
      obtain ⟨x, -, rfl⟩ := Option.map_eq_some_iff.1 hs
      exact h
  | settle k outcome =>
      cases hs
      exact h
  | arrive i k status =>
      simp only [Payouts.step] at hs
      split at hs
      · split at hs <;> cases hs
        exact h
      · cases hs
  | lookup i | post i | lose i | answer i | fail i error final | elsewhere made =>
      simp only [Payouts.step] at hs
      split at hs <;> cases hs <;> exact h

/-- Once a refund has been retried, a report about a gateway refund it has not
since gone out under leaves its row as it is: whatever the report says, if it
comes without the row's note, and with the note too once the row has gone out
again. The gateway refunds made before the retry are such as long as no worker
writes one of them down as the row's own while it waits. -/
theorem retried_refund_deaf {s s₁ s' : Payouts} {db : Db} {id g : String}
    {rid : Option String} {o : RefundOutcome} {at_ at₁ : Instant}
    (hretry : retryRefund s.db id at_ = .ok db)
    (hrun : (Payouts.machine.startingAt { s with db }).ReachVia
      (fun s e => ¬TakesUp id g s e) s₁)
    (hlate : rid = some id → ¬Waiting id s₁.db)
    (hreport : s₁.step (.report g rid o at₁) = some s') :
    s'.db.refunds.get? id = s₁.db.refunds.get? id := by
  have hdeaf : RowDeaf g id s₁.db := by
    refine hrun.invariant (I := fun s => RowDeaf g id s.db) ?_
      fun _ _ _ _ hd hnot hs => hd.step hnot hs
    rintro _ rfl
    exact rowDeaf_of_retry g hretry
  simp only [Payouts.step] at hreport
  split at hreport <;> cases hreport
  cases hx : settleRefund s₁.db g rid o at₁ with
  | error _ => rfl
  | ok db => exact hdeaf.unheard hlate hx

/-! ## Reports at every point -/

def takesUp (id g : String) (s : Payouts) : Payouts.Event → Bool
  | .record i _ => (s.db.refunds.get? id).any (fun r =>
      decide (r.status = .pending)) && (s.sends[i]?).any fun x =>
    decide (x.id = id) &&
    match x.stage with
    | .answered made => decide (made.id = g)
    | _ => false
  | _ => false

theorem takesUp_sound (id g : String) (s : Payouts) (e : Payouts.Event)
    (h : (!takesUp id g s e) = true) : ¬TakesUp id g s e := by
  rintro ⟨⟨r, hr, hp⟩, i, at_, row, q, made, rfl, hx, hg⟩
  simp [takesUp, hr, hp, hx, hg] at h

/-- A send the gateway accepts, and then reports as failed. -/
def failedSend : List Payouts.Event :=
  [.queue wholePayment, .claim 0 ["QO-1-R1"], .lookup 0, .post 0,
    .arrive 0 "rfnd_1" .pending, .answer 0, .record 0 1000,
    .settle "rfnd_1" .failed,
    .report "rfnd_1" (some "QO-1-R1") .failed 2000]

/-- The send after the retry. -/
def sentAgain : List Payouts.Event :=
  [.claim 60000 ["QO-1-R1"], .lookup 1, .post 1,
    .arrive 1 "rfnd_2" .pending, .answer 1, .record 1 61000]

def rowStatus (s : Payouts) (id : String) :
    Option (RefundStatus × Option String) :=
  (s.db.refunds.get? id).map fun r => (r.status, r.rzpRefundId)

/-- The first failure, delivered again once the second send is written down. -/
theorem retried_refund_deaf_again : ∃ s db s₁ s',
    Payouts.machine.run .fresh failedSend = some s ∧
      retryRefund s.db "QO-1-R1" 3000 = .ok db ∧
      (Payouts.machine.startingAt { s with db }).runVia
        (fun s e => !takesUp "QO-1-R1" "rfnd_1" s e) { s with db }
        sentAgain = some s₁ ∧
      rowStatus s₁ "QO-1-R1" = some (.sent, some "rfnd_2") ∧
      s₁.step (.report "rfnd_1" (some "QO-1-R1") .failed 62000) = some s' ∧
      s'.db.refunds.get? "QO-1-R1" = s₁.db.refunds.get? "QO-1-R1" := by
  have hany : (Payouts.machine.run .fresh failedSend).any (fun s =>
      (retryRefund s.db "QO-1-R1" 3000).toOption.any fun db =>
        ((Payouts.machine.startingAt { s with db }).runVia
            (fun s e => !takesUp "QO-1-R1" "rfnd_1" s e) { s with db }
            sentAgain).any fun s₁ =>
          decide (rowStatus s₁ "QO-1-R1" = some (.sent, some "rfnd_2")) &&
            (s₁.step (.report "rfnd_1" (some "QO-1-R1") .failed 62000)).isSome) =
        true := by
    decide +kernel
  obtain ⟨s, hs, hany⟩ := (Option.any_eq_true _ _).1 hany
  obtain ⟨db, hdb, hany⟩ := (Option.any_eq_true _ _).1 hany
  obtain ⟨s₁, hs₁, hany⟩ := (Option.any_eq_true _ _).1 hany
  obtain ⟨hsent, hs'⟩ := Bool.and_eq_true_iff.1 hany
  obtain ⟨s', hs'⟩ := Option.isSome_iff_exists.1 hs'
  have hdb := toOption_eq_some.1 hdb
  have hsent := of_decide_eq_true hsent
  refine ⟨s, db, s₁, s', hs, hdb, hs₁, hsent, hs', ?_⟩
  refine retried_refund_deaf hdb (Machine.reachVia_runVia
    (takesUp_sound "QO-1-R1" "rfnd_1") (.init rfl) hs₁) (fun _ hwaiting => ?_) hs'
  obtain ⟨r, hr, hp⟩ := hwaiting
  rw [rowStatus, hr, Option.map_some, hp] at hsent
  cases hsent

/-- A report about a gateway refund that was there before the retry, and the
row it changed. -/
def HeardAfterRetry (id g : String) (rid : Option String) (s : Payouts) : Prop :=
  ∃ db at_ s₁ s' o at₁, s.known g = true ∧
    retryRefund s.db id at_ = .ok db ∧
    (Payouts.machine.startingAt { s with db }).Reach s₁ ∧
    s₁.step (.report g rid o at₁) = some s' ∧
    s'.db.refunds.get? id ≠ s₁.db.refunds.get? id

def heardAfter (id g : String) (rid : Option String) (o : RefundOutcome)
    (after : List Payouts.Event) (s : Payouts) : Bool :=
  s.known g && (retryRefund s.db id 30000000).toOption.any fun db =>
    ((Payouts.machine.startingAt { s with db }).run { s with db } after).any
      fun s₁ => (s₁.step (.report g rid o 40000000)).any fun s' =>
        decide (rowStatus s' id ≠ rowStatus s₁ id)

theorem heardAfter_sound {id g : String} {rid : Option String}
    {o : RefundOutcome} {after : List Payouts.Event} {s : Payouts}
    (h : heardAfter id g rid o after s = true) : HeardAfterRetry id g rid s := by
  obtain ⟨hknown, h⟩ := Bool.and_eq_true_iff.1 h
  obtain ⟨db, hdb, h⟩ := (Option.any_eq_true _ _).1 h
  obtain ⟨s₁, hs₁, h⟩ := (Option.any_eq_true _ _).1 h
  obtain ⟨s', hs', h⟩ := (Option.any_eq_true _ _).1 h
  refine ⟨db, _, s₁, s', o, _, hknown, toOption_eq_some.1 hdb,
    Machine.reach_run (.init rfl) hs₁, hs', fun heq => ?_⟩
  refine of_decide_eq_true h ?_
  rw [rowStatus, heq]
  rfl

/-- The gateway makes the first refund and its answer is lost; then it cannot
be reached, until the attempts are spent. -/
def lostForGood : List Payouts.Event :=
  [.queue wholePayment, .claim 0 ["QO-1-R1"], .lookup 0, .post 0,
    .arrive 0 "rfnd_1" .pending, .fail 0 "no answer in time" false,
    .record 0 10000] ++
  [(1, 60000), (2, 360000), (3, 1260000), (4, 4860000), (5, 26460000)].flatMap
    fun (i, now) => [.claim now ["QO-1-R1"], .fail i "no answer in time" false,
      .record i (now + 10000)]

/-- The next send finds that refund, and the row is its own. -/
def takenUp : List Payouts.Event :=
  [.claim 30060000 ["QO-1-R1"], .lookup 6, .record 6 30061000]

/-- A row hears of an earlier send by the note while it waits for the next one,
and by the id once the next one has taken it up. -/
theorem retried_refund_deaf_heard :
    (∃ s, Payouts.machine.run .fresh failedSend = some s ∧
      Payouts.machine.Reach s ∧
      HeardAfterRetry "QO-1-R1" "rfnd_1" (some "QO-1-R1") s) ∧
    (∃ s, Payouts.machine.run .fresh lostForGood = some s ∧
      Payouts.machine.Reach s ∧
      HeardAfterRetry "QO-1-R1" "rfnd_1" none s) := by
  have hinit : Payouts.machine.Reach .fresh := .init ⟨rfl, rfl, rfl⟩
  have hnote : (Payouts.machine.run .fresh failedSend).any
      (heardAfter "QO-1-R1" "rfnd_1" (some "QO-1-R1") .failed []) = true := by
    decide +kernel
  have htaken : (Payouts.machine.run .fresh lostForGood).any
      (heardAfter "QO-1-R1" "rfnd_1" none .processed takenUp) = true := by
    decide +kernel
  obtain ⟨s, hs, hheard⟩ := (Option.any_eq_true _ _).1 hnote
  obtain ⟨s', hs', hheard'⟩ := (Option.any_eq_true _ _).1 htaken
  exact ⟨⟨s, hs, Machine.reach_run hinit hs, heardAfter_sound hheard⟩,
    s', hs', Machine.reach_run hinit hs', heardAfter_sound hheard'⟩

end Rch
