import Rch.Screen.OrderPage

/-!
# The status page asks, and not too often

One question is out at most, and no timer runs behind it. While the page is on
screen there is one of the two, until there is nothing left to hear: the order is
gone, or it ended, no refund of it is on its way, and its hand-over is two hours
back. That the order is gone may be what was heard of another: a page put up hidden
on the store of a missing order asks nothing when it is shown. A question costs five
seconds or a return to the page, and a page that was left asks nothing.
-/

namespace Rch.OrderStatus

open Kit

variable {s s' : Page}

def HeardOut (s : Page) : Prop :=
  s.orderState = .missing ∨ ∃ o, s.shown = some o ∧ o.ended = true ∧ o.refunding = false ∧
    (o.handedOver = true → ∃ t, s.handedOver = some t ∧ t + POLL_SETTLED_FOR_MS ≤ s.now)

/-! ## The next wait -/

theorem pollDelay_some {order : Option Order} {sinceStart wait : ℕ} {since : Option ℕ}
    (h : pollDelay order sinceStart since = some wait) :
    POLL_FAST_MS ≤ wait ∧ wait ≤ POLL_SETTLED_MS := by
  unfold pollDelay at h
  split at h
  · cases h
    decide
  · split at h
    · split at h
      · cases h
        decide
      · cases h
    · split at h
      · cases h
      · cases h
        split <;> decide

/-- No wait is set just where nothing is left to hear. -/
theorem pollDelay_none {order : Option Order} {sinceStart : ℕ} {since : Option ℕ}
    (h : pollDelay order sinceStart since = none) :
    ∃ o, order = some o ∧ o.ended = true ∧ o.refunding = false ∧
      (o.handedOver = true → POLL_SETTLED_FOR_MS ≤ since.getD 0) := by
  unfold pollDelay at h
  cases order with
  | none => cases h
  | some o =>
      simp only [Option.any_some] at h
      split at h
      · cases h
      · next hrefund =>
          rw [Bool.not_eq_true] at hrefund
          split at h
          · next hhanded =>
              split at h
              · cases h
              · next hlong =>
                  refine ⟨o, rfl, ?_, hrefund, fun _ => not_lt.1 hlong⟩
                  unfold Order.ended
                  unfold Order.handedOver at hhanded
                  rw [decide_eq_true_eq] at hhanded ⊢
                  revert hhanded
                  cases o.status <;> decide
          · next hhanded =>
              split at h
              · next hended => exact ⟨o, rfl, hended, hrefund, fun hno => absurd hno hhanded⟩
              · cases h

theorem next_some {wait : ℕ} (h : (next s).2 = some wait) :
    POLL_FAST_MS ≤ wait ∧ wait ≤ POLL_SETTLED_MS := by
  unfold next at h
  split at h
  · cases h
  · exact pollDelay_some h

/-- Looking at the wait notes when the order was handed over, and nothing else. -/
theorem next_fst (s : Page) : ∃ handedOver, (next s).1 = { s with handedOver } := by
  unfold next
  split
  · exact ⟨s.handedOver, rfl⟩
  · exact ⟨s.since, rfl⟩

theorem next_none (h : (next s).2 = none) : HeardOut (next s).1 := by
  unfold next at h ⊢
  split
  · next hmissing => exact .inl hmissing
  · next hmissing =>
      rw [if_neg hmissing] at h
      obtain ⟨o, hshown, hended, hrefund, hlong⟩ := pollDelay_none h
      refine .inr ⟨o, hshown, hended, hrefund, fun hhanded => ?_⟩
      have hsince : s.since = some (s.handedOver.getD s.now) := by
        unfold Page.since
        rw [hshown, Option.any_some, if_pos hhanded]
      refine ⟨_, hsince, ?_⟩
      have hlong := hlong hhanded
      rw [hsince, Option.map_some, Option.getD_some] at hlong
      have hpos : 0 < POLL_SETTLED_FOR_MS := by decide
      change s.handedOver.getD s.now + POLL_SETTLED_FOR_MS ≤ s.now
      omega

/-! ## What holds throughout -/

structure Asking (s : Page) : Prop where
  reads : s.reads = if s.busy then 1 else 0
  quiet : s.busy = true → s.timer = none
  left : s.stopped = true → s.timer = none
  started : s.started ≤ s.now
  near : ∀ due, s.timer = some due → due ≤ s.now + POLL_SETTLED_MS
  rate : ∃ fired, s.asked ≤ 1 + s.shows + fired ∧
    fired * POLL_FAST_MS ≤ s.now - s.started ∧
    ∀ due, s.timer = some due → (fired + 1) * POLL_FAST_MS ≤ due - s.started

/-- The page is on screen and is not waiting for anything, so all was heard. -/
def Heard (s : Page) : Prop :=
  s.stopped = false → s.hidden = false →
    s.busy = true ∨ s.timer.isSome = true ∨ HeardOut s

/-- Asking takes the page as it is put up, back on screen, or past its timer. -/
theorem loadOrder_same (s : Page) : ∃ order orderState,
    loadOrder s = { s with order, orderState } := by
  unfold loadOrder
  split
  · exact ⟨s.order, s.orderState, rfl⟩
  · exact ⟨none, .loading, rfl⟩

theorem tick_cases (s : Page) :
    ((s.stopped || s.busy || s.hidden) = true ∧ tick s = { s with timer := none }) ∨
    (s.stopped = false ∧ s.busy = false ∧ s.hidden = false ∧ ∃ order orderState,
      tick s = { s with
        timer := none, busy := true, reads := s.reads + 1, asked := s.asked + 1
        order, orderState }) := by
  unfold tick
  dsimp only
  split
  · next h => exact .inl ⟨h, rfl⟩
  · next h =>
      simp only [Bool.or_eq_true, not_or, Bool.not_eq_true] at h
      obtain ⟨order, orderState, heq⟩ := loadOrder_same { s with
        timer := none, busy := true, reads := s.reads + 1, asked := s.asked + 1 }
      exact .inr ⟨h.1.1, h.1.2, h.2, order, orderState, heq⟩

theorem schedule_cases (s : Page) :
    ((s.stopped || s.hidden) = true ∧ schedule s = s) ∨
    (s.stopped = false ∧ s.hidden = false ∧ ∃ handedOver,
      (∃ wait, POLL_FAST_MS ≤ wait ∧ wait ≤ POLL_SETTLED_MS ∧
        schedule s = { s with handedOver, timer := some (s.now + wait) }) ∨
      schedule s = { s with handedOver, timer := none } ∧ HeardOut { s with handedOver }) := by
  unfold schedule
  split
  · next h => exact .inl ⟨h, rfl⟩
  · next h =>
      simp only [Bool.or_eq_true, not_or, Bool.not_eq_true] at h
      obtain ⟨handedOver, hfst⟩ := next_fst s
      refine .inr ⟨h.1, h.2, handedOver, ?_⟩
      cases hwait : (next s).2 with
      | some wait =>
          obtain ⟨hlow, hhigh⟩ := next_some hwait
          exact .inl ⟨wait, hlow, hhigh, by rw [hfst]; rfl⟩
      | none =>
          have hout := next_none hwait
          rw [hfst] at hout
          exact .inr ⟨by rw [hfst]; rfl, hout⟩

/-- A tick leaves a question out, or a page that may not ask. -/
theorem heard_tick (s : Page) : Heard (tick s) := by
  intro hstopped hhidden
  rcases tick_cases s with ⟨hno, heq⟩ | ⟨-, -, -, order, orderState, heq⟩
  · rw [heq] at hstopped hhidden ⊢
    simp only [Bool.or_eq_true] at hno
    rcases hno with (hno | hno) | hno
    · rw [hno] at hstopped
      cases hstopped
    · exact .inl hno
    · rw [hno] at hhidden
      cases hhidden
  · rw [heq]
    exact .inl rfl

/-- A tick that is paid for by a timer or by a return to the page. -/
theorem Asking.tick (h : Asking s) (hpaid : ∃ fired, s.asked + 1 ≤ 1 + s.shows + fired ∧
    fired * POLL_FAST_MS ≤ s.now - s.started) : Asking (tick s) := by
  obtain ⟨fired, hasked, hfired⟩ := hpaid
  rcases tick_cases s with ⟨-, heq⟩ | ⟨-, hbusy, -, order, orderState, heq⟩
  · rw [heq]
    exact {
      reads := h.reads
      quiet := fun _ => rfl
      left := fun _ => rfl
      started := h.started
      near := fun due hdue => by cases hdue
      rate := ⟨fired, by dsimp only; omega, hfired, fun due hdue => by cases hdue⟩ }
  · have hreads := h.reads
    rw [hbusy] at hreads
    rw [heq]
    exact {
      reads := by
        dsimp only
        rw [hreads]
        rfl
      quiet := fun _ => rfl
      left := fun _ => rfl
      started := h.started
      near := fun due hdue => by cases hdue
      rate := ⟨fired, hasked, hfired, fun due hdue => by cases hdue⟩ }

theorem Asking.schedule (h : Asking s) (hbusy : s.busy = false) :
    Asking (schedule s) ∧ Heard (schedule s) := by
  obtain ⟨fired, hasked, hfired, -⟩ := h.rate
  rcases schedule_cases s with ⟨hno, heq⟩ | ⟨hstopped, hhidden, handedOver, hwait⟩
  · rw [heq]
    refine ⟨h, fun hstopped hhidden => ?_⟩
    rw [hstopped, hhidden] at hno
    cases hno
  · rcases hwait with ⟨wait, hlow, hhigh, heq⟩ | ⟨heq, hout⟩
    · rw [heq]
      refine ⟨?_, fun _ _ => .inr (.inl rfl)⟩
      have hstarted := h.started
      exact {
        reads := h.reads
        quiet := fun hb => by
          rw [hbusy] at hb
          cases hb
        left := fun hs => by
          rw [hstopped] at hs
          cases hs
        started := h.started
        near := fun due hdue => by
          cases hdue
          exact Nat.add_le_add_left hhigh _
        rate := ⟨fired, hasked, hfired, fun due hdue => by
          cases hdue
          dsimp only
          rw [Nat.succ_mul]
          omega⟩ }
    · rw [heq]
      refine ⟨?_, fun _ _ => .inr (.inr hout)⟩
      exact {
        reads := h.reads
        quiet := fun _ => rfl
        left := fun _ => rfl
        started := h.started
        near := fun due hdue => by cases hdue
        rate := ⟨fired, hasked, hfired, fun due hdue => by cases hdue⟩ }

theorem answered_same (s : Page) (a : Answer) : ∃ order orderState stale,
    answered s a = { s with order, orderState, stale } := by
  unfold answered
  cases a with
  | read status refund => exact ⟨_, _, _, rfl⟩
  | gone => exact ⟨_, _, _, rfl⟩
  | failed =>
      dsimp only
      split
      · exact ⟨s.order, s.orderState, true, rfl⟩
      · exact ⟨s.order, .error, s.stale, rfl⟩

theorem HeardOut.clock (h : HeardOut s) (ms : ℕ) : HeardOut { s with now := s.now + ms } := by
  rcases h with hmissing | ⟨o, hshown, hended, hrefund, hlong⟩
  · exact .inl hmissing
  · refine .inr ⟨o, hshown, hended, hrefund, fun hhanded => ?_⟩
    obtain ⟨t, ht, hle⟩ := hlong hhanded
    exact ⟨t, ht, Nat.le_trans hle (Nat.le_add_right _ _)⟩

/-- Nothing else puts an order on screen while the page is up. -/
def Alone (_ : Page) (e : Event) : Prop := ∀ o ready, e ≠ .written o ready

theorem Asking.onVisible (h : Asking s)
    (hpaid : ∃ fired, s.asked + 1 ≤ 1 + s.shows + fired ∧
      fired * POLL_FAST_MS ≤ s.now - s.started) :
    Asking (onVisible s) ∧ Heard (onVisible s) := by
  unfold OrderStatus.onVisible
  split
  · next hno =>
      refine ⟨h, fun hstopped _ => ?_⟩
      rw [hstopped, Bool.or_false, Bool.or_eq_true] at hno
      rcases hno with htimer | hbusy
      · exact .inr (.inl htimer)
      · exact .inl hbusy
  · obtain ⟨handedOver, hfst⟩ := next_fst s
    have hlooked : Asking (next s).1 := by
      rw [hfst]
      exact ⟨h.reads, h.quiet, h.left, h.started, h.near, h.rate⟩
    split
    · refine ⟨hlooked.tick ?_, heard_tick _⟩
      rw [hfst]
      exact hpaid
    · next hnone =>
        refine ⟨hlooked, fun _ _ => .inr (.inr (next_none ?_))⟩
        exact Option.not_isSome_iff_eq_none.1 hnone

theorem Asking.step {e : Event} (h : Asking s) (he : step s e = some s') :
    Asking s' ∧ (Alone s e → Heard s → Heard s') := by
  cases e with
  | clock ms =>
      cases he
      obtain ⟨fired, hasked, hfired, hdue⟩ := h.rate
      have hstarted := h.started
      refine ⟨⟨h.reads, h.quiet, h.left, Nat.le_trans h.started (Nat.le_add_right _ _), ?_,
        fired, hasked, ?_, hdue⟩, fun _ hheard hstopped hhidden => ?_⟩
      · intro due hd
        have hnear := h.near due hd
        dsimp only
        omega
      · dsimp only
        omega
      · rcases hheard hstopped hhidden with hbusy | htimer | hout
        · exact .inl hbusy
        · exact .inr (.inl htimer)
        · exact .inr (.inr (hout.clock ms))
  | fires =>
      rw [OrderStatus.step] at he
      split at he
      · next hdue =>
          cases he
          obtain ⟨due, htimer, hle⟩ := (Option.any_eq_true _ _).1 hdue
          obtain ⟨fired, hasked, -, hnext⟩ := h.rate
          have hpaid := hnext due htimer
          have hle := of_decide_eq_true hle
          refine ⟨h.tick ⟨fired + 1, by omega, by omega⟩, fun _ _ => heard_tick s⟩
      · cases he
  | answered a =>
      rw [OrderStatus.step] at he
      split at he
      · next hout =>
          cases he
          have hbusy : s.busy = true := by
            cases hb : s.busy with
            | true => rfl
            | false =>
                have hreads := h.reads
                rw [hb] at hreads
                rw [hreads] at hout
                exact absurd hout (Nat.lt_irrefl 0)
          have hreads := h.reads
          rw [hbusy, if_pos rfl] at hreads
          obtain ⟨order, orderState, stale, heq⟩ := answered_same s a
          rw [heq]
          have hstill : Asking { s with
              order, orderState, stale, busy := false, reads := s.reads - 1 } :=
            ⟨by dsimp only; rw [hreads]; rfl, fun _ => h.quiet hbusy, h.left, h.started, h.near,
              h.rate⟩
          have hboth := hstill.schedule rfl
          exact ⟨hboth.1, fun _ _ => hboth.2⟩
      · cases he
  | hide =>
      rw [OrderStatus.step] at he
      split at he
      · cases he
      · cases he
        refine ⟨⟨h.reads, h.quiet, h.left, h.started, h.near, h.rate⟩, fun _ _ _ hhidden => ?_⟩
        cases hhidden
  | show_ =>
      rw [OrderStatus.step] at he
      split at he
      · cases he
        obtain ⟨fired, hasked, hfired, hdue⟩ := h.rate
        have hshown : Asking { s with hidden := false, shows := s.shows + 1 } :=
          ⟨h.reads, h.quiet, h.left, h.started, h.near, fired, by dsimp only; omega, hfired,
            hdue⟩
        have hboth := hshown.onVisible ⟨fired, by dsimp only; omega, hfired⟩
        exact ⟨hboth.1, fun _ _ => hboth.2⟩
      · cases he
  | stop =>
      cases he
      obtain ⟨fired, hasked, hfired, -⟩ := h.rate
      refine ⟨⟨h.reads, fun _ => rfl, fun _ => rfl, h.started, fun due hd => (by cases hd),
        fired, hasked, hfired, fun due hd => by cases hd⟩, fun _ _ hstopped _ => ?_⟩
      cases hstopped
  | written o ready =>
      cases he
      exact ⟨⟨h.reads, h.quiet, h.left, h.started, h.near, h.rate⟩,
        fun halone _ => absurd rfl (halone o ready)⟩

theorem opened_asking (id : String) (now : ℕ) (order : Option Order) (orderState : LoadState)
    (hidden : Bool) :
    Asking (opened id now order orderState hidden) ∧
      Heard (opened id now order orderState hidden) := by
  refine ⟨Asking.tick ?_ ⟨0, Nat.le_refl 1, Nat.zero_le _⟩, heard_tick _⟩
  exact {
    reads := rfl
    quiet := fun _ => rfl
    left := fun _ => rfl
    started := le_refl _
    near := fun due hd => by cases hd
    rate := ⟨0, Nat.zero_le _, Nat.zero_le _, fun due hd => by cases hd⟩ }

/-- A page that was left asks nothing more. -/
theorem left_asks_nothing (hstopped : s.stopped = true) (htimer : s.timer = none)
    (h : (statusPage.startingAt s).Reach s') : s'.asked = s.asked := by
  have hall : s'.stopped = true ∧ s'.timer = none ∧ s'.asked = s.asked := by
    refine Machine.Reach.invariant (I := fun t => t.stopped = true ∧ t.timer = none ∧
      t.asked = s.asked) ?_ ?_ h
    · rintro _ rfl
      exact ⟨hstopped, htimer, rfl⟩
    · rintro t e t' _ ⟨hs, ht, ha⟩ he
      change step t e = some t' at he
      cases e with
      | clock ms =>
          cases he
          exact ⟨hs, ht, ha⟩
      | fires =>
          rw [step, ht] at he
          cases he
      | answered a =>
          rw [step] at he
          split at he
          · cases he
            obtain ⟨order, orderState, stale, heq⟩ := answered_same t a
            unfold schedule
            rw [heq]
            dsimp only
            rw [hs, Bool.true_or, if_pos rfl]
            exact ⟨rfl, ht, ha⟩
          · cases he
      | hide =>
          rw [step] at he
          split at he
          · cases he
          · cases he
            exact ⟨hs, ht, ha⟩
      | show_ =>
          rw [step] at he
          split at he
          · cases he
            unfold onVisible
            dsimp only
            rw [hs, Bool.or_true, if_pos rfl]
            exact ⟨rfl, ht, ha⟩
          · cases he
      | stop =>
          cases he
          exact ⟨rfl, rfl, ha⟩
      | written o ready =>
          cases he
          exact ⟨hs, ht, ha⟩
  exact hall.2.2

/-- The page asks one question at a time, five seconds apart or on its return, and
never falls silent on screen while there is something to hear. -/
theorem status_page_asks (h : statusPage.ReachVia Alone s) :
    (s.reads = if s.busy then 1 else 0) ∧ (s.busy = true → s.timer = none) ∧
    s.asked ≤ 1 + s.shows + (s.now - s.started) / POLL_FAST_MS ∧
    (s.stopped = false → s.hidden = false → s.busy = true ∨
      (∃ due, s.timer = some due ∧ due ≤ s.now + POLL_SETTLED_MS) ∨ HeardOut s) ∧
    (s.stopped = true → ∀ s', (statusPage.startingAt s).Reach s' → s'.asked = s.asked) := by
  have hboth : Asking s ∧ Heard s := by
    refine Machine.ReachVia.invariant (I := fun s => Asking s ∧ Heard s) ?_ ?_ h
    · rintro _ ⟨id, now, order, orderState, hidden, rfl⟩
      exact opened_asking id now order orderState hidden
    · rintro s e s' _ ⟨hasking, hheard⟩ halone he
      obtain ⟨hasking', hheard'⟩ := hasking.step he
      exact ⟨hasking', hheard' halone hheard⟩
  obtain ⟨hasking, hheard⟩ := hboth
  obtain ⟨fired, hasked, hfired, -⟩ := hasking.rate
  refine ⟨hasking.reads, hasking.quiet, ?_, ?_, fun hstopped s' hs' =>
    left_asks_nothing hstopped (hasking.left hstopped) hs'⟩
  · have hle := (Nat.le_div_iff_mul_le (by decide)).2 hfired
    omega
  · intro hstopped hhidden
    rcases hheard hstopped hhidden with hbusy | htimer | hout
    · exact .inl hbusy
    · obtain ⟨due, hdue⟩ := Option.isSome_iff_exists.1 htimer
      exact .inr (.inl ⟨due, hdue, hasking.near due hdue⟩)
    · exact .inr (.inr hout)

def collected : List Event :=
  [.answered (.read .ready none), .clock 5000, .fires, .answered .failed, .hide, .clock 5000,
    .fires, .show_, .answered (.read .collected none), .clock 7200000, .fires,
    .answered (.read .collected none)]

def reading : Event → Bool
  | .written .. => false
  | _ => true

theorem status_page_asks_collected : ∃ s, statusPage.ReachVia Alone s ∧ s.asked = 4 ∧
    s.shows = 1 ∧ s.busy = false ∧ HeardOut s := by
  have hany : (statusPage.runVia (fun _ => reading)
      (opened "QO-1" 0 none .idle false) collected).any (fun s => decide (s.asked = 4 ∧
        s.shows = 1 ∧ s.busy = false ∧ s.timer = none ∧ s.stopped = false ∧
        s.hidden = false)) = true := by
    decide +kernel
  obtain ⟨s, hrun, hd⟩ := (Option.any_eq_true _ _).1 hany
  obtain ⟨hasked, hshows, hbusy, htimer, hstopped, hhidden⟩ := of_decide_eq_true hd
  have hs : statusPage.ReachVia Alone s := by
    refine Machine.reachVia_runVia (fun s e he o ready heq => ?_)
      (.init ⟨"QO-1", 0, none, .idle, false, rfl⟩) hrun
    rw [heq] at he
    cases he
  obtain ⟨-, -, -, hword, -⟩ := status_page_asks hs
  refine ⟨s, hs, hasked, hshows, hbusy, ?_⟩
  rcases hword hstopped hhidden with hb | ⟨due, hdue, -⟩ | hout
  · rw [hbusy] at hb
    cases hb
  · rw [htimer] at hdue
    cases hdue
  · exact hout

end Rch.OrderStatus
