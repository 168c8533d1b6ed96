import Rch.Machine.Payouts
import Rch.Machine.Service
import Rch.Proofs.QrEffect

/-!
# A refund row is paid out once

A worker asks for a refund only after it has looked and found none. What the
look cannot see is another worker between its own look and the gateway's answer
to it. So the rule is about these: the refunds a row has at the gateway and the
sends that may still make one are one altogether, as long as nobody looks while
such a send is under way.

Nothing in the code keeps a worker from looking then. A claim puts the next one
off by a minute at first, and a pass sends its twenty one after another, each
of them with two calls of up to ten seconds.
-/

namespace Rch

open Kit

def SendStage.isClear : SendStage → Bool
  | .clear => true
  | _ => false

/-- A send that has looked and found nothing, until the gateway has made its
refund or never will. -/
def RefundSend.paying (x : RefundSend) : Bool :=
  match x.stage, x.request with
  | .clear, _ => true
  | _, .travelling => true
  | _, _ => false

theorem RefundSend.paying_travelling {x : RefundSend}
    (h : x.request = .travelling) : x.paying = true := by
  obtain ⟨id, row, stage, request⟩ := x
  cases h
  cases stage <;> rfl

/-- Past the look, only the request itself can still pay. -/
theorem paying_of_request {x y : RefundSend} (hreq : y.request = x.request)
    (hy : y.stage.isClear = false) (h : y.paying = true) : x.paying = true := by
  refine RefundSend.paying_travelling (hreq ▸ ?_)
  unfold RefundSend.paying at h
  split at h
  · next hclear =>
      rw [hclear] at hy
      cases hy
  · assumption
  · cases h

/-- The refunds of a row that the gateway does not report as failed. -/
def heldFor (s : Payouts) (id : String) : List GatewayRefund :=
  s.gateway.filter (GatewayRefund.pays id)

def payingFor (id : String) (x : RefundSend) : Bool :=
  decide (x.id = id) && x.paying

/-- No worker looks a row up while another's send of it may still pay. -/
def LooksAlone (s : Payouts) : Payouts.Event → Prop
  | .lookup i => ∀ x, s.sends[i]? = some x → ∀ y ∈ s.sends,
      payingFor x.id y = false
  | _ => True

/-! ## What every step keeps -/

structure PaidKept (s : Payouts) : Prop where
  /-- A send is about a row there is, and what that is for never changes. -/
  forRow : ∀ x ∈ s.sends,
    s.db.refunds.look RefundRow.due x.id = some x.row.due
  unasked : ∀ x ∈ s.sends, x.stage = .claimed ∨ x.stage = .clear →
    x.request = .none
  /-- A refund that names a row is on that row's payment. -/
  noted : ∀ g ∈ s.gateway, ∀ id, g.rid = some id →
    ∃ d, s.db.refunds.look RefundRow.due id = some d ∧
      d.payment = g.paymentId
  once : ∀ id, s.gateway.countP (GatewayRefund.pays id) +
    s.sends.countP (payingFor id) ≤ 1

/-- A place that counts only if it counted before. -/
theorem countP_set_le {α : Type} {p : α → Bool} {l : List α} {i : ℕ} {x y : α}
    (hx : l[i]? = some x) (h : p y = true → p x = true) :
    (l.set i y).countP p ≤ l.countP p := by
  obtain ⟨hi, hget⟩ := List.getElem?_eq_some_iff.1 hx
  rw [List.countP_set hi, hget]
  by_cases hy : p y = true
  · rw [if_pos hy, if_pos (h hy), Nat.sub_add_cancel]
    exact List.countP_pos_iff.2 ⟨x, List.mem_of_getElem? hx, h hy⟩
  · rw [if_neg hy]
    exact Nat.sub_le _ _

/-- No row is gone and none is for something else. -/
def DuesKept (db db' : Db) : Prop :=
  ∀ id d, db.refunds.look RefundRow.due id = some d →
    db'.refunds.look RefundRow.due id = some d

theorem RefundsMoved.duesKept {db db' : Db} (h : RefundsMoved db db') :
    DuesKept db db' := by
  obtain ⟨refunds, hview, rfl⟩ := h
  intro id d hd
  rw [← hd, Table.look_of_view hview]

theorem queueRefund_duesKept {db db' : Db} {d : RefundDraft}
    (h : queueRefund db d = .ok db') : DuesKept db db' := by
  obtain ⟨-, refunds, hins, rfl⟩ := queueRefund_ok h
  intro id d' hd
  have hfree := (Table.insert?_eq_some hins).1
  rw [Table.look_insert hins, Function.update_of_ne, hd]
  rintro rfl
  rw [Table.look_eq_none.2 hfree] at hd
  cases hd

theorem PaidKept.write {s : Payouts} (h : PaidKept s) {x : Outcome Db}
    (hx : ∀ db, x = .ok db → DuesKept s.db db) : PaidKept (s.write x) := by
  unfold Payouts.write
  cases x with
  | error _ => exact h
  | ok db =>
      have hd := hx db rfl
      refine ⟨fun y hy => hd _ _ (h.forRow y hy), h.unasked, fun g hg id hid => ?_,
        h.once⟩
      obtain ⟨d, hlook, hpay⟩ := h.noted g hg id hid
      exact ⟨d, hd _ _ hlook, hpay⟩

section Put

variable {s : Payouts} {i : ℕ} {x y : RefundSend}

theorem PaidKept.forRow_put (h : PaidKept s) (hx : s.sends[i]? = some x)
    (hid : y.id = x.id) (hrow : y.row = x.row) :
    ∀ z ∈ s.sends.set i y,
      s.db.refunds.look RefundRow.due z.id = some z.row.due := by
  intro z hz
  rcases List.mem_or_eq_of_mem_set hz with hz | rfl
  · exact h.forRow z hz
  · rw [hid, hrow]
    exact h.forRow x (List.mem_of_getElem? hx)

theorem PaidKept.unasked_put (h : PaidKept s)
    (hy : y.stage = .claimed ∨ y.stage = .clear → y.request = .none) :
    ∀ z ∈ s.sends.set i y, z.stage = .claimed ∨ z.stage = .clear →
      z.request = .none := by
  intro z hz
  rcases List.mem_or_eq_of_mem_set hz with hz | rfl
  · exact h.unasked z hz
  · exact hy

/-- One send moved on, and is not one that pays unless it was one before. -/
theorem PaidKept.put (h : PaidKept s) (hx : s.sends[i]? = some x)
    (hid : y.id = x.id) (hrow : y.row = x.row)
    (hunasked : y.stage = .claimed ∨ y.stage = .clear → y.request = .none)
    (hpaying : y.paying = true → x.paying = true) : PaidKept (s.put i y) := by
  refine ⟨h.forRow_put hx hid hrow, h.unasked_put hunasked, h.noted,
    fun id => ?_⟩
  refine le_trans (Nat.add_le_add_left ?_ _) (h.once id)
  refine countP_set_le hx fun hy => ?_
  simp only [payingFor, hid, Bool.and_eq_true] at hy ⊢
  exact ⟨hy.1, hpaying hy.2⟩

end Put

/-- A look that finds none finds all there is. -/
theorem PaidKept.none_held {s : Payouts} (h : PaidKept s) {x : RefundSend}
    (hx : x ∈ s.sends) (hnone : priorRefund s.gateway x.id x.row = none) :
    s.gateway.countP (GatewayRefund.pays x.id) = 0 := by
  refine List.countP_eq_zero.2 fun g hg hpays => ?_
  have hrid : g.rid = some x.id := by
    simp only [GatewayRefund.pays, Bool.and_eq_true, decide_eq_true_eq] at hpays
    exact hpays.1
  obtain ⟨d, hd, hpayment⟩ := h.noted g hg x.id hrid
  rw [h.forRow x hx] at hd
  cases hd
  refine List.find?_eq_none.1 hnone g ?_ hpays
  exact List.mem_filter.2 ⟨hg, decide_eq_true hpayment.symm⟩

theorem PaidKept.lookup {s : Payouts} (h : PaidKept s) {i : ℕ} {id : String}
    {row : RefundRow} {q : SendRequest}
    (hx : s.sends[i]? = some ⟨id, row, .claimed, q⟩)
    (halone : LooksAlone s (.lookup i)) :
    PaidKept (s.put i (s.lookedUp ⟨id, row, .claimed, q⟩)) := by
  have hmem := List.mem_of_getElem? hx
  have hq : q = .none := h.unasked _ hmem (.inl rfl)
  subst hq
  unfold Payouts.lookedUp
  split
  · exact h.put hx rfl rfl (fun _ => rfl) fun hp => nomatch hp
  · next hnone =>
      have hheld := h.none_held hmem hnone
      have hnobody : s.sends.countP (payingFor id) = 0 :=
        List.countP_eq_zero.2 fun y hy => Bool.eq_false_iff.1 (halone _ hx y hy)
      refine ⟨h.forRow_put hx rfl rfl, h.unasked_put fun _ => rfl, h.noted,
        fun id' => ?_⟩
      by_cases hid : id = id'
      · subst hid
        obtain ⟨hi, -⟩ := List.getElem?_eq_some_iff.1 hx
        dsimp only [Payouts.put] at hheld ⊢
        rw [hheld, List.countP_set hi, hnobody, Nat.zero_sub, Nat.zero_add,
          Nat.zero_add]
        split
        · exact le_rfl
        · exact Nat.zero_le 1
      · refine le_trans (Nat.add_le_add_left ?_ _) (h.once id')
        refine countP_set_le hx fun hp => ?_
        rw [payingFor, decide_eq_false hid] at hp
        cases hp

/-- The request arrives: what paid by being on its way pays by being made. -/
theorem PaidKept.arrive {s : Payouts} (h : PaidKept s) {i : ℕ} {id g : String}
    {row : RefundRow} {stage : SendStage} {status : GatewayRefundStatus}
    (hx : s.sends[i]? = some ⟨id, row, stage, .travelling⟩) :
    PaidKept { s.put i ⟨id, row, stage,
        .made ((refundRequest id row).made g status)⟩ with
      gateway := s.gateway ++ [(refundRequest id row).made g status] } := by
  have hmem := List.mem_of_getElem? hx
  have hstage : ¬ (stage = .claimed ∨ stage = .clear) := by
    intro hst
    cases h.unasked _ hmem hst
  refine ⟨h.forRow_put hx rfl rfl, h.unasked_put fun hst => absurd hst hstage,
    fun z hz id' hid => ?_, fun id' => ?_⟩
  · rcases List.mem_append.1 hz with hz | hz
    · exact h.noted z hz id' hid
    · cases List.mem_singleton.1 hz
      rw [refundRequest_rid] at hid
      cases hid
      exact ⟨_, h.forRow _ hmem, rfl⟩
  · obtain ⟨hi, hget⟩ := List.getElem?_eq_some_iff.1 hx
    have honce := h.once id'
    dsimp only [Payouts.put]
    rw [List.countP_append, List.countP_singleton, List.countP_set hi, hget]
    have hnew : payingFor id' ⟨id, row, stage,
        .made ((refundRequest id row).made g status)⟩ = false := by
      cases stage with
      | clear => exact absurd (.inr rfl) hstage
      | _ => simp [payingFor, RefundSend.paying]
    have hwas : payingFor id' ⟨id, row, stage, .travelling⟩ =
        decide (id = id') := by
      cases stage <;> simp [payingFor, RefundSend.paying]
    have hpays : GatewayRefund.pays id' ((refundRequest id row).made g status) =
        true → id = id' := by
      intro hp
      simp only [GatewayRefund.pays, refundRequest_rid, Bool.and_eq_true] at hp
      exact Option.some.inj (of_decide_eq_true hp.1)
    rw [hnew, hwas]
    by_cases hid : id = id'
    · have hpos : 0 < s.sends.countP (payingFor id') :=
        List.countP_pos_iff.2 ⟨_, hmem, by rw [hwas, decide_eq_true hid]⟩
      simp only [decide_eq_true hid, if_true]
      split <;> simp <;> omega
    · rw [if_neg fun hp => hid (hpays hp)]
      simpa [hid] using honce

@[simp] theorem write_sends (s : Payouts) (x : Outcome Db) :
    (s.write x).sends = s.sends := by
  unfold Payouts.write
  split <;> rfl

theorem PaidKept.claim {s : Payouts} (h : PaidKept s) {db : Db} {now : Instant}
    {ids : List String} (hdb : claimDueRefunds s.db now ids = some db) :
    PaidKept { s with db, sends := s.sends ++ Payouts.claimedSends db ids } := by
  have hd : DuesKept s.db db := (claimDueRefunds_moved hdb).duesKept
  have hnew : ∀ x ∈ Payouts.claimedSends db ids, x.stage = .claimed ∧
      x.request = .none ∧ db.refunds.get? x.id = some x.row := by
    intro x hx
    obtain ⟨id, -, hx⟩ := List.mem_filterMap.1 hx
    obtain ⟨row, hrow, rfl⟩ := Option.map_eq_some_iff.1 hx
    exact ⟨rfl, rfl, hrow⟩
  refine ⟨fun x hx => ?_, fun x hx hstage => ?_, fun g hg id hid => ?_,
    fun id => ?_⟩
  · rcases List.mem_append.1 hx with hx | hx
    · exact hd _ _ (h.forRow x hx)
    · exact Table.look_of_get? (hnew x hx).2.2 _
  · rcases List.mem_append.1 hx with hx | hx
    · exact h.unasked x hx hstage
    · exact (hnew x hx).2.1
  · obtain ⟨d, hlook, hpay⟩ := h.noted g hg id hid
    exact ⟨d, hd _ _ hlook, hpay⟩
  · have hquiet : (Payouts.claimedSends db ids).countP (payingFor id) = 0 := by
      refine List.countP_eq_zero.2 fun x hx hp => ?_
      rw [payingFor, RefundSend.paying, (hnew x hx).1, (hnew x hx).2.1,
        Bool.and_false] at hp
      cases hp
    rw [List.countP_append, hquiet]
    exact h.once id

theorem settled_rid (id : String) (o : RefundOutcome) (g : GatewayRefund) :
    (Payouts.settled id o g).rid = g.rid ∧
      (Payouts.settled id o g).paymentId = g.paymentId := by
  unfold Payouts.settled
  split <;> exact ⟨rfl, rfl⟩

/-- A refund that failed does not come back. -/
theorem settled_pays {id id' : String} {o : RefundOutcome} {g : GatewayRefund}
    (h : (Payouts.settled id o g).pays id' = true) : g.pays id' = true := by
  unfold Payouts.settled at h
  split at h
  · next hg =>
      simp only [GatewayRefund.pays, Bool.and_eq_true] at h ⊢
      refine ⟨h.1, ?_⟩
      rw [hg.2]
      rfl
  · exact h

theorem PaidKept.settle {s : Payouts} (h : PaidKept s) (id : String)
    (o : RefundOutcome) :
    PaidKept { s with gateway := s.gateway.map (Payouts.settled id o) } := by
  refine ⟨h.forRow, h.unasked, fun g hg id' hid => ?_, fun id' => ?_⟩
  · obtain ⟨g₀, hg₀, rfl⟩ := List.mem_map.1 hg
    rw [(settled_rid ..).1] at hid
    rw [(settled_rid ..).2]
    exact h.noted g₀ hg₀ id' hid
  · refine le_trans (Nat.add_le_add_right ?_ _) (h.once id')
    rw [List.countP_map]
    exact List.countP_mono_left fun g _ hp => settled_pays hp

theorem PaidKept.elsewhere {s : Payouts} (h : PaidKept s) {g : GatewayRefund}
    (hg : g.rid.isSome = false) :
    PaidKept { s with gateway := s.gateway ++ [g] } := by
  have hrid : g.rid = none := Option.isNone_iff_eq_none.1 (Option.isSome_eq_false_iff.1 hg)
  refine ⟨h.forRow, h.unasked, fun g' hg' id hid => ?_, fun id => ?_⟩
  · rcases List.mem_append.1 hg' with hg' | hg'
    · exact h.noted g' hg' id hid
    · cases List.mem_singleton.1 hg'
      rw [hrid] at hid
      cases hid
  · rw [List.countP_append, List.countP_singleton, GatewayRefund.pays, hrid]
    exact h.once id

/-- One step keeps all of it, as long as nobody looks too early. -/
theorem PaidKept.step {s s' : Payouts} {e : Payouts.Event} (h : PaidKept s)
    (halone : LooksAlone s e) (hs : s.step e = some s') : PaidKept s' := by
  cases e with
  | queue d =>
      cases hs
      exact h.write fun _ hdb => queueRefund_duesKept hdb
  | claim now ids =>
      simp only [Payouts.step] at hs
      split at hs
      · obtain ⟨db, hdb, rfl⟩ := Option.map_eq_some_iff.1 hs
        exact h.claim hdb
      · cases hs
  | lookup i =>
      simp only [Payouts.step] at hs
      split at hs <;> cases hs
      next hx => exact h.lookup hx halone
  | post i =>
      simp only [Payouts.step] at hs
      split at hs <;> cases hs
      next hx => exact h.put hx rfl rfl (by simp) fun _ => rfl
  | arrive i id status =>
      simp only [Payouts.step] at hs
      split at hs
      · next hx =>
          split at hs <;> cases hs
          exact h.arrive hx
      · cases hs
  | lose i =>
      simp only [Payouts.step] at hs
      split at hs <;> cases hs
      next stage hx =>
        have hstage := fun hst => h.unasked _ (List.mem_of_getElem? hx) hst
        refine h.put hx rfl rfl (fun hst => nomatch hstage hst) fun _ => ?_
        cases stage <;> rfl
  | answer i =>
      simp only [Payouts.step] at hs
      split at hs <;> cases hs
      next hx => exact h.put hx rfl rfl (by simp) fun hp => nomatch hp
  | fail i error final =>
      simp only [Payouts.step] at hs
      split at hs <;> cases hs
      all_goals
        next hx => exact h.put hx rfl rfl (by simp) (paying_of_request rfl rfl)
  | record i at_ =>
      simp only [Payouts.step] at hs
      split at hs <;> cases hs
      · next hx =>
          rw [← write_sends] at hx
          exact (h.write fun _ hdb => (recordSend_moved hdb).duesKept).put hx
            rfl rfl (by simp) (paying_of_request rfl rfl)
      · next hx =>
          rw [← write_sends] at hx
          exact (h.write fun _ hdb => (recordFailure_moved hdb).duesKept).put hx
            rfl rfl (by simp) (paying_of_request rfl rfl)
  | crash i =>
      obtain ⟨x, hx, rfl⟩ := Option.map_eq_some_iff.1 hs
      exact h.put hx rfl rfl (by simp) (paying_of_request rfl rfl)
  | retry id at_ =>
      cases hs
      exact h.write fun _ hdb => (retryRefund_moved hdb).duesKept
  | report g rid outcome at_ =>
      simp only [Payouts.step] at hs
      split at hs <;> cases hs
      exact h.write fun _ hdb => (settleRefund_moved hdb).duesKept
  | settle id outcome =>
      cases hs
      exact h.settle id outcome
  | elsewhere g =>
      simp only [Payouts.step] at hs
      split at hs <;> cases hs
      next hg => exact h.elsewhere (by simpa using (not_or.1 hg).2)

theorem paidKept_init {s : Payouts} (h : Payouts.machine.init s) :
    PaidKept s := by
  obtain ⟨-, hgateway, hsends⟩ := h
  refine ⟨fun x hx => ?_, fun x hx => ?_, fun g hg => ?_, fun id => ?_⟩
  · rw [hsends] at hx
    cases hx
  · rw [hsends] at hx
    cases hx
  · rw [hgateway] at hg
    cases hg
  · rw [hgateway, hsends]
    exact Nat.zero_le 1

/-- Whatever the workers, the gateway and the manager do and in whatever order,
a row is paid out once, as long as no worker looks it up while another's send
of it may still pay. -/
theorem refund_paid_once {s : Payouts}
    (h : Payouts.machine.ReachVia LooksAlone s) (id : String) :
    (heldFor s id).length ≤ 1 := by
  have hkept : PaidKept s :=
    h.invariant (fun _ hs => paidKept_init hs) fun _ _ _ _ hk halone hs =>
      hk.step halone hs
  rw [heldFor, ← List.countP_eq_length_filter]
  exact (Nat.le_add_right _ _).trans (hkept.once id)

/-! ## Two workers -/

def wholePayment : RefundDraft :=
  ⟨"QO-1", "pay_1", ⟨7400⟩, .unfulfillable, none, 0⟩

def Payouts.fresh : Payouts := ⟨Db.fresh corner, [], []⟩

/-- A second worker claims the row a minute later, while the first is still at
the others of its pass. Both look, and both send. -/
def overtaken : List Payouts.Event :=
  [.queue wholePayment, .claim 0 ["QO-1-R1"], .claim 60000 ["QO-1-R1"],
    .lookup 0, .lookup 1, .post 0, .post 1,
    .arrive 0 "rfnd_1" .processed, .arrive 1 "rfnd_2" .processed]

theorem refund_paid_once_overtaken : ∃ s,
    Payouts.machine.run .fresh overtaken = some s ∧ Payouts.machine.Reach s ∧
      ¬∀ id, (heldFor s id).length ≤ 1 := by
  have hany : (Payouts.machine.run .fresh overtaken).any (fun s =>
      decide ((heldFor s "QO-1-R1").length = 2)) = true := by
    decide +kernel
  obtain ⟨s, hrun, hd⟩ := (Option.any_eq_true _ _).1 hany
  have hinit : Payouts.machine.Reach .fresh := .init ⟨rfl, rfl, rfl⟩
  refine ⟨s, hrun, Machine.reach_run hinit hrun, fun hall => ?_⟩
  have htwo := hall "QO-1-R1"
  rw [of_decide_eq_true hd] at htwo
  exact absurd htwo (by decide)

def looksAlone (s : Payouts) : Payouts.Event → Bool
  | .lookup i => (s.sends[i]?).all fun x =>
    s.sends.all fun y => !payingFor x.id y
  | _ => true

theorem looksAlone_sound (s : Payouts) (e : Payouts.Event)
    (h : looksAlone s e = true) : LooksAlone s e := by
  cases e with
  | lookup i =>
      intro x hx y hy
      rw [looksAlone, hx] at h
      simpa using List.all_eq_true.1 h y hy
  | _ => trivial

/-- The answer is lost, and the next worker finds what the first one made. -/
def answerLost : List Payouts.Event :=
  [.queue wholePayment, .claim 0 ["QO-1-R1"], .lookup 0, .post 0,
    .arrive 0 "rfnd_1" .processed, .fail 0 "no answer in time" false,
    .record 0 10000, .claim 60000 ["QO-1-R1"], .lookup 1, .record 1 61000]

theorem refund_paid_once_answerLost : ∃ s,
    Payouts.machine.runVia looksAlone .fresh answerLost = some s ∧
      (heldFor s "QO-1-R1").length ≤ 1 ∧
      (s.db.refunds.get? "QO-1-R1").map (fun r =>
        (r.status, r.attempts, r.rzpRefundId)) =
          some (.processed, 2, some "rfnd_1") := by
  have hany : (Payouts.machine.runVia looksAlone .fresh answerLost).any (fun s =>
      decide ((s.db.refunds.get? "QO-1-R1").map (fun r =>
        (r.status, r.attempts, r.rzpRefundId)) =
          some (.processed, 2, some "rfnd_1"))) = true := by
    decide +kernel
  obtain ⟨s, hrun, hd⟩ := (Option.any_eq_true _ _).1 hany
  have hinit : Payouts.machine.ReachVia LooksAlone .fresh :=
    .init ⟨rfl, rfl, rfl⟩
  have hreach := Machine.reachVia_runVia looksAlone_sound hinit hrun
  exact ⟨s, hrun, refund_paid_once hreach _, of_decide_eq_true hd⟩

end Rch
