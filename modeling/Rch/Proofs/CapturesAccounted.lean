import Rch.Proofs.Takings

/-!
# Every capture is accounted for once

A report is settled against the order its payment was made for, because each
channel checks that and nothing about it changes between the check and the
settling. So a settled capture is an event of the seller's books: the order's
own payment, billed or handed back, or one too many. The books stay sound, and
what they say is what the tables say.
-/

namespace Rch

open Kit

/-- A report's payment is the gateway's, and was made for the order it is
about. -/
structure Backed (gateway : Table String Payment) (db : Db) (order : String)
    (p : GatewayPayment) : Prop where
  shown : shows gateway p = true
  madeFor : madeFor gateway db p.id = some (order, p.amount)

/-- The server with its books, and the reports on their way to it. -/
structure BooksKept (w : Checkout) : Prop where
  reach : server.Reach w.db
  sound : (takingsOf w.gateway w.db).Sound
  read : ∀ x ∈ w.read, ∀ rz, x.2.rzpOrderId = some rz →
    ∃ o, w.db.qrOrders.get? x.1 = some o ∧ o.rzpOrderId = some rz
  reports : ∀ r ∈ w.inFlight, Backed w.gateway w.db r.order r.payment
  settled : ∀ s ∈ w.settled, Backed w.gateway w.db s.1 s.2 ∧
    (takingsOf w.gateway w.db).Answered s.1 s.2.id

theorem shows_some {gateway : Table String Payment} {p : GatewayPayment}
    (h : shows gateway p = true) : ∃ e, gateway.get? p.id = some e ∧
      (p.orderId = none ∨ p.orderId = some e.order) ∧ p.amount = e.amount ∧
      p.amountPaise = e.amountPaise ∧
      (p.status = .captured → e.captured = true) := by
  obtain ⟨e, he, h⟩ := (Option.any_eq_true _ _).1 h
  simp only [Bool.and_eq_true, decide_eq_true_eq] at h
  obtain ⟨⟨⟨hfor, hamount⟩, -⟩, hcap⟩ := h
  refine ⟨e, he, hfor, ?_, hamount, hcap⟩
  unfold GatewayPayment.amount Payment.amount
  rw [hamount]

/-! ## The gateway -/

/-- Payments the gateway held it still holds, as they were or captured. -/
def Grows (g g' : Table String Payment) : Prop :=
  ∀ pid e, g.get? pid = some e → ∃ e', g'.get? pid = some e' ∧
    e'.order = e.order ∧ e'.amountPaise = e.amountPaise ∧
    e'.currency = e.currency ∧ (e.captured = true → e'.captured = true)

theorem Grows.shows {g g' : Table String Payment} (hg : Grows g g')
    {p : GatewayPayment} (h : shows g p = true) : shows g' p = true := by
  obtain ⟨e, he, h⟩ := (Option.any_eq_true _ _).1 h
  obtain ⟨e', he', horder, hamount, hcurrency, hcap⟩ := hg p.id e he
  simp only [Bool.and_eq_true, decide_eq_true_eq] at h
  refine (Option.any_eq_true _ _).2 ⟨e', he', ?_⟩
  simp only [Bool.and_eq_true, decide_eq_true_eq]
  rw [horder, hamount, hcurrency]
  exact ⟨h.1, fun hp => hcap (h.2 hp)⟩

/-- News of payments is something the books only learn. -/
theorem Grows.takings {g g' : Table String Payment} (hg : Grows g g')
    (db : Db) : (takingsOf g db).Step (takingsOf g' db) := by
  refine Takings.Step.learn (s := takingsOf g db)
    (f := (takingsOf g' db).madeFor) (g := (takingsOf g' db).taken) ?_ ?_
  · rintro p y hp
    obtain ⟨e, he, h⟩ := Option.bind_eq_some_iff.1 hp
    obtain ⟨e', he', horder, hamount, -, -⟩ := hg p e he
    refine Option.bind_eq_some_iff.2 ⟨e', he', ?_⟩
    rw [horder, Payment.amount, hamount]
    exact h
  · intro p hp
    obtain ⟨e, he, h⟩ := (Option.any_eq_true _ _).1 hp
    obtain ⟨e', he', -, -, -, hcap⟩ := hg p e he
    exact (Option.any_eq_true _ _).2 ⟨e', he', hcap h⟩

theorem BooksKept.news {w : Checkout} (h : BooksKept w)
    {gateway : Table String Payment} (hg : Grows w.gateway gateway) :
    BooksKept { w with gateway } := by
  have hstep := hg.takings w.db
  have hback {order : String} {p : GatewayPayment}
      (hb : Backed w.gateway w.db order p) : Backed gateway w.db order p :=
    ⟨hg.shows hb.shown, hstep.madeFor hb.madeFor⟩
  exact ⟨h.reach, hstep.sound h.sound, h.read,
    fun r hr => hback (h.reports r hr),
    fun s hs => ⟨hback (h.settled s hs).1, hstep.answered (h.settled s hs).2⟩⟩

/-! ## The server -/

theorem BooksKept.moved {w : Checkout} (h : BooksKept w) {op : Op} {db : Db}
    (hrun : op.run w.db = some db)
    (hstep : Relation.ReflGen Takings.Step (takingsOf w.gateway w.db)
      (takingsOf w.gateway db)) : BooksKept { w with db } := by
  have hmove := op.ordersMove hrun
  have hmade {p : String} {y : String × Money}
      (hp : (takingsOf w.gateway w.db).madeFor p = some y) :
      (takingsOf w.gateway db).madeFor p = some y := by
    rcases Relation.reflGen_iff _ _ _ |>.1 hstep with heq | hs
    · rw [heq]
      exact hp
    · exact hs.madeFor hp
  refine ⟨h.reach.step hrun, ?_, ?_, ?_, ?_⟩
  · rcases Relation.reflGen_iff _ _ _ |>.1 hstep with heq | hs
    · dsimp only
      rw [heq]
      exact h.sound
    · exact hs.sound h.sound
  · intro x hx rz hrz
    obtain ⟨o, ho, hrz'⟩ := h.read x hx rz hrz
    exact hmove.rzpOrder ho hrz'
  · intro r hr
    exact ⟨(h.reports r hr).shown, hmade (h.reports r hr).madeFor⟩
  · intro s hs
    obtain ⟨hback, ha⟩ := h.settled s hs
    refine ⟨⟨hback.shown, hmade hback.madeFor⟩, ?_⟩
    rcases Relation.reflGen_iff _ _ _ |>.1 hstep with heq | hs
    · dsimp only
      rw [heq]
      exact ha
    · exact hs.answered ha

/-! ## The channels -/

/-- A payment for the gateway order an order carries was made for that
order. -/
theorem BooksKept.backed {w : Checkout} (h : BooksKept w)
    {p : GatewayPayment} {e : Payment} {id : String} {o : QrOrderRow}
    (hp : shows w.gateway p = true) (he : w.gateway.get? p.id = some e)
    (ho : w.db.qrOrders.get? id = some o)
    (hrz : o.rzpOrderId = some e.order) : Backed w.gateway w.db id p := by
  obtain ⟨e', he', -, hamount, -, -⟩ := shows_some hp
  cases he.symm.trans he'
  refine ⟨hp, ?_⟩
  rw [hamount]
  exact (ordersKept_reach h.reach).madeFor_eq he ho hrz

theorem BooksKept.report {w : Checkout} (h : BooksKept w) {r : Report}
    (hr : Backed w.gateway w.db r.order r.payment) : BooksKept (w.report r) := by
  refine ⟨h.reach, h.sound, h.read, ?_, h.settled⟩
  intro r' hr'
  rcases List.mem_cons.1 hr' with rfl | hr'
  · exact hr
  · exact h.reports r' hr'

theorem verify_ok {id : String} {o : QrOrderRow} {body : VerifyQrPaymentBody}
    {p : GatewayPayment} {r : Report} (h : verify id o body p = .ok r) :
    o.rzpOrderId.isSome = true ∧ p.orderId = o.rzpOrderId ∧
      r = ⟨id, o.total, p⟩ := by
  simp only [verify, bind_ok, guardOr_ok, assertValid_ok, assertRule_ok,
    exists_const, pure_ok] at h
  obtain ⟨-, hrz, -, hp, -, rfl⟩ := h
  exact ⟨by rw [hrz]; rfl, hp, rfl⟩

theorem webhook_some {db : Db} {p : GatewayPayment} {r : Report}
    (h : webhook db p = some r) : ∃ rz id o, p.orderId = some rz ∧
      db.qrOrders.get? id = some o ∧ o.rzpOrderId = some rz ∧
      r = ⟨id, o.total, p⟩ := by
  unfold webhook at h
  split at h
  · obtain ⟨x, hx, rfl⟩ := Option.map_eq_some_iff.1 h
    obtain ⟨rz, hrz, hx⟩ := Option.bind_eq_some_iff.1 hx
    refine ⟨rz, x.1, x.2, hrz, ?_, ?_, rfl⟩
    · exact Table.get?_eq_some.2 (List.mem_of_find?_eq_some hx)
    · simpa using List.find?_some hx
  · cases h

theorem reconcile_some {now : Instant} {id : String} {o : QrOrderRow}
    {p : GatewayPayment} {r : Report} (h : reconcile now id o p = some r) :
    r = ⟨id, o.total, p⟩ := by
  unfold reconcile at h
  split at h
  · exact (Option.some.inj h).symm
  · cases h

/-! ## The settling -/

theorem round2_paise (m : Money) : round2 ((paise m : ℚ) / 100) = m := by
  have h : ((paise m : ℚ) / 100) = (m : ℚ) := by
    unfold paise Decimal.toRat
    norm_num
  rw [h, round2_money]

/-- A payment that matches its order is for what the order came to. -/
theorem amount_of_matched {o : QrOrderRow} {p : GatewayPayment}
    (h : mismatched o p = false) : p.amount = o.total := by
  unfold mismatched at h
  simp only [Bool.or_eq_false_iff, decide_eq_false_iff_not, not_not] at h
  rw [GatewayPayment.amount, h.1.2, round2_paise]

/-- A settled capture is the order's payment, or one too many, or nothing
new; and either way it has been answered. -/
theorem Settles.takings {db db' : Db} {gateway : Table String Payment}
    {oid : String} {o : QrOrderRow} {p : GatewayPayment} {at_ : Instant}
    (hk : OrdersKept db.qrOrders) (hs : (takingsOf gateway db).Sound)
    (ho : db.qrOrders.get? oid = some o)
    (hp : madeFor gateway db p.id = some (oid, p.amount))
    (ht : (takingsOf gateway db).taken p.id = true)
    (h : Settles db oid o p at_ db') :
    Relation.ReflGen Takings.Step (takingsOf gateway db)
        (takingsOf gateway db') ∧
      (takingsOf gateway db').Answered oid p.id := by
  have hlook := Table.look_of_get? ho QrOrderRow.standing
  have hunsettled : o.rzpPaymentId = none → o.standing = .unsettled := by
    intro hnone
    unfold QrOrderRow.standing
    rw [hnone]
  cases h with
  | again hagain =>
      refine ⟨.refl, ?_⟩
      cases hno : o.billNo with
      | some no =>
          refine .inl ⟨no, hlook.trans ?_⟩
          unfold QrOrderRow.standing
          rw [hagain, hno]
      | none =>
          have hrefused : (takingsOf gateway db).orders oid =
              some (.refused p.id) := by
            refine hlook.trans ?_
            unfold QrOrderRow.standing
            rw [hagain, hno]
          exact .inr (hs.refused oid p.id hrefused).2
  | @refundedBefore rid r hr hro hrp =>
      refine ⟨.refl, .inr ⟨r.due, ?_, hrp⟩⟩
      exact List.mem_map.2 ⟨(rid, r.due), Table.mem_view.2 ⟨r, hr, rfl⟩, rfl⟩
  | @duplicate refunds hne hpaid hnew hins =>
      have hsome : o.rzpPaymentId ≠ none := by
        intro hnone
        rcases hpaid with hpaid | hpaid
        · rw [hnone] at hpaid
          cases hpaid
        · exact hpaid (hk.unsettled oid o ho hnone).1
      have hset : o.standing ≠ .unsettled := by
        unfold QrOrderRow.standing
        split
        · next hnone => exact absurd hnone hsome
        · exact nofun
        · exact nofun
      have hown : ∀ no, o.standing ≠ .billed p.id no := by
        intro no
        unfold QrOrderRow.standing
        split
        · exact nofun
        · next hpid _ =>
            rintro ⟨⟩
            exact hne hpid
        · exact nofun
      have hfresh : ∀ r ∈ refundsDue db, r.order = oid →
          r.payment ≠ p.id := by
        intro r hr hro
        obtain ⟨x, hx, rfl⟩ := List.mem_map.1 hr
        obtain ⟨row, hrow, hdue⟩ := Table.mem_view.1 hx
        rw [← hdue] at hro ⊢
        exact hnew (x.1, row) hrow hro
      have hstep := Takings.Step.duplicate (s := takingsOf gateway db) hp ht
        hlook hset hown hfresh
      have heq : takingsOf gateway { db with refunds } =
          { takingsOf gateway db with
            refunds := refundsDue db ++ [⟨oid, p.id, p.amount⟩] } := by
        rw [← refundsDue_insert hins]
        rfl
      rw [heq]
      refine ⟨.single hstep, .inr ⟨⟨oid, p.id, p.amount⟩, ?_, rfl⟩⟩
      exact List.mem_append_right _ List.mem_cons_self
  | @unfulfillable refunds hnone hopen _ hins =>
      have horders := Table.look_modify ho
        (fun _ => patchOrder o .refunded at_ ⟨some p.id, none, none⟩)
        QrOrderRow.standing
      have hstanding : (patchOrder o .refunded at_
          ⟨some p.id, none, none⟩).standing = .refused p.id := by
        simp [QrOrderRow.standing, patchOrder,
          (hk.unsettled oid o ho hnone).2]
      rw [hstanding] at horders
      have hfind : orderOf (db.qrOrders.modify oid fun _ =>
          patchOrder o .refunded at_ ⟨some p.id, none, none⟩) =
            orderOf db.qrOrders := orderOf_modify ho _ rfl
      rw [hunsettled hnone] at hlook
      have hstep := Takings.Step.refuse (s := takingsOf gateway db) hp ht hlook
      have heq : takingsOf gateway { db with
          qrOrders := db.qrOrders.modify oid fun _ =>
            patchOrder o .refunded at_ ⟨some p.id, none, none⟩
          refunds } =
          { takingsOf gateway db with
            orders := Function.update (db.qrOrders.look QrOrderRow.standing)
              oid (some (.refused p.id))
            refunds := refundsDue db ++ [⟨oid, p.id, p.amount⟩] } := by
        rw [← refundsDue_insert hins, ← horders]
        unfold takingsOf madeFor
        dsimp only
        rw [hfind]
        rfl
      rw [heq]
      refine ⟨.single hstep, .inr ⟨⟨oid, p.id, p.amount⟩, ?_, rfl⟩⟩
      exact List.mem_append_right _ List.mem_cons_self
  | @billed db₁ no row hnone hopen hmatch hsold htotal _ =>
      obtain ⟨plan, terms, payer, phone, session, hrow⟩ := hsold.row_eq
      have hraised : row.raised = ⟨some oid, p.amount, false⟩ := by
        rw [amount_of_matched hmatch, ← htotal, hrow]
        rfl
      have hbills := Table.look_insert hsold.bills BillRow.raised
      rw [hraised] at hbills
      have hfree := (Table.insert?_eq_some hsold.bills).1
      obtain ⟨hsame, hsame'⟩ := hsold.same .gateway nofun nofun
      have horders := Table.look_modify ho
        (fun _ => patchOrder o .paid at_ ⟨some p.id, some no, some at_⟩)
        QrOrderRow.standing
      have hstanding : (patchOrder o .paid at_
          ⟨some p.id, some no, some at_⟩).standing = .billed p.id no := by
        simp [QrOrderRow.standing, patchOrder]
      rw [hstanding] at horders
      have hfind : orderOf (db.qrOrders.modify oid fun _ =>
          patchOrder o .paid at_ ⟨some p.id, some no, some at_⟩) =
            orderOf db.qrOrders := orderOf_modify ho _ rfl
      rw [hunsettled hnone] at hlook
      have hstep := Takings.Step.bill (s := takingsOf gateway db) hp ht hlook
        (Table.look_eq_none.2 hfree)
      have heq : takingsOf gateway { db₁ with
          qrOrders := db₁.qrOrders.modify oid fun _ =>
            patchOrder o .paid at_ ⟨some p.id, some no, some at_⟩ } =
          { takingsOf gateway db with
            orders := Function.update (db.qrOrders.look QrOrderRow.standing)
              oid (some (.billed p.id no))
            bills := Function.update (db.bills.look BillRow.raised) no
              (some ⟨some oid, p.amount, false⟩) } := by
        rw [← horders, ← hbills]
        unfold takingsOf madeFor refundsDue
        dsimp only
        rw [hsame, hsame', hfind]
      rw [heq]
      exact ⟨.single hstep, .inl ⟨no, Function.update_self ..⟩⟩

/-! ## The system -/

theorem grows_capture (g : Table String Payment) (id : String) :
    Grows g (g.modify id fun e => { e with captured := true }) := by
  intro pid e he
  by_cases hid : pid = id
  · subst hid
    refine ⟨{ e with captured := true }, ?_, rfl, rfl, rfl, fun _ => rfl⟩
    rw [Table.get?_modify_self, he, Option.map_some]
  · refine ⟨e, ?_, rfl, rfl, rfl, fun h => h⟩
    rw [Table.get?_modify_ne _ _ hid]
    exact he

theorem grows_insert {g g' : Table String Payment} {id : String} {e : Payment}
    (h : g.insert? id e = some g') : Grows g g' := by
  intro pid e' he'
  refine ⟨e', ?_, rfl, rfl, rfl, fun h => h⟩
  have hne : pid ≠ id := by
    rintro rfl
    rw [(Table.insert?_eq_some h).1] at he'
    cases he'
  rw [Table.get?_insert h, if_neg hne]
  exact he'

/-- One event, whatever it is, keeps the books. -/
theorem booksKept_step {w w' : Checkout} {e : Checkout.Event}
    (h : BooksKept w) (hs : checkout.step w e = some w') : BooksKept w' := by
  change w.step e = some w' at hs
  cases e with
  | service op =>
      simp only [Checkout.step, Option.ite_none_left_eq_some,
        Option.map_eq_some_iff, Bool.not_eq_true] at hs
      obtain ⟨hc, db, hrun, rfl⟩ := hs
      exact h.moved hrun
        (op.takings w.gateway (ordersKept_reach h.reach) h.sound hc hrun)
  | pay id e =>
      simp only [Checkout.step, Option.ite_none_left_eq_some,
        Option.map_eq_some_iff] at hs
      obtain ⟨-, gateway, hins, rfl⟩ := hs
      exact h.news (grows_insert hins)
  | capture id =>
      cases hs
      exact h.news (grows_capture w.gateway id)
  | read id =>
      simp only [Checkout.step, Option.map_eq_some_iff] at hs
      obtain ⟨o, ho, rfl⟩ := hs
      refine ⟨h.reach, h.sound, ?_, h.reports, h.settled⟩
      intro x hx rz hrz
      rcases List.mem_cons.1 hx with rfl | hx
      · exact ⟨o, ho, hrz⟩
      · exact h.read x hx rz hrz
  | verify id o body p =>
      simp only [Checkout.step, Option.ite_none_right_eq_some,
        Option.map_eq_some_iff, toOption_eq_some] at hs
      obtain ⟨⟨hread, -, hp⟩, r, hv, rfl⟩ := hs
      obtain ⟨hsome, hfor, rfl⟩ := verify_ok hv
      obtain ⟨e, he, hshown, -⟩ := shows_some hp
      obtain ⟨rz, hrz⟩ := Option.isSome_iff_exists.1 hsome
      have horder : some rz = some e.order := by
        rw [hfor, hrz] at hshown
        exact hshown.resolve_left (Option.some_ne_none _)
      cases horder
      obtain ⟨o', ho', hrz'⟩ := h.read _ hread _ hrz
      exact h.report (h.backed hp he ho' hrz')
  | webhook p =>
      simp only [Checkout.step, Option.ite_none_right_eq_some,
        Option.map_eq_some_iff] at hs
      obtain ⟨hp, r, hw, rfl⟩ := hs
      obtain ⟨rz, id, o, hfor, ho, hrz, rfl⟩ := webhook_some hw
      obtain ⟨e, he, hshown, -⟩ := shows_some hp
      have horder : some rz = some e.order := by
        rw [hfor] at hshown
        exact hshown.resolve_left (Option.some_ne_none _)
      cases horder
      exact h.report (h.backed hp he ho hrz)
  | reconcile now id o p =>
      simp only [Checkout.step, Option.ite_none_right_eq_some,
        Option.map_eq_some_iff] at hs
      obtain ⟨⟨hread, hp, hlisted⟩, r, hr, rfl⟩ := hs
      obtain rfl := reconcile_some hr
      obtain ⟨e, he, hrz⟩ := (Option.any_eq_true _ _).1 hlisted
      obtain ⟨o', ho', hrz'⟩ := h.read _ hread _ (of_decide_eq_true hrz)
      exact h.report (h.backed hp he ho' hrz')
  | take r p =>
      simp only [Checkout.step, Option.ite_none_right_eq_some,
        Option.some.injEq] at hs
      obtain ⟨⟨hr, -, hid, -, hp⟩, rfl⟩ := hs
      -- the same payment, shown again
      have hmade := (h.reports r hr).madeFor
      obtain ⟨e, o, he, -, ho, hrz⟩ := madeFor_some hmade
      rw [← hid] at he
      exact h.report (h.backed hp he ho hrz)
  | settle r mint at_ =>
      simp only [Checkout.step, Option.ite_none_right_eq_some,
        Option.map_eq_some_iff, toOption_eq_some] at hs
      obtain ⟨⟨hr, hcap⟩, db, hsettle, rfl⟩ := hs
      have hback := h.reports r hr
      obtain ⟨e, he, -, -, -, hflag⟩ := shows_some hback.shown
      have ht : (takingsOf w.gateway w.db).taken r.payment.id = true :=
        (Option.any_eq_true _ _).2 ⟨e, he, hflag hcap⟩
      obtain ⟨o, ho, hsettles⟩ := settleCapture_ok hsettle
      obtain ⟨hstep, hans⟩ := hsettles.takings (ordersKept_reach h.reach)
        h.sound ho hback.madeFor ht
      have hrun : (Op.settleCapture r.order r.payment mint at_).run w.db =
          some db := toOption_eq_some.2 hsettle
      have hkept := h.moved hrun hstep
      refine ⟨hkept.reach, hkept.sound, hkept.read, hkept.reports, ?_⟩
      intro s hs
      rcases List.mem_cons.1 hs with rfl | hs
      · exact ⟨hkept.reports r hr, hans⟩
      · exact hkept.settled s hs

/-- Before anything happens the books are empty. -/
theorem sound_fresh (rows : MasterRows) :
    (takingsOf Table.empty (Db.fresh rows)).Sound where
  billed x p b hx := by
    cases (Table.look_empty QrOrderRow.standing x).symm.trans hx
  refused x p hx := by
    cases (Table.look_empty QrOrderRow.standing x).symm.trans hx
  bills b x m v hb := by
    cases (Table.look_empty BillRow.raised b).symm.trans hb
  refunds r hr := absurd hr List.not_mem_nil
  once := List.nodup_nil

theorem booksKept_reach {w : Checkout} (h : checkout.Reach w) :
    BooksKept w := by
  refine h.invariant ?_ fun w e w' _ hi hs => booksKept_step hi hs
  rintro w ⟨rows, rfl⟩
  exact ⟨.init ⟨rows, rfl⟩, sound_fresh rows,
    fun _ hx => absurd hx List.not_mem_nil,
    fun _ hr => absurd hr List.not_mem_nil,
    fun _ hs => absurd hs List.not_mem_nil⟩

/-! ## What the tables say -/

def BilledFor (db : Db) (oid pid no : String) (b : BillRow) : Prop :=
  ∃ o, db.qrOrders.get? oid = some o ∧ o.rzpPaymentId = some pid ∧
    o.billNo = some no ∧ db.bills.get? no = some b ∧ b.qrOrderId = some oid

/-- Every payment is accounted for once. -/
structure CapturesAccounted (w : Checkout) : Prop where
  /-- An order has at most one bill. -/
  one_bill : ∀ no no' b b' oid, w.db.bills.get? no = some b →
    w.db.bills.get? no' = some b' → b.qrOrderId = some oid →
    b'.qrOrderId = some oid → no = no'
  /-- A settled capture is the one its order was billed for, or has exactly
  one refund row, for all of it. -/
  answered : ∀ oid p, (oid, p) ∈ w.settled →
    (∃ no b, BilledFor w.db oid p.id no b) ∨
    ∃ rid r, w.db.refunds.get? rid = some r ∧ r.paymentId = p.id ∧
      r.amount = p.amount ∧ ∀ rid' r', w.db.refunds.get? rid' = some r' →
        r'.paymentId = p.id → rid' = rid
  /-- The payment a bill was raised for was captured, for what the bill comes
  to, and goes back only with the bill, for the bill's total. -/
  own_payment : ∀ oid pid no b, BilledFor w.db oid pid no b →
    (∃ e, w.gateway.get? pid = some e ∧ e.captured = true ∧
      b.total = e.amount) ∧
    ∀ rid r, w.db.refunds.get? rid = some r → r.paymentId = pid →
      b.voided.isSome = true ∧ r.amount = b.total
  /-- No payment has two refund rows. -/
  once : ∀ rid rid' r r', w.db.refunds.get? rid = some r →
    w.db.refunds.get? rid' = some r' → r.paymentId = r'.paymentId → rid = rid'

theorem mem_refundsDue {db : Db} {rid : String} {r : RefundRow}
    (h : db.refunds.get? rid = some r) : r.due ∈ refundsDue db :=
  List.mem_map.2 ⟨(rid, r.due),
    Table.mem_view.2 ⟨r, Table.get?_eq_some.1 h, rfl⟩, rfl⟩

theorem refund_row_unique {db : Db}
    (h : ((refundsDue db).map Refund.payment).Nodup) {rid rid' : String}
    {r r' : RefundRow} (hr : db.refunds.get? rid = some r)
    (hr' : db.refunds.get? rid' = some r')
    (heq : r.paymentId = r'.paymentId) : rid = rid' := by
  have hn : (db.refunds.rows.map fun x => x.2.paymentId).Nodup := by
    unfold refundsDue Table.view at h
    rw [List.map_map, List.map_map] at h
    exact h
  have hmem := Table.get?_eq_some.1 hr
  have hmem' := Table.get?_eq_some.1 hr'
  have hpair := List.inj_on_of_nodup_map hn hmem hmem' heq
  exact congrArg Prod.fst hpair

theorem BooksKept.accounted {w : Checkout} (h : BooksKept w) :
    CapturesAccounted w := by
  have hsound := h.sound
  have hbilled {oid pid no : String} {b : BillRow}
      (hb : BilledFor w.db oid pid no b) :
      (takingsOf w.gateway w.db).orders oid = some (.billed pid no) := by
    obtain ⟨o, ho, hpid, hno, -, -⟩ := hb
    refine (Table.look_of_get? ho QrOrderRow.standing).trans ?_
    unfold QrOrderRow.standing
    rw [hpid, hno]
  have hraised {no oid : String} {b : BillRow}
      (hb : w.db.bills.get? no = some b) (hq : b.qrOrderId = some oid) :
      (takingsOf w.gateway w.db).bills no =
        some ⟨some oid, b.total, b.voided.isSome⟩ := by
    refine (Table.look_of_get? hb BillRow.raised).trans ?_
    rw [BillRow.raised, hq]
  refine ⟨?_, ?_, ?_, fun rid rid' r r' hr hr' heq =>
    refund_row_unique hsound.once hr hr' heq⟩
  · intro no no' b b' oid hb hb' hq hq'
    exact hsound.one_bill (hraised hb hq) (hraised hb' hq')
  · intro oid p hs
    obtain ⟨hback, hans⟩ := h.settled _ hs
    rcases hsound.accounted hback.madeFor hans with
      ⟨no, v, hx, hb⟩ | ⟨due, hr, hoid, hpid, hm⟩
    · obtain ⟨o, ho, hstanding⟩ := Table.look_eq_some.1 hx
      obtain ⟨b, hb, hraise⟩ := Table.look_eq_some.1 hb
      refine .inl ⟨no, b, o, ho, ?_⟩
      have hq : b.qrOrderId = some oid := congrArg Raised.order hraise
      unfold QrOrderRow.standing at hstanding
      split at hstanding
      · cases hstanding
      · next hpid hno =>
          cases hstanding
          exact ⟨hpid, hno, hb, hq⟩
      · cases hstanding
    · obtain ⟨x, hx, rfl⟩ := List.mem_map.1 hr
      obtain ⟨r, hrow, hdue⟩ := Table.mem_view.1 hx
      have hget := Table.get?_eq_some.2 hrow
      have hrp : r.paymentId = p.id := (congrArg Refund.payment hdue).trans hpid
      refine .inr ⟨x.1, r, hget, hrp, (congrArg Refund.amount hdue).trans hm,
        fun rid' r' hr' hrp' => ?_⟩
      exact refund_row_unique hsound.once hr' hget (hrp'.trans hrp.symm)
  · intro oid pid no b hb
    obtain ⟨htaken, m, v, hmade, hbill, hstands⟩ :=
      hsound.billed oid pid no (hbilled hb)
    obtain ⟨o, ho, hpid, hno, hrow, hq⟩ := hb
    cases (hraised hrow hq).symm.trans hbill
    obtain ⟨e, o', he, hamount, -⟩ := madeFor_some hmade
    obtain ⟨e', he', hcap⟩ := (Option.any_eq_true _ _).1 htaken
    cases he.symm.trans he'
    refine ⟨⟨e, he, hcap, hamount⟩, fun rid r hr hrp => ?_⟩
    have hdue := mem_refundsDue hr
    refine ⟨hstands r.due hdue hrp, ?_⟩
    have hmade' : (takingsOf w.gateway w.db).madeFor r.due.payment =
        some (oid, b.total) := by
      rw [show r.due.payment = pid from hrp]
      exact hmade
    exact (hsound.refund_eq hdue hmade').2

/-- In every state the server and the gateway can reach together, whatever the
channels report and in whatever order, every capture that was settled is
accounted for once. -/
theorem captures_accounted {w : Checkout} (h : checkout.Reach w) :
    CapturesAccounted w := (booksKept_reach h).accounted

/-- Two cartons ordered off the poster, paid for twice: one webhook and one
reconcile pass, and the first said again. -/
def paidTwice : List Checkout.Event :=
  let p (id : String) : GatewayPayment :=
    ⟨id, some "order_1", 10000, "INR", .captured⟩
  [.service (.createAdjustment ⟨"u1", STORE, true⟩
      ⟨"cafe", .count, "", [⟨"milk", 5⟩]⟩ 0),
   .service (.placeOrder ⟨⟨500000⟩, 15, 5⟩ "poster"
      (guestOrder 2 (by decide) (by decide)) ⟨"digest", "nonce", "10.0.0.1"⟩ 0),
   .service (.setRzpOrder "QO-1970-0001" "order_1"),
   .pay "pay_1" ⟨"order_1", 10000, "INR", false⟩,
   .pay "pay_2" ⟨"order_1", 10000, "INR", false⟩,
   .capture "pay_1", .capture "pay_2",
   .webhook (p "pay_1"), .webhook (p "pay_2"),
   .settle ⟨"QO-1970-0001", ⟨10000⟩, p "pay_1"⟩ (some "s1") 0,
   .settle ⟨"QO-1970-0001", ⟨10000⟩, p "pay_2"⟩ none 0,
   .settle ⟨"QO-1970-0001", ⟨10000⟩, p "pay_1"⟩ none 0]

theorem captures_accounted_twice : ∃ w,
    checkout.run ⟨Db.fresh corner, Table.empty, [], [], []⟩ paidTwice = some w ∧
      w.settled.length = 3 ∧ w.db.refunds.rows.length = 1 ∧
      CapturesAccounted w := by
  have hany : (checkout.run ⟨Db.fresh corner, Table.empty, [], [], []⟩
      paidTwice).any (fun w => decide (w.settled.length = 3 ∧
        w.db.refunds.rows.length = 1)) = true := by
    decide +kernel
  obtain ⟨w, hrun, hd⟩ := (Option.any_eq_true _ _).1 hany
  obtain ⟨hs, hr⟩ := of_decide_eq_true hd
  exact ⟨w, hrun, hs, hr,
    captures_accounted (Machine.reach_run (.init ⟨corner, rfl⟩) hrun)⟩

end Rch
