import Rch.Machine.Window
import Rch.Proofs.TicketJourney

/-!
# Five wrong codes

Whatever the scans do beside one another, the committed state is one the server
reaches with its handovers end to end: a scan decides on the row it locked, and
a locked row stays as it was read. So what the server keeps of a ticket's
journey holds here too, and all that is left to count is codes and hand-overs.
`Window.Kept` is that count: a ticket's own number is how many wrong codes were
committed against it, and its status is how often it was handed over.
-/

namespace Rch

open Kit

/-! ## What a scan decides -/

/-- A scan that gets past the checks found the ticket issued, with an attempt
left. A wrong code is counted and nothing else; the right one collects. -/
theorem handoverFrom_ok {db db' : Db} {t : TicketRow} {claims : Claims}
    {id : String} {body : HandoverBody} {at_ : Instant} {e : Option String}
    (h : handoverFrom db t claims id body at_ = .ok (db', e)) :
    t.st = .issued ∧ t.otpAttempts < OTP_ATTEMPTS ∧
      (body.otp ≠ t.otp ∧ db' = countWrongOtp db id ∧ e.isSome = true ∨
        body.otp = t.otp ∧ e = none ∧
          db'.tickets = db.tickets.modify id fun t =>
            { t with st := .collected, collectedAt := some at_ }) := by
  unfold handoverFrom at h
  simp only [bind_ok, assertRule_ok, requireLocOf_ok, assertTransition_ok,
    assertEach_ok, exists_const, pure_ok, ite_eq_iff, Prod.mk.injEq] at h
  obtain ⟨-, hst, hleft, h⟩ := h
  refine ⟨?_, hleft, ?_⟩
  · cases hs : t.st <;> simp [hs, ticketTransitions] at hst ⊢
  rcases h with ⟨hwrong, hdb, he⟩ | ⟨hright, -, hdb, he⟩
  · exact .inl ⟨hwrong, hdb.symm, he ▸ rfl⟩
  · refine .inr ⟨not_not.1 hright, he.symm, ?_⟩
    rw [← hdb]
    split
    · split <;> rfl
    · rfl

/-- The marker of a refused scan is no answer of the route. -/
theorem writeResponse_refuse (ticket : Json → Except String Json) (s : String) :
    (writeResponse ticket (.obj [("refuse", .str s)])).toOption = none := rfl

/-- A scan that counted a wrong code: the count stands if COMMIT went through,
whatever became of the record, and the caller reads a refusal. -/
theorem serveScan_wrong (ticket : Json → Except String Json) (db : Db)
    (s : String) (p : Passage) :
    (serveScan ticket (.ok (db, some s)) p).committed =
        p.commit.toOption.isSome ∧
      (p.commit.toOption.isSome = true →
        (serveScan ticket (.ok (db, some s)) p).reply.status =
          ErrorCode.rule.status) := by
  unfold serveScan serve handle scanHandler
  simp only [runTxs, withTransaction, runTx, scanTx, handoverRoute,
    writeResponse_refuse, Option.isNone_none, Bool.and_self, if_true]
  cases p.commit with
  | ok u => exact ⟨rfl, fun _ => rfl⟩
  | error e => exact ⟨rfl, fun h => nomatch h⟩

/-! ## What every other operation does to a ticket -/

def TktStatus.left : TktStatus → Bool
  | .collected | .received => true
  | _ => false

/-- No code counted and nothing handed over. -/
inductive Unscanned (t t' : Table String TicketRow) : Prop
  | same (h : t' = t)
  | written {id : String} {draft : TicketDraft} {otp : String}
      (h : t.insert? id (newTicket draft otp) = some t')
  | moved {id : String} {row : TicketRow} {f : TicketRow → TicketRow}
      (hid : t.get? id = some row) (h : t' = t.modify id f)
      (hcount : (f row).otpAttempts = row.otpAttempts)
      (hleft : (f row).st.left = row.st.left)

theorem Sent.unscanned {db db' : Db} {draft : TicketDraft} {no : TicketNumber}
    (h : Sent db draft no db') : Unscanned db.tickets db'.tickets := by
  obtain ⟨cells, hw⟩ := h.wrote
  exact .written hw.tickets

theorem Op.unscanned {op : Op} {db db' : Db} (h : op.run db = some db')
    (hop : Window.isHandover op = false) (hk : LinesKept db) :
    Unscanned db.tickets db'.tickets := by
  by_cases hp : .tickets ∈ op.touches
  case neg => exact .same (op.frame h hp)
  cases op <;> simp only [Op.run, toOption_eq_some, map_ok, Op.touches,
    List.mem_cons, List.not_mem_nil, or_false, or_self, reduceCtorEq,
    Window.isHandover] at h hp hop
  case receive =>
    obtain ⟨t, ht, hst, rfl⟩ := receive_ok h
    refine .moved (f := fun t =>
      { t with st := .received, receivedAt := some _ }) ht rfl rfl ?_
    rw [hst]
    rfl
  case cancelTicket =>
    obtain ⟨t, ht, hst, hr⟩ := cancelTicket_ok h
    refine .moved (f := fun t => { t with st := .cancelled }) ht
      (hr.same .tickets (by decide) (by decide)) rfl ?_
    rw [hst]
    rfl
  case transfer =>
    obtain ⟨draft, no, -, -, hs⟩ := transfer_ok h
    exact hs.unscanned
  case distribute =>
    obtain ⟨draft, no, -, -, hs⟩ := distribute_ok h
    exact hs.unscanned
  case redirectRequest =>
    obtain ⟨r, draft, no, db₁, hr, -, -, -, -, hs, rfl⟩ := redirectRequest_ok h
    exact (hs (hk.requests _ r hr)).unscanned
  case issueRequest =>
    obtain ⟨r, draft, no, db₁, -, -, -, -, hs, rfl⟩ := issueRequest_ok h
    exact hs.unscanned
  case dispatchOrder =>
    obtain ⟨o, draft, no, db₁, -, -, -, hs, rfl⟩ := dispatchOrder_ok h
    exact hs.unscanned
  case answerShopAsk =>
    obtain ⟨a, draft, no, db₁, -, -, -, hs, rfl⟩ := answerShopAsk_ok h
    exact hs.unscanned

/-! ## The count -/

namespace Window

def countedOn (w : Window) (id : String) : ℕ :=
  w.counted.countP fun c => decide (c.id = id)

def handedOn (w : Window) (id : String) : ℕ := w.handed.count id

/-- What a ticket's row says of the codes and the hand-overs. -/
def RowTells (row : Option TicketRow) (counted handed : ℕ) : Prop :=
  match row with
  | none => counted = 0 ∧ handed = 0
  | some t => t.otpAttempts = counted ∧ counted ≤ OTP_ATTEMPTS ∧
      handed = if t.st.left then 1 else 0

def Holds (w : Window) (i : ℕ) (a : Attempt) (t : TicketRow) : Prop :=
  w.scans.get? i = some (.holding a t)

structure Kept (w : Window) : Prop where
  served : server.Reach w.db
  held : ∀ i a t, w.Holds i a t → w.db.tickets.get? a.id = some t
  alone : ∀ i j a b t u, w.Holds i a t → w.Holds j b u → a.id = b.id → i = j
  tells : ∀ id, RowTells (w.db.tickets.get? id) (w.countedOn id) (w.handedOn id)
  refused : ∀ c ∈ w.counted, c.reply.status = ErrorCode.rule.status

theorem mem_locked {w : Window} {id : String} :
    id ∈ w.locked ↔ ∃ i a t, w.Holds i a t ∧ a.id = id := by
  unfold locked Holds
  rw [List.mem_filterMap]
  constructor
  · rintro ⟨⟨i, s⟩, hmem, hs⟩
    cases s with
    | holding a t =>
        exact ⟨i, a, t, Table.get?_eq_some.2 hmem, Option.some.inj hs⟩
    | waiting a => cases hs
    | gone => cases hs
  · rintro ⟨i, a, t, hi, rfl⟩
    exact ⟨_, Table.get?_eq_some.1 hi, rfl⟩

/-- A scan that moves on to where it holds nothing leaves the others' locks. -/
theorem holds_leave {w : Window} {i j : ℕ} {s : Scan} {a : Attempt}
    {t : TicketRow} (h : (w.leave i s).Holds j a t) :
    j = i ∧ s = .holding a t ∨ j ≠ i ∧ w.Holds j a t := by
  unfold Holds leave at h
  rw [Table.get?_modify] at h
  split at h
  · next hij =>
      obtain ⟨_, -, hs⟩ := Option.map_eq_some_iff.1 h
      exact .inl ⟨hij, hs⟩
  · next hij => exact .inr ⟨hij, h⟩

theorem RowTells.unscanned {t t' : Table String TicketRow}
    (h : Unscanned t t') {id : String} {counted handed : ℕ}
    (hs : RowTells (t.get? id) counted handed) :
    RowTells (t'.get? id) counted handed := by
  cases h with
  | same h => exact h ▸ hs
  | @written no draft otp h =>
      rw [Table.get?_insert h]
      split
      · next hid =>
          subst hid
          rw [(Table.insert?_eq_some h).1] at hs
          exact ⟨hs.1.symm, hs.1 ▸ Nat.zero_le _, hs.2⟩
      · exact hs
  | @moved no row f hid h hcount hleft =>
      rw [h, Table.get?_modify]
      split
      · next heq =>
          subst heq
          rw [hid] at hs ⊢
          exact ⟨hcount.trans hs.1, hs.2.1, hleft ▸ hs.2.2⟩
      · exact hs

/-! ## One step -/

variable {ticket : Json → Except String Json} {w w' : Window}

/-- What the scans hold, and what is noted, depends on none of the rest. -/
theorem Kept.moved (h : w.Kept) {i : ℕ} {s : Scan}
    (hs : ∀ a t, s = .holding a t →
      w.db.tickets.get? a.id = some t ∧ a.id ∉ w.locked) :
    (w.leave i s).Kept where
  served := h.served
  held j a t hj := by
    rcases holds_leave hj with ⟨-, hst⟩ | ⟨-, hj⟩
    · exact (hs a t hst).1
    · exact h.held j a t hj
  alone j k a b t u hj hk hid := by
    rcases holds_leave hj with ⟨hji, hst⟩ | ⟨hji, hj₀⟩
    · rcases holds_leave hk with ⟨hki, -⟩ | ⟨-, hk₀⟩
      · exact hji.trans hki.symm
      · exact absurd (mem_locked.2 ⟨k, b, u, hk₀, hid.symm⟩) (hs a t hst).2
    · rcases holds_leave hk with ⟨-, hst⟩ | ⟨-, hk₀⟩
      · exact absurd (mem_locked.2 ⟨j, a, t, hj₀, hid⟩) (hs b u hst).2
      · exact h.alone j k a b t u hj₀ hk₀ hid
  tells := h.tells
  refused := h.refused

theorem Kept.arrive (h : w.Kept) {i : ℕ} {a : Attempt} {scans : Table ℕ Scan}
    (hi : w.scans.insert? i (.waiting a) = some scans) :
    Kept { w with scans := scans } := by
  have hold : ∀ j b t, Holds { w with scans := scans } j b t →
      w.Holds j b t := by
    intro j b t hj
    unfold Holds at hj
    rw [Table.get?_insert hi] at hj
    split at hj
    · cases hj
    · exact hj
  exact ⟨h.served, fun j b t hj => h.held j b t (hold j b t hj),
    fun j k b c t u hj hk => h.alone j k b c t u (hold j b t hj) (hold k c u hk),
    h.tells, h.refused⟩

theorem Kept.otherwise (h : w.Kept) {op : Op}
    (ho : w.otherwise op = some w') : w'.Kept := by
  unfold Window.otherwise at ho
  split at ho
  · cases ho
  next hop =>
    obtain ⟨db, hdb, ho⟩ := Option.bind_eq_some_iff.1 ho
    split at ho
    case isFalse => cases ho
    next hall =>
      cases ho
      have hun := Op.unscanned hdb (Bool.eq_false_iff.2 hop)
        (linesKept_reach h.served)
      refine ⟨h.served.step hdb, fun i a t hi => ?_, h.alone,
        fun id => (h.tells id).unscanned hun, h.refused⟩
      have hsame := List.all_eq_true.1 hall a.id (mem_locked.2 ⟨i, a, t, hi, rfl⟩)
      exact (of_decide_eq_true hsame).trans (h.held i a t hi)

/-- A scan that ends in a commit is a hand-over of the server, whatever ran
between its lock and its end. -/
theorem Kept.serial (h : w.Kept) {i : ℕ} {a : Attempt} {t : TicketRow}
    (hi : w.Holds i a t) :
    handoverFrom w.db t a.claims a.id a.body a.at_ =
      handover w.db a.claims a.id a.body a.at_ :=
  (handover_eq (h.held i a t hi) a.claims a.body a.at_).symm

/-- Where a scan's end leaves the window, the scan itself apart: it was refused
or did not commit, it counted a wrong code, or it handed the stock over. -/
inductive Ended (w : Window) (a : Attempt) (t : TicketRow) (w' : Window) : Prop
  | nothing (h : w' = w)
  | counted {r : Reply} (hst : t.st = .issued) (hleft : t.otpAttempts < OTP_ATTEMPTS)
      (hwrong : a.body.otp ≠ t.otp) (hreply : r.status = ErrorCode.rule.status)
      (h : w' = { w with
        db := countWrongOtp w.db a.id, counted := ⟨a.id, r⟩ :: w.counted })
  | handed {db : Db} (hst : t.st = .issued) (hleft : t.otpAttempts < OTP_ATTEMPTS)
      (hright : a.body.otp = t.otp)
      (htickets : db.tickets = w.db.tickets.modify a.id fun t =>
        { t with st := .collected, collectedAt := some a.at_ })
      (h : w' = { w with db := db, handed := a.id :: w.handed })

theorem Kept.ended (ticket : Json → Except String Json) (h : w.Kept) {i : ℕ}
    {a : Attempt} {t : TicketRow} (hi : w.Holds i a t) (p : Passage) :
    let done := handoverFrom w.db t a.claims a.id a.body a.at_
    Ended w a t (w.settle a done (serveScan ticket done p)) ∧
      server.Reach (w.settle a done (serveScan ticket done p)).db := by
  intro done
  cases hdone : done with
  | error e => exact ⟨.nothing rfl, h.served⟩
  | ok r =>
    obtain ⟨db, sentence⟩ := r
    have hover : handover w.db a.claims a.id a.body a.at_ =
        .ok (db, sentence) := (h.serial hi).symm.trans hdone
    obtain ⟨hst, hleft, hcode⟩ := handoverFrom_ok hdone
    have hstep : server.step w.db (.handover a.claims a.id a.body a.at_) =
        some db := by
      change (Prod.fst <$> handover w.db a.claims a.id a.body a.at_).toOption = _
      rw [hover]
      rfl
    by_cases hcommit : (serveScan ticket (.ok (db, sentence)) p).committed = true
    case neg =>
      unfold settle
      dsimp only
      rw [if_neg hcommit]
      exact ⟨.nothing rfl, h.served⟩
    unfold settle
    dsimp only
    rw [if_pos hcommit]
    rcases hcode with ⟨hwrong, rfl, hsome⟩ | ⟨hright, rfl, ht⟩
    · obtain ⟨s, rfl⟩ := Option.isSome_iff_exists.1 hsome
      obtain ⟨hc, hr⟩ :=
        serveScan_wrong ticket (countWrongOtp w.db a.id) s p
      exact ⟨.counted hst hleft hwrong (hr (hc.symm.trans hcommit)) rfl,
        h.served.step hstep⟩
    · exact ⟨.handed hst hleft hright ht rfl, h.served.step hstep⟩

/-- The notes agree with the row after a scan's end as before it. -/
theorem Kept.tells_ended (h : w.Kept) {a : Attempt} {t : TicketRow}
    (ht : w.db.tickets.get? a.id = some t) (he : Ended w a t w') (id : String) :
    RowTells (w'.db.tickets.get? id) (w'.countedOn id) (w'.handedOn id) := by
  have hrow := h.tells id
  cases he with
  | nothing h => exact h ▸ hrow
  | @counted r hst hleft _ _ hw =>
      subst hw
      change RowTells ((w.db.tickets.modify a.id _).get? id)
        (List.countP _ (_ :: w.counted)) (w.handedOn id)
      rw [Table.get?_modify, List.countP_cons]
      split
      · next hid =>
          subst hid
          rw [ht] at hrow ⊢
          obtain ⟨hcount, -, hhanded⟩ := hrow
          rw [decide_eq_true rfl, if_pos rfl]
          refine ⟨congrArg (· + 1) hcount, ?_, hhanded⟩
          have hfew : w.countedOn a.id < OTP_ATTEMPTS := hcount ▸ hleft
          exact hfew
      · next hid =>
          rw [if_neg fun hd => hid (of_decide_eq_true hd).symm]
          exact hrow
  | @handed db hst hleft _ htickets hw =>
      subst hw
      change RowTells (db.tickets.get? id) (w.countedOn id)
        (List.count id (a.id :: w.handed))
      rw [htickets, Table.get?_modify, List.count_cons]
      split
      · next hid =>
          subst hid
          rw [ht] at hrow ⊢
          obtain ⟨hcount, hbound, hhanded⟩ := hrow
          rw [hst] at hhanded
          refine ⟨hcount, hbound, ?_⟩
          rw [beq_self_eq_true, if_pos rfl]
          exact congrArg (· + 1) hhanded
      · next hid =>
          rw [if_neg fun hd => hid (eq_of_beq hd).symm]
          exact hrow

theorem Ended.rows {a : Attempt} {t : TicketRow} (he : Ended w a t w')
    {id : String} (hid : id ≠ a.id) :
    w'.db.tickets.get? id = w.db.tickets.get? id := by
  cases he with
  | nothing h => rw [h]
  | counted _ _ _ _ h =>
      rw [h]
      exact Table.get?_modify_ne _ _ hid
  | handed _ _ _ htickets h =>
      rw [h]
      exact htickets ▸ Table.get?_modify_ne _ _ hid

theorem Ended.scans {a : Attempt} {t : TicketRow} (he : Ended w a t w') :
    w'.scans = w.scans := by
  cases he <;> next h => rw [h]

theorem Kept.finish (h : w.Kept) {i : ℕ} {a : Attempt} {t : TicketRow}
    (hi : w.Holds i a t) (he : Ended w a t w') (hr : server.Reach w'.db) :
    (w'.leave i .gone).Kept := by
  have hheld : ∀ j b u, (w'.leave i .gone).Holds j b u →
      j ≠ i ∧ w.Holds j b u := by
    intro j b u hj
    rcases holds_leave hj with ⟨-, hs⟩ | ⟨hji, hj⟩
    · cases hs
    · unfold Holds at hj
      rw [he.scans] at hj
      exact ⟨hji, hj⟩
  have htells := h.tells_ended (h.held i a t hi) he
  refine ⟨hr, fun j b u hj => ?_, fun j k b c u v hj hk hid => ?_, htells, ?_⟩
  · obtain ⟨hji, hj⟩ := hheld j b u hj
    -- No other scan holds the row this one wrote.
    have hid : b.id ≠ a.id := fun hid => hji (h.alone j i b a u t hj hi hid)
    exact (he.rows hid).trans (h.held j b u hj)
  · exact h.alone j k b c u v (hheld j b u hj).2 (hheld k c v hk).2 hid
  · cases he with
    | nothing h' => exact h' ▸ h.refused
    | counted _ _ _ hreply h' =>
        subst h'
        exact List.forall_mem_cons.2 ⟨hreply, h.refused⟩
    | handed _ _ _ _ h' =>
        subst h'
        exact h.refused

theorem Kept.step (h : w.Kept) {e : Event}
    (he : Window.step ticket w e = some w') : w'.Kept := by
  cases e with
  | arrive i a =>
      obtain ⟨scans, hi, rfl⟩ := Option.map_eq_some_iff.1 he
      exact h.arrive hi
  | lock i =>
      simp only [Window.step] at he
      split at he
      case h_2 => cases he
      next a ha =>
      split at he
      · cases he
        refine h.moved fun b u hb => ?_
        cases hb
      next t ht =>
      split at he
      · cases he
      next hfree =>
      cases he
      refine h.moved fun b u hb => ?_
      cases hb
      exact ⟨ht, hfree⟩
  | finish i p =>
      simp only [Window.step] at he
      split at he
      case h_2 => cases he
      next a t hi =>
      cases he
      obtain ⟨hend, hr⟩ := h.ended ticket hi p
      exact h.finish hi hend hr
  | crash i =>
      cases he
      refine h.moved fun b u hb => ?_
      cases hb
  | other op => exact h.otherwise he

theorem kept_reach (h : (machine ticket).Reach w) : w.Kept := by
  refine h.invariant ?_ fun w e w' _ hk he => hk.step he
  rintro ⟨db, scans, counted, handed⟩ ⟨hdb, hscans, hcounted, hhanded⟩
  subst hscans hcounted hhanded
  refine ⟨.init hdb, ?_, ?_, fun id => ?_, ?_⟩
  · intro i a t hi
    cases hi
  · intro i j a b t u hi
    cases hi
  · obtain ⟨rows, rfl⟩ := hdb
    exact ⟨rfl, rfl⟩
  · intro c hc
    cases hc

/-! ## What later steps leave of a ticket -/

/-- The ticket is still there, its count is no smaller, and if it was shut it
has not been handed over since. -/
structure Since (id : String) (w w' : Window) : Prop where
  there : (w.db.tickets.get? id).isSome = true →
    (w'.db.tickets.get? id).isSome = true
  counted : w.countedOn id ≤ w'.countedOn id
  shut : w.countedOn id = OTP_ATTEMPTS → w'.handedOn id = w.handedOn id

theorem Since.refl (id : String) (w : Window) : Since id w w :=
  ⟨fun h => h, Nat.le_refl _, fun _ => rfl⟩

/-- Nothing noted, and no ticket removed. -/
theorem Since.quiet {id : String} (hc : w'.counted = w.counted)
    (hh : w'.handed = w.handed)
    (ht : (w.db.tickets.get? id).isSome = true →
      (w'.db.tickets.get? id).isSome = true) : Since id w w' := by
  refine ⟨ht, ?_, fun _ => ?_⟩
  · rw [countedOn, countedOn, hc]
  · rw [handedOn, handedOn, hh]

theorem isSome_unscanned {t t' : Table String TicketRow} (h : Unscanned t t')
    {id : String} (hid : (t.get? id).isSome = true) :
    (t'.get? id).isSome = true := by
  cases h with
  | same h => exact h ▸ hid
  | written h =>
      rw [Table.get?_insert h]
      split
      · rfl
      · exact hid
  | moved _ h _ _ =>
      rw [h, Table.isSome_modify]
      exact hid

theorem Ended.since {a : Attempt} {t : TicketRow} (h : w.Kept)
    (ht : w.db.tickets.get? a.id = some t) (he : Ended w a t w') (id : String) :
    Since id w w' := by
  have hthere : ∀ f, (w.db.tickets.get? id).isSome = true →
      ((w.db.tickets.modify a.id f).get? id).isSome = true := by
    intro f hid
    rw [Table.isSome_modify]
    exact hid
  cases he with
  | nothing h => exact h ▸ .refl id w
  | counted _ _ _ _ hw =>
      subst hw
      refine ⟨hthere _, ?_, fun _ => rfl⟩
      change w.countedOn id ≤ List.countP _ (_ :: w.counted)
      rw [List.countP_cons]
      exact Nat.le_add_right _ _
  | handed _ hleft _ htickets hw =>
      subst hw
      refine ⟨fun hid => htickets ▸ hthere _ hid, Nat.le_refl _, fun hshut => ?_⟩
      -- A ticket handed over had an attempt left, so this is another one.
      have hother : a.id ≠ id := by
        rintro rfl
        have hrow := h.tells a.id
        rw [ht] at hrow
        exact absurd (hrow.1.trans hshut) (Nat.ne_of_lt hleft)
      exact List.count_cons_of_ne hother

theorem Kept.since (h : w.Kept) {e : Event}
    (he : Window.step ticket w e = some w') (id : String) : Since id w w' := by
  cases e with
  | arrive i a =>
      obtain ⟨scans, -, rfl⟩ := Option.map_eq_some_iff.1 he
      exact .quiet rfl rfl fun hid => hid
  | lock i =>
      simp only [Window.step] at he
      split at he
      case h_2 => cases he
      split at he
      · cases he
        exact .quiet rfl rfl fun hid => hid
      split at he
      · cases he
      cases he
      exact .quiet rfl rfl fun hid => hid
  | finish i p =>
      simp only [Window.step] at he
      split at he
      case h_2 => cases he
      next a t hi =>
      cases he
      have hsince := (h.ended ticket hi p).1.since h
        (h.held i a t hi) id
      exact ⟨hsince.there, hsince.counted, hsince.shut⟩
  | crash i =>
      cases he
      exact .quiet rfl rfl fun hid => hid
  | other op =>
      simp only [Window.step] at he
      unfold Window.otherwise at he
      split at he
      · cases he
      next hop =>
      obtain ⟨db, hdb, ho⟩ := Option.bind_eq_some_iff.1 he
      split at ho
      case isFalse => cases ho
      cases ho
      exact .quiet rfl rfl (isSome_unscanned (Op.unscanned hdb
        (Bool.eq_false_iff.2 hop) (linesKept_reach h.served)))

theorem Since.trans {id : String} {w'' : Window} (h : Since id w w')
    (h' : Since id w' w'') (hk : w'.countedOn id ≤ OTP_ATTEMPTS) :
    Since id w w'' where
  there hid := h'.there (h.there hid)
  counted := h.counted.trans h'.counted
  shut hshut :=
    (h'.shut (Nat.le_antisymm hk (hshut ▸ h.counted))).trans (h.shut hshut)

theorem Kept.bound (h : w.Kept) (id : String) :
    w.countedOn id ≤ OTP_ATTEMPTS := by
  have hrow := h.tells id
  cases ht : w.db.tickets.get? id with
  | none =>
      rw [ht] at hrow
      exact hrow.1 ▸ Nat.zero_le _
  | some t =>
      rw [ht] at hrow
      exact hrow.2.1

theorem Kept.run (h : w.Kept) {es : List Event}
    (hr : (machine ticket).run w es = some w') (id : String) :
    w'.Kept ∧ Since id w w' := by
  induction es generalizing w with
  | nil =>
      cases hr
      exact ⟨h, .refl id _⟩
  | cons e es ih =>
      obtain ⟨w₁, he, hr⟩ := Option.bind_eq_some_iff.1 hr
      have h₁ : w₁.Kept := h.step he
      obtain ⟨hk, hs⟩ := ih h₁ hr
      exact ⟨hk, (h.since he id).trans hs (h₁.bound id)⟩

end Window

/-! ## The ticket is shut -/

/-- Five wrong codes and the ticket is shut, whatever runs beside it. As many
wrong codes as the ticket's row shows were committed, five at most, and each
caller was refused. The stock left once at most, and not at all where nothing
was handed over. However the run goes on, the count stays, and a ticket that
counts five is not handed over again. And the end of a scan with a wrong code
leaves the database as it was, or one code further. -/
theorem five_wrong_codes {ticket : Json → Except String Json} {w : Window}
    (h : (Window.machine ticket).Reach w) {id : String} {t : TicketRow}
    (ht : w.db.tickets.get? id = some t) :
    (t.otpAttempts = w.countedOn id ∧ w.countedOn id ≤ OTP_ATTEMPTS ∧
      ∀ c ∈ w.counted, c.reply.status = ErrorCode.rule.status) ∧
    (w.handedOn id ≤ 1 ∧ w.db.stock.left id =
      if w.handedOn id = 1 then t.linesAt t.from_ fun q => -q else []) ∧
    (∀ es w', (Window.machine ticket).run w es = some w' →
      ∃ t', w'.db.tickets.get? id = some t' ∧
        t.otpAttempts ≤ t'.otpAttempts ∧
        (t.otpAttempts = OTP_ATTEMPTS → w'.handedOn id = w.handedOn id)) ∧
    (∀ i a u p w', w.Holds i a u → a.id = id → a.body.otp ≠ t.otp →
      (Window.machine ticket).step w (.finish i p) = some w' →
      w'.handed = w.handed ∧
        ((∃ e, handover w.db a.claims id a.body a.at_ = .error e) ∧
            w'.db = w.db ∨
          w'.db = if p.commit.toOption.isSome then countWrongOtp w.db id
            else w.db)) := by
  have hk := Window.kept_reach h
  have hrow := hk.tells id
  rw [ht] at hrow
  obtain ⟨hcount, hbound, hhanded⟩ := hrow
  refine ⟨⟨hcount, hbound, hk.refused⟩, ⟨?_, ?_⟩, ?_, ?_⟩
  · rw [hhanded]
    split <;> decide
  · rw [(journeyKept_reach hk.served).left id, ht, hhanded]
    cases hst : t.st <;> simp [TicketRow.gone, TktStatus.left, hst]
  · intro es w' hr
    obtain ⟨hk', hs⟩ := hk.run hr id
    obtain ⟨t', ht'⟩ := Option.isSome_iff_exists.1 (hs.there (ht ▸ rfl))
    have hrow' := hk'.tells id
    rw [ht'] at hrow'
    refine ⟨t', ht', ?_, fun hfive => hs.shut (hcount.symm.trans hfive)⟩
    calc t.otpAttempts = w.countedOn id := hcount
      _ ≤ w'.countedOn id := hs.counted
      _ = t'.otpAttempts := hrow'.1.symm
  · rintro i a u p w' hi rfl hwrong hw'
    obtain rfl : u = t := Option.some.inj ((hk.held i a u hi).symm.trans ht)
    simp only [Window.machine, Window.step] at hw'
    rw [show w.scans.get? i = _ from hi] at hw'
    cases hw'
    rw [← hk.serial hi]
    cases hdone : handoverFrom w.db u a.claims a.id a.body a.at_ with
    | error e => exact ⟨rfl, .inl ⟨⟨e, rfl⟩, rfl⟩⟩
    | ok r =>
        obtain ⟨db, sentence⟩ := r
        obtain ⟨-, -, ⟨-, rfl, hsome⟩ | ⟨hright, -⟩⟩ := handoverFrom_ok hdone
        case inr => exact absurd hright hwrong
        obtain ⟨s, rfl⟩ := Option.isSome_iff_exists.1 hsome
        have hc := (serveScan_wrong ticket (countWrongOtp w.db a.id) s p).1
        unfold Window.settle
        dsimp only
        rw [hc]
        split
        · next hcommit => exact ⟨rfl, .inr rfl⟩
        · exact ⟨rfl, .inr rfl⟩

/-- A request that meets with nothing on its way, whose answer nobody could
record: its claim was taken over. -/
def smooth : Passage where
  request := ⟨"r", "", "", .null, .null, .null, some "u1"⟩
  strict := true
  at_ := ⟨fun _ => none, "", fun _ => ""⟩
  answer := .null
  claim := .ok false
  insert := .ok ()
  commit := .ok ()
  stores := true

def scanOf (i : ℕ) (body : HandoverBody) : List Window.Event :=
  [.arrive i ⟨⟨"u1", STORE, true⟩, "TKT-0441", body, 0⟩, .lock i,
   .finish i smooth]

/-- Five guesses at a milk ticket's code, and then the code itself. -/
def guesses : List Window.Event :=
  milkRun.map .other ++
    (List.range 5).flatMap (fun i => scanOf i ⟨"111111", by decide⟩) ++
    scanOf 5 ⟨"100000", by decide⟩

theorem five_wrong_codes_guessed : ∃ w t,
    (Window.machine .ok).run ⟨Db.fresh corner, .empty, [], []⟩ guesses =
        some w ∧
      w.db.tickets.get? "TKT-0441" = some t ∧ t.st = .issued ∧
      t.otpAttempts = OTP_ATTEMPTS ∧
      ∀ es w', (Window.machine .ok).run w es = some w' →
        w'.handedOn "TKT-0441" = w.handedOn "TKT-0441" := by
  have hany : ((Window.machine .ok).run ⟨Db.fresh corner, .empty, [], []⟩
      guesses).any (fun w => (w.db.tickets.get? "TKT-0441").any fun t =>
        decide (t.st = .issued ∧ t.otpAttempts = OTP_ATTEMPTS)) = true := by
    decide +kernel
  obtain ⟨w, hrun, hw⟩ := (Option.any_eq_true _ _).1 hany
  obtain ⟨t, ht, hfive⟩ := (Option.any_eq_true _ _).1 hw
  obtain ⟨hst, hfive⟩ := of_decide_eq_true hfive
  have hreach := Machine.reach_run (m := Window.machine .ok)
    (.init ⟨⟨corner, rfl⟩, rfl, rfl, rfl⟩) hrun
  refine ⟨w, t, hrun, ht, hst, hfive, fun es w' hr => ?_⟩
  obtain ⟨t', -, -, hshut⟩ := (five_wrong_codes hreach ht).2.2.1 es w' hr
  exact hshut hfive

end Rch
