import Rch.Proofs.CreditApart
import Rch.Proofs.VoidSteps

/-!
# A void is its sale backwards, once

`VoidSteps` shows that a void which commits does what the operation does at
once. What the operation does to the ledger is one reversal for each move of
the sale, and what it does to the bill is a stamp no other write takes off. The
stamp counts: there is one on the bill when one void of it was accepted and
none when none was, and while it is missing no rule of a void but its own can
refuse it.
-/

namespace Rch

open Kit

/-! ## The reversal -/

/-- A row that takes a move of the bill's sale back, and names it. -/
def Reverses (no : String) (m r : MoveRow) : Prop :=
  r.loc = m.loc ∧ r.it = m.it ∧ r.qty = -m.qty ∧ r.kind = .reversal ∧
    r.refType = "bill" ∧ r.refId = no ∧ r.reverses = some m.id

/-- What an accepted void leaves of the ledger. -/
structure Undone (db db' : Db) (no : String) : Prop where
  /-- One row for each move of the sale, in their order. -/
  moves : ∃ new, db'.stock.moves = db.stock.moves ++ new ∧
    List.Forall₂ (Reverses no) (saleMovesOf db no) new
  balances : ∀ c, db'.stock.onHand c = db.stock.onHand c -
    sumOn (saleMovesOf db no) MoveRow.cell c MoveRow.qty

/-- No row of the ledger moves nothing. -/
def MovesCount (s : Stock) : Prop := ∀ m ∈ s.moves, m.qty ≠ 0

theorem movesCount_reach {db : Db} (h : server.Reach db) :
    MovesCount db.stock := by
  refine h.invariant (I := fun db => MovesCount db.stock) ?_
    fun db op db' hr hi hs => ?_
  · rintro db ⟨rows, rfl⟩
    exact fun m hm => absurd hm List.not_mem_nil
  · obtain ⟨moves, -, hmoves⟩ := op.posts hs (linesKept_reach hr)
    obtain ⟨new, hnew, heach⟩ := postMoves_each db.stock moves
    intro m hm
    rw [hmoves, hnew] at hm
    rcases List.mem_append.1 hm with hm | hm
    · exact hi m hm
    · obtain ⟨⟨i, hi⟩, rfl⟩ := List.mem_iff_get.1 hm
      obtain ⟨hlen, heach⟩ := List.forall₂_iff_get.1 heach
      have hi' : i < (moves.filter fun m => decide (round3 m.qty ≠ 0)).length :=
        lt_of_lt_of_eq hi hlen.symm
      obtain ⟨id, hrow⟩ := heach i hi' hi
      have hne := (List.mem_filter.1 (List.getElem_mem hi')).2
      rw [hrow]
      exact of_decide_eq_true hne

theorem unsold_undone {db : Db} (hr : server.Reach db) (claims : Claims)
    (no reason : String) (at_ : Instant) :
    Undone db (unsold db claims no reason at_) no := by
  have hall : (voidMoves db no claims.sub at_).filter
      (fun m => decide (round3 m.qty ≠ 0)) = voidMoves db no claims.sub at_ := by
    refine List.filter_eq_self.2 fun m hm => decide_eq_true ?_
    obtain ⟨r, hr', rfl⟩ := List.mem_map.1 hm
    have hne := movesCount_reach hr r (List.mem_filter.1 hr').1
    rw [round3_neg_qty]
    exact neg_ne_zero.2 hne
  constructor
  · obtain ⟨new, hnew, heach⟩ :=
      postMoves_each db.stock (voidMoves db no claims.sub at_)
    rw [hall, voidMoves, reversalsOf, List.forall₂_map_left_iff] at heach
    refine ⟨new, hnew, heach.imp ?_⟩
    rintro m r ⟨id, rfl⟩
    exact ⟨rfl, rfl, round3_neg_qty m.qty, rfl, rfl, rfl, rfl⟩
  · intro c
    change (postMoves db.stock _).onHand c = _
    rw [postMoves_onHand, sub_eq_add_neg, ← sumOn_neg, batchAt, voidMoves,
      reversalsOf, sumOn_map]
    congr 2
    funext m
    exact round3_neg_qty m.qty

/-! ## Any number of voids -/

def VoidWorld.accepts (w : VoidWorld) (no : String) : VoidEvent → Bool
  | .void (.commit i) => (w.tx i).any fun x => decide (x.at_.ask.no = no)
  | _ => false

def accepted (no : String) (w : VoidWorld) : List VoidEvent → ℕ
  | [] => 0
  | e :: es =>
    (if w.accepts no e then 1 else 0) +
      match voids.step w e with
      | some w' => accepted no w' es
      | none => 0

/-- One where the bill stands voided. -/
def stamps (db : Db) (no : String) : ℕ :=
  if (db.bills.get? no).any fun b => b.voided.isSome then 1 else 0

theorem stamps_le (db : Db) (no : String) : stamps db no ≤ 1 := by
  unfold stamps
  split
  · exact le_rfl
  · exact Nat.zero_le 1

/-- What a step commits: nothing, some other write, or one void. -/
inductive VoidStep (w : VoidWorld) : VoidEvent → VoidWorld → Prop
  | still {e : VoidEvent} {w' : VoidWorld} (h : w'.committed = w.committed)
      (hn : ∀ no, w.accepts no e = false) : VoidStep w e w'
  | wrote {op : Op} {w' : VoidWorld} (hv : op.voids = none)
      (hop : op.run w.committed = some w'.committed) : VoidStep w (.other op) w'
  | voided {i : ℕ} {x : Tx Db VoidKey VoidTx} {w' : VoidWorld} {r : VoidRead}
      (hx : w.tx i = some x) (hp : x.at_.p = .undone r)
      (hv : voidBill w.committed x.at_.ask.claims x.at_.ask.no x.at_.ask.reason
        r.at_ = .ok w'.committed) : VoidStep w (.void (.commit i)) w'

theorem voids_step {w w' : VoidWorld} {e : VoidEvent}
    (h : Database.Safe server.Reach VoidOk w) (he : voids.step w e = some w') :
    VoidStep w e w' := by
  cases e with
  | void e =>
      cases e with
      | begin_ t =>
          obtain ⟨-, rfl⟩ := Database.step_begin he
          exact .still rfl fun _ => rfl
      | run i c =>
          obtain ⟨x, s, -, -, -, rfl⟩ := Database.step_run he
          exact .still rfl fun _ => rfl
      | commit i =>
          obtain ⟨x, hx, hd, rfl⟩ := Database.step_commit he
          obtain ⟨r, hp, -, -, hv⟩ := (h.ok i x hx).commit hd
          exact .voided hx hp hv
      | abort i =>
          obtain ⟨x, -, rfl⟩ := Database.step_abort (d := voidTxs) he
          exact .still rfl fun _ => rfl
  | refuse i at_ =>
      obtain ⟨x, -, he⟩ := Option.bind_eq_some_iff.1 he
      split at he
      · cases he
        exact .still rfl fun _ => rfl
      · cases he
  | other op =>
      simp only [voids, VoidEvent.step] at he
      split at he
      · next hv =>
          obtain ⟨db', hop, he⟩ := Option.bind_eq_some_iff.1 he
          split at he
          · cases he
            exact .wrote hv hop
          · cases he
      · cases he

theorem VoidStep.op {w w' : VoidWorld} {e : VoidEvent} (h : VoidStep w e w') :
    w'.committed = w.committed ∨ ∃ op, Op.run w.committed op = some w'.committed := by
  cases h with
  | still h _ => exact Or.inl h
  | wrote _ hop => exact Or.inr ⟨_, hop⟩
  | @voided i x _ r hx hp hv =>
      exact Or.inr ⟨.voidBill x.at_.ask.claims x.at_.ask.no x.at_.ask.reason r.at_,
        toOption_eq_some.2 hv⟩

/-- A void accepted is a stamp more, and nothing else is. -/
theorem VoidStep.stamps {w w' : VoidWorld} {e : VoidEvent}
    (h : VoidStep w e w') (no : String) :
    stamps w'.committed no =
      stamps w.committed no + if w.accepts no e then 1 else 0 := by
  cases h with
  | still h hn =>
      rw [h, hn no]
      rfl
  | wrote hv hop =>
      rw [show w.accepts no (.other _) = false by rfl,
        if_neg Bool.false_ne_true, Nat.add_zero]
      unfold Rch.stamps
      cases Op.bills_grow hop hv with
      | same h => rw [h]
      | raised hins hnew _ _ =>
          rw [Table.get?_insert hins]
          split
          · next heq =>
              rw [heq, (Table.insert?_eq_some hins).1, Option.any_some, hnew]
              rfl
          · rfl
  | @voided i x _ r hx hp hv =>
      have hop : Op.run w.committed (.voidBill x.at_.ask.claims x.at_.ask.no
          x.at_.ask.reason r.at_) = some w'.committed := toOption_eq_some.2 hv
      obtain ⟨bill, stamp, hb, hlive, hbills⟩ :=
        Op.bills_voided hop (rfl : Op.voids _ = some x.at_.ask.no)
      have haccepts : w.accepts no (.void (.commit i)) =
          decide (x.at_.ask.no = no) := by
        rw [VoidWorld.accepts, hx, Option.any_some]
      unfold Rch.stamps
      rw [haccepts, hbills, Table.get?_modify_of_get? hb]
      by_cases hno : x.at_.ask.no = no
      · subst hno
        rw [if_pos rfl, hb, Option.any_some, Option.any_some, hlive]
        simp [stampBill]
      · have hne : no ≠ x.at_.ask.no := fun h => hno h.symm
        rw [if_neg hne, decide_eq_false hno, if_neg Bool.false_ne_true,
          Nat.add_zero]

/-- Over a whole run: as many voids of a bill are accepted as its stamp is
new. -/
theorem stamps_run {w w' : VoidWorld} {es : List VoidEvent} (hr : voids.Reach w)
    (hrun : voids.run w es = some w') (no : String) :
    stamps w'.committed no = stamps w.committed no + accepted no w es := by
  induction es generalizing w with
  | nil =>
      cases hrun
      rfl
  | cons e es ih =>
      obtain ⟨w₁, he, hrun⟩ := Option.bind_eq_some_iff.1 hrun
      rw [ih (hr.step he) hrun, (voids_step (voids_safe hr) he).stamps no, accepted,
        he, Nat.add_assoc]

/-! ## What the sale took -/

/-- A bill's sale is in the ledger as it was posted, whatever is committed
after it. -/
theorem saleMoves_run {w w' : VoidWorld} {es : List VoidEvent}
    (hr : voids.Reach w) (hrun : voids.run w es = some w') {no : String}
    (hno : (w.committed.bills.get? no).isSome = true) :
    saleMovesOf w'.committed no = saleMovesOf w.committed no := by
  induction es generalizing w with
  | nil =>
      cases hrun
      rfl
  | cons e es ih =>
      obtain ⟨w₁, he, hrun⟩ := Option.bind_eq_some_iff.1 hrun
      rcases (voids_step (voids_safe hr) he).op with hsame | ⟨op, hop⟩
      · rw [ih (hr.step he) hrun (by rw [hsame]; exact hno), hsame]
      · rw [ih (hr.step he) hrun (op.bill_stays hop hno)]
        exact op.saleMoves_stay hop (linesKept_reach (voids_safe hr).inv) hno

theorem sale_took {db db' : Db} {op : Op} (hr : server.Reach db)
    (hop : op.run db = some db') {no : String} (hfree : db.bills.get? no = none)
    (hno : (db'.bills.get? no).isSome = true) (c : Cell) :
    db'.stock.onHand c = db.stock.onHand c +
      sumOn (saleMovesOf db' no) MoveRow.cell c MoveRow.qty := by
  have hmoves := (salesNamed_reach hr).raised hop hfree hno
  rw [(ledgerInv_reach (server_stock_reach hr)).sums,
    (ledgerInv_reach (server_stock_reach (hr.step hop))).sums, Stock.moved,
    Stock.moved, ← sumOn_append, ← hmoves]

/-- What an accepted void leaves of the ledger, by way of the bill's own
statement. -/
theorem voidBill_undone {db db' : Db} {claims : Claims} {no reason : String}
    {at_ : Instant} (hr : server.Reach db)
    (h : voidBill db claims no reason at_ = .ok db') : Undone db db' no := by
  obtain ⟨bill, -, hrefund⟩ := voidBill_iff.1 h
  have hstock : db'.stock = (unsold db claims no reason at_).stock :=
    (refundOrder_ok hrefund).same .stock (by decide)
  obtain ⟨⟨new, hnew, heach⟩, hbal⟩ := unsold_undone hr claims no reason at_
  refine ⟨⟨new, by rw [hstock]; exact hnew, heach⟩, fun c => ?_⟩
  rw [hstock]
  exact hbal c

/-! ## A race -/

/-- What a void has read, once it has read it. -/
def VoidAt.read : VoidAt → Option VoidRead
  | .begun | .found _ | .ordered _ _ => none
  | .unsettled r | .placed r | .held r | .counted r _ | .posted r | .stamped r
  | .undone r => some r

/-- The rules let this void through, at this instant. -/
def Allows (db : Db) (a : VoidAsk) (at_ : Instant) : Prop :=
  ∃ db', voidBill db a.claims a.no a.reason at_ = .ok db'

/-- A void the rules let through is not refused by what the others do: it
comes to its end, or has its next statement. -/
theorem VoidOk.goes_on {db : Db} {x : Tx Db VoidKey VoidTx} {at_ : Instant}
    (h : VoidOk db x) (hd : x.at_.done = false)
    (hread : ∀ r, x.at_.p.read = some r → Allows db x.at_.ask r.at_)
    (hnow : Allows db x.at_.ask at_) :
    (x.at_.stmt at_ (x.write db)).isSome = true := by
  obtain ⟨⟨a, p⟩, held, write⟩ := x
  have hat {r : VoidRead} (hr : Allows db a r.at_)
      (hb : db.bills.get? a.no = some r.bill) :
      Voidable db a.claims a.no a.reason r.at_ r.bill := by
    obtain ⟨db', hv⟩ := hr
    obtain ⟨bill, hv, -⟩ := voidBill_iff.1 hv
    obtain rfl : r.bill = bill := Option.some.inj (hb.symm.trans hv.found)
    exact hv
  cases p <;> simp only [VoidOk, VoidShaped, VoidTx.stmt] at h ⊢
  case begun =>
    obtain ⟨db', hv⟩ := hnow
    obtain ⟨bill, hv, -⟩ := voidBill_iff.1 hv
    rw [view_of_id h, hv.found]
    rfl
  case found bill => rfl
  case ordered bill order =>
    obtain ⟨-, hb, -, hw⟩ := h
    obtain ⟨db', hv⟩ := hnow
    obtain ⟨bill', hv, -⟩ := voidBill_iff.1 hv
    obtain rfl : bill = bill' := Option.some.inj (hb.symm.trans hv.found)
    rw [view_of_id hw, if_pos ⟨hv.others, hv.reason, hv.unvoided, hv.day,
      hv.unsettled⟩]
    rfl
  case unsettled r =>
    obtain ⟨-, hj, hw⟩ := h
    obtain ⟨outlet, hloc, hopen⟩ := (hat (hread r rfl) hj.found).outlet
    rw [view_of_id hw, hloc, Option.filter_some, if_pos hopen]
    rfl
  case placed r =>
    obtain ⟨-, -, hj, -, hw⟩ := h
    rw [view_of_id hw, if_pos (hat (hread r rfl) hj.found).session]
    rfl
  case held r => rfl
  case counted r sale => rfl
  case posted r => rfl
  case stamped r =>
    obtain ⟨hc, hw⟩ := h
    obtain ⟨db', hv⟩ := hread r rfl
    obtain ⟨bill, hv, hrefund⟩ := voidBill_iff.1 hv
    obtain rfl : r.bill = bill :=
      Option.some.inj (hc.judged.found.symm.trans hv.found)
    rw [← hc.judged.order] at hrefund
    have hmoved : a.moved r (write db) = .ok db' := by
      rw [hw]
      exact hrefund
    rw [hmoved]
    rfl
  case undone r => cases hd

def VoidEvent.begins : VoidEvent → Option VoidAsk
  | .void (.begin_ t) => some t.ask
  | _ => none

def VoidEvent.clock : VoidEvent → Option Instant
  | .void (.run _ at_) | .refuse _ at_ => some at_
  | _ => none

/-- Voids of one bill, and nothing else: none of them is lost on the way, and
nobody writes between them. -/
def VoidEvent.races (no : String) : VoidEvent → Bool
  | .void (.begin_ t) => decide (t.ask.no = no)
  | .void (.run ..) | .void (.commit _) | .refuse .. => true
  | .void (.abort _) | .other _ => false

/-- Some voids of one bill, each of which the rules let through. -/
structure Race (db : Db) (no : String) (es : List VoidEvent) : Prop where
  races : ∀ e ∈ es, e.races no = true
  begins : ∃ e ∈ es, e.begins.isSome = true
  allowed : ∀ a ∈ es.filterMap VoidEvent.begins,
    ∀ at_ ∈ es.filterMap VoidEvent.clock, Allows db a at_

/-- No void is open. -/
def VoidWorld.quiet (w : VoidWorld) : Prop := ∀ i, w.tx i = none

/-- A statement leaves what was asked, and looks at the clock once. -/
theorem VoidTx.stmt_next {t : VoidTx} {at_ : Instant} {db : Db} {st : VoidStmt}
    (h : t.stmt at_ db = some st) : st.next.ask = t.ask ∧
      ∀ r, st.next.p.read = some r → t.p.read = some r ∨ r.at_ = at_ := by
  obtain ⟨a, p⟩ := t
  cases p <;> simp only [VoidTx.stmt] at h
  case begun =>
    obtain ⟨bill, -, rfl⟩ := Option.map_eq_some_iff.1 h
    exact ⟨rfl, fun r hr => absurd hr.symm (Option.some_ne_none r)⟩
  case found bill =>
    cases h
    exact ⟨rfl, fun r hr => absurd hr.symm (Option.some_ne_none r)⟩
  case ordered bill order =>
    split at h
    · cases h
      refine ⟨rfl, fun r hr => Or.inr ?_⟩
      cases hr
      rfl
    · cases h
  case unsettled r =>
    obtain ⟨outlet, -, rfl⟩ := Option.map_eq_some_iff.1 h
    exact ⟨rfl, fun r hr => Or.inl hr⟩
  case placed r =>
    split at h
    · cases h
      exact ⟨rfl, fun r hr => Or.inl hr⟩
    · cases h
  case held r =>
    cases h
    exact ⟨rfl, fun r hr => Or.inl hr⟩
  case counted r sale =>
    cases h
    exact ⟨rfl, fun r hr => Or.inl hr⟩
  case posted r =>
    cases h
    exact ⟨rfl, fun r hr => Or.inl hr⟩
  case stamped r =>
    obtain ⟨db', -, rfl⟩ := Option.map_eq_some_iff.1 h
    exact ⟨rfl, fun r hr => Or.inl hr⟩
  case undone r => cases h

/-- Every open void is one of these, and went by one of these clocks. -/
def Racing (w : VoidWorld) (no : String) (A : VoidAsk → Prop)
    (C : Instant → Prop) : Prop :=
  ∀ i x, w.tx i = some x → A x.at_.ask ∧ x.at_.ask.no = no ∧
    ∀ r, x.at_.p.read = some r → C r.at_

theorem Racing.put {w : VoidWorld} {no : String} {A : VoidAsk → Prop}
    {C : Instant → Prop} (h : Racing w no A C) {i : ℕ}
    {x : Tx Db VoidKey VoidTx} (hx : w.tx i = some x) {at_ : Instant}
    {st : VoidStmt} (hs : x.at_.stmt at_ (x.write w.committed) = some st)
    (hat : C at_) : Racing (w.put i (some (x.after st))) no A C := by
  intro j y hy
  rw [World.tx_put hx] at hy
  split at hy
  · cases hy
    obtain ⟨hA, hno, hC⟩ := h i x hx
    obtain ⟨hask, hread⟩ := VoidTx.stmt_next hs
    change A st.next.ask ∧ st.next.ask.no = no ∧
      ∀ r, st.next.p.read = some r → C r.at_
    rw [hask]
    refine ⟨hA, hno, fun r hr => ?_⟩
    rcases hread r hr with hold | hnow
    · exact hC r hold
    · rw [hnow]
      exact hat
  · exact h j y hy

/-- Once a void is open, or yet to begin, and all of them end, one is
accepted. -/
theorem race_run {w w' : VoidWorld} {es : List VoidEvent} {no : String}
    {A : VoidAsk → Prop} {C : Instant → Prop} (hr : voids.Reach w)
    (hrun : voids.run w es = some w') (hquiet : w'.quiet)
    (hraces : ∀ e ∈ es, e.races no = true)
    (hA : ∀ e ∈ es, ∀ a, e.begins = some a → A a)
    (hC : ∀ e ∈ es, ∀ at_, e.clock = some at_ → C at_)
    (hall : ∀ a at_, A a → C at_ → Allows w.committed a at_)
    (hopen : Racing w no A C)
    (hsome : (∃ i x, w.tx i = some x) ∨ ∃ e ∈ es, e.begins.isSome = true) :
    accepted no w es = 1 := by
  induction es generalizing w with
  | nil =>
      cases hrun
      rcases hsome with ⟨i, x, hx⟩ | ⟨e, he, -⟩
      · rw [hquiet i] at hx
        cases hx
      · exact absurd he List.not_mem_nil
  | cons e es ih =>
      have htotal := stamps_run hr hrun no
      obtain ⟨w₁, he, hrest⟩ := Option.bind_eq_some_iff.1 hrun
      rw [List.forall_mem_cons] at hraces hA hC
      obtain ⟨he₀, hraces⟩ := hraces
      obtain ⟨hAe, hA⟩ := hA
      obtain ⟨hCe, hC⟩ := hC
      -- a step that commits nothing and leaves one open passes the claim on
      have hpass (hsame : w₁.committed = w.committed)
          (hn : w.accepts no e = false) (hopen₁ : Racing w₁ no A C)
          (hsome₁ : ∃ i x, w₁.tx i = some x) : accepted no w (e :: es) = 1 := by
        rw [accepted, hn, if_neg Bool.false_ne_true, Nat.zero_add, he]
        refine ih (hr.step he) hrest hraces hA hC ?_ hopen₁ (Or.inl hsome₁)
        rw [hsame]
        exact hall
      cases e with
      | void e =>
          cases e with
          | begin_ t =>
              obtain ⟨ht, rfl⟩ := Database.step_begin he
              refine hpass rfl rfl (fun i x hx => ?_) ⟨w.txs.length, .fresh t, ?_⟩
              · rcases World.tx_begin hx with hx | rfl
                · exact hopen i x hx
                · refine ⟨hAe _ rfl, of_decide_eq_true he₀, fun r hr => ?_⟩
                  obtain ⟨a, p⟩ := t
                  cases p <;> cases ht
                  cases hr
              · simp [World.tx]
          | run i at_ =>
              obtain ⟨x, st, hx, hs, -, rfl⟩ := Database.step_run he
              refine hpass rfl rfl (hopen.put hx hs (hCe _ rfl))
                ⟨i, x.after st, ?_⟩
              rw [World.tx_put hx, if_pos rfl]
          | commit i =>
              obtain ⟨x, hx, -, rfl⟩ := Database.step_commit he
              have ha : w.accepts no (.void (.commit i)) = true := by
                rw [VoidWorld.accepts, hx, Option.any_some]
                exact decide_eq_true (hopen i x hx).2.1
              have hle := stamps_le w'.committed no
              rw [accepted, ha, if_pos rfl] at htotal ⊢
              omega
          | abort i => cases he₀
      | refuse i at_ =>
          obtain ⟨x, hx, he⟩ := Option.bind_eq_some_iff.1 he
          split at he
          · next hnone =>
              obtain ⟨hAx, -, hCx⟩ := hopen i x hx
              have hgo := ((voids_safe hr).ok i x hx).goes_on hnone.1
                (fun r hread => hall _ _ hAx (hCx r hread))
                (hall _ _ hAx (hCe at_ rfl))
              rw [Option.isNone_iff_eq_none.1 hnone.2] at hgo
              cases hgo
          · cases he
      | other op => cases he₀

/-- Of any number of voids of one bill, each of which the rules let through,
exactly one is accepted. -/
theorem race_won {w w' : VoidWorld} {es : List VoidEvent} {no : String}
    (hr : voids.Reach w) (hq : w.quiet) (hrace : Race w.committed no es)
    (hrun : voids.run w es = some w') (hq' : w'.quiet) :
    accepted no w es = 1 := by
  refine race_run (A := fun a => a ∈ es.filterMap VoidEvent.begins)
    (C := fun at_ => at_ ∈ es.filterMap VoidEvent.clock) hr hrun hq' hrace.races
    (fun e he a ha => List.mem_filterMap.2 ⟨e, he, ha⟩)
    (fun e he at_ hat => List.mem_filterMap.2 ⟨e, he, hat⟩)
    (fun a at_ ha hat => hrace.allowed a ha at_ hat)
    (fun i x hx => ?_) (Or.inr hrace.begins)
  rw [hq i] at hx
  cases hx

/-! ## The refusals -/

/-- The reasons a void is refused for. -/
inductive Refused (db : Db) (a : VoidAsk) (at_ : Instant) : Prop
  | absent (h : db.bills.get? a.no = none)
  | own {bill : BillRow} (h : db.bills.get? a.no = some bill)
      (hown : bill.operatorId = a.claims.sub)
  | blank (h : trim a.reason = "")
  | again {bill : BillRow} (h : db.bills.get? a.no = some bill)
      (hv : bill.voided ≠ none)
  | anotherDay {bill : BillRow} (h : db.bills.get? a.no = some bill)
      (hday : istDate bill.at_ ≠ istDate at_)
  | settled (h : liveSettlementOf db a.no ≠ none)
  | closedOutlet {bill : BillRow} {outlet : Location}
      (h : db.bills.get? a.no = some bill)
      (hloc : db.rows.locations bill.loc = some outlet)
      (hclosed : outlet.active = false)
  | closedRegister {bill : BillRow} (h : db.bills.get? a.no = some bill)
      (hshut : (bill.sessionId.bind db.sessions.get?).bind
        SessionRow.closedAt ≠ none)

theorem Refused.not_allows {db : Db} {a : VoidAsk} {at_ : Instant}
    (h : Refused db a at_) : ¬ Allows db a at_ := by
  rintro ⟨db', hv⟩
  obtain ⟨bill, hv, -⟩ := voidBill_iff.1 hv
  have hbill {b : BillRow} (hb : db.bills.get? a.no = some b) : b = bill :=
    Option.some.inj (hb.symm.trans hv.found)
  cases h with
  | absent h => exact Option.some_ne_none _ (hv.found.symm.trans h)
  | own h hown =>
      obtain rfl := hbill h
      exact hv.others hown
  | blank h => exact hv.reason h
  | again h hvoided =>
      obtain rfl := hbill h
      exact hvoided hv.unvoided
  | anotherDay h hday =>
      obtain rfl := hbill h
      exact hday hv.day
  | settled h => exact h hv.unsettled
  | closedOutlet h hloc hclosed =>
      obtain rfl := hbill h
      obtain ⟨outlet, hloc', hopen⟩ := hv.outlet
      obtain rfl := Option.some.inj (hloc.symm.trans hloc')
      rw [hclosed] at hopen
      cases hopen
  | closedRegister h hshut =>
      obtain rfl := hbill h
      exact hshut hv.session

/-- The steps in which no void is accepted and nobody else writes. -/
def VoidEvent.quiet : VoidEvent → Bool
  | .void (.commit _) | .other _ => false
  | _ => true

theorem quiet_commits_nothing {w w' : VoidWorld} {e : VoidEvent}
    (hr : voids.Reach w) (he : voids.step w e = some w') (hq : e.quiet = true) :
    w'.committed = w.committed := by
  cases voids_step (voids_safe hr) he with
  | still h _ => exact h
  | wrote _ _ => cases hq
  | voided _ _ _ => cases hq

/-! ## The whole -/

theorem accepted_void {w w' : VoidWorld} {i : ℕ} {x : Tx Db VoidKey VoidTx}
    (hr : voids.Reach w) (hx : w.tx i = some x)
    (he : voids.step w (.void (.commit i)) = some w') :
    Undone w.committed w'.committed x.at_.ask.no ∧
      ∃ r, x.at_.p = .undone r ∧
        voidBill w.committed x.at_.ask.claims x.at_.ask.no x.at_.ask.reason
          r.at_ = .ok w'.committed := by
  cases voids_step (voids_safe hr) he with
  | still _ hn =>
      have ha := hn x.at_.ask.no
      rw [VoidWorld.accepts, hx, Option.any_some, decide_eq_true rfl] at ha
      cases ha
  | @voided _ y _ r hy hp hv =>
      obtain rfl : x = y := Option.some.inj (hx.symm.trans hy)
      exact ⟨voidBill_undone (voids_safe hr).inv hv, r, hp, hv⟩

/-- Every accepted void is its sale backwards: one reversal for each move, and
every balance moved by what the sale took. Of the voids of a bill that a run
accepts there is as many as the bill has stamps, one or none; of any number at
once that the rules let through there is one; and a void that is refused leaves
everything as it was. -/
theorem void_undoes_once :
    (∀ w w' i x, voids.Reach w → w.tx i = some x →
      voids.step w (.void (.commit i)) = some w' →
      Undone w.committed w'.committed x.at_.ask.no ∧
        ∃ r, x.at_.p = .undone r ∧ ¬ Refused w.committed x.at_.ask r.at_) ∧
    (∀ w w₁ w₂ w₃ op es i x, voids.Reach w →
      voids.step w (.other op) = some w₁ →
      w.committed.bills.get? x.at_.ask.no = none →
      (w₁.committed.bills.get? x.at_.ask.no).isSome = true →
      voids.run w₁ es = some w₂ → w₂.tx i = some x →
      voids.step w₂ (.void (.commit i)) = some w₃ →
      ∀ c, w₃.committed.stock.onHand c - w₂.committed.stock.onHand c =
        w.committed.stock.onHand c - w₁.committed.stock.onHand c) ∧
    (∀ w₀ w es no, voids.init w₀ → voids.run w₀ es = some w →
      accepted no w₀ es ≤ 1 ∧ accepted no w₀ es = stamps w.committed no) ∧
    (∀ w w' es no, voids.Reach w → w.quiet → Race w.committed no es →
      voids.run w es = some w' → w'.quiet → accepted no w es = 1) ∧
    (∀ w w' e, voids.Reach w → voids.step w e = some w' → e.quiet = true →
      w'.committed = w.committed) ∧
    (∀ db a at_, Refused db a at_ →
      (Op.voidBill a.claims a.no a.reason at_).run db = none) := by
  refine ⟨?_, ?_, ?_, ?_, ?_, ?_⟩
  · intro w w' i x hr hx he
    obtain ⟨hundone, r, hp, hv⟩ := accepted_void hr hx he
    exact ⟨hundone, r, hp, fun h => h.not_allows ⟨_, hv⟩⟩
  · intro w w₁ w₂ w₃ op es i x hr hop hfree hno hrun hx he c
    have hr₁ := hr.step hop
    obtain ⟨hundone, -⟩ := accepted_void (Machine.reach_run hr₁ hrun) hx he
    have hsale := saleMoves_run hr₁ hrun hno
    have hwrote := voids_step (voids_safe hr) hop
    cases hwrote with
    | still hsame _ =>
        rw [hsame, hfree] at hno
        cases hno
    | wrote _ hop =>
        rw [hundone.balances c, hsale, sale_took (voids_safe hr).inv hop hfree hno c]
        abel
  · intro w₀ w es no h₀ hrun
    have htotal := stamps_run (.init h₀) hrun no
    have hnone : stamps w₀.committed no = 0 := by
      obtain ⟨⟨rows, hrows⟩, -⟩ := h₀
      rw [hrows]
      rfl
    rw [hnone, Nat.zero_add] at htotal
    exact ⟨htotal ▸ stamps_le _ no, htotal.symm⟩
  · exact fun w w' es no hr hq hrace hrun hq' => race_won hr hq hrace hrun hq'
  · exact fun w w' e hr he hq => quiet_commits_nothing hr he hq
  · intro db a at_ h
    cases hrun : (Op.voidBill a.claims a.no a.reason at_).run db with
    | none => rfl
    | some db' => exact absurd ⟨db', toOption_eq_some.1 hrun⟩ h.not_allows

/-! ## Two managers and a carton of milk -/

def voidAsked (by_ : String) : VoidTx :=
  ⟨⟨⟨by_, "office", true⟩, "CF/1188", "keyed twice"⟩, .begun⟩

/-- The second comes to the bill when the first has voided it. -/
def twoVoids : List VoidEvent :=
  [.void (.begin_ (voidAsked "u3")), .void (.begin_ (voidAsked "u4"))] ++
    List.replicate 9 (.void (.run 0 0)) ++
    [.void (.commit 0), .void (.run 1 0), .void (.run 1 0), .refuse 1 0]

def soldCarton : List VoidEvent :=
  [.other (.createAdjustment ⟨"u1", STORE, true⟩
    ⟨"cafe", .count, "", [⟨"milk", 5⟩]⟩ 0),
   .other (.pay ⟨"u2", "cafe", false⟩ (cashBill none) (some "s1") 0)]

theorem void_undoes_once_milk : ∃ w w' : VoidWorld,
    voids.run ⟨Db.fresh corner, []⟩ soldCarton = some w ∧
      voids.run w twoVoids = some w' ∧ accepted "CF/1188" w twoVoids = 1 := by
  have hany : (voids.run ⟨Db.fresh corner, []⟩ soldCarton).any (fun w =>
      w.txs.isEmpty && (voids.run w twoVoids).any (fun w' =>
        w'.txs.all Option.isNone) &&
      (twoVoids.filterMap VoidEvent.begins).all fun a =>
        (twoVoids.filterMap VoidEvent.clock).all fun at_ =>
          (voidBill w.committed a.claims a.no a.reason at_).toOption.isSome) =
        true := by
    decide +kernel
  obtain ⟨w, hrun, hd⟩ := (Option.any_eq_true _ _).1 hany
  rw [Bool.and_eq_true, Bool.and_eq_true] at hd
  obtain ⟨⟨hempty, hvoids⟩, hallowed⟩ := hd
  obtain ⟨w', hrun', hquiet⟩ := (Option.any_eq_true _ _).1 hvoids
  refine ⟨w, w', hrun, hrun', void_undoes_once.2.2.2.1 w w' twoVoids "CF/1188"
    (Machine.reach_run (.init ⟨⟨corner, rfl⟩, rfl⟩) hrun) (fun i => ?_)
    ⟨by decide, ⟨_, List.mem_cons_self .., rfl⟩, fun a ha at_ hat => ?_⟩ hrun'
    fun i => ?_⟩
  · rw [World.tx, List.isEmpty_iff.1 hempty]
    rfl
  · obtain ⟨db', hv⟩ := Option.isSome_iff_exists.1
      (List.all_eq_true.1 (List.all_eq_true.1 hallowed a ha) at_ hat)
    exact ⟨db', toOption_eq_some.1 hv⟩
  · cases hx : w'.tx i with
    | none => rfl
    | some x =>
        have hmem : some x ∈ w'.txs :=
          List.mem_of_getElem? (Option.join_eq_some_iff.1 hx)
        have hnone := List.all_eq_true.1 hquiet _ hmem
        cases hnone

end Rch
