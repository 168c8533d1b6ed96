import Rch.Machine.Voids
import Rch.Proofs.Postings

/-!
# The moves a bill's sale left

A void finds the sale in the ledger, by the bill's number, and not on the bill.
That is the sale because the two are written together and neither is written
again: a sale's moves name the bill it raises, a number is raised once, and
nothing else posts a sale. So what a void reads is what the sale posted, however
much was posted between the two.
-/

namespace Rch

open Kit

/-! ## The bills -/

/-- A void apart, an operation leaves the bills, or raises one and posts its
sale. -/
inductive BillsGrow (db db' : Db) : Prop
  | same (h : db'.bills = db.bills)
  | raised {no : String} {row : BillRow} {moves : List Move}
      (h : db.bills.insert? no row = some db'.bills) (hnew : row.voided = none)
      (hnames : ∀ m ∈ moves, m.kind = .sale ∧ m.refType = "bill" ∧ m.refId = no)
      (hmoves : db'.stock.moves = (postMoves db.stock moves).moves)

theorem Sold.bills_grow {db db₁ db' : Db} {i : SaleInput} {at_ : Instant}
    {no : String} {row : BillRow} (h : Sold db i at_ db₁ no row)
    (hb : db'.bills = db₁.bills := by rfl)
    (hs : db'.stock = db₁.stock := by rfl) : BillsGrow db db' := by
  obtain ⟨plan, terms, payer, phone, session, hrow⟩ := h.row_eq
  obtain ⟨cells, moves, -, -, hnames, seq, sessions, hdb⟩ := h.exists_moves
  refine .raised (hb.symm ▸ h.bills) (by rw [hrow]; rfl) hnames ?_
  have hstock : db₁.stock = postMoves (lockBalances db.stock cells) moves := by
    rw [hdb]
  rw [hs, hstock]
  exact postMoves_moves_congr (by rfl) moves

theorem Op.bills_grow {op : Op} {db db' : Db} (h : op.run db = some db')
    (hv : op.voids = none) : BillsGrow db db' := by
  by_cases hp : .credit ∈ op.touches
  case neg => exact .same (op.frame h hp).1
  cases op <;> simp only [Op.run, toOption_eq_some, Op.touches, Op.voids,
    List.mem_cons, List.not_mem_nil, or_false, reduceCtorEq] at h hp hv
  case pay =>
    obtain ⟨no, row, hs⟩ := pay_ok h
    exact hs.bills_grow
  case settleCapture =>
    obtain ⟨o, -, hs⟩ := settleCapture_ok h
    cases hs with
    | again _ => exact .same rfl
    | refundedBefore _ _ _ => exact .same rfl
    | duplicate _ _ _ _ => exact .same rfl
    | unfulfillable _ _ _ _ => exact .same rfl
    | billed _ _ _ hsold _ _ => exact hsold.bills_grow
  case recordSettlement =>
    obtain ⟨id, row, lines, settlements, settlementLines, -, -, -, -, -, -, -, -,
      rfl⟩ := recordSettlement_ok h
    exact .same rfl
  case voidSettlement =>
    obtain ⟨row, stamp, -, -, rfl⟩ := voidSettlement_ok h
    exact .same rfl

theorem Op.bills_voided {op : Op} {db db' : Db} (h : op.run db = some db')
    {no : String} (hv : op.voids = some no) : ∃ bill stamp,
      db.bills.get? no = some bill ∧ bill.voided = none ∧
      db'.bills = db.bills.modify no (stampBill stamp) := by
  cases op <;> simp only [Op.voids, reduceCtorEq, Option.some.injEq] at hv
  case voidBill =>
    subst hv
    simp only [Op.run, toOption_eq_some] at h
    obtain ⟨bill, stamp, hb, hlive, -, hr⟩ := voidBill_ok h
    exact ⟨bill, stamp, hb, hlive, (hr.same .credit (by decide)).1⟩

/-- No bill is ever taken off the table. -/
theorem Op.bill_stays {op : Op} {db db' : Db} (h : op.run db = some db')
    {no : String} (hno : (db.bills.get? no).isSome = true) :
    (db'.bills.get? no).isSome = true := by
  cases hv : op.voids with
  | none =>
      cases op.bills_grow h hv with
      | same hs => rw [hs]; exact hno
      | raised hins _ _ _ =>
          rw [Table.get?_insert hins]
          split
          · rfl
          · exact hno
  | some v =>
      obtain ⟨bill, stamp, -, -, hb⟩ := op.bills_voided h hv
      rw [hb, Table.isSome_modify]
      exact hno

/-! ## The sales in the ledger -/

/-- What a batch has in it of sales: nothing, or it is the sale of the bill the
step raises. -/
theorem Posting.sale_or {db db' : Db} {op : Op} {moves : List Move}
    (h : Posting db db' op moves) :
    (∀ m ∈ moves, m.kind ≠ .sale) ∨
      ∃ no row, db.bills.insert? no row = some db'.bills ∧
        ∀ m ∈ moves, m.kind = .sale ∧ m.refType = "bill" ∧ m.refId = no := by
  cases h with
  | nothing => exact Or.inl (List.forall_mem_nil _)
  | handed ht hm h =>
      refine Or.inl fun m hmem => ?_
      rw [hm] at hmem
      rw [(mem_ticketMoves hmem).1]
      decide
  | sold hraised hnames h => exact Or.inr ⟨_, _, hraised, hnames⟩
  | received ht hst =>
      refine Or.inl fun m hm => ?_
      rcases mem_withUseOnArrival hm with hk | hm
      · rw [hk]
        decide
      · rw [(mem_ticketMoves hm).1]
        decide
  | batched hitem ht =>
      refine Or.inl fun m hm => ?_
      rw [List.mem_singleton.1 hm]
      exact (by decide : MoveKind.productionYield ≠ .sale)
  | corrected hd hknown => exact Or.inl fun m hm => adjustmentMoves_kind hm
  | delivered ho h =>
      refine Or.inl fun m hm => ?_
      rcases (h m hm).1 with ⟨-, hk⟩ | ⟨-, hk⟩
      · rw [hk]
        decide
      · rw [hk]
        decide
  | opened id hitem hq hoff h =>
      refine Or.inl fun m hm => ?_
      rcases h with ⟨-, rfl⟩ | rfl
      · rw [List.mem_singleton.1 hm]
        exact (by decide : MoveKind.productionYield ≠ .sale)
      · rcases mem_withUseOnArrival hm with hk | hm
        · rw [hk]
          decide
        · rw [List.mem_singleton.1 hm]
          exact (by decide : MoveKind.opening ≠ .sale)
  | reversed =>
      refine Or.inl fun m hm => ?_
      obtain ⟨r, -, rfl⟩ := List.mem_map.1 hm
      exact (by decide : MoveKind.reversal ≠ .sale)

/-- What an operation appends is nobody's sale, or the sale of the bill it
raises. -/
theorem Op.appends {op : Op} {db db' : Db} (h : op.run db = some db')
    (hk : LinesKept db) : ∃ new, db'.stock.moves = db.stock.moves ++ new ∧
      ((∀ m ∈ new, m.kind ≠ .sale) ∨
        ∃ no row, db.bills.insert? no row = some db'.bills ∧
          ∀ m ∈ new, m.kind = .sale ∧ m.refType = "bill" ∧ m.refId = no) := by
  obtain ⟨moves, hp, hmoves⟩ := op.posts h hk
  obtain ⟨new, hnew, hof⟩ := postMoves_appends db.stock moves
  refine ⟨new, hmoves.trans hnew, ?_⟩
  rcases hp.sale_or with hno | ⟨no, row, hins, hnames⟩
  · refine Or.inl fun r hr => ?_
    obtain ⟨m, hm, id, rfl⟩ := hof r hr
    exact hno m hm
  · refine Or.inr ⟨no, row, hins, fun r hr => ?_⟩
    obtain ⟨m, hm, id, rfl⟩ := hof r hr
    exact hnames m hm

/-- A sale in the ledger is the sale of a bill there is. -/
def SalesNamed (db : Db) : Prop :=
  ∀ m ∈ db.stock.moves, m.kind = .sale → (db.bills.get? m.refId).isSome = true

theorem SalesNamed.step {op : Op} {db db' : Db} (hs : SalesNamed db)
    (h : op.run db = some db') (hk : LinesKept db) : SalesNamed db' := by
  obtain ⟨new, hmoves, hnew⟩ := op.appends h hk
  intro m hm hsale
  rw [hmoves] at hm
  rcases List.mem_append.1 hm with hm | hm
  · exact op.bill_stays h (hs m hm hsale)
  · rcases hnew with hno | ⟨no, row, hins, hnames⟩
    · exact absurd hsale (hno m hm)
    · rw [(hnames m hm).2.2, Table.get?_insert hins, if_pos rfl]
      rfl

theorem salesNamed_reach {db : Db} (h : server.Reach db) : SalesNamed db := by
  refine h.invariant ?_ fun db op db' hr hs hstep =>
    hs.step hstep (linesKept_reach hr)
  rintro db ⟨rows, rfl⟩
  exact fun m hm => absurd hm List.not_mem_nil

/-- A bill nobody raised has no sale. -/
theorem SalesNamed.none_of_free {db : Db} (hs : SalesNamed db) {no : String}
    (hno : db.bills.get? no = none) : saleMovesOf db no = [] := by
  refine List.filter_eq_nil_iff.2 fun m hm hmatch => ?_
  obtain ⟨-, hid, hsale⟩ := of_decide_eq_true hmatch
  have hsome := hs m hm hsale
  rw [hid, hno] at hsome
  cases hsome

/-- The sale of a bill there is gains no move and loses none. -/
theorem Op.saleMoves_stay {op : Op} {db db' : Db} (h : op.run db = some db')
    (hk : LinesKept db) {no : String}
    (hno : (db.bills.get? no).isSome = true) :
    saleMovesOf db' no = saleMovesOf db no := by
  obtain ⟨new, hmoves, hnew⟩ := op.appends h hk
  unfold saleMovesOf
  rw [hmoves, List.filter_append]
  refine (congrArg _ (List.filter_eq_nil_iff.2 fun m hm hmatch => ?_)).trans
    (List.append_nil _)
  obtain ⟨-, hid, hsale⟩ := of_decide_eq_true hmatch
  rcases hnew with hkind | ⟨no', row, hins, hnames⟩
  · exact hkind m hm hsale
  · rw [← hid, (hnames m hm).2.2, (Table.insert?_eq_some hins).1] at hno
    cases hno

theorem SalesNamed.raised {op : Op} {db db' : Db} (hs : SalesNamed db)
    (h : op.run db = some db') {no : String} (hfree : db.bills.get? no = none)
    (hno : (db'.bills.get? no).isSome = true) :
    db'.stock.moves = db.stock.moves ++ saleMovesOf db' no := by
  cases hv : op.voids with
  | some v =>
      obtain ⟨bill, stamp, -, -, hb⟩ := op.bills_voided h hv
      rw [hb, Table.isSome_modify, hfree] at hno
      cases hno
  | none =>
      cases op.bills_grow h hv with
      | same hb =>
          rw [hb, hfree] at hno
          cases hno
      | @raised no' row moves hins _ hnames hmoves =>
          rw [Table.get?_insert hins] at hno
          split at hno
          · next heq =>
              subst heq
              obtain ⟨new, hnew, hof⟩ := postMoves_appends db.stock moves
              have hsold : saleMovesOf db no = [] := hs.none_of_free hfree
              unfold saleMovesOf at hsold ⊢
              rw [hmoves, hnew, List.filter_append, hsold, List.nil_append,
                List.filter_eq_self.2]
              intro r hr
              obtain ⟨m, hm, id, rfl⟩ := hof r hr
              obtain ⟨hkind, htype, hid⟩ := hnames m hm
              exact decide_eq_true ⟨htype, hid, hkind⟩
          · rw [hfree] at hno
            cases hno

end Rch
