import Rch.Proofs.ShelfSafety

/-!
# What an operation posts

The ledger gains one batch with each operation that moves stock and none with
any other. `Posting` says which batch: the two that only take, and the six ways
stock can land, each with the document it is posted under and what the service
asked of it first.
-/

namespace Rch

open Kit

def correctionLines (d : AdjustmentDraft) : List Line :=
  (foldLines d.lines).filter fun l => decide (l.qty ≠ 0)

/-- The correction an operation writes, if it writes one. -/
def Op.correction (db : Db) : Op → Option AdjustmentDraft
  | .createAdjustment claims body at_ =>
    some ⟨body.loc, body.reason, body.note, body.lines, claims.sub, at_⟩
  | .approveAdjustmentRequest claims id at_ =>
    (db.adjustmentRequests.get? id).map fun r =>
      ⟨r.loc, r.reason, r.note, r.lines.map Line.input, claims.sub, at_⟩
  | _ => none

def yieldMove (it : ItemKey) (made : Qty) (id by_ : String) (at_ : Instant) :
    Move :=
  ⟨KITCHEN, it, made, .productionYield, "batch", id, some by_, at_, none⟩

def openingMove (loc : LocKey) (it : ItemKey) (q : Qty) (by_ : String)
    (at_ : Instant) : Move :=
  ⟨loc, it, q, .opening, "item", it, some by_, at_, none⟩

inductive Posting (db db' : Db) : Op → List Move → Prop
  | nothing {op : Op} : Posting db db' op []
  | handed {claims : Claims} {id : String} {body : HandoverBody} {at_ : Instant}
      {t : TicketRow} {moves : List Move} (ht : db.tickets.get? id = some t)
      (hm : moves =
        ticketMoves t id t.from_ (fun q => -q) .ticketOut claims.sub at_)
      (h : ∀ m ∈ moves, m.qty ≤ 0) :
      Posting db db' (.handover claims id body at_) moves
  | sold {op : Op} {no : String} {row : BillRow} {moves : List Move}
      (hraised : db.bills.insert? no row = some db'.bills)
      (hnames : ∀ m ∈ moves, m.kind = .sale ∧ m.refType = "bill" ∧ m.refId = no)
      (h : ∀ m ∈ moves, m.qty ≤ 0) : Posting db db' op moves
  | received {claims : Claims} {id : String} {at_ : Instant} {t : TicketRow}
      (ht : db.tickets.get? id = some t) (hst : t.st = .collected) :
      Posting db db' (.receive claims id at_) (withUseOnArrival (loadItemTypes db.rows)
        (ticketMoves t id t.to_ (fun q => q) .ticketIn claims.sub at_))
  | batched {claims : Claims} {body : MakeBatchBody} {at_ : Instant} {item : Item}
      {made : Qty} {id : String} (hitem : db.master.items body.it = some item)
      (ht : item.t = .FG) :
      Posting db db' (.makeBatch claims body at_)
        [yieldMove body.it made id claims.sub at_]
  | corrected {op : Op} {d : AdjustmentDraft} {id : String}
      (hd : op.correction db = some d)
      (hknown : ∀ l ∈ correctionLines d, ∃ item, db.master.items l.it = some item ∧
        ¬ (l.qty < 0 ∧ usedOnArrival item.t d.loc = true)) :
      Posting db db' op (adjustmentMoves db.master d id (correctionLines d))
  | delivered {claims : Claims} {id : String} {body : ReceivePoBody} {at_ : Instant}
      {o : PurchaseOrderRow} {moves : List Move}
      (ho : db.purchaseOrders.get? id = some o)
      (h : ∀ m ∈ moves, (m.loc = STORE ∧ m.kind = .grnAccept ∨
          m.loc = QUARANTINE ∧ m.kind = .grnReject) ∧
        ∃ p ∈ o.lines.zip body.lines, 0 < p.2.recv ∧ m.it = p.1.it) :
      Posting db db' (.receivePo claims id body at_) moves
  | opened {claims : Claims} {atKitchen : Bool} {key : ItemKey} {opening : ℚ}
      {at_ : Instant} {item : Item} {moves : List Move} (id : String)
      (hitem : db.master.items key = some item) (hq : 0 < round3 opening)
      (hoff : isOnOff item = false)
      (h : item.t = .FG ∧
          moves = [yieldMove key (round3 opening) id claims.sub at_] ∨
        moves = withUseOnArrival (fun it => if it = key then some item.t else none)
          [openingMove (if atKitchen then KITCHEN else STORE) key (round3 opening)
            claims.sub at_]) :
      Posting db db' (.openStock claims atKitchen key opening at_) moves
  | reversed {claims : Claims} {no reason : String} {at_ : Instant} :
      Posting db db' (.voidBill claims no reason at_) (voidMoves db no claims.sub at_)

/-- The ledger's rows go by the rows there were and the batch alone. -/
theorem postMoves_moves_congr {s s' : Stock} (h : s'.moves = s.moves)
    (moves : List Move) :
    (postMoves s' moves).moves = (postMoves s moves).moves := by
  unfold postMoves lockBalances
  dsimp only
  split
  · exact h
  · rw [h]

def Posts (db : Db) (op : Op) (db' : Db) : Prop :=
  ∃ moves, Posting db db' op moves ∧
    db'.stock.moves = (postMoves db.stock moves).moves

theorem posts_nothing {db db' : Db} {op : Op}
    (h : db'.stock.moves = db.stock.moves) : Posts db op db' :=
  ⟨[], .nothing, h⟩

theorem Sold.posts {db db₁ db' : Db} {i : SaleInput} {at_ : Instant}
    {no : String} {row : BillRow} {op : Op} (h : Sold db i at_ db₁ no row)
    (hpos : ∀ l ∈ i.lines, 0 ≤ l.qty) (hs : db'.stock = db₁.stock := by rfl)
    (hb : db'.bills = db₁.bills := by rfl) : Posts db op db' := by
  obtain ⟨cells, moves, -, hneg, hnames, seq, sessions, hdb⟩ := h.exists_moves
  have hstock : db₁.stock = postMoves (lockBalances db.stock cells) moves := by
    rw [hdb]
  refine ⟨moves, .sold (hb.symm ▸ h.bills) hnames (hneg hpos), ?_⟩
  rw [hs, hstock]
  exact postMoves_moves_congr (by rfl) moves

theorem writeAdjustment_posts {db db' : Db} {d : AdjustmentDraft} {op : Op}
    {out : Db × String} (hd : op.correction db = some d)
    (h : writeAdjustment db db.master d = .ok out)
    (hs : db'.stock = out.1.stock := by rfl) : Posts db op db' := by
  unfold writeAdjustment allocateId at h
  simp only [bind_ok, checkEach_ok, assertEach_ok, assertRule_ok,
    assertOpen_ok, orNotFound_ok, orInternal_ok, exists_const, pure_ok,
    ite_eq_iff] at h
  obtain ⟨shelf, -, h⟩ := h
  obtain ⟨-, hknown, hused, -, -, adjustments, -, rfl⟩ : _ ∧ _ := by
    rcases h with ⟨-, -, h⟩ | ⟨-, h⟩
    · exact h
    · exact h
  rw [Posts, hs]
  refine ⟨adjustmentMoves db.master d (formatId .adj (db.seq .adj) d.at_)
    (correctionLines d), .corrected hd fun l hl => ?_, ?_⟩
  · obtain ⟨item, hitem, -⟩ := hknown l hl
    refine ⟨item, hitem, fun hneg => hused l hl ?_⟩
    rw [hitem]
    exact hneg
  · exact postMoves_moves_congr (by rfl) _

theorem mem_receiptRows_line {id dc : String} {body : ReceivePoBody} {by_ : String}
    {at_ : Instant} {n : ℕ} {pairs : List ReceiptPair} {m : Move}
    (h : m ∈ (receiptRows id dc body by_ at_ n pairs).2) :
    (m.loc = STORE ∧ m.kind = .grnAccept ∨
        m.loc = QUARANTINE ∧ m.kind = .grnReject) ∧
      ∃ p ∈ pairs, 0 < p.2.recv ∧ m.it = p.1.it := by
  induction pairs generalizing n with
  | nil => cases h
  | cons p rest ih =>
      have hrest (h : m ∈ (receiptRows id dc body by_ at_ (n + 1) rest).2 ∨
          m ∈ (receiptRows id dc body by_ at_ n rest).2) :
          (m.loc = STORE ∧ m.kind = .grnAccept ∨
              m.loc = QUARANTINE ∧ m.kind = .grnReject) ∧
            ∃ p' ∈ p :: rest, 0 < p'.2.recv ∧ m.it = p'.1.it := by
        obtain ⟨hloc, p', hp', hrecv⟩ : _ ∧ _ := h.elim ih ih
        exact ⟨hloc, p', List.mem_cons_of_mem p hp', hrecv⟩
      unfold receiptRows at h
      split at h
      · next hrecv =>
          rcases List.mem_append.1 h with h | h
          · unfold receiptMoves at h
            dsimp only at h
            rcases List.mem_append.1 h with h | h
            · split at h
              · rw [List.mem_singleton.1 h]
                exact ⟨Or.inl ⟨rfl, rfl⟩, p, List.mem_cons_self .., hrecv, rfl⟩
              · cases h
            · split at h
              · rw [List.mem_singleton.1 h]
                exact ⟨Or.inr ⟨rfl, rfl⟩, p, List.mem_cons_self .., hrecv, rfl⟩
              · cases h
          · exact hrest (Or.inl h)
      · exact hrest (Or.inr h)

theorem receivePo_posts {db db' : Db} {claims : Claims} {id : String}
    {body : ReceivePoBody} {at_ : Instant}
    (h : receivePo db claims id body at_ = .ok db') :
    Posts db (.receivePo claims id body at_) db' := by
  simp only [receivePo, bind_ok, orNotFound_ok, assertRule_ok, assertEach_ok,
    checkEach_ok, orInternal_ok, assertTransition_ok, exists_const,
    pure_ok] at h
  obtain ⟨o, ho, -, -, -, -, -, -, grns, -, -, rfl⟩ := h
  exact ⟨_, .delivered ho fun m hm => mem_receiptRows_line hm, rfl⟩

/-- A batch posts its yield, or came to nothing. -/
theorem writeBatch_moves {db db' : Db} {d : BatchDraft}
    (h : writeBatch db d = .ok db') :
    db'.stock.moves = db.stock.moves ∨ ∃ id, db'.stock.moves =
      (postMoves db.stock [yieldMove d.it d.made id d.by_ d.at_]).moves := by
  unfold writeBatch allocateId at h
  simp only [bind_ok, guardOr_ok, orInternal_ok, exists_const, pure_ok] at h
  obtain ⟨-, batches, -, rfl⟩ := h
  dsimp only
  split
  · exact Or.inr ⟨_, rfl⟩
  · exact Or.inl rfl

theorem makeBatch_posts {db db' : Db} {claims : Claims} {body : MakeBatchBody}
    {at_ : Instant} (h : makeBatch db claims body at_ = .ok db') :
    Posts db (.makeBatch claims body at_) db' := by
  simp only [makeBatch, bind_ok, assertRule_ok, orNotFound_ok,
    exists_const] at h
  obtain ⟨-, -, item, hitem, -, -, -, ht, hw⟩ := h
  obtain hs | ⟨id, hs⟩ := writeBatch_moves hw
  · exact posts_nothing hs
  · exact ⟨_, .batched hitem ht, hs⟩

theorem openStock_posts {db db' : Db} {claims : Claims} {atKitchen : Bool}
    {key : ItemKey} {opening : ℚ} {at_ : Instant}
    (h : openStock db claims atKitchen key opening at_ = .ok db') :
    Posts db (.openStock claims atKitchen key opening at_) db' := by
  simp only [openStock, bind_ok, assertRule_ok, orNotFound_ok, exists_const,
    ite_eq_iff, pure_ok] at h
  obtain ⟨item, hitem, h⟩ := h
  -- an on/off item opens with nothing, so what opens with something is counted
  obtain ⟨hoff, h⟩ : (0 < round3 opening → isOnOff item = false) ∧ _ := by
    rcases h with ⟨-, hzero, h⟩ | ⟨hoff, h⟩
    · refine ⟨fun hq => ?_, h⟩
      rw [hzero] at hq
      exact absurd hq (lt_irrefl 0)
    · exact ⟨fun _ => eq_false_of_ne_true hoff, h⟩
  rcases h with ⟨hq, ⟨⟨-, hfg⟩, hw⟩ | ⟨-, rfl⟩⟩ | ⟨-, rfl⟩
  · obtain hs | ⟨id, hs⟩ := writeBatch_moves hw
    · exact posts_nothing hs
    · exact ⟨_, .opened id hitem hq (hoff hq) (Or.inl ⟨hfg, rfl⟩), hs⟩
  · refine ⟨_, .opened "" hitem hq (hoff hq) (Or.inr rfl), ?_⟩
    cases atKitchen with
    | true => rfl
    | false => rfl
  · exact posts_nothing rfl

/-- An operation posts what `Posting` says, and nothing else. -/
theorem Op.posts {op : Op} {db db' : Db} (h : op.run db = some db')
    (hk : LinesKept db) : Posts db op db' := by
  by_cases hp : .stock ∈ op.touches
  case neg => exact posts_nothing (congrArg Stock.moves (op.frame h hp))
  cases op <;> simp only [Op.run, toOption_eq_some, map_ok, Op.touches,
    List.mem_cons, List.not_mem_nil, or_false, reduceCtorEq,
    Option.some.injEq] at h hp
  case handover claims id body at_ =>
    obtain ⟨⟨db₁, e⟩, h, rfl⟩ := h
    obtain ⟨t, ht, hst, rfl | ⟨moves, hm, -, rfl⟩⟩ := handover_ok h
    · exact posts_nothing rfl
    · refine ⟨moves, .handed ht hm fun m hmem => ?_, rfl⟩
      rw [hm] at hmem
      obtain ⟨-, l, hl, hq⟩ := mem_ticketMoves hmem
      rw [hq, neg_nonpos]
      refine Decimal.toRat_nonneg.2 (hk.pledges id t.pledge ?_ l hl)
      rw [Db.pledge, ht]
      rfl
  case receive =>
    obtain ⟨t, ht, hst, rfl⟩ := receive_ok h
    exact ⟨_, .received ht hst, rfl⟩
  case cancelTicket =>
    obtain ⟨t, -, -, hr⟩ := cancelTicket_ok h
    have hstock : db'.stock = (voidTicket db _ _).stock :=
      hr.same .stock (by decide) (by decide)
    refine posts_nothing ?_
    rw [hstock]
    rfl
  case transfer =>
    obtain ⟨draft, no, -, -, hs⟩ := transfer_ok h
    exact posts_nothing hs.moves
  case distribute =>
    obtain ⟨draft, no, -, -, hs⟩ := distribute_ok h
    exact posts_nothing hs.moves
  case redirectRequest =>
    obtain ⟨r, draft, no, db₁, hr, -, -, -, -, hs, rfl⟩ := redirectRequest_ok h
    exact posts_nothing (hs (hk.requests _ r hr)).moves
  case issueRequest =>
    obtain ⟨r, draft, no, db₁, -, -, -, -, hs, rfl⟩ := issueRequest_ok h
    exact posts_nothing hs.moves
  case dispatchOrder =>
    obtain ⟨o, draft, no, db₁, -, -, -, hs, rfl⟩ := dispatchOrder_ok h
    exact posts_nothing hs.moves
  case answerShopAsk =>
    obtain ⟨a, draft, no, db₁, -, -, -, hs, rfl⟩ := answerShopAsk_ok h
    exact posts_nothing hs.moves
  case makeBatch => exact makeBatch_posts h
  case createAdjustment =>
    simp only [Rch.createAdjustment, bind_ok, pure_ok] at h
    obtain ⟨out, hw, rfl⟩ := h
    exact writeAdjustment_posts rfl hw
  case approveAdjustmentRequest claims id at_ =>
    simp only [Rch.approveAdjustmentRequest, bind_ok, orNotFound_ok,
      assertTransition_ok, exists_const, pure_ok] at h
    obtain ⟨r, hr, -, out, hw, rfl⟩ := h
    have hd : Op.correction db (.approveAdjustmentRequest claims id at_) =
        some ⟨r.loc, r.reason, r.note, r.lines.map Line.input, claims.sub,
          at_⟩ := by
      rw [Op.correction, hr, Option.map_some]
    exact writeAdjustment_posts hd hw
  case receivePo => exact receivePo_posts h
  case openStock => exact openStock_posts h
  case pay body _ _ =>
    obtain ⟨no, row, hs⟩ := pay_ok h
    exact hs.posts fun l hl => (body.positive l hl).le
  case voidBill =>
    obtain ⟨bill, stamp, -, -, -, hr⟩ := voidBill_ok h
    exact ⟨_, .reversed, congrArg Stock.moves (hr.same .stock (by decide))⟩
  case settleCapture oid p mint at_ =>
    obtain ⟨o, ho, hs⟩ := settleCapture_ok h
    cases hs with
    | again _ => exact posts_nothing rfl
    | refundedBefore _ _ _ => exact posts_nothing rfl
    | duplicate _ _ _ _ => exact posts_nothing rfl
    | unfulfillable _ _ _ _ => exact posts_nothing rfl
    | billed _ _ _ hsold _ _ =>
        refine hsold.posts fun l hl => ?_
        obtain ⟨b, hb, rfl⟩ := List.mem_map.1 hl
        exact Decimal.toRat_nonneg.2 (hk.orders oid o ho b hb)
  case rebuild =>
    subst h
    exact posts_nothing rfl

end Rch
