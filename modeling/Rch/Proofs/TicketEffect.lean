import Rch.Api.Production
import Rch.Api.Requests
import Rch.Api.ShopAsks
import Rch.Proofs.LedgerEffect

/-!
# What each ticket operation leaves behind

Six services write a ticket and three move one on. Each is reduced here to the
tables it rewrites and the facts its refusals guaranteed, so that no later
proof opens a service again.

A written ticket is `Wrote`: the row, and the holds it asked for. What differs
between the six writers is how they made sure of the cover, and each does so
for every line it sends.
-/

namespace Rch

open Kit

/-! ## Writing one -/

def holdsOf (from_ : LocKey) (lines : List Line) (id : String) : List Hold :=
  lines.map fun l => ⟨from_, l.it, l.qty, id⟩

/-- What `writeTicket` leaves behind. -/
structure Wrote (db : Db) (draft : TicketDraft) (no : TicketNumber) (db' : Db) :
    Prop where
  loaded : ticketLinesOf draft.lines ≠ []
  apart : draft.from_ ≠ draft.to_
  tickets : db.tickets.insert? no.id (newTicket draft no.otp) = some db'.tickets
  stock : reserve db.stock
    (holdsOf draft.from_ (ticketLinesOf draft.lines) no.id) = .ok db'.stock
  rest : db' = { db with tickets := db'.tickets, stock := db'.stock }

theorem writeTicket_ok {db db' : Db} {draft : TicketDraft} {no : TicketNumber}
    (h : writeTicket db draft no = .ok db') : Wrote db draft no db' := by
  simp only [writeTicket, bind_ok, assertRule_ok, guardOr_ok, orInternal_ok,
    pure_ok, exists_const] at h
  obtain ⟨hloaded, hapart, tickets, ht, stock, hs, rfl⟩ := h
  exact ⟨hloaded, hapart, ht, hs, rfl⟩

/-- A service took the next number, locked some cells, and wrote a ticket. -/
def WroteTicket (db : Db) (draft : TicketDraft) (no : TicketNumber)
    (db' : Db) : Prop :=
  ∃ cells, Wrote
    { db.advance .tkt with stock := lockBalances db.stock cells } draft no db'

/-- The ticket was written with the cover it needs: nothing it sends is more
than what was free where it leaves from. -/
structure Sent (db : Db) (draft : TicketDraft) (no : TicketNumber) (db' : Db) :
    Prop where
  covered : ∀ l ∈ ticketLinesOf draft.lines,
    l.qty ≤ freeAt db.stock draft.from_ l.it
  wrote : WroteTicket db draft no db'

/-- The lines of a ticket that is not a bag of repeats are the lines it was
asked for, rounded. -/
theorem mem_ticketLinesOf {lines : List LineInput}
    (hn : (lines.map LineInput.it).Nodup) {l : Line}
    (h : l ∈ ticketLinesOf lines) :
    ∃ b ∈ lines, b.it = l.it ∧ l.qty = round3 b.qty := by
  have hl := (List.mem_filter.1 h).1
  obtain ⟨b, hb, hit⟩ := mem_foldLines_it hl
  refine ⟨b, hb, hit, ?_⟩
  rw [mem_foldLines_qty hl, ← hit]
  exact sumOn_eq_of_mem hn hb fun b => round3 b.qty

theorem mem_ticketLinesOf_single {it : ItemKey} {qty : ℚ} {l : Line}
    (h : l ∈ ticketLinesOf [⟨it, qty⟩]) : l.it = it ∧ l.qty = round3 qty := by
  obtain ⟨b, hb, hit, hqty⟩ := mem_ticketLinesOf (by simp) h
  rw [List.mem_singleton.1 hb] at hit hqty
  exact ⟨hit.symm, hqty⟩

theorem mem_ticketLinesOf_input {lines : List Line}
    (hn : (lines.map Line.it).Nodup) {l : Line}
    (h : l ∈ ticketLinesOf (lines.map Line.input)) : l ∈ lines := by
  have hn' : ((lines.map Line.input).map LineInput.it).Nodup := by
    rw [List.map_map]
    exact hn
  obtain ⟨b, hb, hit, hqty⟩ := mem_ticketLinesOf hn' h
  obtain ⟨a, ha, rfl⟩ := List.mem_map.1 hb
  have hla : l = a := by
    cases l
    cases a
    simp only [Line.input, round3_qty] at hit hqty
    rw [hit, hqty]
  exact hla ▸ ha

theorem ticketLinesOf_nodup (lines : List LineInput) :
    ((ticketLinesOf lines).map Line.it).Nodup :=
  (foldLines_nodup lines).sublist (List.filter_sublist.map Line.it)

/-! ## The six writers -/

theorem transfer_ok {db db' : Db} {claims : Claims} {body : TransferBody}
    {draw : OtpDraw} {at_ : Instant}
    (h : transfer db claims body draw at_ = .ok db') :
    ∃ draft no, draft.refType = .shopTransfer ∧
      draft.refId = "Shop transfer" ∧ Sent db draft no db' := by
  unfold transfer allocateTicket at h
  simp only [bind_ok, assertRule_ok, orNotFound_ok, assertOpen_ok,
    exists_const] at h
  obtain ⟨-, item, -, -, source, -, target, -, -, -, -, hfree, hw⟩ := h
  refine ⟨_, _, rfl, rfl, ⟨?_, _, writeTicket_ok hw⟩⟩
  intro l hl
  obtain ⟨hit, hqty⟩ := mem_ticketLinesOf_single hl
  rw [lockBalances_freeAt] at hfree
  rw [hqty, hit]
  exact round3_le_of_le hfree

theorem distribute_ok {db db' : Db} {claims : Claims} {body : DistributeBody}
    {draw : OtpDraw} {at_ : Instant}
    (h : distribute db claims body draw at_ = .ok db') :
    ∃ draft no, draft.refType = .direct ∧ draft.refId = "Direct issue" ∧
      Sent db draft no db' := by
  unfold distribute allocateTicket at h
  simp only [bind_ok, assertRule_ok, orNotFound_ok, assertOpen_ok,
    exists_const, ite_eq_iff] at h
  obtain ⟨-, item, -, -, -, target, -, -, h⟩ := h
  obtain ⟨hfree, hw⟩ : _ ∧ _ := by
    rcases h with ⟨-, -, -, h⟩ | ⟨-, h⟩
    · exact h
    · exact h
  refine ⟨_, _, rfl, rfl, ⟨?_, _, writeTicket_ok hw⟩⟩
  intro l hl
  obtain ⟨hit, hqty⟩ := mem_ticketLinesOf_single hl
  rw [lockBalances_freeAt] at hfree
  rw [hqty, hit]
  exact round3_le_of_le hfree

theorem modifyRequest_requests (db : Db) (id : String)
    (f : RequestRow → RequestRow) :
    (modifyRequest db id f).requests = db.requests.modify id f := rfl

theorem issueRequest_ok {db db' : Db} {claims : Claims} {id : String}
    {draw : OtpDraw} {at_ : Instant}
    (h : issueRequest db claims id draw at_ = .ok db') :
    ∃ r draft no db₁, db.requests.get? id = some r ∧
      .ticketIssued ∈ requestTransitions r.status ∧
      draft.refType = .request ∧ draft.refId = id ∧ Sent db draft no db₁ ∧
      db' = modifyRequest db₁ id fun r =>
        { r with status := .ticketIssued, ticketId := some no.id } := by
  unfold issueRequest allocateTicket at h
  simp only [bind_ok, assertRule_ok, orNotFound_ok, assertTransition_ok,
    assertEach_ok, exists_const, pure_ok] at h
  obtain ⟨r, hr, hst, -, hfree, db₁, hw, rfl⟩ := h
  refine ⟨r, _, _, db₁, hr, hst, rfl, rfl, ⟨?_, _, writeTicket_ok hw⟩, rfl⟩
  intro l hl
  have := hfree l (mem_ticketLinesOf_input (foldLines_nodup _) hl)
  rwa [lockBalances_freeAt] at this

/-- A redirect checks the cover line by line, which is enough where the
request names each item once. -/
theorem redirectRequest_ok {db db' : Db} {claims : Claims} {id : String}
    {source : LocKey} {draw : OtpDraw} {at_ : Instant}
    (h : redirectRequest db claims id source draw at_ = .ok db') :
    ∃ r draft no db₁, db.requests.get? id = some r ∧
      r.status = .requestSent ∧ draft.refType = .shopTransfer ∧
      draft.refId = id ∧ WroteTicket db draft no db₁ ∧
      ((r.lines.map RequestLine.it).Nodup → Sent db draft no db₁) ∧
      db' = modifyRequest db₁ id fun r =>
        { r with
          status := .ticketIssued, ticketId := some no.id,
          approvedBy := some claims.sub,
          lines := r.lines.map fun l =>
            { l with appr := l.qty, short := some 0 } } := by
  unfold redirectRequest allocateTicket at h
  simp only [bind_ok, assertRule_ok, orNotFound_ok, exists_const,
    pure_ok] at h
  obtain ⟨r, hr, hst, -, -, -, hshort, db₁, hw, rfl⟩ := h
  have hwrote := writeTicket_ok hw
  refine ⟨r, _, _, db₁, hr, hst, rfl, rfl, ⟨_, hwrote⟩,
    fun hn => ⟨?_, _, hwrote⟩, rfl⟩
  intro l hl
  have hnl : ((r.lines.map fun l => (⟨l.it, l.qty⟩ : LineInput)).map
      LineInput.it).Nodup := by
    rw [List.map_map]
    exact hn
  obtain ⟨b, hb, hit, hqty⟩ := mem_ticketLinesOf hnl hl
  obtain ⟨a, ha, rfl⟩ := List.mem_map.1 hb
  have hcov := List.filter_eq_nil_iff.1 hshort a ha
  rw [decide_eq_true_iff, not_lt, lockBalances_freeAt] at hcov
  rw [hqty, ← hit, round3_qty]
  exact hcov

theorem dispatchOrder_ok {db db' : Db} {claims : Claims} {id : String}
    {draw : OtpDraw} {at_ : Instant}
    (h : dispatchOrder db claims id draw at_ = .ok db') :
    ∃ o draft no db₁, db.prodOrders.get? id = some o ∧
      draft.refType = .prodOrder ∧ draft.refId = id ∧ Sent db draft no db₁ ∧
      db' = setProdOrderStatus db₁ id .dispatched := by
  unfold dispatchOrder allocateTicket at h
  simp only [bind_ok, assertRule_ok, orNotFound_ok, assertEach_ok,
    exists_const, pure_ok] at h
  obtain ⟨o, ho, -, -, -, hshort, db₁, hw, rfl⟩ := h
  refine ⟨o, _, _, db₁, ho, rfl, rfl, ⟨?_, _, writeTicket_ok hw⟩, rfl⟩
  intro l hl
  have hcov := List.filter_eq_nil_iff.1 hshort l
    (mem_ticketLinesOf_input (foldLines_nodup _) hl)
  rwa [decide_eq_true_iff, not_lt, lockBalances_freeAt] at hcov

theorem answerShopAsk_ok {db db' : Db} {claims : Claims} {id : String}
    {grant : ℚ} {draw : OtpDraw} {at_ : Instant}
    (h : answerShopAsk db claims id grant draw at_ = .ok db') :
    ∃ a draft no db₁, db.shopAsks.get? id = some a ∧
      draft.refType = .shopAsk ∧ draft.refId = id ∧ Sent db draft no db₁ ∧
      db' = { db₁ with shopAsks := db₁.shopAsks.modify id fun a =>
        { a with
          status := .sent, grantedQty := some (round3 grant),
          ticketId := some no.id } } := by
  unfold answerShopAsk allocateTicket at h
  simp only [bind_ok, assertRule_ok, orNotFound_ok, requireLocOf_ok,
    assertTransition_ok, exists_const, pure_ok] at h
  obtain ⟨a, ha, -, -, item, -, -, -, hfree, db₁, hw, rfl⟩ := h
  refine ⟨a, _, _, db₁, ha, rfl, rfl, ⟨?_, _, writeTicket_ok hw⟩, rfl⟩
  intro l hl
  obtain ⟨hit, hqty⟩ := mem_ticketLinesOf_single hl
  rw [lockBalances_freeAt] at hfree
  rw [hqty, hit, round3_qty]
  exact hfree

/-! ## Moving one on -/

/-- The requests once the ticket behind one has moved on. -/
def stepRequest (db : Db) (refId : String) (next : ReqStatus) :
    Table String RequestRow :=
  match linkedRequest db refId with
  | some r =>
    if next ∈ requestTransitions r.status then
      db.requests.modify refId fun r => { r with status := next }
    else db.requests
  | none => db.requests

theorem stepRequest_eq {db db' : Db} (hr : db'.requests = db.requests)
    (refId : String) (next : ReqStatus) :
    (match linkedRequest db refId with
      | some r =>
        if canTransition requestTransitions r.status next then
          setRequestStatus db' refId next
        else db'
      | none => db') = { db' with requests := stepRequest db refId next } := by
  unfold stepRequest setRequestStatus
  rw [hr]
  cases linkedRequest db refId with
  | none =>
      rw [← hr]
  | some r =>
      simp only [canTransition_iff]
      split
      · rfl
      · rw [← hr]

/-- A scan at the window either counts a wrong code or hands the stock over,
from a shelf that had it. -/
theorem handover_ok {db db' : Db} {claims : Claims} {id : String}
    {body : HandoverBody} {at_ : Instant} {e : Option String}
    (h : handover db claims id body at_ = .ok (db', e)) :
    ∃ t, db.tickets.get? id = some t ∧ t.st = .issued ∧
      (db' = countWrongOtp db id ∨
        ∃ moves, moves = ticketMoves t id t.from_ (fun q => -q) .ticketOut
            claims.sub at_ ∧
          (∀ l ∈ t.lines,
            0 ≤ (postMoves db.stock moves).onHand ⟨t.from_, l.it⟩) ∧
          db' = { db with
            stock := releaseForTicket (postMoves db.stock moves) id at_
            tickets := db.tickets.modify id fun t =>
              { t with st := .collected, collectedAt := some at_ }
            requests := stepRequest db t.refId .collected }) := by
  unfold handover at h
  simp only [bind_ok, assertRule_ok, orNotFound_ok, requireLocOf_ok,
    assertTransition_ok, assertEach_ok, exists_const, pure_ok, ite_eq_iff,
    Prod.mk.injEq] at h
  obtain ⟨t, ht, -, hst, -, h⟩ := h
  have hissued : t.st = .issued := by
    cases hs : t.st <;> simp [hs, ticketTransitions] at hst ⊢
  refine ⟨t, ht, hissued, ?_⟩
  rcases h with ⟨-, hdb, -⟩ | ⟨-, hleft, hdb, -⟩
  · exact .inl hdb.symm
  · refine .inr ⟨_, rfl, hleft, ?_⟩
    rw [← hdb]
    exact stepRequest_eq (by rfl) _ _

theorem receive_ok {db db' : Db} {claims : Claims} {id : String}
    {at_ : Instant} (h : receive db claims id at_ = .ok db') :
    ∃ t, db.tickets.get? id = some t ∧ t.st = .collected ∧
      db' = { db with
        stock := postMoves db.stock (withUseOnArrival (loadItemTypes db.rows)
          (ticketMoves t id t.to_ (fun q => q) .ticketIn claims.sub at_))
        tickets := db.tickets.modify id fun t =>
          { t with st := .received, receivedAt := some at_ }
        requests := stepRequest db t.refId .closed } := by
  unfold receive at h
  simp only [bind_ok, orNotFound_ok, requireLocOf_ok, assertTransition_ok,
    exists_const, pure_ok] at h
  obtain ⟨t, ht, -, hst, hdb⟩ := h
  have hcollected : t.st = .collected := by
    cases hs : t.st <;> simp [hs, ticketTransitions] at hst ⊢
  refine ⟨t, ht, hcollected, ?_⟩
  rw [← hdb]
  exact stepRequest_eq (by rfl) _ _

/-- What `reopenDocument` does: one document is put back, the one the ticket's
own type says it was written for, or none is. -/
inductive Reopened (db : Db) (t : TicketRow) : Db → Prop
  | request {r : RequestRow} (ht : t.refType = .request)
      (hr : linkedRequest db t.refId = some r) (hs : r.status = .ticketIssued) :
      Reopened db t (releaseRequest db t.refId)
  | prodOrder (ht : t.refType = .prodOrder) :
      Reopened db t (setProdOrderStatus db t.refId .ready)
  | shopAsk (ht : t.refType = .shopAsk) :
      Reopened db t (reopenShopAsk db t.refId)
  | nothing (h : t.refType = .request → linkedRequest db t.refId = none) :
      Reopened db t db

theorem reopenDocument_ok {db db' : Db} {t : TicketRow}
    (h : reopenDocument db t = .ok db') : Reopened db t db' := by
  unfold reopenDocument at h
  split at h
  · next ht =>
      split at h
      · next hr =>
          cases pure_ok.1 h
          exact .nothing fun _ => hr
      · next r hr =>
          simp only [bind_ok, assertRule_ok, exists_const, pure_ok] at h
          obtain ⟨hs, rfl⟩ := h
          exact .request ht hr hs
  · next ht =>
      split at h
      · cases pure_ok.1 h
        exact .nothing fun h => by simp [ht] at h
      · simp only [bind_ok, assertRule_ok, exists_const, pure_ok] at h
        obtain ⟨-, rfl⟩ := h
        exact .prodOrder ht
  · next ht =>
      split at h
      · cases pure_ok.1 h
        exact .nothing fun h => by simp [ht] at h
      · simp only [bind_ok, assertTransition_ok, exists_const, pure_ok] at h
        obtain ⟨-, rfl⟩ := h
        exact .shopAsk ht
  · next ht =>
      cases pure_ok.1 h
      exact .nothing fun h => by simp [ht] at h
  · next ht =>
      cases pure_ok.1 h
      exact .nothing fun h => by simp [ht] at h

theorem cancelTicket_ok {db db' : Db} {claims : Claims} {id reason : String}
    {at_ : Instant} (h : cancelTicket db claims id reason at_ = .ok db') :
    ∃ t, db.tickets.get? id = some t ∧ t.st = .issued ∧
      Reopened (voidTicket db id at_) t db' := by
  unfold cancelTicket at h
  simp only [bind_ok, assertRule_ok, orNotFound_ok, requireLocOf_ok,
    canTransition_iff, exists_const] at h
  obtain ⟨t, ht, -, -, hst, h⟩ := h
  have hissued : t.st = .issued := by
    cases hs : t.st <;> simp [hs, ticketTransitions] at hst ⊢
  exact ⟨t, ht, hissued, reopenDocument_ok h⟩

end Rch
