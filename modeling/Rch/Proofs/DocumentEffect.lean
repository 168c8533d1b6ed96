import Rch.Api.Adjustments
import Rch.Api.Production
import Rch.Api.Receivables
import Rch.Api.ShopAsks
import Rch.Proofs.LedgerEffect

/-!
# What the services that move no stock leave behind

Asks, decisions and settlements write one document each, or two tables of one
document. What each leaves is that table and the moved series.
-/

namespace Rch

open Kit

/-! ## Stock requests -/

theorem createRequest_ok {db db' : Db} {claims : Claims}
    {body : CreateRequestBody} {at_ : Instant}
    (h : createRequest db claims body at_ = .ok db') :
    ∃ r requests, db.requests.insert?
        (formatId .req (db.seq .req) at_) r = some requests ∧
      r.status = .requestSent ∧ (r.lines.map RequestLine.it).Nodup ∧
      db' = { db.advance .req with requests } := by
  unfold createRequest allocateId at h
  simp only [bind_ok, checkEach_ok, assertRule_ok, assertOpen_ok,
    orInternal_ok, exists_const, ite_eq_iff, pure_ok] at h
  obtain ⟨place, -, h⟩ := h
  obtain ⟨-, -, hrep, requests, hins, rfl⟩ : _ ∧ _ := by
    rcases h with ⟨-, -, h⟩ | ⟨-, h⟩
    · exact h
    · exact h
  refine ⟨_, requests, hins, rfl, ?_, rfl⟩
  rw [List.map_map]
  exact nodup_of_repeatedLine hrep

theorem cancelRequest_ok {db db' : Db} {claims : Claims} {id : String}
    (h : cancelRequest db claims id = .ok db') :
    ∃ r, db.requests.get? id = some r ∧ .cancelled ∈ requestTransitions r.status ∧
      db' = setRequestStatus db id .cancelled := by
  simp only [cancelRequest, bind_ok, orNotFound_ok, requireLocOf_ok,
    assertRule_ok, assertTransition_ok, exists_const, ite_eq_iff,
    pure_ok] at h
  obtain ⟨r, hr, h⟩ := h
  obtain ⟨-, hst, rfl⟩ : _ ∧ _ := by
    rcases h with ⟨-, -, h⟩ | ⟨-, h⟩
    · exact h
    · exact h
  exact ⟨r, hr, hst, rfl⟩

/-- A decision: a new status, and lines that name the same items. -/
theorem approveRequest_ok {db db' : Db} {claims : Claims} {id note : String}
    {appr : List ℚ} (h : approveRequest db claims id appr note = .ok db') :
    ∃ r, ∃ plan : ApprovalPlan, db.requests.get? id = some r ∧
      plan.st ∈ requestTransitions r.status ∧
      (plan.st = .rejected ∨ plan.st = .managerApproved ∨
        plan.st = .partiallyApproved) ∧
      plan.lines.map RequestLine.it = r.lines.map RequestLine.it ∧
      db' = modifyRequest db id fun r =>
        { r with
          status := plan.st, managerNote := note,
          approvedBy := some claims.sub, lines := plan.lines } := by
  simp only [approveRequest, bind_ok, orNotFound_ok, assertRule_ok,
    assertTransition_ok, exists_const, pure_ok] at h
  obtain ⟨r, hr, -, hst, rfl⟩ := h
  exact ⟨r, _, hr, hst, planApproval_st_cases _ _ _, planApproval_items _ _ _,
    rfl⟩

theorem rejectRequest_ok {db db' : Db} {claims : Claims} {id note : String}
    (h : rejectRequest db claims id note = .ok db') :
    ∃ r, db.requests.get? id = some r ∧ .rejected ∈ requestTransitions r.status ∧
      db' = modifyRequest db id fun r =>
        { r with
          status := .rejected, managerNote := note,
          approvedBy := some claims.sub } := by
  simp only [rejectRequest, bind_ok, orNotFound_ok, assertRule_ok,
    assertTransition_ok, exists_const, pure_ok] at h
  obtain ⟨r, hr, -, hst, rfl⟩ := h
  exact ⟨r, hr, hst, rfl⟩

/-! ## Kitchen orders and shop asks -/

theorem raiseOrder_ok {db db' : Db} {claims : Claims}
    {body : CreateProdOrderBody} {at_ : Instant}
    (h : raiseOrder db claims body at_ = .ok db') :
    ∃ o prodOrders, db.prodOrders.insert?
        (formatId .prd (db.seq .prd) at_) o = some prodOrders ∧
      db' = { db.advance .prd with prodOrders } := by
  unfold raiseOrder allocateId at h
  simp only [bind_ok, checkEach_ok, assertRule_ok, assertOpen_ok,
    orInternal_ok, exists_const, pure_ok] at h
  obtain ⟨-, outlet, -, -, -, -, -, -, prodOrders, hins, rfl⟩ := h
  exact ⟨_, prodOrders, hins, rfl⟩

theorem setOrderStatus_ok {db db' : Db} {id : String} {st : PordStatus}
    (h : setOrderStatus db id st = .ok db') :
    db' = setProdOrderStatus db id st := by
  simp only [setOrderStatus, bind_ok, orNotFound_ok, assertRule_ok,
    exists_const, pure_ok] at h
  obtain ⟨o, -, -, -, -, rfl⟩ := h
  rfl

theorem askShop_ok {db db' : Db} {claims : Claims} {body : ShopAskBody}
    {at_ : Instant} (h : askShop db claims body at_ = .ok db') :
    ∃ a shopAsks, db.shopAsks.insert?
        (formatId .shopAsk (db.seq .shopAsk) at_) a = some shopAsks ∧
      db' = { db.advance .shopAsk with shopAsks } := by
  unfold askShop allocateId at h
  simp only [bind_ok, assertRule_ok, assertOpen_ok, orNotFound_ok,
    orInternal_ok, exists_const, pure_ok] at h
  obtain ⟨-, asker, -, holder, -, -, -, -, -, -, -, shopAsks, hins, rfl⟩ := h
  exact ⟨_, shopAsks, hins, rfl⟩

theorem declineShopAsk_ok {db db' : Db} {claims : Claims} {id reason : String}
    (h : declineShopAsk db claims id reason = .ok db') :
    ∃ f, db' = { db with shopAsks := db.shopAsks.modify id f } := by
  simp only [declineShopAsk, bind_ok, orNotFound_ok, requireLocOf_ok,
    assertRule_ok, assertTransition_ok, exists_const, pure_ok] at h
  obtain ⟨a, -, -, -, -, rfl⟩ := h
  exact ⟨_, rfl⟩

/-! ## The counter's ask for a correction -/

theorem createAdjustmentRequest_ok {db db' : Db} {claims : Claims}
    {body : CreateAdjustmentRequestBody} {at_ : Instant}
    (h : createAdjustmentRequest db claims body at_ = .ok db') :
    ∃ adjustmentRequests,
      db' = { db.advance .adjReq with adjustmentRequests } := by
  unfold createAdjustmentRequest allocateId at h
  simp only [bind_ok, checkEach_ok, assertRule_ok, assertOpen_ok,
    orInternal_ok, exists_const, ite_eq_iff, pure_ok] at h
  obtain ⟨place, -, h⟩ := h
  obtain ⟨-, -, -, adjustmentRequests, -, rfl⟩ : _ ∧ _ := by
    rcases h with ⟨-, -, h⟩ | ⟨-, h⟩
    · exact h
    · exact h
  exact ⟨adjustmentRequests, rfl⟩

theorem cancelAdjustmentRequest_ok {db db' : Db} {claims : Claims}
    {id : String} (h : cancelAdjustmentRequest db claims id = .ok db') :
    ∃ f, db' = modifyAdjustmentRequest db id f := by
  simp only [cancelAdjustmentRequest, bind_ok, orNotFound_ok, requireLocOf_ok,
    assertTransition_ok, exists_const, ite_eq_iff, pure_ok] at h
  obtain ⟨r, -, h⟩ := h
  obtain ⟨-, rfl⟩ : _ ∧ _ := by
    rcases h with ⟨-, -, h⟩ | ⟨-, h⟩
    · exact h
    · exact h
  exact ⟨_, rfl⟩

theorem rejectAdjustmentRequest_ok {db db' : Db} {claims : Claims}
    {id note : String}
    (h : rejectAdjustmentRequest db claims id note = .ok db') :
    ∃ f, db' = modifyAdjustmentRequest db id f := by
  simp only [rejectAdjustmentRequest, bind_ok, orNotFound_ok, assertRule_ok,
    assertTransition_ok, exists_const, pure_ok] at h
  obtain ⟨r, -, -, -, rfl⟩ := h
  exact ⟨_, rfl⟩

/-! ## Settlements -/

/-- A payer's open bills, as the allocation takes them. -/
def openBillList (db : Db) (kind : PayerKind) (id : String) : List OpenBill :=
  (openBillsFor db kind id).map fun b => ⟨b.no, b.at_, b.owed⟩

/-- What a recorded settlement leaves behind: its head, and the lines its
amount was laid over, with nothing left of it. -/
theorem recordSettlement_ok {db db' : Db} {claims : Claims}
    {body : RecordSettlementBody} {at_ : Instant}
    (h : recordSettlement db claims body at_ = .ok db') :
    ∃ id row lines settlements settlementLines,
      row.kind = body.kind ∧ row.payerId = body.id ∧
      row.amount = round2 body.amount ∧ row.voided = none ∧
      row.amount ≤ (outstandingFor db body.kind body.id).outstanding ∧
      allocateSettlement (openBillList db body.kind body.id) row.amount =
        (lines, 0) ∧
      db.settlements.insert? id row = some settlements ∧
      insertSettlementLines db.settlementLines id lines =
        some settlementLines ∧
      db' = { db.advance .settlement with settlements, settlementLines } := by
  unfold recordSettlement allocateId at h
  simp only [bind_ok, orNotFound_ok, assertRule_ok, orInternal_ok,
    exists_const, pure_ok] at h
  obtain ⟨payer, -, -, hle, hleft, settlements, hs, settlementLines, hl, rfl⟩ := h
  refine ⟨_, _, _, settlements, settlementLines, rfl, rfl, rfl, rfl, hle, ?_,
    hs, hl, rfl⟩
  exact Prod.ext rfl hleft

def stampSettlement (s : VoidStamp) (r : SettlementRow) : SettlementRow :=
  { r with voided := some s }

theorem voidSettlement_ok {db db' : Db} {claims : Claims} {id reason : String}
    {at_ : Instant} (h : voidSettlement db claims id reason at_ = .ok db') :
    ∃ row stamp, db.settlements.get? id = some row ∧ row.voided = none ∧
      db' = { db with
        settlements := db.settlements.modify id (stampSettlement stamp) } := by
  simp only [voidSettlement, bind_ok, orNotFound_ok, assertRule_ok,
    exists_const, pure_ok] at h
  obtain ⟨row, hrow, -, hlive, -, rfl⟩ := h
  exact ⟨row, _, hrow, hlive, rfl⟩

end Rch
