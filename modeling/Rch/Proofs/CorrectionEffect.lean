import Rch.Api.Adjustments
import Rch.Api.Grn
import Rch.Proofs.LedgerEffect

/-!
# What corrections, deliveries and batches leave behind

These services move stock without a ticket. A delivery, a batch and an opening
figure only add, so their moves come to nothing less than zero at every cell.
A correction may take, and where it does it has looked at what is left once
its own moves were posted. None of them is a sale, and none is a ticket's.
-/

namespace Rch

open Kit

/-! ## Batches that only add -/

theorem batchAt_nonneg {moves : List Move} {c : Cell}
    (h : ∀ m ∈ moves, m.cell = c → 0 ≤ m.qty) : 0 ≤ batchAt moves c :=
  sumOn_nonneg fun m hm hc => Decimal.round_nonneg (h m hm hc)

/-- Use on arrival takes back what just landed and nothing more. -/
theorem batchAt_withUseOnArrival_nonneg {types : ItemKey → Option ItemType}
    {moves : List Move} {c : Cell}
    (h : ∀ m ∈ moves, m.cell = c → ∃ q : Qty, m.qty = q ∧ 0 ≤ q) :
    0 ≤ batchAt (withUseOnArrival types moves) c := by
  rw [batchAt_withUseOnArrival]
  apply sumOn_nonneg
  intro m hm hc
  obtain ⟨q, hq, hnn⟩ := h m hm hc
  rw [hq, round3_qty, round3_neg_qty]
  split
  · rw [add_neg_cancel]
  · exact hnn

theorem mem_withUseOnArrival {types : ItemKey → Option ItemType}
    {moves : List Move} {m : Move} (h : m ∈ withUseOnArrival types moves) :
    m.kind = .productionConsume ∨ m ∈ moves := by
  obtain ⟨a, ha, hm⟩ := List.mem_flatMap.1 h
  split at hm
  · rcases List.mem_cons.1 hm with rfl | hm
    · exact .inr ha
    · rw [List.mem_singleton.1 hm]
      exact .inl rfl
  · rw [List.mem_singleton.1 hm]
    exact .inr ha

theorem refType_withUseOnArrival {types : ItemKey → Option ItemType}
    {moves : List Move} {r : String} (h : ∀ m ∈ moves, m.refType ≠ r) :
    ∀ m ∈ withUseOnArrival types moves, m.refType ≠ r := by
  intro m hm
  obtain ⟨a, ha, hm⟩ := List.mem_flatMap.1 hm
  split at hm
  · rcases List.mem_cons.1 hm with rfl | hm
    · exact h _ ha
    · rw [List.mem_singleton.1 hm]
      exact h a ha
  · rw [List.mem_singleton.1 hm]
    exact h a ha

/-! ## Corrections -/

/-- What a correction leaves behind. -/
structure Corrected (db db' : Db) : Prop where
  exists_moves : ∃ cells moves adjustments,
    (∀ c, 0 ≤ batchAt moves c ∨
      0 ≤ freeAt (postMoves (lockBalances db.stock cells) moves) c.loc c.it) ∧
    (∀ m ∈ moves, m.kind ≠ .sale) ∧ (∀ m ∈ moves, m.refType ≠ "ticket") ∧
    db' = { db.advance .adj with
      stock := postMoves (lockBalances db.stock cells) moves
      adjustments }

theorem adjustmentMoves_kind {m : Master} {d : AdjustmentDraft} {id : String}
    {lines : List Line} {x : Move} (h : x ∈ adjustmentMoves m d id lines) :
    x.kind ≠ .sale := by
  rcases mem_withUseOnArrival h with hk | h
  · rw [hk]
    decide
  · obtain ⟨l, -, rfl⟩ := List.mem_map.1 h
    exact nofun

theorem adjustmentMoves_refType {m : Master} {d : AdjustmentDraft}
    {id : String} {lines : List Line} :
    ∀ x ∈ adjustmentMoves m d id lines, x.refType ≠ "ticket" := by
  apply refType_withUseOnArrival
  intro x hx
  obtain ⟨l, -, rfl⟩ := List.mem_map.1 hx
  exact (by decide : "adjustment" ≠ "ticket")

/-- Where no line of a correction takes from a cell, its moves only add
there. -/
theorem batchAt_adjustmentMoves_nonneg {m : Master} {d : AdjustmentDraft}
    {id : String} {lines : List Line} {c : Cell}
    (h : ∀ l ∈ lines, (⟨d.loc, l.it⟩ : Cell) = c → 0 ≤ l.qty) :
    0 ≤ batchAt (adjustmentMoves m d id lines) c := by
  apply batchAt_withUseOnArrival_nonneg
  intro x hx hc
  obtain ⟨l, hl, rfl⟩ := List.mem_map.1 hx
  exact ⟨l.qty, rfl, h l hl hc⟩

theorem writeAdjustment_ok {db : Db} {m : Master} {d : AdjustmentDraft}
    {out : Db × String} (h : writeAdjustment db m d = .ok out) :
    Corrected db out.1 := by
  unfold writeAdjustment allocateId at h
  simp only [bind_ok, checkEach_ok, assertEach_ok, assertRule_ok,
    assertOpen_ok, orInternal_ok, exists_const, pure_ok, ite_eq_iff] at h
  obtain ⟨shelf, -, h⟩ := h
  obtain ⟨-, -, -, -, hleft, adjustments, -, rfl⟩ : _ ∧ _ := by
    rcases h with ⟨-, -, h⟩ | ⟨-, h⟩
    · exact h
    · exact h
  refine ⟨_, _, adjustments, ?_, fun x hx => adjustmentMoves_kind hx,
    adjustmentMoves_refType, rfl⟩
  intro c
  -- either some line takes from this cell, and what was left was looked at,
  -- or every line there adds
  by_cases hc : ∃ l ∈ (foldLines d.lines).filter fun l => decide (l.qty ≠ 0),
      (⟨d.loc, l.it⟩ : Cell) = c ∧ l.qty < 0
  · obtain ⟨l, hl, rfl, hneg⟩ := hc
    refine .inr (hleft ⟨l.it, round3 (-(l.qty : ℚ))⟩ ?_)
    exact List.mem_map.2
      ⟨l, List.mem_filter.2 ⟨hl, decide_eq_true hneg⟩, rfl⟩
  · refine .inl (batchAt_adjustmentMoves_nonneg fun l hl hcell => ?_)
    exact not_lt.1 fun hneg => hc ⟨l, hl, hcell, hneg⟩

theorem createAdjustment_ok {db db' : Db} {claims : Claims}
    {body : CreateAdjustmentBody} {at_ : Instant}
    (h : createAdjustment db claims body at_ = .ok db') : Corrected db db' := by
  simp only [createAdjustment, bind_ok, pure_ok] at h
  obtain ⟨out, hw, rfl⟩ := h
  exact writeAdjustment_ok hw

theorem approveAdjustmentRequest_ok {db db' : Db} {claims : Claims}
    {id : String} {at_ : Instant}
    (h : approveAdjustmentRequest db claims id at_ = .ok db') :
    ∃ db₁ f, Corrected db db₁ ∧ db' = modifyAdjustmentRequest db₁ id f := by
  simp only [approveAdjustmentRequest, bind_ok, orNotFound_ok,
    assertTransition_ok, exists_const, pure_ok] at h
  obtain ⟨r, -, -, out, hw, rfl⟩ := h
  exact ⟨_, _, writeAdjustment_ok hw, rfl⟩

/-! ## Deliveries -/

theorem mem_receiptMoves {p : ReceiptPair} {rid by_ : String} {at_ : Instant}
    {m : Move} (h : m ∈ receiptMoves p rid by_ at_) :
    0 ≤ m.qty ∧ m.kind ≠ .sale ∧ m.refType ≠ "ticket" := by
  have hgrn : "grn" ≠ "ticket" := by decide
  unfold receiptMoves at h
  dsimp only at h
  rcases List.mem_append.1 h with h | h
  · split at h
    · next hq =>
        rw [List.mem_singleton.1 h]
        exact ⟨Decimal.toRat_nonneg.2 hq.le, nofun, hgrn⟩
    · cases h
  · split at h
    · next hq =>
        rw [List.mem_singleton.1 h]
        exact ⟨Decimal.toRat_nonneg.2 (Decimal.round_nonneg hq.le), nofun, hgrn⟩
    · cases h

theorem mem_receiptRows {id dc : String} {body : ReceivePoBody} {by_ : String}
    {at_ : Instant} {n : ℕ} {pairs : List ReceiptPair} {m : Move}
    (h : m ∈ (receiptRows id dc body by_ at_ n pairs).2) :
    0 ≤ m.qty ∧ m.kind ≠ .sale ∧ m.refType ≠ "ticket" := by
  induction pairs generalizing n with
  | nil => cases h
  | cons p rest ih =>
      unfold receiptRows at h
      split at h
      · rcases List.mem_append.1 h with h | h
        · exact mem_receiptMoves h
        · exact ih h
      · exact ih h

theorem receivePo_ok {db db' : Db} {claims : Claims} {id : String}
    {body : ReceivePoBody} {at_ : Instant}
    (h : receivePo db claims id body at_ = .ok db') :
    ∃ moves grns purchaseOrders,
      (∀ m ∈ moves, 0 ≤ m.qty ∧ m.kind ≠ .sale ∧ m.refType ≠ "ticket") ∧
      db' = { db with
        grns, stock := postMoves db.stock moves, purchaseOrders } := by
  simp only [receivePo, bind_ok, orNotFound_ok, assertRule_ok, assertEach_ok,
    checkEach_ok, orInternal_ok, assertTransition_ok, exists_const,
    pure_ok] at h
  obtain ⟨o, -, -, -, -, -, -, -, grns, -, -, rfl⟩ := h
  exact ⟨_, grns, _, fun m hm => mem_receiptRows hm, rfl⟩

/-! ## Batches and opening figures -/

def Gained (db db' : Db) : Prop :=
  ∃ moves seq batches,
    (∀ c, 0 ≤ batchAt moves c) ∧ (∀ m ∈ moves, m.kind ≠ .sale) ∧
    (∀ m ∈ moves, m.refType ≠ "ticket") ∧
    db' = { db with seq, stock := postMoves db.stock moves, batches }

theorem writeBatch_ok {db db' : Db} {d : BatchDraft}
    (h : writeBatch db d = .ok db') : Gained db db' := by
  unfold writeBatch allocateId at h
  simp only [bind_ok, guardOr_ok, orInternal_ok, exists_const, pure_ok] at h
  obtain ⟨-, batches, -, rfl⟩ := h
  by_cases hmade : 0 < d.made
  · rw [if_pos hmade]
    refine ⟨_, _, batches, fun c => batchAt_nonneg fun m hm _ => ?_,
      fun m hm => ?_, fun m hm => ?_, rfl⟩
    · rw [List.mem_singleton.1 hm]
      exact Decimal.toRat_nonneg.2 hmade.le
    · rw [List.mem_singleton.1 hm]
      intro hkind
      cases hkind
    · rw [List.mem_singleton.1 hm]
      exact (by decide : "batch" ≠ "ticket")
  · rw [if_neg hmade]
    exact ⟨[], _, batches, fun _ => le_refl 0, List.forall_mem_nil _, List.forall_mem_nil _, rfl⟩

theorem makeBatch_ok {db db' : Db} {claims : Claims} {body : MakeBatchBody}
    {at_ : Instant} (h : makeBatch db claims body at_ = .ok db') :
    Gained db db' := by
  simp only [makeBatch, bind_ok, assertRule_ok, orNotFound_ok,
    exists_const] at h
  obtain ⟨-, -, item, -, -, -, -, -, hw⟩ := h
  exact writeBatch_ok hw

theorem openStock_ok {db db' : Db} {claims : Claims} {atKitchen : Bool}
    {key : ItemKey} {opening : ℚ} {at_ : Instant}
    (h : openStock db claims atKitchen key opening at_ = .ok db') :
    Gained db db' := by
  simp only [openStock, bind_ok, assertRule_ok, orNotFound_ok, exists_const,
    ite_eq_iff, pure_ok] at h
  obtain ⟨item, -, h⟩ := h
  obtain ⟨hq, ⟨-, hw⟩ | ⟨-, rfl⟩⟩ | ⟨-, rfl⟩ : _ ∨ _ := by
    rcases h with ⟨-, -, h⟩ | ⟨-, h⟩
    · exact h
    · exact h
  · exact writeBatch_ok hw
  · refine ⟨_, db.seq, db.batches, fun c => ?_, fun m hm => ?_,
      refType_withUseOnArrival fun m hm => ?_, rfl⟩
    · apply batchAt_withUseOnArrival_nonneg
      intro m hm _
      rw [List.mem_singleton.1 hm]
      exact ⟨round3 opening, rfl, hq.le⟩
    · rcases mem_withUseOnArrival hm with hk | hm
      · rw [hk]
        intro hkind
        cases hkind
      · rw [List.mem_singleton.1 hm]
        intro hkind
        cases hkind
    · rw [List.mem_singleton.1 hm]
      exact (by decide : "item" ≠ "ticket")
  · exact ⟨[], db.seq, db.batches, fun _ => le_refl 0, List.forall_mem_nil _, List.forall_mem_nil _, rfl⟩

end Rch
