import Rch.Machine.Procurement
import Rch.Proofs.LedgerEffect

/-!
# What one instalment does

An accepted delivery read its order open, judged every line that arrived
against the running net, and wrote a document and at most two moves for each of
them.
-/

namespace Rch

open Kit

/-- The order once the instalment is on it. -/
def landed (o : PurchaseOrderRow) (body : ReceivePoBody) (at_ : Instant)
    (row : PurchaseOrderRow) : PurchaseOrderRow :=
  let lines := (o.lines.zip body.lines).map landLine
  { row with
    status := receiptStatus (lines.map fun l => (l.qty, l.recv, l.rejected))
    receivedAt := some at_, lines }

def instalment (db : Db) (claims : Claims) (id : String) (body : ReceivePoBody)
    (at_ : Instant) (o : PurchaseOrderRow) : List (String × GrnRow) × List Move :=
  receiptRows id (trim body.dc) body claims.sub at_
    (db.grns.rows.filter fun g => decide (g.2.po = id)).length
    (o.lines.zip body.lines)

structure Landed (db : Db) (claims : Claims) (id : String) (body : ReceivePoBody)
    (at_ : Instant) (db' : Db) (o : PurchaseOrderRow) (grns : Table String GrnRow) :
    Prop where
  found : db.purchaseOrders.get? id = some o
  due : o.status = .ordered ∨ o.status = .partiallyReceived
  paired : body.lines.length = o.lines.length
  /-- what is rejected of a line arrived on it -/
  arrived : ∀ p ∈ o.lines.zip body.lines, 0 < p.2.recv ∨ p.2.rejected ≤ 0
  rejected : ∀ p ∈ o.lines.zip body.lines, 0 < p.2.recv →
    0 ≤ p.2.rejected ∧ p.2.rejected ≤ p.2.recv
  within : ∀ p ∈ o.lines.zip body.lines, 0 < p.2.recv →
    round3 ((netReceived p.1.recv p.1.rejected : ℚ) + p.2.recv) ≤
      round3 ((p.1.qty : ℚ) * RECEIPT_TOLERANCE)
  numbered : insertGrns db.grns (instalment db claims id body at_ o).1 = some grns
  wrote : db' =
    { db with
      grns
      stock := postMoves db.stock (instalment db claims id body at_ o).2
      purchaseOrders := db.purchaseOrders.modify id (landed o body at_) }

theorem receivePo_landed {db db' : Db} {claims : Claims} {id : String}
    {body : ReceivePoBody} {at_ : Instant}
    (h : receivePo db claims id body at_ = .ok db') :
    ∃ o grns, Landed db claims id body at_ db' o grns := by
  simp only [receivePo, bind_ok, orNotFound_ok, assertRule_ok, assertEach_ok,
    checkEach_ok, orInternal_ok, assertTransition_ok, exists_const,
    pure_ok] at h
  obtain ⟨o, ho, hdue, -, hlen, -, harrived, hchecked, grns, hgrns, -, rfl⟩ := h
  have hcheck : ∀ p ∈ o.lines.zip body.lines, 0 < p.2.recv →
      checkReceiptLine (db.master.itemName p.1.it) (db.master.unitOf p.1.it)
        p.1.qty (netReceived p.1.recv p.1.rejected) p.2 (istDate at_) = none := by
    intro p hp hrecv
    have hline := hchecked p hp
    rw [if_pos hrecv] at hline
    split at hline
    · cases hline
    · next hnone => exact hnone
  exact ⟨o, grns,
    { found := ho
      due := hdue
      paired := hlen
      arrived := harrived
      rejected := fun p hp hrecv => checkReceiptLine_none (hcheck p hp hrecv)
      within := fun p hp hrecv => checkReceiptLine_within (hcheck p hp hrecv)
      numbered := hgrns
      wrote := rfl }⟩

/-! ## A line with the instalment on it -/

section Line

variable {p : ReceiptPair}

@[simp] theorem landLine_it (p : ReceiptPair) : (landLine p).it = p.1.it := by
  unfold landLine
  split
  · rfl
  · rfl

@[simp] theorem landLine_qty (p : ReceiptPair) : (landLine p).qty = p.1.qty := by
  unfold landLine
  split
  · rfl
  · rfl

def PoLine.asked (l : PoLine) : ItemKey × Qty := (l.it, l.qty)

theorem landed_asked {o row : PurchaseOrderRow} {body : ReceivePoBody} {at_ : Instant}
    (hpaired : body.lines.length = o.lines.length) :
    (landed o body at_ row).lines.map PoLine.asked = o.lines.map PoLine.asked := by
  have hfst : (o.lines.zip body.lines).map Prod.fst = o.lines :=
    List.map_fst_zip hpaired.ge
  change ((o.lines.zip body.lines).map landLine).map PoLine.asked = _
  conv_rhs => rw [← hfst]
  rw [List.map_map, List.map_map]
  apply List.map_congr_left
  intro p _
  simp only [Function.comp, PoLine.asked, landLine_it, landLine_qty]

/-- What arrived on the line now, of nothing where nothing did. -/
def ReceiptPair.took (p : ReceiptPair) : Qty :=
  if 0 < p.2.recv then round3 p.2.recv else 0

def ReceiptPair.refused (p : ReceiptPair) : Qty :=
  if 0 < p.2.recv then round3 p.2.rejected else 0

theorem landLine_recv (p : ReceiptPair) :
    (landLine p).recv = p.1.recv + ReceiptPair.took p := by
  unfold landLine ReceiptPair.took
  split
  · exact round3_add ..
  · exact (add_zero _).symm

theorem landLine_rejected (p : ReceiptPair) :
    (landLine p).rejected = p.1.rejected + ReceiptPair.refused p := by
  unfold landLine ReceiptPair.refused
  split
  · exact round3_add ..
  · exact (add_zero _).symm

theorem ReceiptPair.refused_nonneg
    (h : 0 < p.2.recv → 0 ≤ p.2.rejected ∧ p.2.rejected ≤ p.2.recv) :
    0 ≤ ReceiptPair.refused p := by
  unfold ReceiptPair.refused
  split
  · next hrecv => exact Decimal.round_nonneg (h hrecv).1
  · exact le_refl 0

theorem ReceiptPair.refused_le
    (h : 0 < p.2.recv → 0 ≤ p.2.rejected ∧ p.2.rejected ≤ p.2.recv) :
    ReceiptPair.refused p ≤ ReceiptPair.took p := by
  unfold ReceiptPair.refused ReceiptPair.took
  split
  · next hrecv => exact Decimal.round_mono (h hrecv).2
  · exact le_refl 0

end Line

end Rch
