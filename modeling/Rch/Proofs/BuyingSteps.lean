import Rch.Machine.Procurement
import Rch.Proofs.ClaimsGiven
import Rch.Proofs.Frame

/-!
# What a write of the buying desk does

Said once for each service. A write of an order rewrites its two halves and
gives back some claims; which rewrites there are is `PoRewrite`, and every
invariant of the order book is a case analysis of it. The claim on a requisition
line moves in `addOrdered` alone, by what the deltas come to on that line.
-/

namespace Rch

open Kit

theorem Op.buys_iff (op : Op) : op.buys = true ↔ Part.buying ∈ op.touches := by
  cases op <;> simp [Op.buys, Op.touches]

/-! ## The claim on a line -/

section Ordered

variable {sign : ℤ} {prq prq' : Table String RequisitionRow}

theorem requisitionLine_moveOrdered (d : ClaimSrc) (k : String × ℕ) :
    requisitionLine (moveOrdered sign d prq) k =
      (requisitionLine prq k).map fun l =>
        { l with ordered := l.ordered + if d.key = k then sign • d.qty else 0 } := by
  unfold requisitionLine moveOrdered
  rw [Table.get?_modify]
  by_cases hid : k.1 = d.prq
  · rw [if_pos hid, Option.bind_map, Option.map_bind]
    congr 1
    funext r
    change (r.lines.modify d.line _)[k.2]? = _
    rw [List.getElem?_modify]
    congr 1
    funext l
    by_cases hline : d.line = k.2
    · have hkey : d.key = k := Prod.ext hid.symm hline
      rw [if_pos hline, if_pos hkey]
    · have hkey : d.key ≠ k := fun h => hline (congrArg Prod.snd h)
      rw [if_neg hline, if_neg hkey, add_zero]
  · have hkey : d.key ≠ k := fun h => hid (congrArg Prod.fst h).symm
    rw [if_neg hid]
    simp only [if_neg hkey, add_zero, Option.map_id']

theorem zsmul_claimed_cons (d : ClaimSrc) (deltas : List ClaimSrc) (k : String × ℕ) :
    sign • claimed (d :: deltas) k =
      (if d.key = k then sign • d.qty else 0) + sign • claimed deltas k := by
  rw [claimed_cons, zsmul_add]
  split
  · rfl
  · rw [zsmul_zero]

theorem addOrdered_line {deltas : List ClaimSrc}
    (h : addOrdered sign deltas prq = .ok prq') (k : String × ℕ) :
    requisitionLine prq' k = (requisitionLine prq k).map fun l =>
      { l with ordered := l.ordered + sign • claimed deltas k } := by
  induction deltas generalizing prq with
  | nil =>
      cases h
      have hnil : claimed [] k = 0 := rfl
      simp only [hnil, zsmul_zero, add_zero, Option.map_id']
  | cons d deltas ih =>
      simp only [addOrdered, bind_ok, assertCk, guardOr_ok, exists_const] at h
      rw [ih h.2, requisitionLine_moveOrdered, Option.map_map, zsmul_claimed_cons]
      congr 1
      funext l
      simp only [Function.comp, add_assoc]

/-- No statement leaves a line with more ordered than approved. -/
theorem addOrdered_ck {deltas : List ClaimSrc}
    (h : addOrdered sign deltas prq = .ok prq')
    (hck : ∀ k l, requisitionLine prq k = some l → l.Ck) :
    ∀ k l, requisitionLine prq' k = some l → l.Ck := by
  induction deltas generalizing prq with
  | nil =>
      cases h
      exact hck
  | cons d deltas ih =>
      simp only [addOrdered, bind_ok, assertCk, guardOr_ok, exists_const] at h
      refine ih h.2 fun k l hl => ?_
      by_cases hkey : d.key = k
      · subst hkey
        exact h.1 l hl
      · rw [requisitionLine_moveOrdered] at hl
        simp only [if_neg hkey, add_zero, Option.map_id'] at hl
        exact hck k l hl

end Ordered

/-! ## What a rewrite of an order may be -/

/-- A line but for its rate. -/
def DraftLine.unpriced (l : DraftLine) : ItemKey × Qty × List ClaimSrc :=
  (l.it, l.qty, l.src)

/-- The halves of an order whose lines were written anew. -/
def PurchaseOrderRow.written (o : PurchaseOrderRow) (lines : List DraftLine) :
    PurchaseOrderRow :=
  { o with lines := lines.map fun l => ⟨l.it, l.qty, 0, 0⟩ }

def PoHead.written (h : PoHead) (lines : List DraftLine) : PoHead :=
  { h with terms := lines.map fun l => ⟨l.rate, l.src⟩ }

/-- The rewrites of an order outside the receiving door, with the claims each
gives back. -/
inductive PoRewrite (o : PurchaseOrderRow) (h : PoHead) :
    PurchaseOrderRow → PoHead → List ClaimSrc → Prop
  | cut {n : ℕ} {line : DraftLine} {want : Qty} {rate : Money}
      (hst : o.status = .draft) (hline : (draftLines o h)[n]? = some line)
      (hpos : 0 < want) (hle : want ≤ line.qty) {lines : List DraftLine}
      (hlines : lines = (draftLines o h).modify n fun l =>
        { l with
          qty := want, rate, src := (releaseClaim line.src (line.qty - want : Qty)).2 }) :
      PoRewrite o h (o.written lines) (h.written lines)
        (releaseClaim line.src (line.qty - want : Qty)).1
  | removed {n : ℕ} {line : DraftLine} (hst : o.status = .draft)
      (hline : (draftLines o h)[n]? = some line) :
      PoRewrite o h (o.written ((draftLines o h).eraseIdx n))
        (h.written ((draftLines o h).eraseIdx n)) (releaseClaim line.src line.qty).1
  | priced {lines : List DraftLine} (hst : o.status = .draft)
      (hlines : lines.map DraftLine.unpriced = (draftLines o h).map DraftLine.unpriced)
      {h' : PoHead} (hterms : h'.terms = (h.written lines).terms)
      (hnote : h'.shortNote = h.shortNote) :
      PoRewrite o h (o.written lines) h' []
  | dated {h' : PoHead} (hterms : h'.terms = h.terms)
      (hnote : h'.shortNote = h.shortNote) : PoRewrite o h o h' []
  | sent (hst : o.status = .draft) {h' : PoHead} (hterms : h'.terms = h.terms)
      (hnote : h'.shortNote = h.shortNote) :
      PoRewrite o h { o with status := .ordered } h' []
  | cancelled {reason : String} (hst : o.status = .draft ∨ o.status = .ordered)
      (hrecv : ∀ l ∈ o.lines, l.recv = 0) :
      PoRewrite o h { o with status := .cancelled } { h with shortNote := some reason }
        ((draftLines o h).flatMap DraftLine.src)
  | closed {reason : String} (hst : o.status = .partiallyReceived) :
      PoRewrite o h { o with status := .received } { h with shortNote := some reason }
        (shortfallClaims (shortLines o h))

def Rewrote (localeCompare : String → String → Ordering) (b b' : Buying) : Prop :=
  ∃ id o h f g released b₁,
    b.db.purchaseOrders.get? id = some o ∧ b.heads.get? id = some h ∧
    PoRewrite o h (f o) (g h) released ∧
    returnClaims localeCompare b released = .ok b₁ ∧ b' = modifyPo b₁ id f g

section Rewrites

variable {localeCompare : String → String → Ordering} {b b' : Buying}

theorem headOf_ok {id : String} {p : PurchaseOrderRow × PoHead} :
    headOf b id = .ok p ↔
      b.db.purchaseOrders.get? id = some p.1 ∧ b.heads.get? id = some p.2 := by
  simp only [headOf, bind_ok, orNotFound_ok, pure_ok]
  constructor
  · rintro ⟨o, ho, h, hh, rfl⟩
    exact ⟨ho, hh⟩
  · rintro ⟨ho, hh⟩
    exact ⟨p.1, ho, p.2, hh, rfl⟩

/-- Nothing given back moves nothing. -/
theorem returnClaims_nil (b : Buying) :
    returnClaims localeCompare b [] = .ok b := by
  have hfold : foldClaims localeCompare [] = [] := by simp [foldClaims, accumulate]
  rw [returnClaims, hfold]
  rfl

theorem returnClaims_ok {released : List ClaimSrc} {b₁ : Buying}
    (h : returnClaims localeCompare b released = .ok b₁) :
    ∃ requisitions,
      addOrdered (-1) (foldClaims localeCompare released) b.requisitions =
        .ok requisitions ∧ b₁ = { b with requisitions } := by
  simp only [returnClaims, bind_ok, pure_ok] at h
  obtain ⟨requisitions, hadd, rfl⟩ := h
  exact ⟨requisitions, hadd, rfl⟩

theorem modifyPo_modifyPo (b : Buying) (id : String)
    (f f' : PurchaseOrderRow → PurchaseOrderRow) (g g' : PoHead → PoHead) :
    modifyPo (modifyPo b id f g) id f' g' =
      modifyPo b id (fun o => f' (f o)) fun h => g' (g h) := by
  unfold modifyPo
  dsimp only
  rw [Table.modify_modify, Table.modify_modify]

theorem updatePoLine_ok {id : String} {n : ℕ} {body : UpdatePoLineBody}
    (h : updatePoLine localeCompare b id n body = .ok b') :
    Rewrote localeCompare b b' := by
  simp only [updatePoLine, bind_ok, headOf_ok, lineOf, assertDraft, assertRule_ok,
    orNotFound_ok, exists_const, Prod.exists] at h
  obtain ⟨o, hd, ⟨ho, hh⟩, hst, line, hline, -, hbody⟩ := h
  split at hbody
  · obtain rfl := pure_ok.1 hbody
    refine ⟨id, o, hd, _, _, [], b, ho, hh, .priced hst ?_ rfl rfl,
      returnClaims_nil b, rfl⟩
    apply List.ext_getElem?
    intro i
    rw [List.getElem?_map, List.getElem?_map, List.getElem?_modify,
      Option.map_eq_map, Option.map_map]
    congr 1
    funext l
    simp only [Function.comp]
    split
    · rfl
    · rfl
  · next want _ =>
      simp only [bind_ok, assertRule_ok, exists_const, pure_ok] at hbody
      obtain ⟨hpos, hle, b₁, hret, rfl⟩ := hbody
      exact ⟨id, o, hd, _, _, _, b₁, ho, hh, .cut hst hline hpos hle rfl, hret, rfl⟩

theorem removePoLine_ok {id : String} {n : ℕ}
    (h : removePoLine localeCompare b id n = .ok b') : Rewrote localeCompare b b' := by
  simp only [removePoLine, bind_ok, headOf_ok, lineOf, assertDraft, assertRule_ok,
    orNotFound_ok, exists_const, Prod.exists, pure_ok] at h
  obtain ⟨o, hd, ⟨ho, hh⟩, hst, line, hline, b₁, hret, rfl⟩ := h
  exact ⟨id, o, hd, _, _, _, b₁, ho, hh, .removed hst hline, hret, rfl⟩

/-- A move to another vendor changes rates only. -/
theorem movedRate_unpriced (desk : BuyingDesk) (from_ to_ on : String) (l : DraftLine) :
    (movedRate desk from_ to_ on l).unpriced = l.unpriced := by
  unfold movedRate
  split
  · rfl
  · split
    · rfl
    · rfl

theorem patchPo_ok {desk : BuyingDesk} {id : String} {body : PatchPoBody}
    {at_ : Instant} (h : patchPo b desk id body at_ = .ok b') :
    Rewrote localeCompare b b' := by
  simp only [patchPo, bind_ok, headOf_ok, assertRule_ok, exists_const,
    Prod.exists] at h
  obtain ⟨o, hd, ⟨ho, hh⟩, -, hbody⟩ := h
  split at hbody
  · simp only [bind_ok, pure_ok] at hbody
    obtain ⟨-, -, rfl⟩ := hbody
    exact ⟨id, o, hd, _, _, [], b, ho, hh, .dated (by rfl) (by rfl), returnClaims_nil b, rfl⟩
  · simp only [bind_ok, assertRule_ok, exists_const, pure_ok] at hbody
    obtain ⟨hst, v, -, -, -, -, rfl⟩ := hbody
    have hsame (from_ to_ on : String) :
        ((draftLines o hd).map (movedRate desk from_ to_ on)).map DraftLine.unpriced =
          (draftLines o hd).map DraftLine.unpriced := by
      rw [List.map_map]
      exact List.map_congr_left fun l _ => movedRate_unpriced ..
    exact ⟨id, o, hd, _, _, [], b, ho, hh,
      .priced hst (hsame ..) (by rfl) (by rfl), returnClaims_nil b,
      modifyPo_modifyPo ..⟩

theorem sendPo_ok {desk : BuyingDesk} {id : String} {at_ : Instant}
    (h : sendPo b desk id at_ = .ok b') : Rewrote localeCompare b b' := by
  simp only [sendPo, bind_ok, headOf_ok, assertRule_ok, exists_const, Prod.exists,
    assertTransition_ok, pure_ok] at h
  obtain ⟨o, hd, ⟨ho, hh⟩, -, v, -, -, htr, rfl⟩ := h
  have hst : o.status = .draft := by
    cases hs : o.status <;> rw [hs] at htr <;> simp [poTransitions] at htr
  exact ⟨id, o, hd, _, _, [], b, ho, hh, .sent hst (by rfl) (by rfl), returnClaims_nil b, rfl⟩

theorem cancelPo_ok {id reason : String}
    (h : cancelPo localeCompare b id reason = .ok b') : Rewrote localeCompare b b' := by
  simp only [cancelPo, bind_ok, headOf_ok, assertRule_ok, exists_const, Prod.exists,
    assertTransition_ok, pure_ok] at h
  obtain ⟨o, hd, ⟨ho, hh⟩, hrecv, htr, -, b₁, hret, rfl⟩ := h
  have hst : o.status = .draft ∨ o.status = .ordered := by
    cases hs : o.status <;> rw [hs] at htr <;> simp [poTransitions] at htr ⊢
  exact ⟨id, o, hd, _, _, _, b₁, ho, hh, .cancelled hst hrecv, hret, rfl⟩

theorem closeShort_ok {id reason : String}
    (h : closeShort localeCompare b id reason = .ok b') : Rewrote localeCompare b b' := by
  simp only [closeShort, bind_ok, headOf_ok, assertRule_ok, exists_const, Prod.exists,
    pure_ok] at h
  obtain ⟨o, hd, ⟨ho, hh⟩, -, hst, b₁, hret, rfl⟩ := h
  exact ⟨id, o, hd, _, _, _, b₁, ho, hh, .closed hst, hret, rfl⟩

end Rewrites

end Rch
