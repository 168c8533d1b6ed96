import Rch.Proofs.ReceiptsCapped

/-!
# No instalment takes an order past its tolerance

What an order's lines say was received is what its receipts and the ledger say,
and no more than the tolerance. A draft has received nothing, so its lines are
rewritten freely; every other write of an order leaves its lines alone, but for
a delivery, which the check of the running net bounds. Nothing else in the
server writes a receipt or a move for one.
-/

namespace Rch

open Kit

/-! ## What is kept -/

/-- What the receipts of an order say was accepted of an item. -/
def acceptedOf (db : Db) (id : String) (it : ItemKey) : Qty :=
  sumOn db.grns.rows (fun g => (g.2.po, g.2.it)) (id, it) fun g => g.2.accepted

def rejectedOf (db : Db) (id : String) (it : ItemKey) : Qty :=
  sumOn db.grns.rows (fun g => (g.2.po, g.2.it)) (id, it) fun g => g.2.rejected

/-- A line stands as its receipts and the ledger say, inside the tolerance. -/
structure LineBooked (db : Db) (id : String) (l : PoLine) : Prop where
  within : l.recv - l.rejected ≤ round3 ((l.qty : ℚ) * RECEIPT_TOLERANCE)
  accepted : acceptedOf db id l.it = l.recv - l.rejected
  rejected : rejectedOf db id l.it = l.rejected
  stored : booked db STORE id l.it = l.recv - l.rejected
  aside : booked db QUARANTINE id l.it = l.rejected

structure OrderBooked (db : Db) (id : String) (o : PurchaseOrderRow) : Prop where
  /-- an item is on one line of an order -/
  apart : (o.lines.map PoLine.it).Nodup
  lines : ∀ l ∈ o.lines, LineBooked db id l
  draft : o.status = .draft → ∀ l ∈ o.lines, l.recv = 0 ∧ l.rejected = 0

structure DeskBooked (db : Db) : Prop where
  orders : ∀ id o, db.purchaseOrders.get? id = some o → OrderBooked db id o
  /-- an order's receipts are numbered on from one -/
  numbered : ∀ id, ∃ n, grnNumbers db id = (List.range' 1 n).map (grnId id)
  /-- a receipt is for an order there is -/
  placed : ∀ g ∈ db.grns.rows, (db.purchaseOrders.get? g.2.po).isSome = true
  /-- a move that names a receipt names one there is -/
  named : ∀ m ∈ db.stock.moves, m.refType = "grn" → (db.grns.get? m.refId).isSome = true

/-- The receipts and what was booked for them. -/
structure SameReceipts (db db' : Db) : Prop where
  grns : db'.grns = db.grns
  booked : booked db' = booked db
  named : ∀ m ∈ db'.stock.moves, m.refType = "grn" → m ∈ db.stock.moves

section Kept

variable {db db' : Db} {id : String} {o : PurchaseOrderRow}

theorem SameReceipts.of_eq (hg : db'.grns = db.grns) (hm : db'.stock.moves = db.stock.moves) :
    SameReceipts db db' where
  grns := hg
  booked := by
    unfold Rch.booked
    rw [hg, hm]
  named m hm' _ := by rwa [hm] at hm'

theorem LineBooked.congr {l : PoLine} (h : LineBooked db id l) (hs : SameReceipts db db') :
    LineBooked db' id l := by
  obtain ⟨hwithin, haccepted, hrejected, hstored, haside⟩ := h
  unfold acceptedOf at haccepted
  unfold rejectedOf at hrejected
  rw [← hs.grns] at haccepted hrejected
  rw [← hs.booked] at hstored haside
  exact ⟨hwithin, haccepted, hrejected, hstored, haside⟩

theorem OrderBooked.congr (h : OrderBooked db id o) (hs : SameReceipts db db') :
    OrderBooked db' id o :=
  ⟨h.apart, fun l hl => (h.lines l hl).congr hs, h.draft⟩

theorem grnNumbers_congr (hs : SameReceipts db db') : grnNumbers db' = grnNumbers db := by
  unfold grnNumbers
  rw [hs.grns]

/-- Where the receipts stay, only the orders have to be looked at. -/
theorem DeskBooked.rewritten (h : DeskBooked db) (hs : SameReceipts db db')
    (hkeys : ∀ id, (db.purchaseOrders.get? id).isSome = true →
      (db'.purchaseOrders.get? id).isSome = true)
    (horders : ∀ id o, db'.purchaseOrders.get? id = some o → OrderBooked db id o) :
    DeskBooked db' where
  orders id o ho := (horders id o ho).congr hs
  numbered id := by
    rw [grnNumbers_congr hs]
    exact h.numbered id
  placed := by
    rw [hs.grns]
    exact fun g hg => hkeys _ (h.placed g hg)
  named m hm hgrn := by
    rw [hs.grns]
    exact h.named m (hs.named m hm hgrn) hgrn

theorem DeskBooked.congr (h : DeskBooked db) (hs : SameReceipts db db')
    (hpo : db'.purchaseOrders = db.purchaseOrders) : DeskBooked db' :=
  h.rewritten hs (fun id hid => by rwa [hpo]) fun id o ho => h.orders id o (by rwa [hpo] at ho)

/-! ## Away from the desk -/

/-- A batch that names no receipt books nothing for an order. -/
theorem SameReceipts.posted {moves : List Move} (hg : db'.grns = db.grns)
    (hm : db'.stock.moves = (postMoves db.stock moves).moves)
    (hnot : ∀ m ∈ moves, m.refType ≠ "grn") : SameReceipts db db' where
  grns := hg
  booked := by
    funext loc id it
    unfold Rch.booked
    rw [hg, hm, sumOn_postMoves _ (fun _ _ => rfl), sumOn_eq_zero (l := moves), add_zero]
    intro m hmem hkey
    have hfor := (Prod.mk_inj.1 (Prod.mk_inj.1 hkey).2).2
    have hnone : (moveRow 0 m).bookedFor db.grns = none := if_neg (hnot m hmem)
    rw [hnone] at hfor
    cases hfor
  named m hmem hgrn := by
    rw [hm] at hmem
    rcases mem_postMoves hmem with hold | ⟨x, hx, n, rfl⟩
    · exact hold
    · exact absurd hgrn (hnot x hx)

theorem DeskBooked.elsewhere (h : DeskBooked db) (hk : LinesKept db) {op : Op}
    (hbuys : op.buys = false) (hop : op.run db = some db') : DeskBooked db' := by
  have hpart : Part.buying ∉ op.touches := fun hp =>
    Bool.eq_false_iff.1 hbuys (op.buys_iff.2 hp)
  obtain ⟨hpo, hgrns⟩ := op.frame hop hpart
  obtain ⟨moves, hposting, hmoves⟩ := op.posts hop hk
  exact h.congr (.posted hgrns hmoves (hposting.not_grn hbuys)) hpo

/-! ## A rewrite of an order -/

theorem receiptTolerance_nonneg : 0 ≤ RECEIPT_TOLERANCE := by
  unfold RECEIPT_TOLERANCE
  norm_num

/-- A draft's lines written anew: some of its items, with nothing received. -/
theorem OrderBooked.written (h : OrderBooked db id o) (hst : o.status = .draft)
    {lines : List DraftLine} (hsub : (lines.map DraftLine.it).Sublist (o.lines.map PoLine.it))
    (hqty : ∀ l ∈ (o.written lines).lines, 0 ≤ l.qty) : OrderBooked db id (o.written lines) := by
  have hitems : (o.written lines).lines.map PoLine.it = lines.map DraftLine.it := by
    change (lines.map _).map _ = _
    rw [List.map_map]
    rfl
  have hzero : ∀ l ∈ (o.written lines).lines, l.recv = 0 ∧ l.rejected = 0 := by
    intro l hl
    obtain ⟨d, -, rfl⟩ := List.mem_map.1 hl
    exact ⟨rfl, rfl⟩
  refine ⟨by rw [hitems]; exact h.apart.sublist hsub, fun l hl => ?_, fun _ => hzero⟩
  obtain ⟨hrecv, hrejected⟩ := hzero l hl
  have hit : l.it ∈ o.lines.map PoLine.it :=
    hsub.subset (hitems ▸ List.mem_map_of_mem hl)
  obtain ⟨l₀, hl₀, hsame⟩ := List.mem_map.1 hit
  obtain ⟨hrecv₀, hrejected₀⟩ := h.draft hst l₀ hl₀
  have hold := h.lines l₀ hl₀
  constructor
  · rw [hrecv, hrejected, sub_zero]
    exact Decimal.round_nonneg (mul_nonneg (Decimal.toRat_nonneg.2 (hqty l hl)) receiptTolerance_nonneg)
  · rw [← hsame, hold.accepted, hrecv, hrejected, hrecv₀, hrejected₀]
  · rw [← hsame, hold.rejected, hrejected, hrejected₀]
  · rw [← hsame, hold.stored, hrecv, hrejected, hrecv₀, hrejected₀]
  · rw [← hsame, hold.aside, hrejected, hrejected₀]

/-- The same lines under a status that is not a draft's. -/
theorem OrderBooked.moved (h : OrderBooked db id o) {status : PoStatus}
    (hst : status ≠ .draft) : OrderBooked db id { o with status } :=
  ⟨h.apart, h.lines, fun hd => absurd hd hst⟩

theorem draftLines_items {h : PoHead} (hpaired : o.lines.length = h.terms.length) :
    (draftLines o h).map DraftLine.it = o.lines.map PoLine.it := by
  rw [draftLines_eq, List.map_map]
  change (o.lines.zip h.terms).map (PoLine.it ∘ Prod.fst) = _
  rw [← List.map_map, List.map_fst_zip hpaired.le]

/-- A line rewritten in place keeps what the rewrite keeps of it. -/
theorem map_modify_of_eq {α β : Type} (l : List α) {f : α → α} {g : α → β}
    (hf : ∀ a, g (f a) = g a) (n : ℕ) : (l.modify n f).map g = l.map g := by
  apply List.ext_getElem?
  intro i
  rw [List.getElem?_map, List.getElem?_map, List.getElem?_modify, Option.map_eq_map,
    Option.map_map]
  congr 1
  funext a
  simp only [Function.comp]
  split
  · exact hf a
  · rfl

theorem PoRewrite.booked {h h' : PoHead} {o' : PurchaseOrderRow} {released : List ClaimSrc}
    (hr : PoRewrite o h o' h' released) (hb : OrderBooked db id o)
    (hpaired : o.lines.length = h.terms.length) (hqty : ∀ l ∈ o'.lines, 0 ≤ l.qty) :
    OrderBooked db id o' := by
  have hitems := draftLines_items hpaired
  cases hr with
  | cut hst hline hpos hle hlines =>
      refine hb.written hst ?_ hqty
      rw [hlines, ← hitems, map_modify_of_eq]
      exact fun l => rfl
  | removed hst hline =>
      refine hb.written hst ?_ hqty
      rw [← hitems]
      exact (List.eraseIdx_sublist ..).map _
  | priced hst hlines hterms hnote =>
      refine hb.written hst ?_ hqty
      have hsame := congrArg (List.map Prod.fst) hlines
      rw [List.map_map, List.map_map] at hsame
      exact (hsame.trans hitems) ▸ List.Sublist.refl _
  | dated hterms hnote => exact hb
  | sent hst hterms hnote => exact hb.moved (by decide)
  | cancelled hst hrecv => exact hb.moved (by decide)
  | closed hst => exact hb.moved (by decide)

/-! ## A delivery -/

theorem insertGrns_old {grns grns' : Table String GrnRow} {docs : List (String × GrnRow)}
    (h : insertGrns grns docs = some grns') {k : String} {g : GrnRow}
    (hg : grns.get? k = some g) : grns'.get? k = some g := by
  rw [Table.get?_eq_some, insertGrns_rows h]
  exact List.mem_append_left _ (Table.get?_eq_some.1 hg)

theorem insertGrns_new {grns grns' : Table String GrnRow} {docs : List (String × GrnRow)}
    (h : insertGrns grns docs = some grns') {d : String × GrnRow} (hd : d ∈ docs) :
    grns'.get? d.1 = some d.2 := by
  rw [Table.get?_eq_some, insertGrns_rows h]
  exact List.mem_append_right _ hd

section Delivery

variable {claims : Claims} {body : ReceivePoBody} {at_ : Instant}
  {grns : Table String GrnRow}

theorem Landed.booked (hl : Landed db claims id body at_ db' o grns) (hb : DeskBooked db)
    (loc : LocKey) (id' : String) (it : ItemKey) :
    Rch.booked db' loc id' it = Rch.booked db loc id' it +
      if id' = id then movedAt (instalment db claims id body at_ o).2 loc it else 0 := by
  have hmoves : ∀ m ∈ (instalment db claims id body at_ o).2, m.refType = "grn" ∧
      m.refId ∈ (instalment db claims id body at_ o).1.map Prod.fst :=
    receiptRows_moves _ _
  have hpo : ∀ g ∈ (instalment db claims id body at_ o).1, g.2.po = id :=
    receiptRows_po _ _
  have hown : ∀ m ∈ (instalment db claims id body at_ o).2,
      (moveRow 0 m).bookedFor grns = some id := by
    intro m hm
    obtain ⟨hgrn, hid⟩ := hmoves m hm
    obtain ⟨d, hd, hdm⟩ := List.mem_map.1 hid
    have hget := insertGrns_new hl.numbered hd
    rw [hdm] at hget
    change (if m.refType = "grn" then (grns.get? m.refId).map GrnRow.po else none) = _
    rw [if_pos hgrn, hget, Option.map_some, hpo d hd]
  have hold : ∀ m ∈ db.stock.moves, m.bookedFor grns = m.bookedFor db.grns := by
    intro m hm
    unfold MoveRow.bookedFor
    split
    · next hgrn =>
        obtain ⟨g, hg⟩ := Option.isSome_iff_exists.1 (hb.named m hm hgrn)
        rw [hg, insertGrns_old hl.numbered hg]
    · rfl
  rw [hl.wrote]
  unfold Rch.booked
  rw [sumOn_postMoves _ fun _ _ => rfl]
  congr 1
  · refine sumOn_congr fun m hm => ?_
    rw [hold m hm]
  · split
    · next hid =>
        refine sumOn_congr fun m hm => ?_
        dsimp only
        rw [hown m hm, hid]
        refine if_congr ?_ rfl rfl
        change (m.loc, m.it, some id) = _ ↔ (m.loc, m.it) = _
        simp only [Prod.mk_inj, and_true]
    · next hid =>
        refine sumOn_eq_zero fun m hm hkey => ?_
        have hfor := (Prod.mk_inj.1 (Prod.mk_inj.1 hkey).2).2
        rw [hown m hm] at hfor
        exact absurd (Option.some.inj hfor).symm hid

/-- What the documents of an order say, with the instalment's beside them. -/
theorem Landed.documented (hl : Landed db claims id body at_ db' o grns)
    (f : String × GrnRow → Qty) (id' : String) (it : ItemKey) :
    sumOn db'.grns.rows (fun g => (g.2.po, g.2.it)) (id', it) f =
      sumOn db.grns.rows (fun g => (g.2.po, g.2.it)) (id', it) f +
        if id' = id then sumOn (instalment db claims id body at_ o).1
          (fun g => (g.2.po, g.2.it)) (id, it) f else 0 := by
  rw [hl.wrote]
  change sumOn grns.rows _ _ _ = _
  rw [insertGrns_rows hl.numbered, sumOn_append]
  congr 1
  split
  · next hid => rw [hid]
  · next hid =>
      refine sumOn_eq_zero fun g hg hkey => ?_
      have hpo := receiptRows_po _ _ g hg
      rw [(Prod.mk_inj.1 hkey).1] at hpo
      exact absurd hpo hid

theorem Landed.numbers (hl : Landed db claims id body at_ db' o grns) (id' : String) :
    grnNumbers db' id' = grnNumbers db id' ++
      if id' = id then (instalment db claims id body at_ o).1.map Prod.fst else [] := by
  rw [hl.wrote]
  change (grns.rows.filter _).map Prod.fst = _
  rw [insertGrns_rows hl.numbered, List.filter_append, List.map_append]
  change grnNumbers db id' ++ _ = _
  congr 1
  have hpo : ∀ g ∈ (instalment db claims id body at_ o).1, g.2.po = id :=
    receiptRows_po _ _
  split
  · next hid =>
      rw [List.filter_eq_self.2 fun g hg => decide_eq_true ((hpo g hg).trans hid.symm)]
  · next hid =>
      rw [List.filter_eq_nil_iff.2, List.map_nil]
      exact fun g hg h => hid ((of_decide_eq_true h).symm.trans (hpo g hg))

theorem Landed.lines (hl : Landed db claims id body at_ db' o grns) (hb : DeskBooked db)
    (hbody : body.Admitted) (row : PurchaseOrderRow) :
    ∀ l ∈ (landed o body at_ row).lines, LineBooked db' id l := by
  have ho := hb.orders id o hl.found
  intro l hlm
  obtain ⟨p, hp, rfl⟩ := List.mem_map.1 hlm
  have hline := ho.lines p.1 (List.of_mem_zip hp).1
  have hgrid : ∀ p ∈ o.lines.zip body.lines, (round3 p.2.recv : ℚ) = p.2.recv ∧
      (round3 p.2.rejected : ℚ) = p.2.rejected := fun p hp =>
    hbody p.2 (List.of_mem_zip hp).2
  -- The item is on one line, so what arrived of it arrived on this one.
  have hkeys : ((o.lines.zip body.lines).map fun p => p.1.it).Nodup := by
    have hfst : (o.lines.zip body.lines).map Prod.fst = o.lines :=
      List.map_fst_zip hl.paired.ge
    have hsame : (o.lines.zip body.lines).map (fun p => p.1.it) = o.lines.map PoLine.it := by
      conv_rhs => rw [← hfst, List.map_map]
      rfl
    rw [hsame]
    exact ho.apart
  have hsum (f : ReceiptPair → Qty) :
      sumOn (o.lines.zip body.lines) (fun p => p.1.it) p.1.it f = f p :=
    sumOn_eq_of_mem hkeys hp f
  obtain ⟨hstored, haside⟩ :
      movedAt (instalment db claims id body at_ o).2 STORE p.1.it = _ ∧
        movedAt (instalment db claims id body at_ o).2 QUARANTINE p.1.it = _ :=
    movedAt_receiptRows _ _ hl.rejected hgrid p.1.it
  obtain ⟨haccepted, hrejected⟩ :
      sumOn (instalment db claims id body at_ o).1
          (fun g => (g.2.po, g.2.it)) (id, p.1.it) (fun g => g.2.accepted) = _ ∧
        sumOn (instalment db claims id body at_ o).1
          (fun g => (g.2.po, g.2.it)) (id, p.1.it) (fun g => g.2.rejected) = _ :=
    receiptRows_documents _ _ hgrid p.1.it
  rw [hsum] at hstored haside haccepted hrejected
  have hnet : (landLine p).recv - (landLine p).rejected =
      p.1.recv - p.1.rejected + (ReceiptPair.took p - ReceiptPair.refused p) := by
    rw [landLine_recv, landLine_rejected]
    abel
  constructor
  · rw [hnet, landLine_qty]
    by_cases hrecv : 0 < p.2.recv
    · have hchecked := hl.within p hp hrecv
      rw [round3_add, netReceived_qty] at hchecked
      have htook : ReceiptPair.took p = round3 p.2.recv := if_pos hrecv
      have hrefused := ReceiptPair.refused_nonneg (hl.rejected p hp)
      rw [htook]
      exact le_trans (add_le_add_right (sub_le_self _ hrefused) _) hchecked
    · have htook : ReceiptPair.took p = 0 := if_neg hrecv
      have hrefused : ReceiptPair.refused p = 0 := if_neg hrecv
      rw [htook, hrefused, sub_zero, add_zero]
      exact hline.within
  · rw [hnet, landLine_it, ← hline.accepted, ← haccepted]
    exact (hl.documented _ id p.1.it).trans (congrArg _ (if_pos rfl))
  · rw [landLine_it, landLine_rejected, ← hline.rejected, ← hrejected]
    exact (hl.documented _ id p.1.it).trans (congrArg _ (if_pos rfl))
  · rw [hnet, landLine_it, ← hline.stored, ← hstored, hl.booked hb, if_pos rfl]
  · rw [landLine_it, landLine_rejected, ← hline.aside, ← haside, hl.booked hb, if_pos rfl]

theorem Landed.others (hl : Landed db claims id body at_ db' o grns) (hb : DeskBooked db)
    {id' : String} (hne : id' ≠ id) {l : PoLine} (h : LineBooked db id' l) :
    LineBooked db' id' l where
  within := h.within
  accepted := by
    rw [← h.accepted]
    exact (hl.documented _ id' l.it).trans (by rw [if_neg hne, add_zero]; rfl)
  rejected := by
    rw [← h.rejected]
    exact (hl.documented _ id' l.it).trans (by rw [if_neg hne, add_zero]; rfl)
  stored := by rw [hl.booked hb, if_neg hne, add_zero, h.stored]
  aside := by rw [hl.booked hb, if_neg hne, add_zero, h.aside]

theorem landed_status_ne (o row : PurchaseOrderRow) (body : ReceivePoBody) (at_ : Instant) :
    (landed o body at_ row).status ≠ .draft := by
  rcases receiptStatus_cases ((landed o body at_ row).lines.map fun l =>
    (l.qty, l.recv, l.rejected)) with h | h
  · exact fun hd => PoStatus.noConfusion (h.symm.trans hd)
  · exact fun hd => PoStatus.noConfusion (h.symm.trans hd)

theorem Landed.orders (hl : Landed db claims id body at_ db' o grns) (id' : String) :
    db'.purchaseOrders.get? id' =
      if id' = id then some (landed o body at_ o) else db.purchaseOrders.get? id' := by
  rw [hl.wrote]
  exact Table.get?_modify_of_get? hl.found _ id'

theorem DeskBooked.landed (hb : DeskBooked db) (hbody : body.Admitted)
    (hl : Landed db claims id body at_ db' o grns) : DeskBooked db' where
  orders id' o' ho' := by
    rw [hl.orders] at ho'
    split at ho'
    · next hid =>
        subst hid
        obtain rfl := Option.some.inj ho'
        have hold := hb.orders id' o hl.found
        refine ⟨?_, hl.lines hb hbody o, fun hd => absurd hd (landed_status_ne _ _ _ _)⟩
        have hasked : (Rch.landed o body at_ o).lines.map PoLine.asked =
            o.lines.map PoLine.asked := landed_asked hl.paired
        replace hasked := congrArg (List.map Prod.fst) hasked
        rw [List.map_map, List.map_map] at hasked
        exact hasked ▸ hold.apart
    · next hne =>
        have hold := hb.orders id' o' ho'
        exact ⟨hold.apart, fun l hlm => hl.others hb hne (hold.lines l hlm), hold.draft⟩
  numbered id' := by
    obtain ⟨n, hn⟩ := hb.numbered id'
    rw [hl.numbers, hn]
    split
    · next hid =>
        subst hid
        have hlen : (db.grns.rows.filter fun g => decide (g.2.po = id')).length = n := by
          have := congrArg List.length hn
          simpa [grnNumbers] using this
        obtain ⟨m, hm⟩ : ∃ m, (instalment db claims id' body at_ o).1.map Prod.fst =
            (List.range' (n + 1) m).map (grnId id') := by
          rw [instalment, hlen]
          exact receiptRows_numbers n _
        refine ⟨n + m, ?_⟩
        rw [hm, ← List.map_append, Nat.add_comm n 1, List.range'_append_1]
    · exact ⟨n, List.append_nil _⟩
  placed g hg := by
    rw [hl.orders]
    have hrows : db'.grns.rows = db.grns.rows ++ (instalment db claims id body at_ o).1 := by
      rw [hl.wrote]
      exact insertGrns_rows hl.numbered
    rw [hrows] at hg
    split
    · rfl
    · next hne =>
        rcases List.mem_append.1 hg with hg | hg
        · exact hb.placed g hg
        · exact absurd (receiptRows_po _ _ g hg) hne
  named m hm hgrn := by
    have hgrns : db'.grns = grns := by rw [hl.wrote]
    rw [hl.wrote] at hm
    rw [hgrns]
    rcases mem_postMoves hm with hm | ⟨x, hx, n, rfl⟩
    · obtain ⟨g, hg⟩ := Option.isSome_iff_exists.1 (hb.named m hm hgrn)
      rw [insertGrns_old hl.numbered hg]
      rfl
    · obtain ⟨d, hd, hdx⟩ := List.mem_map.1 (receiptRows_moves _ _ x hx).2
      have hget := insertGrns_new hl.numbered hd
      rw [hdx] at hget
      rw [moveRow, hget]
      rfl

end Delivery

/-! ## A draft -/

/-- Nothing was booked for an order there is not. -/
theorem DeskBooked.free (hb : DeskBooked db) (hfree : db.purchaseOrders.get? id = none)
    (loc : LocKey) (it : ItemKey) :
    acceptedOf db id it = 0 ∧ rejectedOf db id it = 0 ∧ booked db loc id it = 0 := by
  have hnone : ∀ g ∈ db.grns.rows, g.2.po ≠ id := by
    intro g hg hpo
    have hplaced := hb.placed g hg
    rw [hpo, hfree] at hplaced
    cases hplaced
  refine ⟨sumOn_eq_zero fun g hg hkey => ?_, sumOn_eq_zero fun g hg hkey => ?_,
    sumOn_eq_zero fun m hm hkey => ?_⟩
  · exact absurd (Prod.mk_inj.1 hkey).1 (hnone g hg)
  · exact absurd (Prod.mk_inj.1 hkey).1 (hnone g hg)
  · have hfor := (Prod.mk_inj.1 (Prod.mk_inj.1 hkey).2).2
    unfold MoveRow.bookedFor at hfor
    split at hfor
    · obtain ⟨g, hg, hpo⟩ := Option.map_eq_some_iff.1 hfor
      exact absurd hpo (hnone _ (Table.get?_eq_some.1 hg))
    · cases hfor

/-- A draft of lines with an item each, nothing received on them. -/
theorem DeskBooked.drafted (hb : DeskBooked db)
    (hpo : db.purchaseOrders.insert? id o = some db'.purchaseOrders)
    (hs : SameReceipts db db') (hapart : (o.lines.map PoLine.it).Nodup)
    (hlines : ∀ l ∈ o.lines, 0 ≤ l.qty ∧ l.recv = 0 ∧ l.rejected = 0) : DeskBooked db' := by
  have hfree := (Table.insert?_eq_some hpo).1
  have hget := Table.get?_insert hpo
  refine hb.rewritten hs (fun id' h => ?_) fun id' o' ho' => ?_
  · rw [hget]
    split
    · rfl
    · exact h
  · rw [hget] at ho'
    split at ho'
    · next hid =>
        subst hid
        obtain rfl := Option.some.inj ho'
        refine ⟨hapart, fun l hl => ?_, fun _ l hl => (hlines l hl).2⟩
        obtain ⟨hqty, hrecv, hrejected⟩ := hlines l hl
        obtain ⟨haccepted, hrefused, hstored⟩ := hb.free hfree STORE l.it
        obtain ⟨-, -, haside⟩ := hb.free hfree QUARANTINE l.it
        constructor
        · rw [hrecv, hrejected, sub_zero]
          exact Decimal.round_nonneg
            (mul_nonneg (Decimal.toRat_nonneg.2 hqty) receiptTolerance_nonneg)
        · rw [haccepted, hrecv, hrejected, sub_zero]
        · rw [hrefused, hrejected]
        · rw [hstored, hrecv, hrejected, sub_zero]
        · rw [haside, hrejected]
    · exact hb.orders id' o' ho'

end Kept

/-! ## Every step of the desk -/

theorem LinesKept.congr {db db' : Db} (h : LinesKept db) (hs : db'.stock = db.stock)
    (ht : db'.tickets = db.tickets) (hr : db'.requests = db.requests)
    (ho : db'.qrOrders = db.qrOrders) : LinesKept db' where
  pledges id p hp := by
    unfold Db.pledge at hp
    rw [ht] at hp
    exact h.pledges id p hp
  sales := hs ▸ h.sales
  requests := hr ▸ h.requests
  orders := ho ▸ h.orders

structure DeskKept (b : Buying) : Prop where
  lines : LinesKept b.db
  booked : DeskBooked b.db

section Steps

variable {localeCompare : String → String → Ordering} {b b' : Buying}

/-- Where only the order book and the series move. -/
theorem DeskKept.requisition (h : DeskKept b) (hdb : ∃ kind, b'.db = b.db.advance kind) :
    DeskKept b' := by
  obtain ⟨kind, hdb⟩ := hdb
  constructor
  · exact h.lines.congr (by rw [hdb]; rfl) (by rw [hdb]; rfl) (by rw [hdb]; rfl)
      (by rw [hdb]; rfl)
  · exact h.booked.congr (.of_eq (by rw [hdb]; rfl) (by rw [hdb]; rfl)) (by rw [hdb]; rfl)

theorem DeskKept.decided (h : DeskKept b) (hdb : b'.db = b.db) : DeskKept b' := by
  constructor
  · rw [hdb]
    exact h.lines
  · rw [hdb]
    exact h.booked

theorem createRequisition_db {claims : Claims} {body : CreateRequisitionBody}
    {at_ : Instant} (h : createRequisition b claims body at_ = .ok b') :
    b'.db = b.db.advance .prq := by
  unfold createRequisition allocateId assertKnownItems assertCombined insertRequisition at h
  simp only [bind_ok, checkEach_ok, assertRule_ok, orInternal_ok, pure_ok,
    exists_const] at h
  obtain ⟨-, -, -, requisitions, -, rfl⟩ := h
  rfl

theorem addDirect_db {claims : Claims} {body : CreateRequisitionBody} {at_ : Instant}
    (h : addDirect b claims body at_ = .ok b') : b'.db = b.db.advance .prq := by
  unfold addDirect allocateId assertKnownItems assertCombined insertRequisition at h
  simp only [bind_ok, checkEach_ok, assertRule_ok, assertEach_ok, orInternal_ok, pure_ok,
    exists_const] at h
  obtain ⟨-, -, -, -, -, requisitions, -, rfl⟩ := h
  rfl

theorem decideRequisition_db {claims : Claims} {id note : String}
    {lines : List RequisitionLine} {status : PrqStatus}
    (h : decideRequisition b claims id note lines status = .ok b') : b'.db = b.db := by
  simp only [decideRequisition, bind_ok, assertCk, guardOr_ok, exists_const, pure_ok] at h
  rw [← h.2]

theorem approveRequisition_db {claims : Claims} {id : String} {appr : List ℚ}
    {note : String} (h : approveRequisition b claims id appr note = .ok b') :
    b'.db = b.db := by
  simp only [approveRequisition, bind_ok, orNotFound_ok, assertRule_ok,
    exists_const] at h
  obtain ⟨p, -, -, h⟩ := h
  split at h
  · simp only [bind_ok] at h
    obtain ⟨_, -, _, -, h⟩ := h
    exact decideRequisition_db h
  · simp only [bind_ok] at h
    obtain ⟨_, -, h⟩ := h
    exact decideRequisition_db h

theorem declineRequisition_db {claims : Claims} {id note : String}
    (h : declineRequisition b claims id note = .ok b') : b'.db = b.db := by
  simp only [declineRequisition, bind_ok, orNotFound_ok, assertRule_ok,
    assertTransition_ok, exists_const] at h
  obtain ⟨p, -, -, -, h⟩ := h
  exact decideRequisition_db h

theorem DeskKept.rewrote (h : DeskKept b) (hf : BookFunded b) (hf' : BookFunded b')
    (hr : Rewrote localeCompare b b') : DeskKept b' := by
  obtain ⟨id, o, hd, f, g, released, b₁, ho, hh, hrewrite, hret, rfl⟩ := hr
  obtain ⟨requisitions, -, rfl⟩ := returnClaims_ok hret
  have hget := Table.get?_modify_of_get? ho f
  have hnew : (modifyPo { b with requisitions } id f g).db.purchaseOrders.get? id =
      some (f o) := (hget id).trans (if_pos rfl)
  -- A line is funded by claims of something, so it asks for no less than nothing.
  have hqty : ∀ l ∈ (f o).lines, 0 ≤ l.qty := by
    intro l hl
    obtain ⟨h', hh'⟩ := hf'.head hnew
    have hof := hf'.orders id (f o) h' hnew hh'
    rw [← List.map_fst_zip hof.paired.le] at hl
    obtain ⟨p, hp, rfl⟩ := List.mem_map.1 hl
    obtain ⟨hpos, htotal⟩ := hof.funded p hp
    rw [← htotal]
    exact List.sum_nonneg (sum_qty_nonneg hpos)
  refine ⟨h.lines.congr rfl rfl rfl rfl, ?_⟩
  refine h.booked.rewritten (.of_eq rfl rfl) (fun id' hid' => ?_) fun id' o' ho' => ?_
  · change ((b.db.purchaseOrders.modify id f).get? id').isSome = true
    rw [hget]
    split
    · rfl
    · exact hid'
  · change (b.db.purchaseOrders.modify id f).get? id' = some o' at ho'
    rw [hget] at ho'
    split at ho'
    · next hid =>
        subst hid
        obtain rfl := Option.some.inj ho'
        exact hrewrite.booked (h.booked.orders id' o ho) (hf.orders id' o hd ho hh).paired
          hqty
    · exact h.booked.orders id' o' ho'

theorem DeskKept.drafted (h : DeskKept b) {desk : BuyingDesk} {body : CreatePoBody}
    {at_ : Instant} (hstep : createPo localeCompare b desk body at_ = .ok b') :
    DeskKept b' := by
  unfold createPo allocateId at hstep
  simp only [bind_ok, assertRule_ok, someOr_ok, orInternal_ok, exists_const,
    pure_ok] at hstep
  obtain ⟨-, v, -, -, hpos, _, -, given, -, purchaseOrders, hpo, heads, -, requisitions, -,
    rfl⟩ := hstep
  refine ⟨h.lines.congr rfl rfl rfl rfl, h.booked.drafted hpo (.of_eq rfl rfl) ?_ ?_⟩
  · rw [List.map_map]
    exact nodup_accumulate ..
  · intro l hl
    obtain ⟨e, he, rfl⟩ := List.mem_map.1 hl
    obtain ⟨hsrc, htotal⟩ :=
      (mergePicks_spec b.requisitions (body.picks.map Pick.claim)).1 e he
    refine ⟨?_, rfl, rfl⟩
    change 0 ≤ e.2.1
    rw [← htotal]
    refine List.sum_nonneg (sum_qty_nonneg fun x hx => ?_)
    obtain ⟨p, hp, rfl⟩ := List.mem_map.1 (hsrc x hx)
    exact hpos p hp

theorem DeskKept.step (h : DeskKept b) (hf : BookFunded b) {e : BuyingOp}
    (he : e.run localeCompare b = some b') : DeskKept b' := by
  have hf' := hf.step he
  cases e <;> simp only [BuyingOp.run, toOption_eq_some] at he
  case createRequisition => exact h.requisition ⟨_, createRequisition_db he⟩
  case addDirect => exact h.requisition ⟨_, addDirect_db he⟩
  case approveRequisition => exact h.decided (approveRequisition_db he)
  case declineRequisition => exact h.decided (declineRequisition_db he)
  case createPo => exact h.drafted he
  case updatePoLine => exact h.rewrote hf hf' (updatePoLine_ok he)
  case removePoLine => exact h.rewrote hf hf' (removePoLine_ok he)
  case patchPo => exact h.rewrote hf hf' (patchPo_ok he : Rewrote localeCompare b b')
  case sendPo => exact h.rewrote hf hf' (sendPo_ok he : Rewrote localeCompare b b')
  case cancelPo => exact h.rewrote hf hf' (cancelPo_ok he)
  case closeShort => exact h.rewrote hf hf' (closeShort_ok he)
  case receivePo claims id body at_ =>
    split at he
    · next hbody =>
        obtain ⟨db', hdb, rfl⟩ := Option.map_eq_some_iff.1 he
        obtain ⟨o, grns, hl⟩ := receivePo_landed (toOption_eq_some.1 hdb)
        have hop : (Op.receivePo claims id body at_).run b.db = some db' := hdb
        exact ⟨linesKept_step h.lines hop, h.booked.landed hbody hl⟩
    · cases he
  case other op =>
    split at he
    · cases he
    · next hbuys =>
        obtain ⟨db', hdb, rfl⟩ := Option.map_eq_some_iff.1 he
        exact ⟨linesKept_step h.lines hdb,
          h.booked.elsewhere h.lines (Bool.eq_false_iff.2 hbuys) hdb⟩

theorem deskKept_reach (h : (procurement localeCompare).Reach b) : DeskKept b := by
  refine Machine.Reach.invariant (fun b hinit => ?_)
    (fun b e b' hreach hk he => hk.step (bookFunded_reach hreach) he) h
  obtain ⟨rows, rfl⟩ := hinit
  refine ⟨linesKept_fresh rows, fun id o ho => ?_, fun id => ⟨0, rfl⟩,
    List.forall_mem_nil _, List.forall_mem_nil _⟩
  cases ho

/-- The order an accepted delivery was booked against, as it stands after. -/
theorem receivePo_status {claims : Claims} {id : String} {body : ReceivePoBody}
    {at_ : Instant} (h : (procurement localeCompare).step b
      (.receivePo claims id body at_) = some b') :
    ∃ o, b'.db.purchaseOrders.get? id = some o ∧
      o.status = receiptStatus (o.lines.map fun l => (l.qty, l.recv, l.rejected)) := by
  change (if body.Admitted then _ else none) = some b' at h
  split at h
  · obtain ⟨db', hdb, rfl⟩ := Option.map_eq_some_iff.1 h
    obtain ⟨o, grns, hl⟩ := receivePo_landed (toOption_eq_some.1 hdb)
    exact ⟨landed o body at_ o, (hl.orders id).trans (if_pos rfl), rfl⟩
  · cases h

def PoLine.Covered (l : PoLine) : Prop := l.qty ≤ netReceived l.recv l.rejected

theorem receiptStatus_received (lines : List PoLine) :
    (receiptStatus (lines.map fun l => (l.qty, l.recv, l.rejected)) = .received ↔
      ∀ l ∈ lines, l.Covered) ∧
    (receiptStatus (lines.map fun l => (l.qty, l.recv, l.rejected)) = .partiallyReceived ↔
      ¬ ∀ l ∈ lines, l.Covered) := by
  have hall : ((lines.map fun l => (l.qty, (l.recv, l.rejected))).all fun l =>
      decide (l.1 ≤ netReceived (l.2.1 : Qty) (l.2.2 : Qty))) = true ↔
        ∀ l ∈ lines, l.Covered := by
    rw [List.all_map, List.all_eq_true]
    exact forall₂_congr fun l _ => decide_eq_true_iff
  unfold receiptStatus
  split
  · next hc =>
      have hcovered := hall.1 hc
      exact ⟨iff_of_true rfl hcovered,
        iff_of_false PoStatus.noConfusion (not_not_intro hcovered)⟩
  · next hc =>
      have hshort : ¬ ∀ l ∈ lines, l.Covered := fun h => hc (hall.2 h)
      exact ⟨iff_of_false PoStatus.noConfusion hshort, iff_of_true rfl hshort⟩

end Steps

/-- However many instalments an order took, and whatever was sent back of each,
what was accepted of a line over all of them is inside the tolerance of what was
ordered, and what was booked to the store and to quarantine is what arrived on
it. The order is received when every line is covered, and its receipts have a
number each. -/
theorem instalments_capped {localeCompare : String → String → Ordering} {b : Buying}
    (h : (procurement localeCompare).Reach b) :
    (∀ id o, b.db.purchaseOrders.get? id = some o → ∀ l ∈ o.lines,
      acceptedOf b.db id l.it ≤ round3 ((l.qty : ℚ) * RECEIPT_TOLERANCE) ∧
      acceptedOf b.db id l.it = netReceived l.recv l.rejected ∧
      rejectedOf b.db id l.it = l.rejected ∧ 0 ≤ l.rejected ∧ l.rejected ≤ l.recv ∧
      booked b.db STORE id l.it = acceptedOf b.db id l.it ∧
      booked b.db QUARANTINE id l.it = rejectedOf b.db id l.it ∧
      booked b.db STORE id l.it + booked b.db QUARANTINE id l.it = l.recv) ∧
    (∀ id, (grnNumbers b.db id).Nodup) ∧
    ∀ claims id body at_ b', (procurement localeCompare).step b
        (.receivePo claims id body at_) = some b' →
      ∃ o, b'.db.purchaseOrders.get? id = some o ∧
        (o.status = .received ↔ ∀ l ∈ o.lines, l.Covered) ∧
        (o.status = .partiallyReceived ↔ ¬ ∀ l ∈ o.lines, l.Covered) := by
  have hk := deskKept_reach h
  refine ⟨fun id o ho l hl => ?_, fun id => ?_, fun claims id body at_ b' hstep => ?_⟩
  · have hline := (hk.booked.orders id o ho).lines l hl
    obtain ⟨hd, hh⟩ := (bookFunded_reach h).head ho
    obtain ⟨hpos, hle⟩ := ((bookFunded_reach h).orders id o hd ho hh).received l hl
    refine ⟨hline.accepted ▸ hline.within, ?_, hline.rejected, hpos, hle, ?_, ?_, ?_⟩
    · rw [hline.accepted, netReceived_qty]
    · rw [hline.stored, hline.accepted]
    · rw [hline.aside, hline.rejected]
    · rw [hline.stored, hline.aside, sub_add_cancel]
  · obtain ⟨n, hn⟩ := hk.booked.numbered id
    rw [hn]
    exact (List.nodup_range' 1).map (grnId_injective id)
  · obtain ⟨o, ho, hst⟩ := receivePo_status hstep
    refine ⟨o, ho, ?_⟩
    rw [hst]
    exact receiptStatus_received o.lines

/-! ## A delivery that was turned away -/

/-- Two cartons of the six ordered, crushed on the way. -/
def crushedRun : List BuyingOp :=
  dairyRun.take 3 ++ [.receivePo ⟨"u1", STORE, true⟩ "PO-1970-0143"
    ⟨"DC-1", "", "", [⟨2, 2, "B1", "1970-01-01", "1970-02-01"⟩]⟩ 0]

theorem instalments_capped_crushed : ∃ b o,
    (procurement fun _ _ => .eq).run ⟨Db.fresh corner, Table.empty, Table.empty⟩
      crushedRun = some b ∧
    b.db.purchaseOrders.get? "PO-1970-0143" = some o ∧
    o.lines = [⟨"milk", ⟨6000⟩, ⟨2000⟩, ⟨2000⟩⟩] ∧
    booked b.db STORE "PO-1970-0143" "milk" +
      booked b.db QUARANTINE "PO-1970-0143" "milk" = ⟨2000⟩ := by
  have hany : ((procurement fun _ _ => .eq).run
      ⟨Db.fresh corner, Table.empty, Table.empty⟩ crushedRun).any (fun b =>
        decide ((b.db.purchaseOrders.get? "PO-1970-0143").map PurchaseOrderRow.lines =
          some [⟨"milk", ⟨6000⟩, ⟨2000⟩, ⟨2000⟩⟩])) = true := by
    decide +kernel
  obtain ⟨b, hrun, hd⟩ := (Option.any_eq_true _ _).1 hany
  obtain ⟨o, ho, hlines⟩ := Option.map_eq_some_iff.1 (of_decide_eq_true hd)
  have hinit : (procurement fun _ _ => .eq).Reach
      ⟨Db.fresh corner, Table.empty, Table.empty⟩ := .init ⟨corner, rfl⟩
  have hreach := Machine.reach_run hinit hrun
  have hl : (⟨"milk", ⟨6000⟩, ⟨2000⟩, ⟨2000⟩⟩ : PoLine) ∈ o.lines :=
    hlines ▸ List.mem_singleton_self _
  obtain ⟨-, -, -, -, -, -, -, hsum⟩ := (instalments_capped hreach).1 _ o ho _ hl
  exact ⟨b, o, hrun, ho, hlines, hsum⟩

end Rch
