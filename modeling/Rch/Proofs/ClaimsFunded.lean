import Rch.Proofs.BuyingSteps
import Rch.Proofs.ClaimsMeet
import Rch.Proofs.Instalments

/-!
# Procurement claims add up

The order book's claim on a requisition line is a sum over orders, and a write
of one order changes one term of it. So each write comes down to one equation:
what the order claimed is what it gives back and what it goes on claiming. The
three releases meet it through `GivenOff.conserved`, a short close through the
meeting of the two pourings.
-/

namespace Rch

open Kit

/-! ## An order's lines -/

/-- A line's sources are claims of something, and they come to the line. -/
def PoTerm.Funds (t : PoTerm) (l : PoLine) : Prop :=
  (∀ x ∈ t.src, 0 < x.qty) ∧ claimTotal t.src = l.qty

structure OrderFunded (o : PurchaseOrderRow) (h : PoHead) : Prop where
  /-- the two halves have the same lines -/
  paired : o.lines.length = h.terms.length
  funded : ∀ p ∈ o.lines.zip h.terms, p.2.Funds p.1
  received : ∀ l ∈ o.lines, 0 ≤ l.rejected ∧ l.rejected ≤ l.recv
  /-- only an order that ended is noted -/
  noted : h.shortNote ≠ none → o.status = .received ∨ o.status = .cancelled

section Lines

variable {o : PurchaseOrderRow} {h : PoHead}

theorem draftLines_eq (o : PurchaseOrderRow) (h : PoHead) :
    draftLines o h = (o.lines.zip h.terms).map fun p =>
      ⟨p.1.it, p.1.qty, p.2.rate, p.2.src⟩ :=
  (List.map_uncurry_zip_eq_zipWith ..).symm

theorem shortLines_eq (o : PurchaseOrderRow) (h : PoHead) :
    shortLines o h = (o.lines.zip h.terms).map fun p =>
      ⟨p.1.qty, p.1.recv, p.1.rejected, p.2.src⟩ :=
  (List.map_uncurry_zip_eq_zipWith ..).symm

theorem orderClaims_eq (o : PurchaseOrderRow) (h : PoHead) :
    orderClaims o h =
      (o.lines.zip h.terms).flatMap fun p => lineClaims o h p.1 p.2 := by
  rw [orderClaims, ← List.map_uncurry_zip_eq_zipWith, List.flatMap_def]
  rfl

theorem claimed_flatMap {α : Type} (l : List α) (f : α → List ClaimSrc)
    (k : String × ℕ) :
    claimed (l.flatMap f) k = (l.map fun a => claimed (f a) k).sum := by
  induction l with
  | nil => rfl
  | cons a l ih =>
      rw [List.flatMap_cons, claimed_append, List.map_cons, List.sum_cons, ih]

theorem orderClaims_open (hc : o.status ≠ .cancelled) (hs : ¬ closedShort o h) :
    orderClaims o h = (draftLines o h).flatMap DraftLine.src := by
  rw [orderClaims_eq, draftLines_eq, List.flatMap_map]
  congr 1
  funext p
  rw [lineClaims, if_neg hc, if_neg hs]

theorem orderClaims_cancelled (hc : o.status = .cancelled) : orderClaims o h = [] := by
  rw [orderClaims_eq]
  refine List.flatMap_eq_nil_iff.2 fun p _ => ?_
  rw [lineClaims, if_pos hc]

theorem OrderFunded.draftLines (hf : OrderFunded o h) {l : DraftLine}
    (hl : l ∈ draftLines o h) :
    (∀ x ∈ l.src, 0 < x.qty) ∧ claimTotal l.src = l.qty := by
  rw [draftLines_eq] at hl
  obtain ⟨p, hp, rfl⟩ := List.mem_map.1 hl
  exact hf.funded p hp

theorem draftLines_written (o : PurchaseOrderRow) (h : PoHead)
    (lines : List DraftLine) : draftLines (o.written lines) (h.written lines) = lines := by
  rw [draftLines_eq]
  change ((lines.map _).zip (lines.map _)).map _ = lines
  rw [List.zip_map', List.map_map]
  exact List.map_id _

theorem written_funded (lines : List DraftLine) (hf : OrderFunded o h)
    (hlines : ∀ l ∈ lines, (∀ x ∈ l.src, 0 < x.qty) ∧ claimTotal l.src = l.qty)
    {h' : PoHead} (hterms : h'.terms = (h.written lines).terms)
    (hnote : h'.shortNote = h.shortNote) : OrderFunded (o.written lines) h' where
  paired := by
    rw [hterms]
    change (lines.map _).length = (lines.map _).length
    rw [List.length_map, List.length_map]
  funded := by
    rw [hterms]
    change ∀ p ∈ (lines.map _).zip (lines.map _), _
    rw [List.zip_map']
    intro p hp
    obtain ⟨l, hl, rfl⟩ := List.mem_map.1 hp
    exact hlines l hl
  received := by
    intro l hl
    obtain ⟨d, -, rfl⟩ := List.mem_map.1 hl
    exact ⟨le_refl 0, le_refl 0⟩
  noted := by
    intro hn
    rw [hnote] at hn
    exact hf.noted hn

/-- Where the claim stood that line `n` of a list of lines carried. -/
theorem split_at {α : Type} {l : List α} {n : ℕ} {a : α} (h : l[n]? = some a) :
    ∃ as bs, l = as ++ a :: bs ∧ (∀ f : α → α, l.modify n f = as ++ f a :: bs) ∧
      l.eraseIdx n = as ++ bs := by
  induction l generalizing n with
  | nil => cases h
  | cons b l ih =>
      cases n with
      | zero =>
          obtain rfl := Option.some.inj h
          exact ⟨[], l, rfl, fun f => rfl, rfl⟩
      | succ n =>
          obtain ⟨as, bs, hl, hm, he⟩ := ih h
          refine ⟨b :: as, bs, ?_, fun f => ?_, ?_⟩
          · rw [hl, List.cons_append]
          · rw [List.modify_succ_cons, hm, List.cons_append]
          · rw [List.eraseIdx_cons_succ, he, List.cons_append]

end Lines

/-! ## What a short close gives back and what it leaves -/

section Close

variable {l : ShortLine}

theorem ShortLine.shortfall_nonneg (l : ShortLine) : 0 ≤ l.shortfall := le_max_left ..

/-- A line's sources are what its short close gives back and the shares of what
it took in. -/
theorem ShortLine.conserved (hsrc : ∀ x ∈ l.src, 0 < x.qty)
    (htotal : claimTotal l.src = l.qty)
    (hrecv : 0 ≤ l.rejected ∧ l.rejected ≤ l.recv) (k : String × ℕ) :
    claimed (releaseClaim l.src l.shortfall).1 k + claimed (cutTo l.src l.got) k =
      claimed l.src k := by
  have hnet : 0 ≤ netReceived l.recv l.rejected := by
    rw [netReceived_qty]
    exact sub_nonneg.2 hrecv.2
  have hle : l.shortfall ≤ claimTotal l.src := by
    rw [htotal]
    refine max_le ?_ (sub_le_self _ hnet)
    rw [← htotal]
    exact List.sum_nonneg (sum_qty_nonneg hsrc)
  have hgiven := releaseClaim_qty hsrc l.shortfall_nonneg hle
  rw [← hgiven.conserved k]
  congr 1
  by_cases hfull : netReceived l.recv l.rejected ≤ l.qty
  · have hf : l.Funded := ⟨fun x hx => (hsrc x hx).le, htotal, hnet, hfull⟩
    rw [hf.left_eq]
  · -- More was accepted than was ordered: nothing is short, every share is full.
    have hnone : l.shortfall = 0 :=
      max_eq_left (sub_nonpos.2 (not_le.1 hfull).le)
    have hgot : l.got = l.src.map ClaimSrc.qty := by
      have hsum : (l.src.map ClaimSrc.qty).sum ≤ netReceived l.recv l.rejected := by
        refine le_trans (le_of_eq htotal) (not_le.1 hfull).le
      rw [ShortLine.got, apportion_eq hnet]
      exact (pour_full (sum_qty_nonneg hsrc) hsum).1
    have hall : (releaseClaim l.src l.shortfall).2 = l.src := by
      rw [hnone, releaseClaim_eq _ (Decimal.toRat_nonneg.2 (le_refl 0)), round3_qty,
        givenBack_zero hsrc]
      dsimp only
      rw [zipWith_sub_replicate _ (by simp), cutTo_self hsrc]
    rw [hgot, cutTo_self hsrc, hall]

end Close

/-! ## One rewrite of an order -/

theorem mem_cutTo {src : List ClaimSrc} {qtys : List Qty} {x : ClaimSrc}
    (hx : x ∈ cutTo src qtys) : ∃ y ∈ src, y.key = x.key := by
  induction src generalizing qtys with
  | nil => cases hx
  | cons y src ih =>
      cases qtys with
      | nil => cases hx
      | cons q qtys =>
          rw [cutTo_cons] at hx
          rcases List.mem_append.1 hx with hx | hx
          · unfold ClaimSrc.cut at hx
            split at hx
            · obtain rfl := List.mem_singleton.1 hx
              exact ⟨y, List.mem_cons_self, rfl⟩
            · cases hx
          · obtain ⟨z, hz, hkey⟩ := ih hx
            exact ⟨z, List.mem_cons_of_mem _ hz, hkey⟩

theorem mem_releaseClaim_left {src : List ClaimSrc} {give : Qty} {x : ClaimSrc}
    (h₀ : 0 ≤ give) (hx : x ∈ (releaseClaim src give).2) :
    ∃ y ∈ src, y.key = x.key := by
  rw [releaseClaim_eq src (Decimal.toRat_nonneg.2 h₀)] at hx
  exact mem_cutTo hx

/-- Claims of something that come to nothing are none. -/
theorem eq_nil_of_claimTotal {src : List ClaimSrc} (hsrc : ∀ x ∈ src, 0 < x.qty)
    (h : claimTotal src = 0) : src = [] := by
  cases src with
  | nil => rfl
  | cons x src =>
      rw [List.forall_mem_cons] at hsrc
      have hrest : 0 ≤ claimTotal src := List.sum_nonneg (sum_qty_nonneg hsrc.2)
      have hcons : claimTotal (x :: src) = x.qty + claimTotal src := List.sum_cons
      rw [hcons] at h
      exact absurd h (add_pos_of_pos_of_nonneg hsrc.1 hrest).ne'

theorem releaseClaim_all {src : List ClaimSrc} (hsrc : ∀ x ∈ src, 0 < x.qty)
    {give : Qty} (hgive : claimTotal src = give) (k : String × ℕ) :
    claimed (releaseClaim src give).1 k = claimed src k := by
  subst hgive
  have hnonneg : 0 ≤ claimTotal src := List.sum_nonneg (sum_qty_nonneg hsrc)
  have hgiven := releaseClaim_qty hsrc hnonneg (le_refl _)
  have hleft : (releaseClaim src (claimTotal src : Qty)).2 = [] :=
    eq_nil_of_claimTotal (hgiven.left_pos hsrc) (by
      have htotal := hgiven.left_total
      rwa [add_eq_left] at htotal)
  have hnil : claimed [] k = 0 := rfl
  rw [← hgiven.conserved k, hleft, hnil, add_zero]

section Rewrite

variable {o o' : PurchaseOrderRow} {h h' : PoHead} {released : List ClaimSrc}

theorem orderClaims_draft (hst : o.status = .draft) :
    orderClaims o h = (draftLines o h).flatMap DraftLine.src := by
  refine orderClaims_open (fun hc => ?_) fun hs => ?_
  · rw [hst] at hc
    cases hc
  · rw [closedShort, hst] at hs
    cases hs.1

theorem draftLines_congr (hterms : h'.terms = h.terms) :
    draftLines o h' = draftLines o h := by
  rw [draftLines, draftLines, hterms]

theorem orderClaims_written {lines : List DraftLine} (hst : o.status = .draft)
    (hterms : h'.terms = (h.written lines).terms) :
    orderClaims (o.written lines) h' = lines.flatMap DraftLine.src := by
  have hst' : (o.written lines).status = .draft := hst
  rw [orderClaims_draft hst', draftLines_congr hterms, draftLines_written]

theorem flatMap_unpriced {lines lines' : List DraftLine}
    (hu : lines.map DraftLine.unpriced = lines'.map DraftLine.unpriced) :
    lines.flatMap DraftLine.src = lines'.flatMap DraftLine.src := by
  have hsrc (ls : List DraftLine) : ls.flatMap DraftLine.src =
      (ls.map DraftLine.unpriced).flatMap fun u => u.2.2 := by
    rw [List.flatMap_map]
    rfl
  rw [hsrc, hsrc, hu]

/-- What the order claimed is what it gives back and what it goes on claiming. -/
theorem PoRewrite.conserved (hr : PoRewrite o h o' h' released)
    (hf : OrderFunded o h) (k : String × ℕ) :
    claimed released k + claimed (orderClaims o' h') k = claimed (orderClaims o h) k := by
  have hnil : claimed [] k = 0 := rfl
  cases hr with
  | @cut n line want rate hst hline hpos hle lines hlines =>
      obtain ⟨as, bs, heq, hmodify, -⟩ := split_at hline
      have hmem : line ∈ draftLines o h := List.mem_of_getElem? hline
      obtain ⟨hsrc, htotal⟩ := hf.draftLines hmem
      have hgive : line.qty - want ≤ claimTotal line.src := by
        rw [htotal]
        exact sub_le_self _ hpos.le
      have hgiven := releaseClaim_qty hsrc (sub_nonneg.2 hle) hgive
      rw [orderClaims_written hst rfl, orderClaims_draft hst, hlines, hmodify, heq]
      simp only [List.flatMap_append, List.flatMap_cons, claimed_append]
      rw [← hgiven.conserved k]
      abel
  | @removed n line hst hline =>
      obtain ⟨as, bs, heq, -, herase⟩ := split_at hline
      obtain ⟨hsrc, htotal⟩ := hf.draftLines (List.mem_of_getElem? hline)
      rw [orderClaims_written hst rfl, orderClaims_draft hst, herase, heq,
        releaseClaim_all hsrc htotal]
      simp only [List.flatMap_append, List.flatMap_cons, claimed_append]
      abel
  | priced hst hlines hterms hnote =>
      rw [hnil, zero_add, orderClaims_written hst hterms, orderClaims_draft hst,
        flatMap_unpriced hlines]
  | dated hterms hnote =>
      have hsame : lineClaims o h' = lineClaims o h := by
        have hshort : closedShort o h' ↔ closedShort o h := by
          rw [closedShort, closedShort, hnote]
        funext l t
        exact if_congr Iff.rfl rfl (if_congr hshort rfl rfl)
      rw [hnil, zero_add, orderClaims, orderClaims, hterms, hsame]
  | sent hst hterms hnote =>
      have hopen : orderClaims { o with status := .ordered } h' =
          (draftLines o h').flatMap DraftLine.src :=
        orderClaims_open (fun hc => by cases hc) fun hs => by cases hs.1
      rw [hnil, zero_add, hopen, draftLines_congr hterms, orderClaims_draft hst]
  | cancelled hst hrecv =>
      have hopen : orderClaims o h = (draftLines o h).flatMap DraftLine.src := by
        refine orderClaims_open (fun hc => ?_) fun hs => ?_
        · rw [hc] at hst
          rcases hst with hst | hst
          · cases hst
          · cases hst
        · rw [hs.1] at hst
          rcases hst with hst | hst
          · cases hst
          · cases hst
      rw [orderClaims_cancelled rfl, hopen, hnil, add_zero]
  | @closed reason hst =>
      have hopen : orderClaims o h = (draftLines o h).flatMap DraftLine.src := by
        refine orderClaims_open (fun hc => ?_) fun hs => ?_
        · rw [hst] at hc
          cases hc
        · rw [closedShort, hst] at hs
          cases hs.1
      have hshort : closedShort { o with status := .received }
          { h with shortNote := some reason } := ⟨rfl, Option.some_ne_none _⟩
      rw [hopen, draftLines_eq, shortfallClaims, shortLines_eq, orderClaims_eq,
        List.flatMap_map, List.flatMap_map, claimed_flatMap, claimed_flatMap,
        claimed_flatMap, ← List.sum_map_add]
      congr 1
      apply List.map_congr_left
      intro p hp
      have hline := List.of_mem_zip hp
      rw [lineClaims, if_neg (fun hc => by cases hc), if_pos hshort]
      exact ShortLine.conserved (l := ⟨p.1.qty, p.1.recv, p.1.rejected, p.2.src⟩)
        (hf.funded p hp).1 (hf.funded p hp).2 (hf.received p.1 hline.1) k

theorem PoRewrite.funded (hr : PoRewrite o h o' h' released) (hf : OrderFunded o h) :
    OrderFunded o' h' := by
  cases hr with
  | @cut n line want rate hst hline hpos hle lines hlines =>
      obtain ⟨as, bs, heq, hmodify, -⟩ := split_at hline
      obtain ⟨hsrc, htotal⟩ := hf.draftLines (List.mem_of_getElem? hline)
      have hback : 0 ≤ line.qty - want := sub_nonneg.2 hle
      have hgiven := releaseClaim_qty hsrc hback (by
        rw [htotal]
        exact sub_le_self _ hpos.le)
      refine written_funded lines hf (fun l hl => ?_) rfl rfl
      rw [hlines, hmodify] at hl
      rcases List.mem_append.1 hl with hl | hl
      · exact hf.draftLines (heq ▸ List.mem_append_left _ hl)
      · rcases List.mem_cons.1 hl with rfl | hl
        · refine ⟨hgiven.left_pos hsrc, ?_⟩
          have hleft := hgiven.left_total
          rw [htotal] at hleft
          exact (sub_eq_of_eq_add' hleft.symm).symm.trans (sub_sub_cancel _ _)
        · exact hf.draftLines
            (heq ▸ List.mem_append_right _ (List.mem_cons_of_mem _ hl))
  | removed hst hline =>
      exact written_funded _ hf
        (fun l hl => hf.draftLines (List.mem_of_mem_eraseIdx hl)) rfl rfl
  | @priced lines hst hlines _ hterms hnote =>
      refine written_funded lines hf (fun l hl => ?_) hterms hnote
      have hmem : l.unpriced ∈ (draftLines o h).map DraftLine.unpriced :=
        hlines ▸ List.mem_map_of_mem hl
      obtain ⟨l₀, hl₀, heq⟩ := List.mem_map.1 hmem
      obtain ⟨-, hqty, hsrc⟩ : l₀.it = l.it ∧ l₀.qty = l.qty ∧ l₀.src = l.src := by
        simpa [DraftLine.unpriced] using heq
      rw [← hqty, ← hsrc]
      exact hf.draftLines hl₀
  | dated hterms hnote =>
      exact ⟨hterms ▸ hf.paired, hterms ▸ hf.funded, hf.received, hnote ▸ hf.noted⟩
  | sent hst hterms hnote =>
      refine ⟨hterms ▸ hf.paired, hterms ▸ hf.funded, hf.received, fun hn => ?_⟩
      rw [hnote] at hn
      rcases hf.noted hn with hs | hs
      · rw [hst] at hs
        cases hs
      · rw [hst] at hs
        cases hs
  | cancelled _ _ => exact ⟨hf.paired, hf.funded, hf.received, fun _ => .inr rfl⟩
  | closed _ => exact ⟨hf.paired, hf.funded, hf.received, fun _ => .inl rfl⟩

/-- A rewrite names no requisition line anew. -/
theorem PoRewrite.keys (hr : PoRewrite o h o' h' released) :
    ∀ t ∈ h'.terms, ∀ x ∈ t.src, ∃ t₀ ∈ h.terms, ∃ x₀ ∈ t₀.src, x₀.key = x.key := by
  have hdraft : ∀ l ∈ draftLines o h, ∀ x ∈ l.src,
      ∃ t₀ ∈ h.terms, ∃ x₀ ∈ t₀.src, x₀.key = x.key := by
    intro l hl x hx
    rw [draftLines_eq] at hl
    obtain ⟨p, hp, rfl⟩ := List.mem_map.1 hl
    exact ⟨p.2, (List.of_mem_zip hp).2, x, hx, rfl⟩
  have hsame : ∀ t ∈ h.terms, ∀ x ∈ t.src,
      ∃ t₀ ∈ h.terms, ∃ x₀ ∈ t₀.src, x₀.key = x.key :=
    fun t ht x hx => ⟨t, ht, x, hx, rfl⟩
  cases hr with
  | @cut n line want rate hst hline hpos hle lines hlines =>
      obtain ⟨as, bs, heq, hmodify, -⟩ := split_at hline
      intro t ht x hx
      obtain ⟨l, hl, rfl⟩ := List.mem_map.1 ht
      rw [hlines, hmodify] at hl
      rcases List.mem_append.1 hl with hl | hl
      · exact hdraft l (heq ▸ List.mem_append_left _ hl) x hx
      · rcases List.mem_cons.1 hl with rfl | hl
        · obtain ⟨y, hy, hkey⟩ := mem_releaseClaim_left (sub_nonneg.2 hle) hx
          rw [← hkey]
          exact hdraft line (List.mem_of_getElem? hline) y hy
        · exact hdraft l
            (heq ▸ List.mem_append_right _ (List.mem_cons_of_mem _ hl)) x hx
  | removed hst hline =>
      intro t ht x hx
      obtain ⟨l, hl, rfl⟩ := List.mem_map.1 ht
      exact hdraft l (List.mem_of_mem_eraseIdx hl) x hx
  | priced hst hlines hterms hnote =>
      intro t ht x hx
      rw [hterms] at ht
      obtain ⟨l, hl, rfl⟩ := List.mem_map.1 ht
      have hmem : l.unpriced ∈ (draftLines o h).map DraftLine.unpriced :=
        hlines ▸ List.mem_map_of_mem hl
      obtain ⟨l₀, hl₀, heq⟩ := List.mem_map.1 hmem
      have hsrc : l₀.src = l.src := congrArg (fun u => u.2.2) heq
      exact hdraft l₀ hl₀ x (hsrc ▸ hx)
  | dated hterms hnote => exact hterms ▸ hsame
  | sent hst hterms hnote => exact hterms ▸ hsame
  | cancelled _ _ => exact hsame
  | closed _ => exact hsame

end Rewrite

/-! ## The whole book -/

structure BookFunded (b : Buying) : Prop where
  /-- the two halves of the book list the same orders -/
  keyed : ∀ id, (b.heads.get? id).isSome = (b.db.purchaseOrders.get? id).isSome
  orders : ∀ id o h, b.db.purchaseOrders.get? id = some o → b.heads.get? id = some h →
    OrderFunded o h
  /-- a source names a line there is -/
  known : ∀ id h, b.heads.get? id = some h → ∀ t ∈ h.terms, ∀ x ∈ t.src,
    (requisitionLine b.requisitions x.key).isSome = true
  lines : ∀ k l, requisitionLine b.requisitions k = some l →
    l.Ck ∧ l.ordered = b.claimedOn k

section Book

variable {localeCompare : String → String → Ordering} {b b' : Buying}

/-- The invariant reads the book and the requisitions only. -/
theorem BookFunded.congr (hb : BookFunded b)
    (hpo : b'.db.purchaseOrders = b.db.purchaseOrders) (hheads : b'.heads = b.heads)
    (hprq : b'.requisitions = b.requisitions) : BookFunded b' := by
  have hclaims : b'.claimedOn = b.claimedOn := by
    funext k
    unfold Buying.claimedOn Buying.orderClaim
    rw [hpo, hheads]
  exact
    { keyed := by rw [hpo, hheads]; exact hb.keyed
      orders := by rw [hpo, hheads]; exact hb.orders
      known := by rw [hheads, hprq]; exact hb.known
      lines := by rw [hprq, hclaims]; exact hb.lines }

/-- What all orders claim, after one was rewritten. -/
theorem claimedOn_modifyPo {id : String} {o : PurchaseOrderRow} {h : PoHead}
    (ho : b.db.purchaseOrders.get? id = some o) (hh : b.heads.get? id = some h)
    (f : PurchaseOrderRow → PurchaseOrderRow) (g : PoHead → PoHead) (k : String × ℕ) :
    (modifyPo b id f g).claimedOn k + claimed (orderClaims o h) k =
      b.claimedOn k + claimed (orderClaims (f o) (g h)) k := by
  have hnew (h' : PoHead) : (modifyPo b id f g).orderClaim k id h' =
      claimed (orderClaims (f o) h') k := by
    unfold Buying.orderClaim modifyPo
    dsimp only
    rw [Table.get?_modify_self, ho]
    rfl
  have hold : b.orderClaim k id h = claimed (orderClaims o h) k := by
    unfold Buying.orderClaim
    rw [ho]
    rfl
  have hothers : ∀ id' h', id' ≠ id →
      (modifyPo b id f g).orderClaim k id' h' = b.orderClaim k id' h' := by
    intro id' h' hne
    unfold Buying.orderClaim modifyPo
    dsimp only
    rw [Table.get?_modify_ne _ _ hne]
  have hmodify := Table.total_modify hh g ((modifyPo b id f g).orderClaim k)
  have hoff := Table.total_off hh hothers
  rw [hnew, hnew] at hmodify
  rw [hold, hnew] at hoff
  unfold Buying.claimedOn
  -- The figure changes at one order and so does the row under it.
  change (b.heads.modify id g).total _ + _ = _
  rw [eq_sub_of_add_eq hmodify, eq_sub_of_add_eq hoff]
  abel

/-- A write of one order that gives back what the order no longer claims. -/
theorem BookFunded.rewrite (hb : BookFunded b) {id : String} {o : PurchaseOrderRow}
    {h : PoHead} (ho : b.db.purchaseOrders.get? id = some o)
    (hh : b.heads.get? id = some h) {f : PurchaseOrderRow → PurchaseOrderRow}
    {g : PoHead → PoHead} {released : List ClaimSrc} {b₁ : Buying}
    (hret : returnClaims localeCompare b released = .ok b₁)
    (hfunded : OrderFunded (f o) (g h))
    (hconserved : ∀ k, claimed released k + claimed (orderClaims (f o) (g h)) k =
      claimed (orderClaims o h) k)
    (hkeys : ∀ t ∈ (g h).terms, ∀ x ∈ t.src,
      ∃ t₀ ∈ h.terms, ∃ x₀ ∈ t₀.src, x₀.key = x.key) :
    BookFunded (modifyPo b₁ id f g) := by
  obtain ⟨requisitions, hadd, rfl⟩ := returnClaims_ok hret
  have hline := addOrdered_line hadd
  have hisSome (k : String × ℕ) : (requisitionLine requisitions k).isSome =
      (requisitionLine b.requisitions k).isSome := by
    rw [hline, Option.isSome_map]
  refine ⟨fun id' => ?_, fun id' o' h' ho' hh' => ?_, fun id' h' hh' t ht x hx => ?_,
    fun k l hl => ?_⟩
  · change ((b.heads.modify id g).get? id').isSome =
      ((b.db.purchaseOrders.modify id f).get? id').isSome
    rw [Table.isSome_modify, Table.isSome_modify]
    exact hb.keyed id'
  · change (b.db.purchaseOrders.modify id f).get? id' = some o' at ho'
    change (b.heads.modify id g).get? id' = some h' at hh'
    rw [Table.get?_modify_of_get? ho] at ho'
    rw [Table.get?_modify_of_get? hh] at hh'
    split at ho'
    · next heq =>
        rw [if_pos heq] at hh'
        obtain rfl := Option.some.inj ho'
        obtain rfl := Option.some.inj hh'
        exact hfunded
    · next hne =>
        rw [if_neg hne] at hh'
        exact hb.orders id' o' h' ho' hh'
  · change (requisitionLine requisitions x.key).isSome = true
    change (b.heads.modify id g).get? id' = some h' at hh'
    rw [hisSome]
    rw [Table.get?_modify_of_get? hh] at hh'
    split at hh'
    · obtain rfl := Option.some.inj hh'
      obtain ⟨t₀, ht₀, x₀, hx₀, hkey⟩ := hkeys t ht x hx
      rw [← hkey]
      exact hb.known id h hh t₀ ht₀ x₀ hx₀
    · exact hb.known id' h' hh' t ht x hx
  · change requisitionLine requisitions k = some l at hl
    refine ⟨addOrdered_ck hadd (fun k l hl => (hb.lines k l hl).1) k l hl, ?_⟩
    rw [hline] at hl
    obtain ⟨l₀, hl₀, rfl⟩ := Option.map_eq_some_iff.1 hl
    have hclaims := claimedOn_modifyPo (b := { b with requisitions }) ho hh f g k
    have hsame : ({ b with requisitions } : Buying).claimedOn k = b.claimedOn k := rfl
    change l₀.ordered + -1 • claimed (foldClaims localeCompare released) k =
      (modifyPo { b with requisitions } id f g).claimedOn k
    rw [(hb.lines k l₀ hl₀).2, claimed_foldClaims, neg_one_zsmul,
      eq_sub_of_add_eq hclaims, hsame, ← hconserved k]
    abel

theorem BookFunded.rewrote (hb : BookFunded b)
    (hr : Rewrote localeCompare b b') : BookFunded b' := by
  obtain ⟨id, o, h, f, g, released, b₁, ho, hh, hrewrite, hret, rfl⟩ := hr
  have hof := hb.orders id o h ho hh
  exact hb.rewrite ho hh hret (hrewrite.funded hof) (hrewrite.conserved hof)
    hrewrite.keys

/-! ## A delivery -/

theorem BookFunded.head (hb : BookFunded b) {id : String} {o : PurchaseOrderRow}
    (ho : b.db.purchaseOrders.get? id = some o) : ∃ h, b.heads.get? id = some h := by
  rw [← Option.isSome_iff_exists, hb.keyed, ho]
  rfl

section Landing

variable {claims : Claims} {id : String} {body : ReceivePoBody} {at_ : Instant}
  {db' : Db} {o : PurchaseOrderRow} {grns : Table String GrnRow} {h : PoHead}

/-- An instalment changes neither what was ordered nor what funded it. -/
theorem draftLines_landed (hpaired : body.lines.length = o.lines.length)
    (row : PurchaseOrderRow) :
    draftLines (landed o body at_ row) h = draftLines o h := by
  have hview (r : PurchaseOrderRow) : draftLines r h =
      List.zipWith (fun v t => (⟨v.1, v.2, t.rate, t.src⟩ : DraftLine))
        (r.lines.map PoLine.asked) h.terms := by
    rw [List.zipWith_map_left]
    rfl
  rw [hview, hview]
  congr 1
  exact landed_asked hpaired

theorem receiptStatus_cases (lines : List (Qty × Qty × Qty)) :
    receiptStatus lines = .received ∨ receiptStatus lines = .partiallyReceived := by
  unfold receiptStatus
  split
  · exact .inl rfl
  · exact .inr rfl

theorem OrderFunded.landed (hf : OrderFunded o h)
    (hl : Landed b.db claims id body at_ db' o grns) :
    OrderFunded (landed o body at_ o) h where
  paired := by
    change ((o.lines.zip body.lines).map landLine).length = h.terms.length
    rw [List.length_map, List.length_zip, hl.paired, min_self]
    exact hf.paired
  funded := by
    intro p hp
    have hmem : (⟨p.1.it, p.1.qty, p.2.rate, p.2.src⟩ : DraftLine) ∈
        Rch.draftLines (Rch.landed o body at_ o) h := by
      rw [draftLines_eq]
      exact List.mem_map.2 ⟨p, hp, rfl⟩
    rw [draftLines_landed hl.paired] at hmem
    exact hf.draftLines hmem
  received := by
    intro l hlm
    obtain ⟨p, hp, rfl⟩ := List.mem_map.1 hlm
    have hold := hf.received p.1 (List.of_mem_zip hp).1
    have hrej := hl.rejected p hp
    rw [landLine_rejected, landLine_recv]
    exact ⟨add_nonneg hold.1 (ReceiptPair.refused_nonneg hrej),
      add_le_add hold.2 (ReceiptPair.refused_le hrej)⟩
  noted := by
    intro hn
    rcases hf.noted hn with hs | hs
    · rcases hl.due with hd | hd
      · rw [hd] at hs
        cases hs
      · rw [hd] at hs
        cases hs
    · rcases hl.due with hd | hd
      · rw [hd] at hs
        cases hs
      · rw [hd] at hs
        cases hs

/-- An order still due is not noted, so no delivery closes it short. -/
theorem OrderFunded.unnoted (hf : OrderFunded o h)
    (hd : o.status = .ordered ∨ o.status = .partiallyReceived) : h.shortNote = none := by
  by_contra hn
  rcases hf.noted hn with hs | hs
  · rw [hs] at hd
    rcases hd with hd | hd
    · cases hd
    · cases hd
  · rw [hs] at hd
    rcases hd with hd | hd
    · cases hd
    · cases hd

theorem BookFunded.landed (hb : BookFunded b)
    (hl : Landed b.db claims id body at_ db' o grns) :
    BookFunded { b with db := db' } := by
  obtain ⟨h, hh⟩ := hb.head hl.found
  have hof := hb.orders id o h hl.found hh
  have hnote := hof.unnoted hl.due
  have hopen : orderClaims o h = (draftLines o h).flatMap DraftLine.src := by
    refine orderClaims_open (fun hc => ?_) fun hs => hs.2 hnote
    have hd := hl.due
    rw [hc] at hd
    rcases hd with hd | hd
    · cases hd
    · cases hd
  have hopen' : orderClaims (Rch.landed o body at_ o) h =
      (draftLines o h).flatMap DraftLine.src := by
    rw [orderClaims_open (fun hc => ?_) fun hs => hs.2 hnote,
      draftLines_landed hl.paired]
    have hst := receiptStatus_cases (((o.lines.zip body.lines).map landLine).map
      fun l => (l.qty, l.recv, l.rejected))
    change receiptStatus _ = _ at hc
    rw [hc] at hst
    rcases hst with hst | hst
    · cases hst
    · cases hst
  have hstep : BookFunded (modifyPo b id (Rch.landed o body at_) fun h => h) := by
    refine hb.rewrite hl.found hh (@returnClaims_nil (fun _ _ => .eq) b)
      (hof.landed hl) (fun k => ?_) fun t ht x hx => ⟨t, ht, x, hx, rfl⟩
    rw [hopen, hopen']
    exact zero_add _
  refine hstep.congr ?_ (Table.modify_self ..).symm rfl
  change db'.purchaseOrders = _
  rw [hl.wrote]
  rfl

end Landing

end Book

end Rch
