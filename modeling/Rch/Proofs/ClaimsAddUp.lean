import Rch.Proofs.ClaimsFunded

/-!
# From a requisition to the claims on it

The rest of the desk's writes: a requisition is raised with nothing claimed on
it and decided without moving a claim, and a draft puts on each line what it
was picked for. With the rewrites and the deliveries they are every step of the
desk, so the book is funded in every state it reaches.
-/

namespace Rch

open Kit

section Steps

variable {localeCompare : String → String → Ordering} {b b' : Buying}

/-! ## Requisitions -/

theorem requisitionLine_insert {prq prq' : Table String RequisitionRow} {id : String}
    {row : RequisitionRow} (h : prq.insert? id row = some prq') (k : String × ℕ) :
    requisitionLine prq' k =
      if k.1 = id then row.lines[k.2]? else requisitionLine prq k := by
  unfold requisitionLine
  rw [Table.get?_insert h]
  split
  · rfl
  · rfl

theorem mem_orderClaims {o : PurchaseOrderRow} {h : PoHead} {x : ClaimSrc}
    (hx : x ∈ orderClaims o h) : ∃ t ∈ h.terms, ∃ y ∈ t.src, y.key = x.key := by
  rw [orderClaims_eq] at hx
  obtain ⟨p, hp, hx⟩ := List.mem_flatMap.1 hx
  have ht := (List.of_mem_zip hp).2
  unfold lineClaims at hx
  split at hx
  · cases hx
  · split at hx
    · obtain ⟨y, hy, hkey⟩ := mem_cutTo hx
      exact ⟨p.2, ht, y, hy, hkey⟩
    · exact ⟨p.2, ht, x, hx, rfl⟩

/-- Nothing is claimed on a line there is not. -/
theorem BookFunded.claimedOn_unknown (hb : BookFunded b) {k : String × ℕ}
    (hk : requisitionLine b.requisitions k = none) : b.claimedOn k = 0 := by
  refine Table.total_eq_zero fun id h hmem => ?_
  have hh := Table.get?_eq_some.2 hmem
  unfold Buying.orderClaim
  cases ho : b.db.purchaseOrders.get? id with
  | none => rfl
  | some o =>
      refine sumOn_eq_zero fun x hx hkey => ?_
      obtain ⟨t, ht, y, hy, hyx⟩ := mem_orderClaims hx
      have hknown := hb.known id h hh t ht y hy
      rw [hyx, hkey, hk] at hknown
      cases hknown

/-- A requisition raised with nothing ordered on it. -/
theorem BookFunded.raised (hb : BookFunded b) {db : Db} {id : String}
    {row : RequisitionRow} (h : insertRequisition b db id row = .ok b')
    (hdb : db.purchaseOrders = b.db.purchaseOrders)
    (hrow : ∀ l ∈ row.lines, l.ordered = 0 ∧ 0 ≤ l.appr) : BookFunded b' := by
  simp only [insertRequisition, bind_ok, orInternal_ok, pure_ok] at h
  obtain ⟨requisitions, hins, rfl⟩ := h
  have hfree := (Table.insert?_eq_some hins).1
  have hline := requisitionLine_insert hins
  have hclaims : ({ b with db, requisitions } : Buying).claimedOn = b.claimedOn := by
    funext k
    unfold Buying.claimedOn Buying.orderClaim
    rw [hdb]
  refine ⟨?_, ?_, fun id' h' hh' t ht x hx => ?_, fun k l hl => ?_⟩
  · change ∀ id', (b.heads.get? id').isSome = (db.purchaseOrders.get? id').isSome
    rw [hdb]
    exact hb.keyed
  · change ∀ id' o h', db.purchaseOrders.get? id' = some o → _
    rw [hdb]
    exact hb.orders
  · change (requisitionLine requisitions x.key).isSome = true
    have hold := hb.known id' h' hh' t ht x hx
    rw [hline]
    split
    · next hid =>
        rw [requisitionLine, hid, hfree] at hold
        cases hold
    · exact hold
  · change requisitionLine requisitions k = some l at hl
    rw [hclaims]
    rw [hline] at hl
    split at hl
    · next hid =>
        have hunknown : requisitionLine b.requisitions k = none := by
          rw [requisitionLine, hid, hfree]
          rfl
        obtain ⟨hordered, happr⟩ := hrow l (List.mem_of_getElem? hl)
        rw [hb.claimedOn_unknown hunknown, RequisitionLine.Ck, hordered]
        exact ⟨⟨le_refl 0, happr⟩, rfl⟩
    · exact hb.lines k l hl

theorem createRequisition_funded (hb : BookFunded b) {claims : Claims}
    {body : CreateRequisitionBody} {at_ : Instant}
    (h : createRequisition b claims body at_ = .ok b') : BookFunded b' := by
  unfold createRequisition allocateId assertKnownItems assertCombined at h
  simp only [bind_ok, checkEach_ok, assertRule_ok, exists_const] at h
  obtain ⟨-, -, -, h⟩ := h
  refine hb.raised h rfl fun l hl => ?_
  obtain ⟨x, -, rfl⟩ := List.mem_map.1 hl
  exact ⟨rfl, le_refl 0⟩

theorem addDirect_funded (hb : BookFunded b) {claims : Claims}
    {body : CreateRequisitionBody} {at_ : Instant}
    (h : addDirect b claims body at_ = .ok b') : BookFunded b' := by
  unfold addDirect allocateId assertKnownItems assertCombined at h
  simp only [bind_ok, checkEach_ok, assertRule_ok, assertEach_ok, exists_const] at h
  obtain ⟨-, hpos, -, -, -, h⟩ := h
  refine hb.raised h rfl fun l hl => ?_
  obtain ⟨x, hx, rfl⟩ := List.mem_map.1 hl
  exact ⟨rfl, Decimal.round_nonneg (hpos x hx).le⟩

/-- A decision writes what is approved and moves no claim. -/
theorem BookFunded.decided (hb : BookFunded b) {claims : Claims} {id note : String}
    {p : RequisitionRow} (hp : b.requisitions.get? id = some p)
    {lines : List RequisitionLine} {status : PrqStatus}
    (hlines : lines.map RequisitionLine.ordered = p.lines.map RequisitionLine.ordered)
    (h : decideRequisition b claims id note lines status = .ok b') : BookFunded b' := by
  simp only [decideRequisition, bind_ok, assertCk, guardOr_ok, exists_const, pure_ok] at h
  obtain ⟨hck, rfl⟩ := h
  have hget (k : String × ℕ) (hk : k.1 = id) :
      requisitionLine (b.requisitions.modify id fun r =>
        { r with status, lines, approvedBy := some claims.sub,
                 approvalNote := some note }) k = lines[k.2]? := by
    rw [requisitionLine, Table.get?_modify_of_get? hp, if_pos hk]
    rfl
  have hold (k : String × ℕ) (hk : k.1 = id) :
      requisitionLine b.requisitions k = p.lines[k.2]? := by
    rw [requisitionLine, hk, hp]
    rfl
  have hothers (k : String × ℕ) (hk : k.1 ≠ id) :
      requisitionLine (b.requisitions.modify id fun r =>
        { r with status, lines, approvedBy := some claims.sub,
                 approvalNote := some note }) k = requisitionLine b.requisitions k := by
    rw [requisitionLine, requisitionLine, Table.get?_modify_ne _ _ hk]
  have hordered (i : ℕ) : (lines[i]?).map RequisitionLine.ordered =
      (p.lines[i]?).map RequisitionLine.ordered := by
    rw [← List.getElem?_map, ← List.getElem?_map, hlines]
  refine ⟨hb.keyed, hb.orders, fun id' h' hh' t ht x hx => ?_, fun k l hl => ?_⟩
  · have hknown := hb.known id' h' hh' t ht x hx
    by_cases hk : x.key.1 = id
    · dsimp only
      rw [hget _ hk, ← Option.isSome_map, hordered, Option.isSome_map]
      rwa [hold _ hk] at hknown
    · dsimp only
      rwa [hothers _ hk]
  · dsimp only at hl
    by_cases hk : k.1 = id
    · rw [hget k hk] at hl
      refine ⟨hck l (List.mem_of_getElem? hl), ?_⟩
      have hsame := hordered k.2
      rw [hl] at hsame
      obtain ⟨l₀, hl₀, heq⟩ := Option.map_eq_some_iff.1 hsame.symm
      rw [← heq]
      exact (hb.lines k l₀ ((hold k hk).trans hl₀)).2
    · rw [hothers k hk] at hl
      exact hb.lines k l hl

theorem approveRequisition_funded (hb : BookFunded b) {claims : Claims} {id : String}
    {appr : List ℚ} {note : String}
    (h : approveRequisition b claims id appr note = .ok b') : BookFunded b' := by
  simp only [approveRequisition, bind_ok, orNotFound_ok, assertRule_ok,
    exists_const] at h
  obtain ⟨p, hp, -, h⟩ := h
  have hlines : (planPrqApproval p.lines appr).1.map RequisitionLine.ordered =
      p.lines.map RequisitionLine.ordered := by
    unfold planPrqApproval
    apply List.ext_getElem?
    intro i
    rw [List.getElem?_map, List.getElem?_mapIdx, List.getElem?_map, Option.map_map]
    rfl
  split at h
  · simp only [bind_ok] at h
    obtain ⟨_, -, _, -, h⟩ := h
    exact hb.decided hp hlines h
  · simp only [bind_ok] at h
    obtain ⟨_, -, h⟩ := h
    exact hb.decided hp hlines h

theorem declineRequisition_funded (hb : BookFunded b) {claims : Claims}
    {id note : String} (h : declineRequisition b claims id note = .ok b') :
    BookFunded b' := by
  simp only [declineRequisition, bind_ok, orNotFound_ok, assertRule_ok,
    assertTransition_ok, exists_const] at h
  obtain ⟨p, hp, -, -, h⟩ := h
  refine hb.decided hp ?_ h
  rw [List.map_map]
  rfl

/-! ## A draft -/

/-- Picks merged into lines: each line's sources are picks and come to it, and
nothing picked is dropped. -/
theorem mergePicks_spec (prq : Table String RequisitionRow) (picks : List ClaimSrc) :
    (∀ e ∈ mergePicks prq picks, (∀ x ∈ e.2.2, x ∈ picks) ∧
      claimTotal e.2.2 = e.2.1) ∧
    ∀ k, claimed ((mergePicks prq picks).flatMap fun e => e.2.2) k = claimed picks k := by
  unfold mergePicks accumulate
  suffices hs : ∀ m : List (ItemKey × Qty × List ClaimSrc),
      (∀ e ∈ m, claimTotal e.2.2 = e.2.1) →
      let m' := picks.foldl (fun m p =>
        upsert m (itemOf prq p) (fun l => (l.1 + p.qty, l.2 ++ [p])) (0, [])) m
      (∀ e ∈ m', (∀ x ∈ e.2.2, x ∈ picks ∨ ∃ e₀ ∈ m, x ∈ e₀.2.2) ∧
        claimTotal e.2.2 = e.2.1) ∧
      ∀ k, claimed (m'.flatMap fun e => e.2.2) k =
        claimed (m.flatMap fun e => e.2.2) k + claimed picks k by
    obtain ⟨hentries, hclaims⟩ := hs [] (List.forall_mem_nil _)
    refine ⟨fun e he => ⟨fun x hx => ?_, (hentries e he).2⟩, fun k => ?_⟩
    · rcases (hentries e he).1 x hx with hx | ⟨e₀, he₀, -⟩
      · exact hx
      · cases he₀
    · rw [hclaims k]
      exact zero_add _
  induction picks with
  | nil =>
      intro m hm
      refine ⟨fun e he => ⟨fun x hx => .inr ⟨e, he, hx⟩, hm e he⟩, fun k => ?_⟩
      exact (add_zero _).symm
  | cons p picks ih =>
      intro m hm
      have hadd (src : List ClaimSrc) : claimTotal (src ++ [p]) = claimTotal src + p.qty := by
        simp [claimTotal]
      -- What one pick does to the lines, wherever its line stands.
      have hstep : (∀ e ∈ upsert m (itemOf prq p)
            (fun l => (l.1 + p.qty, l.2 ++ [p])) (0, []),
          (∀ x ∈ e.2.2, x = p ∨ ∃ e₀ ∈ m, x ∈ e₀.2.2) ∧ claimTotal e.2.2 = e.2.1) ∧
          ∀ k, claimed ((upsert m (itemOf prq p)
            (fun l => (l.1 + p.qty, l.2 ++ [p])) (0, [])).flatMap fun e => e.2.2) k =
            claimed (m.flatMap fun e => e.2.2) k + claimed [p] k := by
        rcases upsert_split m (itemOf prq p)
          (fun l : Qty × List ClaimSrc => (l.1 + p.qty, l.2 ++ [p])) (0, []) with
          ⟨as, l, bs, rfl, hu⟩ | hu
        · rw [hu]
          refine ⟨fun e he => ?_, fun k => ?_⟩
          · rcases List.mem_append.1 he with he | he
            · exact ⟨fun x hx => .inr ⟨e, List.mem_append_left _ he, hx⟩,
                hm e (List.mem_append_left _ he)⟩
            · rcases List.mem_cons.1 he with rfl | he
              · have hl := hm (itemOf prq p, l)
                  (List.mem_append_right _ List.mem_cons_self)
                refine ⟨fun x hx => ?_, ?_⟩
                · rcases List.mem_append.1 hx with hx | hx
                  · exact .inr ⟨_, List.mem_append_right _ List.mem_cons_self, hx⟩
                  · exact .inl (List.mem_singleton.1 hx)
                · dsimp only at hl ⊢
                  rw [hadd, hl]
              · have hmem := List.mem_append_right as
                  (List.mem_cons_of_mem (itemOf prq p, l) he)
                exact ⟨fun x hx => .inr ⟨e, hmem, hx⟩, hm e hmem⟩
          · simp only [List.flatMap_append, List.flatMap_cons, claimed_append]
            abel
        · rw [hu]
          refine ⟨fun e he => ?_, fun k => ?_⟩
          · rcases List.mem_append.1 he with he | he
            · exact ⟨fun x hx => .inr ⟨e, he, hx⟩, hm e he⟩
            · obtain rfl := List.mem_singleton.1 he
              exact ⟨fun x hx => .inl (List.mem_singleton.1 hx), hadd []⟩
          · rw [List.flatMap_append, claimed_append]
            rfl
      rw [List.foldl_cons]
      obtain ⟨hentries, hclaims⟩ := ih _ fun e he => (hstep.1 e he).2
      refine ⟨fun e he => ⟨fun x hx => ?_, (hentries e he).2⟩, fun k => ?_⟩
      · rcases (hentries e he).1 x hx with hx | ⟨e₀, he₀, hx⟩
        · exact .inl (List.mem_cons_of_mem _ hx)
        · rcases (hstep.1 e₀ he₀).1 x hx with rfl | hx
          · exact .inl List.mem_cons_self
          · exact .inr hx
      · rw [hclaims k, hstep.2 k, add_assoc, ← claimed_append]
        rfl

theorem assertPending_known {m : Master} {prq : Table String RequisitionRow}
    {picks : List ClaimSrc} {u : Unit}
    (h : assertPending localeCompare m prq picks = .ok u) :
    ∀ x ∈ picks, (requisitionLine prq x.key).isSome = true := by
  simp only [assertPending, checkEach_ok, bind_ok, orNotFound_ok] at h
  intro x hx
  obtain ⟨f, hf, hkey⟩ := List.mem_map.1
    ((mem_foldClaims_keys localeCompare).2 ⟨x, hx, rfl⟩)
  obtain ⟨p, hp, l, hl, -⟩ := h f hf
  rw [← hkey, requisitionLine]
  change ((prq.get? f.prq).bind fun r => r.lines[f.line]?).isSome = true
  rw [hp, Option.bind_some, hl]
  rfl

/-- What all orders claim, once one more was drafted. -/
theorem claimedOn_drafted {id : String} {o : PurchaseOrderRow} {h : PoHead}
    (hpo : b.db.purchaseOrders.insert? id o = some b'.db.purchaseOrders)
    (hheads : b.heads.insert? id h = some b'.heads) (k : String × ℕ) :
    b'.claimedOn k = b.claimedOn k + claimed (orderClaims o h) k := by
  have hget := Table.get?_insert hpo
  unfold Buying.claimedOn
  rw [Table.total_insert hheads]
  congr 1
  · apply Table.total_congr
    intro id' h' hmem
    have hne : id' ≠ id := by
      rintro rfl
      have hfree := (Table.insert?_eq_some hheads).1
      rw [Table.get?_eq_some.2 hmem] at hfree
      cases hfree
    unfold Buying.orderClaim
    rw [hget, if_neg hne]
  · unfold Buying.orderClaim
    rw [hget, if_pos rfl]
    rfl

theorem createPo_funded (hb : BookFunded b) {desk : BuyingDesk} {body : CreatePoBody}
    {at_ : Instant} (h : createPo localeCompare b desk body at_ = .ok b') :
    BookFunded b' := by
  unfold createPo allocateId at h
  simp only [bind_ok, assertRule_ok, someOr_ok, orInternal_ok, exists_const,
    pure_ok] at h
  obtain ⟨-, v, -, -, hpos, _, hpending, given, -, purchaseOrders, hpo, heads, hheads,
    requisitions, hadd, rfl⟩ := h
  generalize hid : formatId IdKind.po (b.db.seq IdKind.po) at_ = id at hpo hheads
  clear hid
  obtain ⟨hentries, hclaims⟩ :=
    mergePicks_spec b.requisitions (body.picks.map Pick.claim)
  generalize hm : mergePicks b.requisitions (body.picks.map Pick.claim) = merged
    at hpo hheads hentries hclaims
  clear hm
  have hknown := assertPending_known hpending
  have hline := addOrdered_line hadd
  have hposSrc : ∀ x ∈ body.picks.map Pick.claim, 0 < x.qty := by
    intro x hx
    obtain ⟨p, hp, rfl⟩ := List.mem_map.1 hx
    exact hpos p hp
  have hgetPo := Table.get?_insert hpo
  have hgetH := Table.get?_insert hheads
  have hisSome (k : String × ℕ) : (requisitionLine requisitions k).isSome =
      (requisitionLine b.requisitions k).isSome := by
    rw [hline, Option.isSome_map]
  refine ⟨fun id' => ?_, fun id' o' h' ho' hh' => ?_, fun id' h' hh' t ht x hx => ?_,
    fun k l hl => ?_⟩
  · change (heads.get? id').isSome = (purchaseOrders.get? id').isSome
    rw [hgetPo, hgetH]
    split
    · rfl
    · exact hb.keyed id'
  · change purchaseOrders.get? id' = some o' at ho'
    change heads.get? id' = some h' at hh'
    rw [hgetPo] at ho'
    rw [hgetH] at hh'
    split at ho'
    · next heq =>
        rw [if_pos heq] at hh'
        obtain rfl := Option.some.inj ho'
        obtain rfl := Option.some.inj hh'
        refine ⟨by simp, fun p hp => ?_, fun l hl => ?_, fun hn => absurd rfl hn⟩
        · rw [List.zip_map'] at hp
          obtain ⟨e, he, rfl⟩ := List.mem_map.1 hp
          exact ⟨fun x hx => hposSrc x ((hentries e he).1 x hx), (hentries e he).2⟩
        · obtain ⟨e, -, rfl⟩ := List.mem_map.1 hl
          exact ⟨le_refl 0, le_refl 0⟩
    · next hne =>
        rw [if_neg hne] at hh'
        exact hb.orders id' o' h' ho' hh'
  · change (requisitionLine requisitions x.key).isSome = true
    change heads.get? id' = some h' at hh'
    rw [hisSome]
    rw [hgetH] at hh'
    split at hh'
    · obtain rfl := Option.some.inj hh'
      obtain ⟨e, he, rfl⟩ := List.mem_map.1 ht
      exact hknown x ((hentries e he).1 x hx)
    · exact hb.known id' h' hh' t ht x hx
  · change requisitionLine requisitions k = some l at hl
    refine ⟨addOrdered_ck hadd (fun k l hl => (hb.lines k l hl).1) k l hl, ?_⟩
    rw [hline] at hl
    obtain ⟨l₀, hl₀, rfl⟩ := Option.map_eq_some_iff.1 hl
    have hdrafted := @claimedOn_drafted b ⟨{ b.db.advance .po with
      purchaseOrders }, heads, requisitions⟩ _ _ _ hpo hheads k
    rw [orderClaims_draft rfl, draftLines_eq, List.zip_map', List.map_map,
      List.flatMap_map] at hdrafted
    rw [hdrafted]
    change l₀.ordered + 1 • claimed (foldClaims localeCompare _) k =
      b.claimedOn k + claimed (merged.flatMap fun e => e.2.2) k
    rw [(hb.lines k l₀ hl₀).2, claimed_foldClaims, one_zsmul, hclaims k]

/-! ## Every run -/

theorem BookFunded.elsewhere (hb : BookFunded b) {op : Op} {db' : Db}
    (hbuys : op.buys = false) (h : op.run b.db = some db') :
    BookFunded { b with db := db' } := by
  have hpart : Part.buying ∉ op.touches := fun hp =>
    Bool.eq_false_iff.1 hbuys (op.buys_iff.2 hp)
  exact hb.congr (op.frame h hpart).1 rfl rfl

theorem BookFunded.step (hb : BookFunded b) {e : BuyingOp}
    (h : e.run localeCompare b = some b') : BookFunded b' := by
  cases e <;> simp only [BuyingOp.run, toOption_eq_some] at h
  case createRequisition => exact createRequisition_funded hb h
  case addDirect => exact addDirect_funded hb h
  case approveRequisition => exact approveRequisition_funded hb h
  case declineRequisition => exact declineRequisition_funded hb h
  case createPo => exact createPo_funded hb h
  case updatePoLine => exact hb.rewrote (updatePoLine_ok h)
  case removePoLine => exact hb.rewrote (removePoLine_ok h)
  case patchPo => exact hb.rewrote (patchPo_ok h : Rewrote localeCompare b b')
  case sendPo => exact hb.rewrote (sendPo_ok h : Rewrote localeCompare b b')
  case cancelPo => exact hb.rewrote (cancelPo_ok h)
  case closeShort => exact hb.rewrote (closeShort_ok h)
  case receivePo claims id body at_ =>
    split at h
    · obtain ⟨db', hdb, rfl⟩ := Option.map_eq_some_iff.1 h
      obtain ⟨o, grns, hl⟩ := receivePo_landed (toOption_eq_some.1 hdb)
      exact hb.landed hl
    · cases h
  case other op =>
    split at h
    · cases h
    · next hbuys =>
        obtain ⟨db', hdb, rfl⟩ := Option.map_eq_some_iff.1 h
        exact hb.elsewhere (Bool.eq_false_iff.2 hbuys) hdb

theorem bookFunded_reach (h : (procurement localeCompare).Reach b) : BookFunded b := by
  refine Machine.Reach.invariant (fun b hinit => ?_) (fun b e b' _ hb he => hb.step he) h
  obtain ⟨rows, rfl⟩ := hinit
  refine ⟨fun id => rfl, fun id o h ho => ?_, fun id h hh => ?_, fun k l hl => ?_⟩
  · cases ho
  · cases hh
  · cases hl

end Steps

/-- Whatever the buyers and the receiving door did, and in whatever order, a
requisition line has no less than nothing and no more than its approval ordered,
and what is ordered is what the orders' lines claim on it; and each line of an
order is funded to its quantity. -/
theorem claims_add_up {localeCompare : String → String → Ordering} {b : Buying}
    (h : (procurement localeCompare).Reach b) :
    (∀ k l, requisitionLine b.requisitions k = some l →
      0 ≤ l.ordered ∧ l.ordered ≤ l.appr ∧ l.ordered = b.claimedOn k) ∧
    (∀ id, (b.heads.get? id).isSome = (b.db.purchaseOrders.get? id).isSome) ∧
    ∀ id o h, b.db.purchaseOrders.get? id = some o → b.heads.get? id = some h →
      o.lines.length = h.terms.length ∧
      ∀ p ∈ o.lines.zip h.terms, claimTotal p.2.src = p.1.qty := by
  have hb := bookFunded_reach h
  refine ⟨fun k l hl => ?_, hb.keyed, fun id o h ho hh => ?_⟩
  · obtain ⟨hck, hordered⟩ := hb.lines k l hl
    exact ⟨hck.1, hck.2, hordered⟩
  · have hof := hb.orders id o h ho hh
    exact ⟨hof.paired, fun p hp => (hof.funded p hp).2⟩

/-! ## A festival week, and a dairy that runs dry -/

def dairyDesk : BuyingDesk where
  vendors id := if id = "VN-001" then some ⟨"City Dairy", true, 2⟩ else none
  activeContractRates _ _ _ := none
  cost _ := ⟨4000⟩

/-- Ten cartons put on the list, six ordered, two of them delivered. -/
def dairyRun : List BuyingOp :=
  [.addDirect ⟨"u9", "office", true⟩ ⟨[⟨"milk", 10⟩], "festival week"⟩ 0,
   .createPo dairyDesk ⟨"VN-001", [⟨"PRQ-1970-016", 0, ⟨6000⟩, none⟩]⟩ 0,
   .sendPo dairyDesk "PO-1970-0143" 0,
   .receivePo ⟨"u1", STORE, true⟩ "PO-1970-0143"
     ⟨"DC-1", "", "", [⟨2, 0, "B1", "1970-01-01", "1970-02-01"⟩]⟩ 0]

/-- Closed short of four, the order claims the two that came. -/
theorem claims_add_up_dairy : ∃ b,
    (procurement fun _ _ => .eq).run ⟨Db.fresh corner, Table.empty, Table.empty⟩
      (dairyRun ++ [.closeShort "PO-1970-0143" "no more this week"]) = some b ∧
    b.claimedOn ("PRQ-1970-016", 0) = ⟨2000⟩ := by
  have hany : ((procurement fun _ _ => .eq).run
      ⟨Db.fresh corner, Table.empty, Table.empty⟩
      (dairyRun ++ [.closeShort "PO-1970-0143" "no more this week"])).any (fun b =>
        decide ((requisitionLine b.requisitions ("PRQ-1970-016", 0)).map
          RequisitionLine.ordered = some ⟨2000⟩)) = true := by
    decide +kernel
  obtain ⟨b, hrun, hd⟩ := (Option.any_eq_true _ _).1 hany
  refine ⟨b, hrun, ?_⟩
  obtain ⟨l, hl, hordered⟩ := Option.map_eq_some_iff.1 (of_decide_eq_true hd)
  have hinit : (procurement fun _ _ => .eq).Reach
      ⟨Db.fresh corner, Table.empty, Table.empty⟩ := .init ⟨corner, rfl⟩
  have hreach := Machine.reach_run hinit hrun
  rw [← hordered]
  exact ((claims_add_up hreach).1 _ l hl).2.2.symm

end Rch
