import Rch.Proofs.ClaimsAddUp
import Rch.Proofs.LinesKept
import Rch.Proofs.Postings

/-!
# Instalments and what they book

A delivery is judged against the net the instalments before it accepted, so the
net a line shows is inside the tolerance after each of them: what the check
bounded is the net before plus all that arrives, and the net after is that less
what was turned away. What was booked is read off the ledger, by the orders the
receipts were written for.
-/

namespace Rch

open Kit

/-! ## What was booked -/

/-- The order a move was booked for: the one its goods receipt names. -/
def MoveRow.bookedFor (grns : Table String GrnRow) (m : MoveRow) : Option String :=
  if m.refType = "grn" then (grns.get? m.refId).map GrnRow.po else none

/-- What the receipts of an order booked of an item at a place. -/
def booked (db : Db) (loc : LocKey) (id : String) (it : ItemKey) : Qty :=
  sumOn db.stock.moves (fun m => (m.loc, m.it, m.bookedFor db.grns)) (loc, it, some id)
    MoveRow.qty

/-- The numbers of the receipts of an order, as they were written. -/
def grnNumbers (db : Db) (id : String) : List String :=
  (db.grns.rows.filter fun g => decide (g.2.po = id)).map Prod.fst

/-- Only a receipt's moves name a receipt. -/
theorem Posting.not_grn {db db' : Db} {op : Op} {moves : List Move}
    (h : Posting db db' op moves) (hbuys : op.buys = false) :
    ∀ m ∈ moves, m.refType ≠ "grn" := by
  cases h with
  | nothing => exact List.forall_mem_nil _
  | handed ht hm hneg =>
      subst hm
      intro m hm
      obtain ⟨l, -, rfl⟩ := List.mem_map.1 hm
      exact (by decide : "ticket" ≠ "grn")
  | sold hraised hnames hneg =>
      intro m hm
      rw [(hnames m hm).2.1]
      decide
  | received ht hst =>
      refine refType_withUseOnArrival fun m hm => ?_
      obtain ⟨l, -, rfl⟩ := List.mem_map.1 hm
      exact (by decide : "ticket" ≠ "grn")
  | batched hitem ht =>
      intro m hm
      rw [List.mem_singleton.1 hm]
      exact (by decide : "batch" ≠ "grn")
  | corrected hd hknown =>
      refine refType_withUseOnArrival fun m hm => ?_
      obtain ⟨l, -, rfl⟩ := List.mem_map.1 hm
      exact (by decide : "adjustment" ≠ "grn")
  | delivered ho hmoves => cases hbuys
  | opened id hitem hq hoff hmoves =>
      rcases hmoves with ⟨-, rfl⟩ | rfl
      · intro m hm
        rw [List.mem_singleton.1 hm]
        exact (by decide : "batch" ≠ "grn")
      · refine refType_withUseOnArrival fun m hm => ?_
        rw [List.mem_singleton.1 hm]
        exact (by decide : "item" ≠ "grn")
  | reversed =>
      intro m hm
      obtain ⟨l, -, rfl⟩ := List.mem_map.1 hm
      exact (by decide : "bill" ≠ "grn")

/-! ## The rows of one instalment -/

section Rows

variable {id dc by_ : String} {body : ReceivePoBody} {at_ : Instant}

theorem receiptRows_numbers (n : ℕ) (pairs : List ReceiptPair) :
    ∃ m, (receiptRows id dc body by_ at_ n pairs).1.map Prod.fst =
      (List.range' (n + 1) m).map (grnId id) := by
  induction pairs generalizing n with
  | nil => exact ⟨0, rfl⟩
  | cons p rest ih =>
      rw [receiptRows]
      split
      · obtain ⟨m, hm⟩ := ih (n + 1)
        refine ⟨m + 1, ?_⟩
        rw [List.map_cons, hm, List.range'_succ, List.map_cons]
      · exact ih n

theorem receiptRows_po (n : ℕ) (pairs : List ReceiptPair) :
    ∀ g ∈ (receiptRows id dc body by_ at_ n pairs).1, g.2.po = id := by
  induction pairs generalizing n with
  | nil => exact List.forall_mem_nil _
  | cons p rest ih =>
      rw [receiptRows]
      split
      · rw [List.forall_mem_cons]
        exact ⟨rfl, ih (n + 1)⟩
      · exact ih n

theorem receiptRows_moves (n : ℕ) (pairs : List ReceiptPair) :
    ∀ m ∈ (receiptRows id dc body by_ at_ n pairs).2, m.refType = "grn" ∧
      m.refId ∈ (receiptRows id dc body by_ at_ n pairs).1.map Prod.fst := by
  induction pairs generalizing n with
  | nil => exact List.forall_mem_nil _
  | cons p rest ih =>
      rw [receiptRows]
      split
      · intro m hm
        rcases List.mem_append.1 hm with hm | hm
        · unfold receiptMoves at hm
          dsimp only at hm
          rcases List.mem_append.1 hm with hm | hm
          · split at hm
            · rw [List.mem_singleton.1 hm]
              exact ⟨rfl, List.mem_cons_self⟩
            · cases hm
          · split at hm
            · rw [List.mem_singleton.1 hm]
              exact ⟨rfl, List.mem_cons_self⟩
            · cases hm
        · obtain ⟨hgrn, hid⟩ := ih (n + 1) m hm
          exact ⟨hgrn, List.mem_cons_of_mem _ hid⟩
      · exact ih n

def movedAt (moves : List Move) (loc : LocKey) (it : ItemKey) : Qty :=
  sumOn moves (fun m => (m.loc, m.it)) (loc, it) fun m => round3 m.qty

theorem movedAt_cons (m : Move) (moves : List Move) (loc : LocKey) (it : ItemKey) :
    movedAt (m :: moves) loc it =
      (if (m.loc, m.it) = (loc, it) then round3 m.qty else 0) + movedAt moves loc it :=
  sumOn_cons ..

theorem store_ne_quarantine : STORE ≠ QUARANTINE := by decide

/-- What one line moved: the accepted part to the store, the rest aside. -/
theorem movedAt_receiptMoves {p : ReceiptPair} (by_ : String) (at_ : Instant)
    (receiptId : String) (hrej : 0 ≤ p.2.rejected ∧ p.2.rejected ≤ p.2.recv)
    (it : ItemKey) :
    movedAt (receiptMoves p receiptId by_ at_) STORE it =
        (if p.1.it = it then netReceived p.2.recv p.2.rejected else 0) ∧
      movedAt (receiptMoves p receiptId by_ at_) QUARANTINE it =
        if p.1.it = it then round3 p.2.rejected else 0 := by
  have hgood : 0 ≤ netReceived p.2.recv p.2.rejected :=
    Decimal.round_nonneg (sub_nonneg.2 hrej.2)
  have hnil (loc : LocKey) : movedAt [] loc it = 0 := rfl
  have hkey (loc loc' : LocKey) : ((loc, p.1.it) = (loc', it)) ↔ loc = loc' ∧ p.1.it = it :=
    Prod.mk_inj
  -- Each half is pushed when it is something, and moves nothing when it is not.
  have hfirst (loc : LocKey) : movedAt (if 0 < netReceived p.2.recv p.2.rejected then
      [(⟨STORE, p.1.it, netReceived p.2.recv p.2.rejected, .grnAccept, "grn",
        receiptId, some by_, at_, none⟩ : Move)] else []) loc it =
      if STORE = loc ∧ p.1.it = it then netReceived p.2.recv p.2.rejected else 0 := by
    split
    · rw [movedAt_cons, hnil, add_zero, round3_qty]
      exact if_congr (hkey ..) rfl rfl
    · next hzero =>
        rw [hnil, le_antisymm (not_lt.1 hzero) hgood, ite_self]
  have hsecond (loc : LocKey) : movedAt (if 0 < p.2.rejected then
      [(⟨QUARANTINE, p.1.it, round3 p.2.rejected, .grnReject, "grn", receiptId,
        some by_, at_, none⟩ : Move)] else []) loc it =
      if QUARANTINE = loc ∧ p.1.it = it then round3 p.2.rejected else 0 := by
    split
    · rw [movedAt_cons, hnil, add_zero, round3_qty]
      exact if_congr (hkey ..) rfl rfl
    · next hzero =>
        rw [hnil, le_antisymm (not_lt.1 hzero) hrej.1, round3_zero, ite_self]
  have hsplit (loc : LocKey) : movedAt (receiptMoves p receiptId by_ at_) loc it =
      (if STORE = loc ∧ p.1.it = it then netReceived p.2.recv p.2.rejected else 0) +
        if QUARANTINE = loc ∧ p.1.it = it then round3 p.2.rejected else 0 := by
    rw [← hfirst, ← hsecond]
    exact sumOn_append ..
  have haside : ¬ (QUARANTINE = STORE ∧ p.1.it = it) := fun h =>
    store_ne_quarantine h.1.symm
  have hstore : ¬ (STORE = QUARANTINE ∧ p.1.it = it) := fun h => store_ne_quarantine h.1
  constructor
  · rw [hsplit, if_neg haside, add_zero]
    exact if_congr (and_iff_right rfl) rfl rfl
  · rw [hsplit, if_neg hstore, zero_add]
    exact if_congr (and_iff_right rfl) rfl rfl

/-- What was accepted of an arrival is what it took less what it refused. -/
theorem ReceiptPair.took_sub {p : ReceiptPair} (hrecv : 0 < p.2.recv)
    (hgrid : (round3 p.2.recv : ℚ) = p.2.recv ∧ (round3 p.2.rejected : ℚ) = p.2.rejected) :
    ReceiptPair.took p - ReceiptPair.refused p = netReceived p.2.recv p.2.rejected := by
  unfold netReceived ReceiptPair.took ReceiptPair.refused
  rw [if_pos hrecv, if_pos hrecv, ← round3_sub, hgrid.1, hgrid.2]

theorem movedAt_receiptRows (n : ℕ) (pairs : List ReceiptPair)
    (hrej : ∀ p ∈ pairs, 0 < p.2.recv →
      0 ≤ p.2.rejected ∧ p.2.rejected ≤ p.2.recv)
    (hgrid : ∀ p ∈ pairs, (round3 p.2.recv : ℚ) = p.2.recv ∧
      (round3 p.2.rejected : ℚ) = p.2.rejected) (it : ItemKey) :
    movedAt (receiptRows id dc body by_ at_ n pairs).2 STORE it =
        sumOn pairs (fun p => p.1.it) it (fun p => ReceiptPair.took p - ReceiptPair.refused p) ∧
      movedAt (receiptRows id dc body by_ at_ n pairs).2 QUARANTINE it =
        sumOn pairs (fun p => p.1.it) it ReceiptPair.refused := by
  induction pairs generalizing n with
  | nil => exact ⟨rfl, rfl⟩
  | cons p rest ih =>
      rw [List.forall_mem_cons] at hrej hgrid
      rw [receiptRows, sumOn_cons, sumOn_cons]
      by_cases hrecv : 0 < p.2.recv
      · obtain ⟨hstore, haside⟩ := movedAt_receiptMoves by_ at_
          (grnId id (n + 1)) (hrej.1 hrecv) it
        obtain ⟨ihstore, ihaside⟩ := ih (n + 1) hrej.2 hgrid.2
        have hnet := (ReceiptPair.took_sub hrecv hgrid.1).symm
        have hrefused : round3 p.2.rejected = ReceiptPair.refused p := by
          rw [ReceiptPair.refused, if_pos hrecv]
        rw [if_pos hrecv, ← ihstore, ← ihaside, ← hnet, ← hrefused, ← hstore, ← haside]
        exact ⟨sumOn_append .., sumOn_append ..⟩
      · obtain ⟨ihstore, ihaside⟩ := ih n hrej.2 hgrid.2
        have htook : ReceiptPair.took p = 0 := if_neg hrecv
        have hrefused : ReceiptPair.refused p = 0 := if_neg hrecv
        rw [if_neg hrecv, htook, hrefused, sub_zero, ite_self, zero_add, zero_add]
        exact ⟨ihstore, ihaside⟩

theorem insertGrns_rows {grns grns' : Table String GrnRow}
    {docs : List (String × GrnRow)} (h : insertGrns grns docs = some grns') :
    grns'.rows = grns.rows ++ docs := by
  induction docs generalizing grns with
  | nil =>
      cases h
      exact (List.append_nil _).symm
  | cons d docs ih =>
      obtain ⟨t, ht, hrest⟩ := Option.bind_eq_some_iff.1 h
      rw [ih hrest, (Table.insert?_eq_some ht).2, List.append_assoc]
      rfl

/-- The documents say what the lines took and what was refused of it. -/
theorem receiptRows_documents (n : ℕ) (pairs : List ReceiptPair)
    (hgrid : ∀ p ∈ pairs, (round3 p.2.recv : ℚ) = p.2.recv ∧
      (round3 p.2.rejected : ℚ) = p.2.rejected) (it : ItemKey) :
    sumOn (receiptRows id dc body by_ at_ n pairs).1 (fun g => (g.2.po, g.2.it)) (id, it)
        (fun g => g.2.accepted) =
      sumOn pairs (fun p => p.1.it) it (fun p => ReceiptPair.took p - ReceiptPair.refused p) ∧
    sumOn (receiptRows id dc body by_ at_ n pairs).1 (fun g => (g.2.po, g.2.it)) (id, it)
        (fun g => g.2.rejected) =
      sumOn pairs (fun p => p.1.it) it ReceiptPair.refused := by
  induction pairs generalizing n with
  | nil => exact ⟨rfl, rfl⟩
  | cons p rest ih =>
      rw [List.forall_mem_cons] at hgrid
      rw [receiptRows, sumOn_cons, sumOn_cons]
      by_cases hrecv : 0 < p.2.recv
      · obtain ⟨ihaccepted, ihrejected⟩ := ih (n + 1) hgrid.2
        have hkey : ((id, p.1.it) = (id, it)) ↔ p.1.it = it :=
          Prod.mk_inj.trans (and_iff_right rfl)
        rw [if_pos hrecv, ← ihaccepted, ← ihrejected, ReceiptPair.took_sub hrecv hgrid.1,
          ReceiptPair.refused, if_pos hrecv]
        constructor
        · exact (sumOn_cons ..).trans (congrArg (· + _) (if_congr hkey rfl rfl))
        · exact (sumOn_cons ..).trans (congrArg (· + _) (if_congr hkey rfl rfl))
      · obtain ⟨ihaccepted, ihrejected⟩ := ih n hgrid.2
        have htook : ReceiptPair.took p = 0 := if_neg hrecv
        have hrefused : ReceiptPair.refused p = 0 := if_neg hrecv
        rw [if_neg hrecv, htook, hrefused, sub_zero, ite_self, zero_add, zero_add]
        exact ⟨ihaccepted, ihrejected⟩

end Rows

end Rch
