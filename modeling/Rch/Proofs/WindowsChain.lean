import Rch.Api.Reports

/-!
# Windows of the stock ledger chain

The two queries cut the history at one instant: a move is before it or from it
on, never both. So an item's opening is what it moved before the window opened
and its closing what it moved before the window ended, and whatever is said of
two windows side by side is said of sums cut at the instants between them.

An item without a line has moved nothing before the window's end, and reads as a
line of zeros.
-/

namespace Rch

open Kit

/-- An item's moves at a location, of those that pass a test. -/
def movesOf (moves : List MoveRow) (loc : LocKey) (it : ItemKey)
    (when_ : Instant → Bool) : List MoveRow :=
  moves.filter fun m => decide (m.loc = loc ∧ m.it = it) && when_ m.at_

/-- What an item moved at a location before an instant. -/
def movedBefore (moves : List MoveRow) (loc : LocKey) (it : ItemKey)
    (t : Instant) : Qty :=
  ((movesOf moves loc it fun at_ => decide (at_ < t)).map MoveRow.qty).sum

/-- What an item moved at a location in a window, each way. -/
def movedWithin (moves : List MoveRow) (loc : LocKey) (it : ItemKey)
    (from_ to_ : Instant) : InOut :=
  splitBySign (movesOf moves loc it fun at_ =>
    decide (from_ ≤ at_) && decide (at_ < to_))

/-- An item's line, and a line of zeros for an item without one. -/
def rowAt (rows : List LedgerRow) (it : ItemKey) : LedgerRow :=
  (rows.find? fun r => decide (r.it = it)).getD ⟨it, 0, 0, 0, 0⟩

/-! ## The arithmetic of a line -/

theorem splitBySign_recd_nonneg (moves : List MoveRow) :
    0 ≤ (splitBySign moves).recd := by
  refine List.sum_nonneg fun q hq => ?_
  obtain ⟨m, -, rfl⟩ := List.mem_map.1 hq
  split
  · next h => exact h.le
  · exact le_rfl

theorem splitBySign_issued_nonneg (moves : List MoveRow) :
    0 ≤ (splitBySign moves).issued := by
  refine List.sum_nonneg fun q hq => ?_
  obtain ⟨m, -, rfl⟩ := List.mem_map.1 hq
  split
  · next h => exact (neg_pos.2 h).le
  · exact le_rfl

theorem splitBySign_sub (moves : List MoveRow) :
    (splitBySign moves).recd - (splitBySign moves).issued =
      (moves.map MoveRow.qty).sum := by
  unfold splitBySign
  dsimp only
  induction moves with
  | nil => rfl
  | cons m moves ih =>
      rw [List.map_cons, List.map_cons, List.map_cons, List.sum_cons,
        List.sum_cons, List.sum_cons, ← ih, add_sub_add_comm]
      congr 1
      rcases lt_trichotomy m.qty 0 with h | h | h
      · rw [if_neg h.not_gt, if_pos h, zero_sub, neg_neg]
      · rw [h, if_neg (lt_irrefl 0), if_neg (lt_irrefl 0), sub_zero]
      · rw [if_pos h, if_neg h.not_gt, sub_zero]

theorem splitBySign_append (l l' : List MoveRow) :
    (splitBySign (l ++ l')).recd = (splitBySign l).recd + (splitBySign l').recd ∧
      (splitBySign (l ++ l')).issued =
        (splitBySign l).issued + (splitBySign l').issued := by
  unfold splitBySign
  simp only [List.map_append, List.sum_append, and_self]

theorem ledgerRow_eq (it : ItemKey) (before : Qty) {w : InOut} (hr : 0 ≤ w.recd)
    (hi : 0 ≤ w.issued) :
    ledgerRow it before [w.recd, -w.issued] =
      ⟨it, before, w.recd, w.issued, before + w.recd - w.issued⟩ := by
  have hin : ([w.recd, -w.issued].foldl (fun t q => if 0 < q then t + q else t) 0 :
      Qty) = w.recd := by
    have hneg : ¬ (0 : Qty) < -w.issued := not_lt.2 (neg_nonpos.2 hi)
    rw [List.foldl_cons, List.foldl_cons, List.foldl_nil, if_neg hneg]
    split
    · rw [zero_add]
    · next h => exact le_antisymm hr (not_lt.1 h)
  have hout : ([w.recd, -w.issued].foldl (fun t q => if q < 0 then t - q else t) 0 :
      Qty) = w.issued := by
    rw [List.foldl_cons, List.foldl_cons, List.foldl_nil, if_neg hr.not_gt]
    split
    · rw [zero_sub, neg_neg]
    · next h => exact le_antisymm hi (not_lt.1 fun hp => h (neg_neg_of_pos hp))
  unfold ledgerRow
  rw [hin, hout, round3_qty, round3_qty, round3_qty]
  dsimp only
  rw [round3_qty]

/-! ## The two queries -/

variable (moves : List MoveRow) (carried : List ItemKey) (loc : LocKey)
  (it : ItemKey) (from_ to_ : Instant)

theorem filter_it (p : MoveRow → Bool) (q : Instant → Bool)
    (h : ∀ m, p m = (decide (m.loc = loc) && q m.at_)) :
    ((moves.filter p).filter fun m => decide (m.it = it)) =
      movesOf moves loc it q := by
  rw [List.filter_filter]
  unfold movesOf
  refine List.filter_congr fun m _ => ?_
  rw [h, Bool.decide_and]
  cases decide (m.it = it) <;> cases decide (m.loc = loc) <;> rfl

theorem getD_openingAt :
    (fromEntries (openingAt moves loc from_) it).getD 0 =
      movedBefore moves loc it from_ := by
  unfold openingAt movedBefore
  rw [fromEntries_groups MoveRow.it _ fun g => (g.2.map MoveRow.qty).sum,
    filter_it moves loc it _ (fun at_ => decide (at_ < from_)) fun _ => rfl]
  split
  · rfl
  · next hk =>
      rw [← filter_it moves loc it (fun m =>
        decide (m.loc = loc) && decide (m.at_ < from_)) _ fun _ => rfl]
      rw [List.filter_eq_nil_iff.2 fun m hm hit =>
        hk (List.mem_map.2 ⟨m, hm, of_decide_eq_true hit⟩)]
      rfl

theorem getD_movedIn :
    (fromEntries (movedIn moves loc from_ to_) it).getD ⟨0, 0⟩ =
      movedWithin moves loc it from_ to_ := by
  unfold movedIn movedWithin
  have hwhen (m : MoveRow) : (decide (m.loc = loc) && decide (from_ ≤ m.at_) &&
      decide (m.at_ < to_)) = (decide (m.loc = loc) &&
        (decide (from_ ≤ m.at_) && decide (m.at_ < to_))) := Bool.and_assoc ..
  rw [fromEntries_groups, filter_it moves loc it _
    (fun at_ => decide (from_ ≤ at_) && decide (at_ < to_)) hwhen]
  split
  · rfl
  · next hk =>
      rw [← filter_it moves loc it (fun m => decide (m.loc = loc) &&
        decide (from_ ≤ m.at_) && decide (m.at_ < to_)) _ hwhen]
      rw [List.filter_eq_nil_iff.2 fun m hm hit =>
        hk (List.mem_map.2 ⟨m, hm, of_decide_eq_true hit⟩)]
      rfl

/-! ## A line of the report -/

theorem find?_rows (keys : List ItemKey) {row : ItemKey → LedgerRow}
    (hrow : ∀ it, (row it).it = it) :
    (keys.map row).find? (fun r => decide (r.it = it)) =
      if it ∈ keys then some (row it) else none := by
  induction keys with
  | nil => rfl
  | cons k keys ih =>
      rw [List.map_cons]
      by_cases hk : k = it
      · rw [List.find?_cons, hrow, decide_eq_true hk, hk,
          if_pos List.mem_cons_self]
      · rw [List.find?_cons, hrow, decide_eq_false hk, ih]
        exact if_congr (by rw [List.mem_cons, or_iff_right (Ne.symm hk)]) rfl rfl

theorem ledgerRow_it (before : Qty) (inWindow : List Qty) :
    (ledgerRow it before inWindow).it = it := rfl

theorem mem_keys_iff : it ∈ ((((openingAt moves loc from_).map Prod.fst ++
      (movedIn moves loc from_ to_).map Prod.fst ++
        carried).eraseDups).insertionSort (· ≤ ·)) ↔
    it ∈ (openingAt moves loc from_).map Prod.fst ∨
      it ∈ (movedIn moves loc from_ to_).map Prod.fst ∨ it ∈ carried := by
  rw [List.mem_insertionSort, List.mem_eraseDups, List.mem_append,
    List.mem_append, or_assoc]

/-- Every item's line, whether the report prints one or not. -/
theorem rowAt_ledgerRows :
    rowAt (ledgerRows moves carried loc from_ to_) it =
      ⟨it, movedBefore moves loc it from_,
        (movedWithin moves loc it from_ to_).recd,
        (movedWithin moves loc it from_ to_).issued,
        movedBefore moves loc it from_ +
            (movedWithin moves loc it from_ to_).recd -
          (movedWithin moves loc it from_ to_).issued⟩ := by
  unfold rowAt ledgerRows
  dsimp only
  rw [find?_rows it _ fun k => ledgerRow_it k _ _]
  split
  · rw [Option.getD_some, getD_openingAt, getD_movedIn]
    exact ledgerRow_eq it _ (splitBySign_recd_nonneg _) (splitBySign_issued_nonneg _)
  · next hkey =>
      rw [mem_keys_iff, not_or, not_or] at hkey
      have hbefore : movedBefore moves loc it from_ = 0 := by
        rw [← getD_openingAt, fromEntries_eq_none.2 hkey.1, Option.getD_none]
      have hwithin : movedWithin moves loc it from_ to_ = ⟨0, 0⟩ := by
        rw [← getD_movedIn, fromEntries_eq_none.2 hkey.2.1, Option.getD_none]
      rw [Option.getD_none, hbefore, hwithin]
      rfl

theorem nodup_ledgerRows :
    ((ledgerRows moves carried loc from_ to_).map LedgerRow.it).Nodup := by
  unfold ledgerRows
  dsimp only
  rw [List.map_map]
  have hid : (LedgerRow.it ∘ fun it => ledgerRow it
      ((fromEntries (openingAt moves loc from_) it).getD 0)
      [((fromEntries (movedIn moves loc from_ to_) it).getD ⟨0, 0⟩).recd,
        -((fromEntries (movedIn moves loc from_ to_) it).getD ⟨0, 0⟩).issued]) =
      id := funext fun k => ledgerRow_it k _ _
  rw [hid, List.map_id]
  exact (List.perm_insertionSort _ _).nodup_iff.2 (nodup_eraseDups _)

/-! ## Sums cut at an instant -/

section Cuts

variable {a b c : Instant}

/-- Moves that pass one of two tests, and never both. -/
theorem movesOf_perm {p q r : Instant → Bool} (h : ∀ t, r t = (p t || q t))
    (hdisj : ∀ t, p t = true → q t = false) :
    (movesOf moves loc it r).Perm
      (movesOf moves loc it p ++ movesOf moves loc it q) := by
  obtain rfl : r = fun t => p t || q t := funext h
  unfold movesOf
  induction moves with
  | nil => exact .refl _
  | cons m moves ih =>
      simp only [List.filter_cons]
      cases decide (m.loc = loc ∧ m.it = it) with
      | false => exact ih
      | true =>
          cases hp : p m.at_ with
          | true =>
              rw [hdisj _ hp]
              exact ih.cons m
          | false =>
              cases q m.at_ with
              | true => exact (ih.cons m).trans List.perm_middle.symm
              | false => exact ih

theorem movedBefore_add (h : a ≤ b) :
    movedBefore moves loc it b = movedBefore moves loc it a +
      (movedWithin moves loc it a b).recd -
        (movedWithin moves loc it a b).issued := by
  have hperm := movesOf_perm moves loc it (p := fun t => decide (t < a))
    (q := fun t => decide (a ≤ t) && decide (t < b))
    (r := fun t => decide (t < b)) (fun t => by grind) (fun t => by grind)
  unfold movedBefore movedWithin
  rw [(hperm.map MoveRow.qty).sum_eq, List.map_append, List.sum_append,
    ← splitBySign_sub (movesOf moves loc it fun t =>
      decide (a ≤ t) && decide (t < b)), add_sub_assoc]

theorem splitBySign_perm {l l' : List MoveRow} (h : l.Perm l') :
    splitBySign l = splitBySign l' := by
  unfold splitBySign
  rw [(h.map _).sum_eq, (h.map fun m => if m.qty < 0 then -m.qty else 0).sum_eq]

theorem movedWithin_add (hab : a ≤ b) (hbc : b ≤ c) :
    (movedWithin moves loc it a c).recd =
        (movedWithin moves loc it a b).recd + (movedWithin moves loc it b c).recd ∧
      (movedWithin moves loc it a c).issued =
        (movedWithin moves loc it a b).issued +
          (movedWithin moves loc it b c).issued := by
  have hperm := movesOf_perm moves loc it
    (p := fun t => decide (a ≤ t) && decide (t < b))
    (q := fun t => decide (b ≤ t) && decide (t < c))
    (r := fun t => decide (a ≤ t) && decide (t < c))
    (fun t => by grind) (fun t => by grind)
  unfold movedWithin
  rw [splitBySign_perm hperm]
  exact splitBySign_append _ _

end Cuts

/-! ## The chain -/

theorem ledgerRows_rowAt {r : LedgerRow}
    (h : r ∈ ledgerRows moves carried loc from_ to_) :
    r = rowAt (ledgerRows moves carried loc from_ to_) r.it := by
  have hkey : r.it ∈ ((((openingAt moves loc from_).map Prod.fst ++
      (movedIn moves loc from_ to_).map Prod.fst ++
        carried).eraseDups).insertionSort (· ≤ ·)) := by
    obtain ⟨k, hk, rfl⟩ := List.mem_map.1 h
    exact hk
  unfold rowAt
  unfold ledgerRows at h ⊢
  dsimp only at h ⊢
  rw [find?_rows _ _ fun k => ledgerRow_it k _ _, if_pos hkey, Option.getD_some]
  obtain ⟨k, -, rfl⟩ := List.mem_map.1 h
  rfl

/-- The windows of a ledger chain. A report prints an item on one line, and says
of it what `rowAt` does; a line adds up, from what moved before the window to what
moved before its end; the next window opens where it closed; and a window cut in
two opens with the first half, closes with the second, and came and went as the
two did. -/
theorem windows_chain (moves : List MoveRow)
    (carried : Instant → Instant → List ItemKey) (loc : LocKey) (it : ItemKey)
    {a b c : Instant} (hab : a ≤ b) (hbc : b ≤ c) :
    let report := fun from_ to_ =>
      ledgerRows moves (carried from_ to_) loc from_ to_
    let row := fun from_ to_ => rowAt (report from_ to_) it
    (((report a b).map LedgerRow.it).Nodup ∧
      ∀ r ∈ report a b, r = rowAt (report a b) r.it) ∧
    ((row a b).opening + (row a b).recd - (row a b).issued = (row a b).closing ∧
      (row a b).opening = movedBefore moves loc it a ∧
      (row a b).closing = movedBefore moves loc it b) ∧
    (row a b).closing = (row b c).opening ∧
    ((row a c).opening = (row a b).opening ∧
      (row a c).closing = (row b c).closing ∧
      (row a c).recd = (row a b).recd + (row b c).recd ∧
      (row a c).issued = (row a b).issued + (row b c).issued) := by
  intro report row
  have hrow (from_ to_ : Instant) : row from_ to_ = _ :=
    rowAt_ledgerRows moves (carried from_ to_) loc it from_ to_
  have hac := hab.trans hbc
  obtain ⟨hrecd, hissued⟩ := movedWithin_add moves loc it hab hbc
  refine ⟨⟨nodup_ledgerRows .., fun r hr => ledgerRows_rowAt _ _ _ _ _ hr⟩, ?_⟩
  rw [hrow a b, hrow b c, hrow a c]
  dsimp only
  rw [← movedBefore_add moves loc it hab, ← movedBefore_add moves loc it hbc,
    ← movedBefore_add moves loc it hac]
  exact ⟨⟨rfl, rfl, rfl⟩, rfl, rfl, rfl, hrecd, hissued⟩

/-- Milk into the café and out of it: ten before the first window, four sold at
its opening instant, two counted up at the instant it closes, three sold after. -/
def milkMoves : List MoveRow :=
  [⟨1, "cafe", "milk", ⟨10000⟩, .grnAccept, "grn", "GRN-1", none, 5, none⟩,
    ⟨2, "cafe", "milk", ⟨-4000⟩, .sale, "sale", "CF/1", none, 10, none⟩,
    ⟨3, "cafe", "milk", ⟨2000⟩, .adjustment, "adjustment", "", none, 20, none⟩,
    ⟨4, "cafe", "milk", ⟨-3000⟩, .sale, "sale", "CF/2", none, 25, none⟩]

theorem windows_chain_milk :
    let report := fun from_ to_ => ledgerRows milkMoves [] "cafe" from_ to_
    let row := fun from_ to_ => rowAt (report from_ to_) "milk"
    (row 10 20 = ⟨"milk", ⟨10000⟩, 0, ⟨4000⟩, ⟨6000⟩⟩ ∧
      row 20 30 = ⟨"milk", ⟨6000⟩, ⟨2000⟩, ⟨3000⟩, ⟨5000⟩⟩) ∧
    (row 10 20).closing = (row 20 30).opening ∧
    (row 10 30).issued = (row 10 20).issued + (row 20 30).issued := by
  intro report row
  have h := windows_chain milkMoves (fun _ _ => []) "cafe" "milk"
    (a := 10) (b := 20) (c := 30) (by decide) (by decide)
  exact ⟨by decide +kernel, h.2.2.1, h.2.2.2.2.2.2⟩

end Rch
