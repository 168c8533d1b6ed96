import Rch.Machine.Stock
import Rch.Proofs.LedgerEffect

/-!
# The ledger is the stock

The cache never drifts from the moves. The invariant says two things of every
cell: its balance is the sum of its moves, and a cell with no balance row has
no moves. The second is what the rebuild needs, since it adds rows for the
cells the moves name and must find each of them already there.

A batch is the only step with anything in it, and `postMoves_onHand` and
`postMoves_moved` have already reduced it to the same figure on both sides, for
decimals. What the code does with doubles is reduced to that in the last
section.
-/

namespace Rch

open Kit

/-- Every balance is the sum of its moves, and every move has a balance. -/
structure LedgerInv (s : Stock) : Prop where
  sums : ∀ c, s.onHand c = s.moved c
  rows : ∀ c, s.balances c = none → ∀ m ∈ s.moves, m.cell ≠ c

theorem ledgerInv_empty : LedgerInv Stock.empty where
  sums _ := rfl
  rows _ _ _ hm := absurd hm List.not_mem_nil

theorem ledgerInv_lock {s : Stock} (h : LedgerInv s) (cells : List Cell) :
    LedgerInv (lockBalances s cells) where
  sums c := by
    rw [lockBalances_onHand, lockBalances_moved]
    exact h.sums c
  rows c hc := by
    rw [lockBalances_balances] at hc
    split at hc
    · cases hc
    · exact h.rows c hc

theorem postMoves_rows {s : Stock} (h : LedgerInv s) (moves : List Move)
    (c : Cell) (hc : (postMoves s moves).balances c = none) :
    ∀ m ∈ (postMoves s moves).moves, m.cell ≠ c := by
  unfold postMoves at hc ⊢
  dsimp only at hc ⊢
  split at hc
  · next hnil =>
      rw [if_pos hnil]
      exact h.rows c hc
  · next hnil =>
      rw [if_neg hnil]
      dsimp only at hc ⊢
      rw [foldl_addOnHand, Option.map_eq_none_iff, lockBalances_balances] at hc
      split at hc
      · cases hc
      · next hkey =>
          intro m hm
          rcases List.mem_append.1 hm with hm | hm
          · exact h.rows c hc m hm
          · obtain ⟨i, hi, rfl⟩ := List.mem_mapIdx.1 hm
            intro hcell
            exact hkey (mem_keys_deltasOf.2 ⟨_, List.getElem_mem hi, hcell⟩)

theorem ledgerInv_post {s : Stock} (h : LedgerInv s) (moves : List Move) :
    LedgerInv (postMoves s moves) where
  sums c := by rw [postMoves_onHand, postMoves_moved, h.sums c]
  rows := postMoves_rows h moves

theorem ledgerInv_reserve {s s' : Stock} {rows : List Hold} (h : LedgerInv s)
    (hr : reserve s rows = .ok s') : LedgerInv s' := by
  obtain ⟨-, rfl⟩ := reserve_ok hr
  have hl := ledgerInv_lock h (rows.map fun r => ⟨r.loc, r.it⟩)
  exact ⟨hl.sums, hl.rows⟩

theorem ledgerInv_release {s : Stock} (h : LedgerInv s) (tid : String)
    (t : Instant) : LedgerInv (releaseForTicket s tid t) := ⟨h.sums, h.rows⟩

/-! ## The rebuild -/

theorem foldl_overwrite (ps : List (Cell × Qty))
    (hn : (ps.map Prod.fst).Nodup) (b : Balances) (c : Cell) :
    ps.foldl (fun (b : Balances) (p : Cell × Qty) => fun c =>
        if c = p.1 then some (Decimal.roundAway 3 (p.2 : ℚ)) else b c) b c =
      if c ∈ ps.map Prod.fst then some (entryOr ps c 0) else b c := by
  induction ps generalizing b with
  | nil => simp
  | cons p ps ih =>
      obtain ⟨k, x⟩ := p
      rw [List.map_cons, List.nodup_cons] at hn
      rw [List.foldl_cons, ih hn.2, List.map_cons, entryOr_cons]
      by_cases hc : c = k
      · subst hc
        rw [if_neg hn.1, if_pos rfl, if_pos List.mem_cons_self, if_pos rfl,
          Decimal.roundAway_toRat]
      · rw [if_neg (Ne.symm hc), if_neg hc]
        simp only [List.mem_cons, hc, false_or]

theorem rebuildBalances_balances {s : Stock} (h : LedgerInv s) :
    (rebuildBalances s).balances = s.balances := by
  funext c
  unfold rebuildBalances
  dsimp only
  rw [foldl_overwrite _ (nodup_accumulate ..),
    entryOr_accumulate (g := MoveRow.qty) fun _ _ => rfl]
  cases hb : s.balances c with
  | none =>
      rw [if_neg, Option.map_none]
      intro hkey
      obtain ⟨m, hm, hc⟩ := mem_keys_accumulate.1 hkey
      exact h.rows c hb m hm hc
  | some x =>
      have hx : x = s.moved c := by rw [← h.sums c, Stock.onHand, hb]; rfl
      split
      · rw [hx]
        rfl
      · next hkey =>
          -- a carried line nothing ever moved: zeroed, and zero it was
          have hz : s.moved c = 0 := by
            apply sumOn_eq_zero
            intro m hm hc
            exact absurd (mem_keys_accumulate.2 ⟨m, hm, hc⟩) hkey
          rw [Option.map_some, hx, hz]

theorem rebuildBalances_eq {s : Stock} (h : LedgerInv s) :
    rebuildBalances s = s := by
  have hb := rebuildBalances_balances h
  unfold rebuildBalances at hb ⊢
  dsimp only at hb ⊢
  rw [hb]

/-! ## Every run -/

theorem ledgerInv_step {s s' : Stock} {e : StockEvent} (h : LedgerInv s)
    (he : stockStep s e = some s') : LedgerInv s' := by
  cases e with
  | lock cells =>
      cases he
      exact ledgerInv_lock h cells
  | post moves =>
      cases he
      exact ledgerInv_post h moves
  | hold rows =>
      exact ledgerInv_reserve h (toOption_eq_some.1 he)
  | release tid t =>
      cases he
      exact ledgerInv_release h tid t
  | rebuild =>
      cases he
      rw [rebuildBalances_eq h]
      exact h

theorem ledgerInv_reach {s : Stock} (h : stockMachine.Reach s) :
    LedgerInv s := by
  apply h.invariant
  · rintro _ rfl
    exact ledgerInv_empty
  · exact fun _ e _ _ hi he => ledgerInv_step (e := e) hi he

/-! ## In doubles

The code adds a batch up in doubles, and a quantity next to half a thousandth
may round one way by itself and the other on top of a total. Off those points
it cannot, and a batch then does what the same batch does in decimals, its
quantities first rounded one by one. So a run of the code's machine whose
batches keep off them is a run of the first machine, and its states are the
states of that one. -/

namespace Doubles

/-- What some moves come to at a cell, each rounded by itself. -/
def total (moves : List Move) (c : Cell) : Qty :=
  sumOn moves Move.cell c fun m => round3 (qtyOf m)

/-- Each quantity of a batch rounds alone on the total of those before it at
its cell. -/
def OffHalves (moves : List Move) : Prop :=
  ∀ i (_ : i < (real moves).length),
    (total ((real moves).take i) (real moves)[i].cell).RoundsAlone
      (qtyOf (real moves)[i])

instance (moves : List Move) : Decidable (OffHalves moves) :=
  inferInstanceAs (Decidable (∀ i (_ : i < (real moves).length), _))

def Clear : StockEvent → Prop
  | .post moves => OffHalves moves
  | _ => True

instance (e : StockEvent) : Decidable (Clear e) :=
  match e with
  | .post moves => inferInstanceAs (Decidable (OffHalves moves))
  | .lock _ | .hold _ | .release _ _ | .rebuild => isTrue trivial

/-- The moves as they are stored, under their own quantities. -/
def stored (moves : List Move) : List Move :=
  (real moves).map fun m => { m with qty := round3 (qtyOf m) }

theorem real_stored (moves : List Move) :
    (stored moves).filter (fun m => decide (Rch.round3 m.qty ≠ 0)) =
      stored moves := by
  rw [List.filter_eq_self]
  intro m hm
  obtain ⟨m', hm', rfl⟩ := List.mem_map.1 hm
  rw [round3_qty]
  exact (List.mem_filter.1 hm').2

theorem deltasOf_stored {moves : List Move} (h : OffHalves moves) :
    Rch.deltasOf (stored moves) = deltasOf (real moves) := by
  have hadd : deltasOf (real moves) = accumulate Move.cell
      (fun (x : Qty) m => x + round3 (qtyOf m)) 0 (real moves) :=
    accumulate_congr (fun _ _ => rfl)
      fun i hi => Decimal.ofDouble_held_add (by decide) (h i hi)
  rw [hadd]
  unfold Rch.deltasOf stored accumulate
  rw [List.foldl_map]
  congr 1
  funext m a
  congr 1
  funext x
  exact (round3_add x _).trans (by rw [round3_qty])

/-- A batch off the half thousandths is the batch of its stored moves. -/
theorem postMoves_stored {s s' : Stock} {moves : List Move}
    (hoff : OffHalves moves) (h : postMoves s moves = some s') :
    s' = Rch.postMoves s (stored moves) := by
  unfold postMoves at h
  unfold Rch.postMoves
  dsimp only at h ⊢
  rw [real_stored, deltasOf_stored hoff]
  by_cases hnil : real moves = []
  · rw [if_pos hnil] at h
    cases h
    rw [stored, hnil, List.map_nil, if_pos rfl]
  · rw [if_neg hnil] at h
    rw [if_neg (by rwa [stored, List.map_eq_nil_iff])]
    split at h
    · cases h
      congr 2
      refine List.ext_getElem (by simp [stored]) fun i _ _ => ?_
      simp only [stored, List.getElem_mapIdx, List.getElem_map, moveRow,
        Rch.moveRow, round3_qty]
    · cases h

theorem clear_reach {s : Stock}
    (h : stockMachine.ReachVia (fun _ e => Clear e) s) :
    Rch.stockMachine.Reach s := by
  induction h with
  | init h => exact .init h
  | @step s s' e _ hclear he ih =>
      cases e with
      | post moves =>
          cases postMoves_stored hclear he
          exact ih.step (e := .post (stored moves)) rfl
      | hold rows =>
          change Rch.stockMachine.step s (.hold (rows.map fun r =>
            { r with qty := round3 (.ofRat r.qty) })) = some s' at he
          exact ih.step he
      | lock cells =>
          change Rch.stockMachine.step s (.lock cells) = some s' at he
          exact ih.step he
      | release tid t =>
          change Rch.stockMachine.step s (.release tid t) = some s' at he
          exact ih.step he
      | rebuild =>
          change Rch.stockMachine.step s .rebuild = some s' at he
          exact ih.step he

def volume (moves : List Move) : ℕ :=
  (moves.map fun m => (Rch.round3 m.qty).units.natAbs).sum

theorem qtyOf_grid {m : Move} (h : ∃ x : Qty, m.qty = x) :
    qtyOf m = (Rch.round3 m.qty).held := by
  obtain ⟨x, hx⟩ := h
  rw [qtyOf, hx, round3_qty]
  rfl

theorem total_le {moves : List Move} (c : Cell)
    (hgrid : ∀ m ∈ moves, ∃ x : Qty, m.qty = x) (hvol : volume moves < 2 ^ 48) :
    (total moves c).units.natAbs ≤ volume moves := by
  induction moves with
  | nil => exact Nat.le_refl _
  | cons m moves ih =>
      rw [List.forall_mem_cons] at hgrid
      have hcons : volume (m :: moves) =
          (Rch.round3 m.qty).units.natAbs + volume moves := rfl
      rw [hcons] at hvol ⊢
      have hrest := ih hgrid.2 (by omega)
      have hround : round3 (qtyOf m) = Rch.round3 m.qty := by
        rw [qtyOf_grid hgrid.1]
        refine Decimal.ofDouble_held (by decide) ?_
        rw [Int.abs_eq_natAbs]
        omega
      rw [total, sumOn_cons, ← total, hround]
      split
      · rw [Decimal.units_add]
        omega
      · rw [zero_add]
        omega

/-- Quantities of three decimals keep off, in the digits a double has. -/
theorem offHalves_thousandths {moves : List Move}
    (hgrid : ∀ m ∈ moves, ∃ x : Qty, m.qty = x) (hvol : volume moves < 2 ^ 48) :
    OffHalves moves := by
  intro i hi
  have hreal : volume (real moves) ≤ volume moves :=
    List.Sublist.sum_le_sum (List.filter_sublist.map _) fun _ _ => Nat.zero_le _
  have hsplit : volume (real moves) = volume ((real moves).take i) +
      ((Rch.round3 (real moves)[i].qty).units.natAbs +
        volume ((real moves).drop (i + 1))) := by
    conv_lhs => rw [← List.take_append_drop i (real moves),
      List.drop_eq_getElem_cons hi]
    rw [volume, List.map_append, List.sum_append]
    rfl
  have hmem {m : Move} (h : m ∈ real moves) := hgrid m (List.mem_filter.1 h).1
  have htotal := total_le (real moves)[i].cell
    (fun m h => hmem (List.mem_of_mem_take h))
    (show volume ((real moves).take i) < 2 ^ 48 by omega)
  rw [qtyOf_grid (hmem (List.getElem_mem hi))]
  refine Decimal.roundsAlone_held (by decide) ?_
  rw [Int.abs_eq_natAbs, Int.abs_eq_natAbs]
  omega

end Doubles

/-- In every state a run reaches whose batches keep off the half thousandths,
each cell's balance is the sum of its moves, a cell with no move reads zero,
and a rebuild changes no row and drops none. -/
theorem ledger_is_the_stock {s : Stock}
    (h : Doubles.stockMachine.ReachVia (fun _ e => Doubles.Clear e) s) :
    (∀ c, s.onHand c = sumOn s.moves MoveRow.cell c MoveRow.qty) ∧
      (∀ c, (∀ m ∈ s.moves, m.cell ≠ c) → s.onHand c = 0) ∧
      (∀ c, (rebuildBalances s).balances c = s.balances c) := by
  have hi := ledgerInv_reach (Doubles.clear_reach h)
  refine ⟨hi.sums, ?_, fun c => congrFun (rebuildBalances_balances hi) c⟩
  intro c hc
  rw [hi.sums c]
  exact sumOn_eq_zero fun m hm hk => absurd hk (hc m hm)

/-- A batch with a repeated cell, quantities past three decimals and a
crumb. -/
def crumbBatch : List Move :=
  [⟨"store", "milk", 1, .opening, "item", "milk", none, 0, none⟩,
   ⟨"store", "milk", 6 / 10000, .opening, "item", "milk", none, 0, none⟩,
   ⟨"store", "milk", -12347 / 10000, .adjustment, "adjustment", "A", none, 0,
     none⟩,
   ⟨"store", "tea", 4 / 10000, .opening, "item", "tea", none, 0, none⟩]

def afterCrumbs : Stock := (Doubles.postMoves Stock.empty crumbBatch).getD default

theorem ledger_is_the_stock_crumbs :
    (∀ c, afterCrumbs.onHand c =
        sumOn afterCrumbs.moves MoveRow.cell c MoveRow.qty) ∧
      (∀ c, (∀ m ∈ afterCrumbs.moves, m.cell ≠ c) →
        afterCrumbs.onHand c = 0) ∧
      (∀ c, (rebuildBalances afterCrumbs).balances c =
        afterCrumbs.balances c) := by
  have hsome : (Doubles.postMoves Stock.empty crumbBatch).isSome = true := by
    decide +kernel
  have hclear : Doubles.Clear (.post crumbBatch) := by decide +kernel
  obtain ⟨s, hs⟩ := Option.isSome_iff_exists.1 hsome
  have hafter : afterCrumbs = s := by rw [afterCrumbs, hs, Option.getD_some]
  rw [hafter]
  exact ledger_is_the_stock
    (.step (e := .post crumbBatch) (.init rfl) hclear hs)

/-- Next to half a thousandth the two part: of these the second is stored as
0.010 by itself, and the two together as 0.010. -/
def tiedBatch : List Move :=
  [⟨"store", "milk", 1 / 1000, .opening, "item", "milk", none, 0, none⟩,
   ⟨"store", "milk", 95 / 10000, .opening, "item", "milk", none, 0, none⟩]

theorem ledger_is_not_the_stock :
    ∃ s, Doubles.stockMachine.Reach s ∧
      s.onHand ⟨"store", "milk"⟩ = ⟨10⟩ ∧
      sumOn s.moves MoveRow.cell ⟨"store", "milk"⟩ MoveRow.qty = ⟨11⟩ ∧
      (rebuildBalances s).balances ⟨"store", "milk"⟩ = some ⟨11⟩ := by
  have hany : (Doubles.postMoves Stock.empty tiedBatch).any (fun s =>
      decide (s.onHand ⟨"store", "milk"⟩ = ⟨10⟩ ∧
        sumOn s.moves MoveRow.cell ⟨"store", "milk"⟩ MoveRow.qty = ⟨11⟩ ∧
        (rebuildBalances s).balances ⟨"store", "milk"⟩ = some ⟨11⟩)) = true := by
    decide +kernel
  obtain ⟨s, hs, hd⟩ := (Option.any_eq_true _ _).1 hany
  exact ⟨s, Machine.Reach.step (e := .post tiedBatch) (.init rfl) hs,
    of_decide_eq_true hd⟩

end Rch
