import Rch.Api.Ledger

/-!
# What each ledger write does to a cell

A shelf is seen through three figures: what is on hand, what the moves add up
to, and what is held. Each writer changes them in one line, and that line is
all any later proof needs of it.

The one computation is in `postMoves`. It folds the deltas with a rounding at
every addition while the rows are rounded one by one, and the two agree
because an accumulator already on the grid passes through the rounding.
-/

namespace Rch

open Kit

def Stock.moved (s : Stock) (c : Cell) : Qty :=
  sumOn s.moves MoveRow.cell c MoveRow.qty

/-- What a batch adds to a cell: its quantities there, rounded one by one. -/
def batchAt (moves : List Move) (c : Cell) : Qty :=
  sumOn moves Move.cell c fun m => round3 m.qty

@[simp] theorem batchAt_nil (c : Cell) : batchAt [] c = 0 := rfl

theorem batchAt_append (ms ms' : List Move) (c : Cell) :
    batchAt (ms ++ ms') c = batchAt ms c + batchAt ms' c := sumOn_append ..

/-! ## Locking -/

theorem foldl_insertZero (cells : List Cell) (b : Balances) (c : Cell) :
    cells.foldl insertZero b c =
      if c ∈ cells then some ((b c).getD 0) else b c := by
  induction cells generalizing b with
  | nil => simp
  | cons a cells ih =>
      rw [List.foldl_cons, ih]
      by_cases hc : c = a
      · subst hc
        simp [insertZero]
      · simp [insertZero, hc]

theorem lockBalances_balances (s : Stock) (cells : List Cell) (c : Cell) :
    (lockBalances s cells).balances c =
      if c ∈ cells then some (s.onHand c) else s.balances c :=
  foldl_insertZero cells s.balances c

@[simp] theorem lockBalances_onHand (s : Stock) (cells : List Cell)
    (c : Cell) : (lockBalances s cells).onHand c = s.onHand c := by
  rw [Stock.onHand, lockBalances_balances]
  split <;> rfl

@[simp] theorem lockBalances_moved (s : Stock) (cells : List Cell)
    (c : Cell) : (lockBalances s cells).moved c = s.moved c := rfl

@[simp] theorem lockBalances_reservations (s : Stock) (cells : List Cell) :
    (lockBalances s cells).reservations = s.reservations := rfl

@[simp] theorem lockBalances_held (s : Stock) (cells : List Cell)
    (c : Cell) : (lockBalances s cells).held c = s.held c := rfl

@[simp] theorem lockBalances_freeAt (s : Stock) (cells : List Cell)
    (loc : LocKey) (it : ItemKey) :
    freeAt (lockBalances s cells) loc it = freeAt s loc it := by
  simp only [freeAt, balancesAt, reservedAt, lockBalances_onHand,
    lockBalances_held]

/-- What a cover check reads: the rounding changes nothing. -/
theorem freeAt_eq (s : Stock) (loc : LocKey) (it : ItemKey) :
    freeAt s loc it = s.onHand ⟨loc, it⟩ - s.held ⟨loc, it⟩ :=
  round3_sub _ _

/-! ## Posting -/

theorem foldl_addOnHand (ps : List (Cell × Qty)) (b : Balances) (c : Cell) :
    ps.foldl addOnHand b c =
      (b c).map (· + sumOn ps Prod.fst c Prod.snd) := by
  induction ps generalizing b with
  | nil => simp
  | cons p ps ih =>
      rw [List.foldl_cons, ih, sumOn_cons]
      by_cases hc : p.1 = c
      · subst hc
        rw [addOnHand, if_pos rfl, if_pos rfl]
        cases b p.1 with
        | none => rfl
        | some x =>
            rw [Option.map_some, Option.map_some, Option.map_some,
              ← Decimal.toRat_add, Decimal.roundAway_toRat, add_assoc]
      · rw [if_neg hc, zero_add, addOnHand, if_neg (Ne.symm hc)]

theorem sumOn_deltasOf (moves : List Move) (c : Cell) :
    sumOn (deltasOf moves) Prod.fst c Prod.snd = batchAt moves c :=
  sumOn_accumulate (fun x m => round3_add x m.qty) moves c

theorem mem_keys_deltasOf {moves : List Move} {c : Cell} :
    c ∈ (deltasOf moves).map Prod.fst ↔ ∃ m ∈ moves, m.cell = c :=
  mem_keys_accumulate

/-- The moves dropped from a batch add nothing to it. -/
theorem batchAt_filter (moves : List Move) (c : Cell) :
    batchAt (moves.filter fun m => decide (round3 m.qty ≠ 0)) c =
      batchAt moves c := by
  apply sumOn_filter
  intro m _ _ h
  simpa using h

theorem batchAt_eq_zero {moves : List Move} {c : Cell}
    (h : moves.filter (fun m => decide (round3 m.qty ≠ 0)) = []) :
    batchAt moves c = 0 := by
  rw [← batchAt_filter, h, batchAt_nil]

@[simp] theorem postMoves_reservations (s : Stock) (moves : List Move) :
    (postMoves s moves).reservations = s.reservations := by
  unfold postMoves
  dsimp only
  split <;> rfl

theorem postMoves_onHand (s : Stock) (moves : List Move) (c : Cell) :
    (postMoves s moves).onHand c = s.onHand c + batchAt moves c := by
  unfold postMoves
  dsimp only
  split
  · next h => rw [batchAt_eq_zero h, add_zero]
  · dsimp only [Stock.onHand]
    rw [foldl_addOnHand, sumOn_deltasOf, batchAt_filter,
      lockBalances_balances]
    split
    · rfl
    · next hc =>
        -- a cell no surviving move touches keeps its row, or its lack of one
        have hz : batchAt moves c = 0 := by
          rw [← batchAt_filter]
          apply sumOn_eq_zero
          intro m hm hk
          exact absurd (mem_keys_deltasOf.2 ⟨m, hm, hk⟩) hc
        rw [hz]
        cases s.balances c <;> simp

theorem mem_postMoves {s : Stock} {moves : List Move} {r : MoveRow}
    (h : r ∈ (postMoves s moves).moves) :
    r ∈ s.moves ∨ ∃ m ∈ moves, ∃ id, r = moveRow id m := by
  unfold postMoves at h
  dsimp only at h
  split at h
  · exact .inl h
  · rcases List.mem_append.1 h with h | h
    · exact .inl h
    · obtain ⟨i, hi, rfl⟩ := List.mem_mapIdx.1 h
      exact .inr ⟨_, (List.mem_filter.1 (List.getElem_mem hi)).1, _, rfl⟩

theorem postMoves_appends (s : Stock) (moves : List Move) :
    ∃ new, (postMoves s moves).moves = s.moves ++ new ∧
      ∀ r ∈ new, ∃ m ∈ moves, ∃ id, r = moveRow id m := by
  unfold postMoves
  dsimp only
  split
  · exact ⟨[], (List.append_nil _).symm, nofun⟩
  · refine ⟨_, rfl, fun r hr => ?_⟩
    obtain ⟨i, hi, rfl⟩ := List.mem_mapIdx.1 hr
    exact ⟨_, (List.mem_filter.1 (List.getElem_mem hi)).1, _, rfl⟩

/-- One row for each move that does not round to nothing, in their order. -/
theorem postMoves_each (s : Stock) (moves : List Move) :
    ∃ new, (postMoves s moves).moves = s.moves ++ new ∧
      List.Forall₂ (fun m r => ∃ id, r = moveRow id m)
        (moves.filter fun m => decide (round3 m.qty ≠ 0)) new := by
  unfold postMoves
  dsimp only
  split
  · next h =>
      rw [h]
      exact ⟨[], (List.append_nil _).symm, .nil⟩
  · refine ⟨_, rfl, List.forall₂_iff_get.2 ⟨List.length_mapIdx.symm, ?_⟩⟩
    intro i h₁ h₂
    refine ⟨s.moves.length + i + 1, ?_⟩
    rw [List.get_eq_getElem, List.get_eq_getElem, List.getElem_mapIdx]
    rfl

/-- What is read off the ledger row by row, the rows' numbers aside, gains
what is read off the batch. -/
theorem postMoves_filterMap {β : Type} (f : MoveRow → Option β)
    (hf : ∀ n m, f (moveRow n m) = f (moveRow 0 m)) (s : Stock)
    (moves : List Move) :
    (postMoves s moves).moves.filterMap f = s.moves.filterMap f ++
      (moves.filter fun m => decide (round3 m.qty ≠ 0)).filterMap fun m =>
        f (moveRow 0 m) := by
  have hidx : ∀ (ms : List Move) (n : ℕ),
      (ms.mapIdx fun i m => moveRow (n + i + 1) m).filterMap f =
        ms.filterMap fun m => f (moveRow 0 m) := by
    intro ms
    induction ms with
    | nil => exact fun _ => rfl
    | cons m ms ih =>
        intro n
        have hshift : (ms.mapIdx fun i m => moveRow (n + (i + 1) + 1) m) =
            ms.mapIdx fun i m => moveRow (n + 1 + i + 1) m := by
          congr 1
          funext i m
          rw [← Nat.add_assoc n i 1, Nat.add_right_comm n i 1]
        rw [List.mapIdx_cons, List.filterMap_cons, List.filterMap_cons, hshift,
          ih, hf]
  unfold postMoves
  dsimp only
  split
  · next h => rw [h, List.filterMap_nil, List.append_nil]
  · rw [List.filterMap_append, hidx]
    rfl

/-- However the rows are told apart, their numbers aside, a sum over them gains
the batch's, rounded one by one. -/
theorem sumOn_postMoves {κ : Type} [DecidableEq κ] (key : MoveRow → κ)
    (hkey : ∀ n m, key (moveRow n m) = key (moveRow 0 m)) (s : Stock)
    (moves : List Move) (k : κ) :
    sumOn (postMoves s moves).moves key k MoveRow.qty =
      sumOn s.moves key k MoveRow.qty +
        sumOn moves (fun m => key (moveRow 0 m)) k fun m => round3 m.qty := by
  obtain ⟨new, happ, heach⟩ := postMoves_each s moves
  have hdropped : sumOn (moves.filter fun m => decide (round3 m.qty ≠ 0))
      (fun m => key (moveRow 0 m)) k (fun m => round3 m.qty) =
        sumOn moves (fun m => key (moveRow 0 m)) k fun m => round3 m.qty := by
    apply sumOn_filter
    intro m _ _ h
    simpa using h
  rw [happ, sumOn_append, ← hdropped]
  congr 1
  clear happ hdropped
  generalize moves.filter (fun m => decide (round3 m.qty ≠ 0)) = real at heach
  induction heach with
  | nil => rfl
  | cons h _ ih =>
      obtain ⟨n, rfl⟩ := h
      rw [sumOn_cons, sumOn_cons, ih, hkey]
      rfl

theorem postMoves_moved (s : Stock) (moves : List Move) (c : Cell) :
    (postMoves s moves).moved c = s.moved c + batchAt moves c :=
  sumOn_postMoves MoveRow.cell (fun _ _ => rfl) s moves c

/-! ## Use on arrival -/

/-- A batch with its consumptions: every landing of a used type at the kitchen
is cancelled where it lands. -/
theorem batchAt_withUseOnArrival (types : ItemKey → Option ItemType)
    (moves : List Move) (c : Cell) :
    batchAt (withUseOnArrival types moves) c =
      sumOn moves Move.cell c fun m =>
        if (types m.it).any
            (fun t => decide (0 < m.qty) && usedOnArrival t m.loc)
        then round3 m.qty + round3 (-m.qty) else round3 m.qty := by
  induction moves with
  | nil => rfl
  | cons m moves ih =>
      have hstep : batchAt (withUseOnArrival types (m :: moves)) c =
          batchAt (withUseOnArrival types [m]) c +
            batchAt (withUseOnArrival types moves) c := by
        rw [← batchAt_append]
        simp only [withUseOnArrival, List.flatMap_cons, List.flatMap_nil,
          List.append_nil]
      rw [hstep, ih, sumOn_cons]
      congr 1
      unfold withUseOnArrival batchAt
      rw [List.flatMap_cons, List.flatMap_nil, List.append_nil]
      split
      · rw [sumOn_cons, sumOn_cons, sumOn_nil, add_zero]
        have hcell : ({ m with qty := -m.qty, kind := .productionConsume } :
            Move).cell = m.cell := rfl
        rw [hcell]
        split <;> simp
      · rw [sumOn_cons, sumOn_nil, add_zero]

/-! ## Holding -/

theorem reserve_ok {s s' : Stock} {rows : List Hold}
    (h : reserve s rows = .ok s') :
    (∀ r ∈ rows, 0 < round3 r.qty) ∧
      s' = { lockBalances s (rows.map fun r => ⟨r.loc, r.it⟩) with
        reservations := s.reservations ++ rows.map fun r =>
          ⟨r.loc, r.it, round3 r.qty, r.ticketId, none⟩ } := by
  simp only [reserve, bind_ok, guardOr_ok, pure_ok, exists_const] at h
  exact ⟨h.1, h.2.symm⟩

theorem openHolds_reserve {s s' : Stock} {rows : List Hold}
    (h : reserve s rows = .ok s') :
    s'.openHolds = s.openHolds ++ rows.map fun r =>
      (⟨r.loc, r.it, round3 r.qty, r.ticketId, none⟩ : ReservationRow) := by
  obtain ⟨-, rfl⟩ := reserve_ok h
  unfold Stock.openHolds
  rw [List.filter_append]
  congr 1
  apply List.filter_eq_self.2
  intro r hr
  obtain ⟨x, -, rfl⟩ := List.mem_map.1 hr
  rfl

theorem reserve_onHand {s s' : Stock} {rows : List Hold}
    (h : reserve s rows = .ok s') (c : Cell) : s'.onHand c = s.onHand c := by
  obtain ⟨-, rfl⟩ := reserve_ok h
  exact lockBalances_onHand s _ c

theorem reserve_moves {s s' : Stock} {rows : List Hold}
    (h : reserve s rows = .ok s') : s'.moves = s.moves := by
  obtain ⟨-, rfl⟩ := reserve_ok h
  rfl

/-- The open holds after a release are those of every other ticket. -/
theorem openHolds_release (s : Stock) (tid : String) (t : Instant) :
    (releaseForTicket s tid t).openHolds =
      s.openHolds.filter fun r => decide (r.ticketId ≠ tid) := by
  unfold releaseForTicket Stock.openHolds
  induction s.reservations with
  | nil => rfl
  | cons r rs ih =>
      rw [List.map_cons, List.filter_cons, List.filter_cons, ih]
      by_cases hr : r.releasedAt = none
      · by_cases ht : r.ticketId = tid
        · simp [hr, ht]
        · simp [hr, ht]
      · have hn : r.releasedAt.isNone = false := by
          rw [← Bool.not_eq_true, Option.isNone_iff_eq_none]
          exact hr
        simp [hr, hn]

@[simp] theorem release_onHand (s : Stock) (tid : String) (t : Instant)
    (c : Cell) : (releaseForTicket s tid t).onHand c = s.onHand c := rfl

@[simp] theorem release_moves (s : Stock) (tid : String) (t : Instant) :
    (releaseForTicket s tid t).moves = s.moves := rfl

end Rch
