import Rch.Proofs.TicketJourney

/-!
# Stock in transit is conserved

A ticket takes stock off one shelf and puts it on another, and between the two
scans it stands on neither. What stands on all the shelves together, with what
the Collected tickets carry, is what every other move has brought in or taken
out: the rows of a ticket's two legs come to nothing once it is received, and
to minus its lines while it is under way.

The sum over the ledger is taken ticket by ticket, and `JourneyKept` says what
each ticket's rows are.
-/

namespace Rch

open Kit

/-! ## The figures -/

def Stock.places (s : Stock) : Finset LocKey :=
  (s.moves.map MoveRow.loc).toFinset

def Stock.total (s : Stock) (it : ItemKey) : Qty :=
  ∑ loc ∈ s.places, s.onHand ⟨loc, it⟩

def Db.inTransit (db : Db) (it : ItemKey) : Qty :=
  db.tickets.total fun _ t =>
    if t.st = .collected then lineTotal t.lines it else 0

/-- Whether an item is used as it lands at the kitchen, by the master as it
stands. -/
def Db.usesOnArrival (db : Db) (it : ItemKey) : Bool :=
  (loadItemTypes db.rows it).any fun t => usedOnArrival t KITCHEN

/-- What the moves that are no ticket's leg add up to. -/
def Stock.apart (s : Stock) (it : ItemKey) : Qty :=
  sumOn (s.moves.filter fun m => decide ¬m.carries) MoveRow.it it MoveRow.qty

/-- A place the ledger does not name carries nothing. -/
theorem onHand_off_places {s : Stock} (h : LedgerInv s) {loc : LocKey}
    (hloc : loc ∉ s.places) (it : ItemKey) : s.onHand ⟨loc, it⟩ = 0 := by
  rw [h.sums]
  apply sumOn_eq_zero
  intro m hm hc
  refine absurd (List.mem_toFinset.2 ?_) hloc
  have hloc' : m.loc = loc := congrArg Cell.loc hc
  exact hloc' ▸ List.mem_map_of_mem hm

theorem total_eq_moves {s : Stock} (h : LedgerInv s) (it : ItemKey) :
    s.total it = sumOn s.moves MoveRow.it it MoveRow.qty := by
  have hcell : ∀ loc, s.onHand ⟨loc, it⟩ = sumOn s.moves MoveRow.loc loc
      fun m => if m.it = it then m.qty else 0 := by
    intro loc
    rw [h.sums, Stock.moved]
    apply sumOn_congr
    intro m _
    simp only [MoveRow.cell, Cell.mk.injEq, ite_and]
  rw [Stock.total, Finset.sum_congr rfl fun loc _ => hcell loc]
  rw [sum_sumOn]
  · rfl
  · intro m hm
    exact List.mem_toFinset.2 (List.mem_map_of_mem hm)

/-! ## Ticket by ticket -/

def amountOf (legs : List (Cell × Qty)) (it : ItemKey) : Qty :=
  sumOn legs (fun p => p.1.it) it Prod.snd

theorem amountOf_cons (p : Cell × Qty) (legs : List (Cell × Qty))
    (it : ItemKey) : amountOf (p :: legs) it =
      (if p.1.it = it then p.2 else 0) + amountOf legs it := sumOn_cons ..

/-- The rows of one ticket's legs, taken together and leg by leg. -/
theorem sumOn_legs (rows : List MoveRow) (id : String) (it : ItemKey) :
    sumOn (rows.filter fun m => decide m.carries) MoveRow.refId id
        (fun m => if m.it = it then m.qty else 0) =
      amountOf (rows.filterMap (MoveRow.leg id .ticketOut)) it +
        amountOf (rows.filterMap (MoveRow.leg id .ticketIn)) it := by
  induction rows with
  | nil => rfl
  | cons m rows ih =>
      rw [List.filter_cons, List.filterMap_cons, List.filterMap_cons]
      by_cases hc : m.carries
      · rw [if_pos (decide_eq_true hc), sumOn_cons, ih]
        obtain ⟨ht, hk⟩ := hc
        by_cases hid : m.refId = id
        · rcases hk with hk | hk
          · simp only [MoveRow.leg, ht, hid, hk, true_and, if_true,
              reduceCtorEq, if_false, amountOf_cons, MoveRow.cell]
            exact (add_assoc ..).symm
          · simp only [MoveRow.leg, ht, hid, hk, true_and, if_true,
              reduceCtorEq, if_false, amountOf_cons, MoveRow.cell]
            exact add_left_comm ..
        · simp only [MoveRow.leg, hid, false_and, and_false, if_false,
            zero_add]
      · rw [if_neg (by simpa using hc), ih]
        have hout : m.leg id .ticketOut = none :=
          if_neg fun h => hc ⟨h.1, .inl h.2.2⟩
        have hin : m.leg id .ticketIn = none :=
          if_neg fun h => hc ⟨h.1, .inr h.2.2⟩
        rw [hout, hin]

theorem amountOf_linesAt_neg (t : TicketRow) (loc : LocKey) (it : ItemKey) :
    amountOf (t.linesAt loc fun q => -q) it = -lineTotal t.lines it := by
  unfold amountOf TicketRow.linesAt lineTotal
  rw [sumOn_map, ← sumOn_neg]

theorem amountOf_linesAt (t : TicketRow) (loc : LocKey) (it : ItemKey) :
    amountOf (t.linesAt loc fun q => q) it = lineTotal t.lines it := by
  unfold amountOf TicketRow.linesAt lineTotal
  rw [sumOn_map]

/-- Both legs of a ticket come to nothing, unless it is under way. -/
theorem amountOf_legs (t : TicketRow) (it : ItemKey) :
    amountOf t.gone it + amountOf t.arrived it =
      -(if t.st = .collected then lineTotal t.lines it else 0) := by
  unfold TicketRow.gone TicketRow.arrived
  cases t.st with
  | collected =>
      simp [amountOf_linesAt_neg]
      rfl
  | received => simp [amountOf_linesAt_neg, amountOf_linesAt]
  | issued => simp [amountOf]
  | cancelled => simp [amountOf]

/-- What stands on the shelves and what is under way is what the other moves
add up to. -/
theorem transit_law {db : Db} (hl : LedgerInv db.stock) (hk : JourneyKept db)
    (it : ItemKey) :
    db.stock.total it + db.inTransit it = db.stock.apart it := by
  have hlegs : sumOn (db.stock.moves.filter fun m => decide m.carries)
      MoveRow.it it MoveRow.qty = -db.inTransit it := by
    have hsum := Table.total_sumOn db.tickets
      (db.stock.moves.filter fun m => decide m.carries) MoveRow.refId
      (fun _ => true) (fun m => if m.it = it then m.qty else 0)
    calc sumOn (db.stock.moves.filter fun m => decide m.carries) MoveRow.it it
          MoveRow.qty
        = ((db.stock.moves.filter fun m => decide m.carries).map fun m =>
            if (db.tickets.get? m.refId).any fun _ => true then
              if m.it = it then m.qty else 0
            else 0).sum := by
          unfold sumOn
          congr 1
          apply List.map_congr_left
          intro m hm
          obtain ⟨hmem, hc⟩ := List.mem_filter.1 hm
          obtain ⟨t, ht⟩ := Option.isSome_iff_exists.1
            (hk.named m hmem (of_decide_eq_true hc))
          rw [ht]
          rfl
      _ = db.tickets.total fun _ t =>
            -(if t.st = .collected then lineTotal t.lines it else 0) := by
          rw [← hsum]
          apply Table.total_congr
          intro id t hmem
          have ht := Table.get?_eq_some.2 hmem
          have hleft := hk.left id
          have hlanded := hk.landed id
          rw [ht] at hleft hlanded
          rw [if_pos rfl, sumOn_legs, ← amountOf_legs]
          exact congrArg₂ (fun a b => amountOf a it + amountOf b it) hleft
            hlanded
      _ = -db.inTransit it := Table.total_neg ..
  have hsplit : sumOn db.stock.moves MoveRow.it it MoveRow.qty =
      db.stock.apart it + -db.inTransit it := by
    rw [← hlegs]
    unfold Stock.apart
    induction db.stock.moves with
    | nil => rfl
    | cons m rows ih =>
        rw [sumOn_cons, ih, List.filter_cons, List.filter_cons]
        by_cases hc : m.carries
        · simp only [hc, not_true_eq_false, decide_false, decide_true,
            if_true, Bool.false_eq_true, if_false, sumOn_cons]
          exact add_left_comm ..
        · simp only [hc, not_false_eq_true, decide_false, decide_true,
            if_true, Bool.false_eq_true, if_false, sumOn_cons]
          exact (add_assoc ..).symm
  rw [total_eq_moves hl, hsplit, neg_add_cancel_right]

/-! ## What a run appends -/

/-- Of an item that is not used as it lands, every row under a ticket's number
is one of its two legs. -/
theorem Trip.appends {db db' : Db} (h : Trip db db') {it : ItemKey}
    (hu : db.usesOnArrival it = false) :
    ∃ new, db'.stock.moves = db.stock.moves ++ new ∧
      ∀ m ∈ new, m.it = it → m.refType = "ticket" → m.carries := by
  cases h with
  | elsewhere hm hnew hh ht =>
      exact ⟨_, hm, fun m hmem _ href => absurd href (hnew m hmem)⟩
  | sent hsent hs ht =>
      exact ⟨[], by rw [hs, hsent.moves, List.append_nil], nofun⟩
  | @collected id t by_ at_ hid hst hs ht =>
      obtain ⟨new, happ, hnew⟩ := postMoves_appends db.stock
        (ticketMoves t id t.from_ (fun q => -q) .ticketOut by_ at_)
      refine ⟨new, by rw [hs, release_moves, happ], fun m hmem _ href => ?_⟩
      obtain ⟨x, hx, n, rfl⟩ := hnew m hmem
      exact ⟨href, .inl (mem_ticketMoves hx).1⟩
  | @received id t by_ at_ hid hst hs ht =>
      obtain ⟨new, happ, hnew⟩ := postMoves_appends db.stock
        (withUseOnArrival (loadItemTypes db.rows)
          (ticketMoves t id t.to_ (fun q => q) .ticketIn by_ at_))
      refine ⟨new, by rw [hs, happ], fun m hmem hit href => ?_⟩
      obtain ⟨x, hx, n, rfl⟩ := hnew m hmem
      refine ⟨href, .inr ?_⟩
      obtain ⟨a, ha, hx⟩ := List.mem_flatMap.1 hx
      split at hx
      · next hused =>
          -- only an item used as it lands has a second row
          obtain ⟨ty, hty, hand⟩ := (Option.any_eq_true _ _).1 hused
          have hait : a.it = it := by
            rcases List.mem_cons.1 hx with rfl | hx
            · exact hit
            · rw [List.mem_singleton.1 hx] at hit
              exact hit
          have hkitchen : db.usesOnArrival it = true := by
            refine (Option.any_eq_true _ _).2 ⟨ty, hait ▸ hty, ?_⟩
            simp only [usedOnArrival, Bool.and_eq_true, decide_eq_true_eq]
              at hand ⊢
            exact ⟨trivial, hand.2.2⟩
          rw [hu] at hkitchen
          cases hkitchen
      · rw [List.mem_singleton.1 hx]
        exact (mem_ticketMoves ha).1
  | withdrawn hid hst hs ht =>
      exact ⟨[], by rw [hs, release_moves, List.append_nil], nofun⟩

theorem run_appends {it : ItemKey} {ops : List Op} {db db' : Db}
    (h : server.Reach db)
    (hrun : server.runVia (fun db _ => !db.usesOnArrival it) db ops = some db') :
    ∃ new, db'.stock.moves = db.stock.moves ++ new ∧
      ∀ m ∈ new, m.it = it → m.refType = "ticket" → m.carries := by
  induction ops generalizing db with
  | nil =>
      cases hrun
      exact ⟨[], (List.append_nil _).symm, nofun⟩
  | cons op ops ih =>
      rw [Machine.runVia] at hrun
      split at hrun
      · next hu =>
          obtain ⟨db₁, hstep, hrun⟩ := Option.bind_eq_some_iff.1 hrun
          have hu : db.usesOnArrival it = false := by simpa using hu
          obtain ⟨new, happ, hnew⟩ := (op.trip hstep (linesKept_reach h)
            (ledgerInv_reach (server_stock_reach h))).appends hu
          obtain ⟨new', happ', hnew'⟩ := ih (h.step hstep) hrun
          refine ⟨new ++ new', by rw [happ', happ, List.append_assoc], ?_⟩
          intro m hm
          rcases List.mem_append.1 hm with hm | hm
          · exact hnew m hm
          · exact hnew' m hm
      · cases hrun

/-! ## Every run -/

/-- What the moves of a list that are not a ticket's add up to. -/
def otherMoves (rows : List MoveRow) (it : ItemKey) : Qty :=
  sumOn (rows.filter fun m => decide (m.refType ≠ "ticket")) MoveRow.it it
    MoveRow.qty

/-- Where every row under a ticket's number is a leg, the moves that are no
leg are the moves that are no ticket's. -/
theorem apart_append {s s' : Stock} {new : List MoveRow}
    (h : s'.moves = s.moves ++ new) {it : ItemKey}
    (hnew : ∀ m ∈ new, m.it = it → m.refType = "ticket" → m.carries) :
    s'.apart it = s.apart it + otherMoves new it := by
  unfold Stock.apart otherMoves
  rw [h, List.filter_append, sumOn_append]
  congr 1
  clear h
  induction new with
  | nil => rfl
  | cons m new ih =>
      rw [List.forall_mem_cons] at hnew
      rw [List.filter_cons, List.filter_cons]
      by_cases href : m.refType = "ticket"
      · rw [if_neg (c := decide (m.refType ≠ "ticket") = true) (by simpa)]
        by_cases hc : m.carries
        · rw [if_neg (by simpa), ih hnew.2]
        · have hit : m.it ≠ it := fun hit => hc (hnew.1 hit href)
          rw [if_pos (by simpa), sumOn_cons, if_neg hit, zero_add, ih hnew.2]
      · have hc : ¬m.carries := fun hc => href hc.1
        rw [if_pos (by simpa), if_pos (by simpa), sumOn_cons, sumOn_cons,
          ih hnew.2]

/-- Over every run in which an item is not used on arrival at the kitchen,
what all the locations have of it and what the Collected tickets carry change
by the moves that are no ticket's and by nothing else. A ticket's lines leave
its source at most once and land at its destination at most once, and not
before they left. A ticket is Issued exactly when its open reservations are
its lines, and in every other status it has none. -/
theorem stock_in_transit {db : Db} (h : server.Reach db) :
    (∀ it ops db',
      server.runVia (fun db _ => !db.usesOnArrival it) db ops = some db' →
      ∃ new, db'.stock.moves = db.stock.moves ++ new ∧
        db'.stock.total it + db'.inTransit it =
          db.stock.total it + db.inTransit it + otherMoves new it) ∧
    (∀ loc it, loc ∉ db.stock.places → db.stock.onHand ⟨loc, it⟩ = 0) ∧
    ∀ id t, db.tickets.get? id = some t →
      db.stock.left id = t.gone ∧ db.stock.landed id = t.arrived ∧
      (t.st = .issued ↔
        db.stock.heldUnder id = t.linesAt t.from_ fun q => q) ∧
      (t.st ≠ .issued → db.stock.heldUnder id = []) := by
  have hl := ledgerInv_reach (server_stock_reach h)
  have hk := journeyKept_reach h
  refine ⟨fun it ops db' hrun => ?_, fun loc it hloc => ?_, fun id t hid => ?_⟩
  · obtain ⟨new, happ, hnew⟩ := run_appends h hrun
    have h' := (Machine.reachVia_runVia (P := fun _ _ => True)
      (fun _ _ _ => trivial) h hrun)
    refine ⟨new, happ, ?_⟩
    rw [transit_law (ledgerInv_reach (server_stock_reach h'))
      (journeyKept_reach h'), transit_law hl hk, apart_append happ hnew]
  · exact onHand_off_places hl hloc it
  · have hheld := hk.held id
    have hleft := hk.left id
    have hlanded := hk.landed id
    rw [hid] at hheld hleft hlanded
    refine ⟨hleft, hlanded, ⟨fun hst => ?_, fun hlines => ?_⟩, fun hst => ?_⟩
    · rw [hheld]
      exact if_pos hst
    · by_contra hst
      rw [hheld, Option.elim_some, TicketRow.holding, if_neg hst] at hlines
      have hnil : t.lines = [] := List.map_eq_nil_iff.1 hlines.symm
      exact (hk.lines id t hid).1 hnil
    · rw [hheld]
      exact if_neg hst

/-- Three of the store's five milks handed over and on their way. -/
theorem stock_in_transit_milk : ∃ db db' : Db,
    server.run (Db.fresh corner) milkRun = some db ∧
      db.stock.total "milk" + db.inTransit "milk" = ⟨5000⟩ ∧
      db'.stock.total "milk" = ⟨2000⟩ ∧
      ∃ new, db'.stock.moves = db.stock.moves ++ new ∧
        db'.stock.total "milk" + db'.inTransit "milk" =
          db.stock.total "milk" + db.inTransit "milk" +
            otherMoves new "milk" := by
  let scan : List Op :=
    [.handover ⟨"u1", STORE, true⟩ "TKT-0441" ⟨"100000", by decide⟩ 0]
  have hany : (server.run (Db.fresh corner) milkRun).any (fun db =>
      decide (db.stock.total "milk" + db.inTransit "milk" = ⟨5000⟩) &&
      (server.runVia (fun db _ => !db.usesOnArrival "milk") db scan).any
        fun db' => decide (db'.stock.total "milk" = ⟨2000⟩)) = true := by
    decide +kernel
  obtain ⟨db, hrun, hdb⟩ := (Option.any_eq_true _ _).1 hany
  obtain ⟨hfive, hscan⟩ := Bool.and_eq_true_iff.1 hdb
  obtain ⟨db', hrun', htwo⟩ := (Option.any_eq_true _ _).1 hscan
  exact ⟨db, db', hrun, of_decide_eq_true hfive, of_decide_eq_true htwo,
    (stock_in_transit (Machine.reach_run (.init ⟨corner, rfl⟩) hrun)).1
      "milk" scan db' hrun'⟩

end Rch
