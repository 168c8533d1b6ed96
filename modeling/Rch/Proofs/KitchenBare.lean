import Rch.Proofs.CatalogueSteps
import Rch.Proofs.LedgerIsStock
import Rch.Proofs.Postings

/-!
# The kitchen keeps no raw material

What the ledger says of a raw material or packaging at the kitchen comes in
pairs: an arrival, and right after it its use under the same document. A batch
that lands stock there pairs its own moves. A batch that takes could break the
pairs, but the pairs come to nothing, so there is nothing on that shelf to
take and the shelf's safety makes each of its moves nothing.
-/

namespace Rch

open Kit

/-! ## What is read off the ledger -/

/-- What a move says, its number and who made it aside. -/
structure Entry where
  qty : Qty
  kind : MoveKind
  refType : String
  refId : String
deriving DecidableEq

def MoveRow.entry (m : MoveRow) : Entry := ⟨m.qty, m.kind, m.refType, m.refId⟩

def MoveRow.entryAt (c : Cell) (m : MoveRow) : Option Entry :=
  if m.cell = c then some m.entry else none

def Stock.entriesAt (s : Stock) (c : Cell) : List Entry :=
  s.moves.filterMap (MoveRow.entryAt c)

def entriesOf (moves : List Move) (c : Cell) : List Entry :=
  (moves.filter fun m => decide (round3 m.qty ≠ 0)).filterMap fun m =>
    (moveRow 0 m).entryAt c

def Entry.used (e : Entry) : Entry := { e with qty := -e.qty, kind := .productionConsume }

/-- Arrivals, each with its use right after it. -/
inductive UsedUp : List Entry → Prop
  | nil : UsedUp []
  | cons {e : Entry} {rest : List Entry} (hq : 0 < e.qty) (h : UsedUp rest) :
      UsedUp (e :: e.used :: rest)

theorem UsedUp.append {as bs : List Entry} (ha : UsedUp as) (hb : UsedUp bs) :
    UsedUp (as ++ bs) := by
  induction ha with
  | nil => exact hb
  | cons hq _ ih => exact .cons hq ih

/-- What was used up comes to nothing. -/
theorem UsedUp.sum {es : List Entry} (h : UsedUp es) : (es.map Entry.qty).sum = 0 := by
  induction h with
  | nil => rfl
  | @cons e rest _ _ ih =>
      rw [List.map_cons, List.map_cons, List.sum_cons, List.sum_cons, ih, add_zero]
      exact add_neg_cancel e.qty

/-- Nothing that was used up was sold. -/
theorem UsedUp.not_sale {es : List Entry} (h : UsedUp es)
    (hsale : ∀ e ∈ es, e.kind = .sale → e.qty ≤ 0) : ∀ e ∈ es, e.kind ≠ .sale := by
  induction h with
  | nil => exact List.forall_mem_nil _
  | @cons e rest hq _ ih =>
      rw [List.forall_mem_cons, List.forall_mem_cons] at hsale ⊢
      refine ⟨fun hk => ?_, by simp [Entry.used], ih hsale.2.2⟩
      exact absurd hq (not_lt.2 (hsale.1 hk))

section Cells

variable {s : Stock} {moves : List Move} {c : Cell}

theorem entriesAt_postMoves (s : Stock) (moves : List Move) (c : Cell) :
    (postMoves s moves).entriesAt c = s.entriesAt c ++ entriesOf moves c :=
  postMoves_filterMap _ (fun _ _ => rfl) s moves

theorem moved_eq_entries (s : Stock) (c : Cell) :
    s.moved c = ((s.entriesAt c).map Entry.qty).sum := by
  unfold Stock.moved Stock.entriesAt
  induction s.moves with
  | nil => rfl
  | cons m ms ih =>
      rw [sumOn_cons, ih, List.filterMap_cons, MoveRow.entryAt]
      split
      · rfl
      · exact zero_add _

theorem mem_entriesAt {e : Entry} (he : e ∈ s.entriesAt c) :
    ∃ m ∈ s.moves, m.cell = c ∧ m.entry = e := by
  obtain ⟨m, hm, hat⟩ := List.mem_filterMap.1 he
  unfold MoveRow.entryAt at hat
  split at hat
  · next hc => exact ⟨m, hm, hc, Option.some.inj hat⟩
  · cases hat

theorem entriesOf_nil (h : ∀ m ∈ moves, m.cell = c → round3 m.qty = 0) :
    entriesOf moves c = [] := by
  refine List.filterMap_eq_nil_iff.2 fun m hm => ?_
  obtain ⟨hmem, hreal⟩ := List.mem_filter.1 hm
  exact if_neg fun hc => of_decide_eq_true hreal (h m hmem hc)

theorem entriesOf_append (ms ms' : List Move) (c : Cell) :
    entriesOf (ms ++ ms') c = entriesOf ms c ++ entriesOf ms' c := by
  unfold entriesOf
  rw [List.filter_append, List.filterMap_append]

theorem usedUp_landing {m : Move} {q : Qty} (hm : m.cell = c) (hqty : m.qty = q) (hq : 0 < q) :
    UsedUp (entriesOf [m, { m with qty := -m.qty, kind := .productionConsume }] c) := by
  have hreal : round3 m.qty ≠ 0 := by
    rw [hqty, round3_qty]
    exact hq.ne'
  have hback : round3 (-m.qty) = -round3 m.qty := by
    rw [hqty, round3_neg_qty, round3_qty]
  have hreal' : round3 (-m.qty) ≠ 0 := by
    rw [hback]
    exact neg_ne_zero.2 hreal
  have hentries : entriesOf [m, { m with qty := -m.qty, kind := .productionConsume }] c =
      [(moveRow 0 m).entry, (moveRow 0 m).entry.used] := by
    unfold entriesOf
    have hat (x : Move) (hx : x.cell = c) :
        (moveRow 0 x).entryAt c = some (moveRow 0 x).entry := if_pos hx
    have hused : (moveRow 0 { m with qty := -m.qty, kind := .productionConsume }).entry =
        (moveRow 0 m).entry.used := by
      unfold MoveRow.entry moveRow Entry.used
      rw [hback]
    rw [List.filter_eq_self.2]
    · rw [List.filterMap_cons_some (f := fun m => (moveRow 0 m).entryAt c) (hat m hm),
        List.filterMap_cons_some (f := fun m => (moveRow 0 m).entryAt c)
          (hat { m with qty := -m.qty, kind := .productionConsume } hm),
        List.filterMap_nil, hused]
    · rw [List.forall_mem_cons, List.forall_mem_singleton]
      exact ⟨decide_eq_true hreal, decide_eq_true hreal'⟩
  rw [hentries]
  refine .cons ?_ .nil
  change 0 < round3 m.qty
  rwa [hqty, round3_qty]

/-- A batch that lands no less than nothing on a used line, routed through the
pairing. -/
theorem usedUp_withUseOnArrival {types : ItemKey → Option ItemType} {t : ItemType}
    (hused : usedOnArrival t c.loc = true)
    (hpos : ∀ m ∈ moves, m.cell = c → types c.it = some t ∧ ∃ q : Qty, m.qty = q ∧ 0 ≤ q) :
    UsedUp (entriesOf (withUseOnArrival types moves) c) := by
  induction moves with
  | nil => exact .nil
  | cons m rest ih =>
      rw [List.forall_mem_cons] at hpos
      have hsplit : withUseOnArrival types (m :: rest) =
          withUseOnArrival types [m] ++ withUseOnArrival types rest :=
        @List.flatMap_append _ _ [m] rest _
      rw [hsplit, entriesOf_append]
      refine UsedUp.append ?_ (ih hpos.2)
      unfold withUseOnArrival
      rw [List.flatMap_cons, List.flatMap_nil, List.append_nil]
      by_cases hc : m.cell = c
      · obtain ⟨ht, q, hqty, hq⟩ := hpos.1 hc
        have htype : types m.it = some t := by rwa [← hc] at ht
        have hloc : usedOnArrival t m.loc = true := by rwa [← hc] at hused
        rw [htype, Option.any_some, hloc, Bool.and_true]
        split
        · next hland =>
            rw [hqty] at hland
            exact usedUp_landing hc hqty (Decimal.toRat_pos.1 (of_decide_eq_true hland))
        · next hland =>
            have hzero : q = 0 := by
              refine le_antisymm (not_lt.1 fun hlt => hland (decide_eq_true ?_)) hq
              rw [hqty]
              exact Decimal.toRat_pos.2 hlt
            rw [entriesOf_nil]
            · exact .nil
            · rw [List.forall_mem_singleton, hqty, hzero]
              exact fun _ => round3_qty 0
      · have helse : ∀ m' ∈ (if ((types m.it).any fun t => decide (0 < m.qty) &&
            usedOnArrival t m.loc) = true
            then [m, { m with qty := -m.qty, kind := .productionConsume }] else [m]),
            m'.cell ≠ c := by
          split
          · rw [List.forall_mem_cons, List.forall_mem_singleton]
            exact ⟨hc, hc⟩
          · rw [List.forall_mem_singleton]
            exact hc
        rw [entriesOf_nil fun m' hm' hc' => absurd hc' (helse m' hm')]
        exact .nil

/-- Terms that are at most nothing and add up to no less are nothing. -/
theorem eq_zero_of_sum_nonneg {l : List Qty} (hneg : ∀ x ∈ l, x ≤ 0) (hsum : 0 ≤ l.sum) :
    ∀ x ∈ l, x = 0 := by
  induction l with
  | nil => exact List.forall_mem_nil _
  | cons x l ih =>
      rw [List.forall_mem_cons] at hneg ⊢
      rw [List.sum_cons] at hsum
      have hrest : l.sum ≤ 0 := (l.sum_le_card_nsmul 0 hneg.2).trans_eq (nsmul_zero _)
      exact ⟨le_antisymm hneg.1 (hsum.trans (add_le_of_nonpos_right hrest)),
        ih hneg.2 (hsum.trans (add_le_of_nonpos_left hneg.1))⟩

/-- A batch that only takes, off a bare shelf that ends up safe, is nothing. -/
theorem entriesOf_takes (hneg : ∀ m ∈ moves, m.cell = c → m.qty ≤ 0)
    (hsafe : 0 ≤ batchAt moves c) : entriesOf moves c = [] := by
  refine entriesOf_nil fun m hm hc => ?_
  have hterms : ∀ x ∈ moves.map fun m => if m.cell = c then round3 m.qty else 0, x ≤ 0 := by
    intro x hx
    obtain ⟨m', hm', rfl⟩ := List.mem_map.1 hx
    split
    · next hc' =>
        refine Decimal.round_le ?_
        rw [Decimal.toRat_zero]
        exact hneg m' hm' hc'
    · exact le_refl 0
  have hterm := eq_zero_of_sum_nonneg hterms hsafe _ (List.mem_map_of_mem hm)
  rwa [if_pos hc] at hterm

end Cells

/-! ## What one operation leaves of the pairs -/

theorem itemTypes_of_master {db : Db} {it : ItemKey} {item : Item}
    (h : db.master.items it = some item) : loadItemTypes db.rows it = some item.t := by
  have hrow : db.rows.items it = some item := (Option.filter_eq_some_iff.1 h).1
  rw [loadItemTypes, hrow, Option.map_some]

/-- Off a shelf that held nothing, an operation's takings are nothing: the shelf
is safe after it. -/
theorem Op.takes_nothing {op : Op} {db db' : Db} (h : op.run db = some db')
    (hreach : server.Reach db) {moves : List Move} {c : Cell}
    (hmoves : db'.stock.moves = (postMoves db.stock moves).moves)
    (hbare : ((db.stock.entriesAt c).map Entry.qty).sum = 0)
    (hneg : ∀ m ∈ moves, m.cell = c → m.qty ≤ 0) : entriesOf moves c = [] := by
  refine entriesOf_takes hneg ?_
  have hafter := (shelf_safety (hreach.step h) c).1
  have hsums := (ledgerInv_reach (server_stock_reach (hreach.step h))).sums
  have hmoved : db'.stock.moved c = db.stock.moved c + batchAt moves c := by
    rw [← postMoves_moved, Stock.moved, hmoves]
    rfl
  rw [moved_eq_entries db.stock, hbare, zero_add] at hmoved
  rw [← hmoved]
  exact hafter.trans_eq (hsums c)

/-- No operation leaves an arrival on a used line unpaired. -/
theorem Op.usedUp {op : Op} {db db' : Db} (h : op.run db = some db')
    (hreach : server.Reach db) {it : ItemKey} {t : ItemType}
    (ht : loadItemTypes db.rows it = some t) (hused : usedOnArrival t KITCHEN = true)
    (hu : UsedUp (db.stock.entriesAt ⟨KITCHEN, it⟩)) :
    UsedUp (db'.stock.entriesAt ⟨KITCHEN, it⟩) := by
  have hk := linesKept_reach hreach
  obtain ⟨moves, hposting, hmoves⟩ := op.posts h hk
  have hentries : db'.stock.entriesAt ⟨KITCHEN, it⟩ =
      db.stock.entriesAt ⟨KITCHEN, it⟩ ++ entriesOf moves ⟨KITCHEN, it⟩ := by
    rw [← entriesAt_postMoves, Stock.entriesAt, hmoves]
    rfl
  rw [hentries]
  refine hu.append ?_
  have htakes (hneg : ∀ m ∈ moves, m.qty ≤ 0) :
      UsedUp (entriesOf moves ⟨KITCHEN, it⟩) := by
    rw [op.takes_nothing h hreach hmoves hu.sum fun m hm _ => hneg m hm]
    exact .nil
  have hcounted {key : ItemKey} {item : Item} (hitem : db.master.items key = some item)
      (hfg : item.t = .FG) : key ≠ it := by
    rintro rfl
    have htype := itemTypes_of_master hitem
    rw [ht, hfg] at htype
    rw [Option.some.inj htype] at hused
    exact absurd hused (by decide)
  cases hposting with
  | nothing => exact .nil
  | handed hticket hm hneg => exact htakes hneg
  | sold hraised hnames hneg => exact htakes hneg
  | @received claims id at_ t' hticket hst =>
      refine usedUp_withUseOnArrival hused fun m hm _ => ⟨ht, ?_⟩
      obtain ⟨-, l, hl, hq⟩ := mem_ticketMoves hm
      refine ⟨l.qty, hq, hk.pledges id t'.pledge ?_ l hl⟩
      rw [Db.pledge, hticket]
      rfl
  | batched hitem hfg =>
      rw [entriesOf_nil]
      · exact .nil
      · rw [List.forall_mem_singleton]
        exact fun hc => absurd (congrArg Cell.it hc) (hcounted hitem hfg)
  | @corrected op d id hd hknown =>
      refine usedUp_withUseOnArrival hused fun m hm hc => ?_
      obtain ⟨l, hl, rfl⟩ := List.mem_map.1 hm
      obtain ⟨item, hitem, hnot⟩ := hknown l hl
      have hloc : d.loc = KITCHEN := congrArg Cell.loc hc
      have hit : l.it = it := congrArg Cell.it hc
      have htype := itemTypes_of_master hitem
      rw [hit, ht] at htype
      refine ⟨?_, l.qty, rfl, not_lt.1 fun hneg => hnot ⟨hneg, ?_⟩⟩
      · change (db.master.items it).map Item.t = some t
        rw [← hit, hitem, Option.map_some, htype]
      · rwa [hloc, ← Option.some.inj htype]
  | delivered ho hm =>
      rw [entriesOf_nil]
      · exact .nil
      · intro m hmem hc
        have hloc : m.loc = KITCHEN := congrArg Cell.loc hc
        rcases (hm m hmem).1 with ⟨hstore, -⟩ | ⟨haside, -⟩
        · exact absurd (hstore.symm.trans hloc) (by decide)
        · exact absurd (haside.symm.trans hloc) (by decide)
  | @opened claims atKitchen key opening at_ item moves id hitem hq hoff hbatch =>
      rcases hbatch with ⟨hfg, rfl⟩ | rfl
      · rw [entriesOf_nil]
        · exact .nil
        · rw [List.forall_mem_singleton]
          exact fun hc => absurd (congrArg Cell.it hc) (hcounted hitem hfg)
      · refine usedUp_withUseOnArrival hused fun m hm hc => ?_
        obtain rfl := List.mem_singleton.1 hm
        have hkey : key = it := congrArg Cell.it hc
        have htype := itemTypes_of_master hitem
        rw [hkey, ht] at htype
        exact ⟨(if_pos hkey.symm).trans htype.symm, _, rfl, hq.le⟩
  | reversed =>
      rw [entriesOf_nil]
      · exact .nil
      · intro m hm hc
        obtain ⟨x, hx, rfl⟩ := List.mem_map.1 hm
        obtain ⟨hmem, hd⟩ := List.mem_filter.1 hx
        have hat : x.entry ∈ db.stock.entriesAt ⟨KITCHEN, it⟩ :=
          List.mem_filterMap.2 ⟨x, hmem, if_pos hc⟩
        refine absurd (of_decide_eq_true hd).2.2 (hu.not_sale (fun e he hkind => ?_) _ hat)
        obtain ⟨x', hx', -, rfl⟩ := mem_entriesAt he
        exact hk.sales x' hx' hkind

/-! ## Every run of the catalogue -/

section Runs

variable {c c' : Catalogue} {e : CatalogueOp}

/-- Nothing the kitchen uses as it lands stays there. -/
def Bare (c : Catalogue) : Prop :=
  ∀ it i, c.items.get? it = some i → i.unstocked = true →
    UsedUp (c.server.stock.entriesAt ⟨KITCHEN, it⟩)

/-- An item that is not in the master has no entry. -/
theorem entriesAt_unknown (hkeyed : c.server.keyed c.items) {it : ItemKey}
    (hfree : c.items.get? it = none) (loc : LocKey) :
    c.server.stock.entriesAt ⟨loc, it⟩ = [] := by
  refine List.eq_nil_iff_forall_not_mem.2 fun e he => ?_
  obtain ⟨m, hm, hcell, -⟩ := mem_entriesAt he
  have hknown := hkeyed.1 m hm
  rw [show m.it = it from congrArg Cell.it hcell, hfree] at hknown
  cases hknown

theorem Bare.step (h : Bare c) (hreach : catalogue.Reach c)
    (hstep : catalogue.step c e = some c') : Bare c' := by
  have hserver := catalogue_server hreach
  obtain ⟨hs, -, -⟩ := catalogue_step hstep
  intro it i hi hunstocked
  generalize c'.items = items at hs hi
  generalize c'.server = db at hs ⊢
  cases hs with
  | @served op ages hapart hop hitems =>
      subst hitems
      obtain ⟨i', hseen, hsame⟩ := (rowsKept_reach hreach).seen ages hi
      have htype : loadItemTypes (c.view ages).rows it = some i'.t :=
        congrArg (Option.map Item.t) hseen
      have hview : server.Reach (c.view ages) := server_reach_rows hserver _
      exact op.usedUp hop hview htype (hsame.trans hunstocked) (h it i hi hunstocked)
  | @created claims role body at_ key db₁ hfree hins hop hdb =>
      have hstock : db.stock = db₁.stock := by
        rcases hdb with rfl | rfl
        · rfl
        · rfl
      rw [hstock]
      have hview : server.Reach (c.db.onMaster items) := server_reach_rows hserver _
      have htype : loadItemTypes (c.db.onMaster items).rows it = some i.t :=
        congrArg (Option.map Item.t) hi
      refine Op.usedUp hop hview htype hunstocked ?_
      change UsedUp (c.server.stock.entriesAt ⟨KITCHEN, it⟩)
      rw [Table.get?_insert hins] at hi
      split at hi
      · next hkey =>
          rw [hkey, entriesAt_unknown (catalogue_keyed hreach) hfree]
          exact .nil
      · exact h it i hi hunstocked
  | @patched perms it' body listed age row hrow hkind hclear hitems hdb =>
      rw [hdb]
      change UsedUp (c.server.stock.entriesAt ⟨KITCHEN, it⟩)
      rw [hitems, Table.get?_modify] at hi
      split at hi
      · next heq =>
          obtain ⟨row', hrow', rfl⟩ := Option.map_eq_some_iff.1 hi
          rw [heq] at hrow' ⊢
          obtain rfl := Option.some.inj (hrow'.symm.trans hrow)
          rw [patchRow_unstocked hkind] at hunstocked
          exact h it' row' hrow hunstocked
      · exact h it i hi hunstocked

theorem bare_reach (h : catalogue.Reach c) : Bare c := by
  refine h.invariant ?_ fun c e c' hreach hb hstep => hb.step hreach hstep
  rintro c ⟨items, rows, rfl⟩
  exact fun it i _ _ => .nil

end Runs

/-- Whatever landed at the kitchen, and from whichever door, a raw material or a
packaging has nothing on its shelf, and what the ledger says of it there is
arrivals, each used up to the same quantity under its own document. -/
theorem kitchen_bare {c : Catalogue} (h : catalogue.Reach c) {it : ItemKey} {i : Item}
    (hi : c.items.get? it = some i) (ht : i.t = .RAW ∨ i.t = .PACK) :
    c.server.stock.onHand ⟨KITCHEN, it⟩ = 0 ∧
      UsedUp (c.server.stock.entriesAt ⟨KITCHEN, it⟩) := by
  have hunstocked : i.unstocked = true := by
    unfold Item.unstocked
    rcases ht with ht | ht
    · rw [ht]
      decide
    · rw [ht]
      decide
  have hused := bare_reach h it i hi hunstocked
  have hsums := (ledgerInv_reach (server_stock_reach (catalogue_server h))).sums
  refine ⟨?_, hused⟩
  rw [hsums, moved_eq_entries, hused.sum]

/-! ## Paneer counted up in the kitchen -/

def pantry : MasterRows :=
  { corner with
    locations := fun loc =>
      if loc = KITCHEN then some ⟨"Kitchen", .Kitchen, none, true⟩
      else corner.locations loc }

def pantryItems : Table ItemKey Item :=
  ⟨[("paneer", ⟨"Paneer", "kg", .RAW, ⟨500⟩, none, none, none, true⟩)], by decide⟩

def paneerRun : List CatalogueOp :=
  [.serve (.createAdjustment ⟨"u4", KITCHEN, true⟩
    ⟨KITCHEN, .count, "", [⟨"paneer", 3⟩]⟩ 0) []]

/-- The count-up is in the ledger twice and on the shelf not at all. -/
theorem kitchen_bare_paneer : ∃ c,
    catalogue.run ⟨pantryItems, Db.fresh pantry, []⟩ paneerRun = some c ∧
      c.server.stock.moves.map MoveRow.qty = [⟨3000⟩, ⟨-3000⟩] ∧
      c.server.stock.onHand ⟨KITCHEN, "paneer"⟩ = 0 ∧
      UsedUp (c.server.stock.entriesAt ⟨KITCHEN, "paneer"⟩) := by
  have hany : (catalogue.run ⟨pantryItems, Db.fresh pantry, []⟩ paneerRun).any (fun c =>
      decide (c.server.stock.moves.map MoveRow.qty = [⟨3000⟩, ⟨-3000⟩] ∧
        c.items.get? "paneer" = pantryItems.get? "paneer")) = true := by
    decide +kernel
  obtain ⟨c, hrun, hd⟩ := (Option.any_eq_true _ _).1 hany
  obtain ⟨hmoves, hitem⟩ := of_decide_eq_true hd
  have hinit : catalogue.Reach ⟨pantryItems, Db.fresh pantry, []⟩ :=
    .init ⟨pantryItems, pantry, rfl⟩
  exact ⟨c, hrun, hmoves, kitchen_bare (Machine.reach_run hinit hrun) hitem (.inl rfl)⟩

end Rch
