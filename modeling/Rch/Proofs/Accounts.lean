import Rch.Proofs.Frame

/-!
# The lines behind an account

Both figures of an account come down to the settlement lines. Bill by bill,
what is settled is the lines laid on the bill; in total, it is the settlements'
amounts, and each settlement was laid out in full. So the two agree where every
line still counts on both sides: it is a standing settlement's, and it lies on
a standing bill of the same payer.

`AccountsKept` says that, and that no bill has more laid on it than it comes
to. Both ways of summing are then one sum over the lines.
-/

namespace Rch

open Kit

def laidOn (db : Db) (no : String) : Money :=
  sumOn db.settlementLines.rows (fun l => l.1.2) no Prod.snd

def laidBy (db : Db) (sid : String) : Money :=
  sumOn db.settlementLines.rows (fun l => l.1.1) sid Prod.snd

/-- The test on the settlement takes no line away: it only decides what the
line is paired with, and the sum does not look there. -/
theorem settledOn_eq (db : Db) (no : String) : settledOn db no = laidOn db no := by
  unfold settledOn laidOn
  dsimp only
  rw [sumOn_eq_sum_filter, leftJoin_map_left (g := Prod.snd)]
  intro l _
  exact db.settlements.filter_key_length_le l.1.1 fun s => s.voided.isNone

theorem openBillOf_owed (db : Db) (no : String) (b : BillRow) :
    (openBillOf db no b).owed = b.total - laidOn db no := by
  rw [← settledOn_eq]
  exact round2_sub b.total (settledOn db no)

/-- The two folds' common ground. -/
structure AccountsKept (db : Db) : Prop where
  /-- A line is a standing settlement's, on a standing bill of its payer. -/
  lines : db.settlementLines.All fun k amount => 0 < amount ∧
    ∃ s b, db.settlements.get? k.1 = some s ∧ s.voided = none ∧
      db.bills.get? k.2 = some b ∧ chargedTo s.kind s.payerId b = true
  /-- A settlement was laid out in full. -/
  amounts : db.settlements.All fun sid s => s.amount = laidBy db sid
  /-- No account bill has more laid on it than it comes to. -/
  owed : db.bills.All fun no b =>
    b.tender ∈ accountTenders → laidOn db no ≤ b.total

theorem accountsKept_fresh (rows : MasterRows) :
    AccountsKept (Db.fresh rows) :=
  ⟨Table.all_empty _, Table.all_empty _, Table.all_empty _⟩

theorem chargedTo_iff {kind : PayerKind} {id : String} {b : BillRow} :
    chargedTo kind id b = true ↔ b.tender ∈ accountTenders ∧
      (∃ p, b.payer = some p ∧ p.kind = kind ∧ p.id = id) ∧
      b.voided = none := by
  simp [chargedTo, Option.any_eq_true, and_assoc]

/-- A standing settlement counts for a payer exactly where a bill of its own
payer does. -/
theorem paidBy_eq_chargedTo {s : SettlementRow} {b : BillRow}
    (hs : s.voided = none) (hb : chargedTo s.kind s.payerId b = true)
    (kind : PayerKind) (id : String) :
    paidBy kind id s = chargedTo kind id b := by
  obtain ⟨ht, ⟨p, hp, hk, hid⟩, hv⟩ := chargedTo_iff.1 hb
  simp [paidBy, chargedTo, hs, ht, hp, hk, hid, hv]

/-! ## The open bills -/

section Open

variable {db : Db} (h : AccountsKept db) (kind : PayerKind) (id : String)

include h

theorem AccountsKept.owed_nonneg {no : String} {b : BillRow}
    (hb : db.bills.get? no = some b) (hc : chargedTo kind id b = true) :
    0 ≤ (openBillOf db no b).owed := by
  rw [openBillOf_owed, sub_nonneg]
  exact h.owed no b hb (chargedTo_iff.1 hc).1

/-- Leaving out the bills nothing is owed on leaves the sum alone. -/
theorem AccountsKept.sum_owed :
    ((openBillsFor db kind id).map OpenBillRow.owed).sum =
      db.bills.total fun no b =>
        if chargedTo kind id b then b.total - laidOn db no else 0 := by
  unfold openBillsFor
  dsimp only
  rw [sum_map_filter, List.map_map,
    ((List.mergeSort_perm ..).map _).sum_eq, ← Table.total_filter]
  · exact congrArg List.sum (List.map_congr_left fun b _ => openBillOf_owed ..)
  · intro r hr hpos
    obtain ⟨b, hb, rfl⟩ := List.mem_map.1 hr
    obtain ⟨hmem, hc⟩ := List.mem_filter.1 (List.mem_mergeSort.1 hb)
    exact le_antisymm (not_lt.1 (of_decide_eq_false hpos))
      (h.owed_nonneg kind id (Table.get?_eq_some.2 hmem) hc)

/-- One bill after another, and all at once: the same figure. -/
theorem AccountsKept.agree :
    ((openBillsFor db kind id).map OpenBillRow.owed).sum =
      (outstandingFor db kind id).outstanding := by
  have hsettled : (db.bills.total fun no b =>
      if chargedTo kind id b then laidOn db no else 0) =
      db.settlements.total fun _ s => if paidBy kind id s then s.amount else 0 := by
    have hlaid : (db.settlements.total fun _ s =>
        if paidBy kind id s then s.amount else 0) =
        db.settlements.total fun sid s =>
          if paidBy kind id s then laidBy db sid else 0 := by
      apply Table.total_congr
      intro sid s hs
      rw [h.amounts sid s (Table.get?_eq_some.2 hs)]
    unfold laidBy at hlaid
    unfold laidOn
    rw [hlaid, Table.total_sumOn, Table.total_sumOn]
    refine congrArg List.sum (List.map_congr_left fun l hl => ?_)
    obtain ⟨-, s, b, hs, hlive, hb, hc⟩ :=
      h.lines l.1 l.2 (Table.get?_eq_some.2 hl)
    rw [hs, hb, Option.any_some, Option.any_some,
      paidBy_eq_chargedTo hlive hc]
  have hsplit : ((openBillsFor db kind id).map OpenBillRow.owed).sum +
      (db.settlements.total fun _ s =>
        if paidBy kind id s then s.amount else 0) =
      db.bills.total fun _ b => if chargedTo kind id b then b.total else 0 := by
    rw [h.sum_owed, ← hsettled, ← Table.total_add]
    apply Table.total_congr
    intro no b _
    split
    · exact sub_add_cancel ..
    · exact add_zero 0
  have hnonneg : 0 ≤ ((openBillsFor db kind id).map OpenBillRow.owed).sum := by
    apply List.sum_nonneg
    intro x hx
    obtain ⟨r, hr, rfl⟩ := List.mem_map.1 hx
    have := (List.mem_filter.1 hr).2
    exact (of_decide_eq_true this).le
  unfold outstandingFor
  dsimp only
  rw [round2_sub, ← hsplit, add_sub_cancel_right, max_eq_right hnonneg]

end Open

/-- A bill stands once among the open ones. -/
theorem openBillsFor_nodup (db : Db) (kind : PayerKind) (id : String) :
    ((openBillsFor db kind id).map OpenBillRow.no).Nodup := by
  unfold openBillsFor
  dsimp only
  refine List.Nodup.sublist (List.filter_sublist.map _) ?_
  rw [List.map_map, ((List.mergeSort_perm ..).map _).nodup_iff]
  exact db.bills.keys_nodup.sublist (List.filter_sublist.map Prod.fst)

theorem mem_openBillList {db : Db} {kind : PayerKind} {id : String}
    {o : OpenBill} (h : o ∈ openBillList db kind id) :
    0 < o.owed ∧ ∃ b, db.bills.get? o.no = some b ∧
      chargedTo kind id b = true ∧ o.owed = b.total - laidOn db o.no := by
  obtain ⟨r, hr, rfl⟩ := List.mem_map.1 h
  unfold openBillsFor at hr
  obtain ⟨hr, hpos⟩ := List.mem_filter.1 hr
  obtain ⟨b, hb, rfl⟩ := List.mem_map.1 hr
  obtain ⟨hmem, hc⟩ := List.mem_filter.1 (List.mem_mergeSort.1 hb)
  exact ⟨of_decide_eq_true hpos, b.2, Table.get?_eq_some.2 hmem, hc,
    openBillOf_owed ..⟩

/-- What the open bills owe under one number is at most what is left on it. -/
theorem sumOn_openBillList {db : Db}
    (howed : db.bills.All fun no b =>
      b.tender ∈ accountTenders → laidOn db no ≤ b.total)
    (kind : PayerKind) (id : String) {no : String} {b : BillRow}
    (hb : db.bills.get? no = some b) (ht : b.tender ∈ accountTenders) :
    sumOn (openBillList db kind id) OpenBill.no no OpenBill.owed ≤
      b.total - laidOn db no := by
  by_cases hex : ∃ o ∈ openBillList db kind id, o.no = no
  · obtain ⟨o, ho, rfl⟩ := hex
    obtain ⟨-, b', hb', -, hleft⟩ := mem_openBillList ho
    obtain rfl : b = b' := Option.some.inj (hb.symm.trans hb')
    have hn : ((openBillList db kind id).map OpenBill.no).Nodup := by
      unfold openBillList
      rw [List.map_map]
      exact openBillsFor_nodup db kind id
    rw [sumOn_eq_of_mem hn ho, hleft]
  · rw [sumOn_eq_zero]
    · exact sub_nonneg.2 (howed no b hb ht)
    · exact fun o ho hno => absurd ⟨o, ho, hno⟩ hex

/-! ## What keeps the accounts -/

section Keeps

variable {db db' : Db} (h : AccountsKept db)

include h

theorem AccountsKept.same (hs : Part.credit.Same db db') : AccountsKept db' := by
  obtain ⟨hbills, hsettlements, hlines⟩ := hs
  refine ⟨?_, ?_, ?_⟩
  · rw [hlines, hsettlements, hbills]
    exact h.lines
  · unfold laidBy
    rw [hlines, hsettlements]
    exact h.amounts
  · unfold laidOn
    rw [hlines, hbills]
    exact h.owed

/-- Nothing is laid on a bill that does not exist yet. -/
theorem AccountsKept.laidOn_free {no : String}
    (hfree : db.bills.get? no = none) : laidOn db no = 0 := by
  apply sumOn_eq_zero
  rintro l hl rfl
  obtain ⟨-, s, b, -, -, hb, -⟩ := h.lines l.1 l.2 (Table.get?_eq_some.2 hl)
  rw [hfree] at hb
  cases hb

theorem AccountsKept.laidBy_free {sid : String}
    (hfree : db.settlements.get? sid = none) : laidBy db sid = 0 := by
  apply sumOn_eq_zero
  rintro l hl rfl
  obtain ⟨-, s, b, hs, -⟩ := h.lines l.1 l.2 (Table.get?_eq_some.2 hl)
  rw [hfree] at hs
  cases hs

/-- A sale: a new bill, with nothing laid on it. -/
theorem AccountsKept.sold {i : SaleInput} {at_ : Instant} {no : String}
    {row : BillRow} (hs : Sold db i at_ db' no row)
    (hpos : row.tender ∈ accountTenders → 0 ≤ row.total) :
    AccountsKept db' := by
  obtain ⟨hsettlements, hlines⟩ := hs.settlements
  have hfree := (Table.insert?_eq_some hs.bills).1
  refine ⟨?_, ?_, ?_⟩
  · rw [hlines, hsettlements]
    intro k amount hk
    obtain ⟨hamount, s, b, hs', hlive, hb, hc⟩ := h.lines k amount hk
    refine ⟨hamount, s, b, hs', hlive, ?_, hc⟩
    have hne : k.2 ≠ no := by
      rintro rfl
      rw [hfree] at hb
      cases hb
    rw [Table.get?_insert hs.bills, if_neg hne]
    exact hb
  · unfold laidBy
    rw [hlines, hsettlements]
    exact h.amounts
  · have hlaid : ∀ no, laidOn db' no = laidOn db no := fun no => by
      unfold laidOn
      rw [hlines]
    refine Table.All.insert (fun no b hb ht => ?_) hs.bills fun ht => ?_
    · rw [hlaid]
      exact h.owed no b hb ht
    · rw [hlaid, h.laidOn_free hfree]
      exact hpos ht

/-- A voided bill had nothing laid on it: no settlement that stands closed any
of it, and no other has lines. -/
theorem AccountsKept.billVoided {no : String} {stamp : VoidStamp}
    (hlive : liveSettlementOf db no = none) :
    AccountsKept { db with bills := db.bills.modify no (stampBill stamp) } := by
  refine ⟨?_, h.amounts, ?_⟩
  · intro k amount hk
    obtain ⟨hamount, s, b, hs, hstands, hb, hc⟩ := h.lines k amount hk
    refine ⟨hamount, s, b, hs, hstands, ?_, hc⟩
    have hne : k.2 ≠ no := by
      intro hno
      rw [liveSettlementOf, Option.map_eq_none_iff, List.find?_eq_none] at hlive
      have := hlive (k, amount) (Table.get?_eq_some.1 hk)
      simp [hno, hs, hstands] at this
    rw [Table.get?_modify_ne _ _ hne]
    exact hb
  · exact Table.All.modify h.owed fun r _ hr => hr

/-- A voided settlement that had closed nothing takes no line with it. -/
theorem AccountsKept.settlementVoided {sid : String} {stamp : VoidStamp}
    (hno : ∀ no, db.settlementLines.get? (sid, no) = none) :
    AccountsKept { db with
      settlements := db.settlements.modify sid (stampSettlement stamp) } := by
  refine ⟨?_, ?_, h.owed⟩
  · intro k amount hk
    obtain ⟨hamount, s, b, hs, hstands, hb, hc⟩ := h.lines k amount hk
    refine ⟨hamount, s, b, ?_, hstands, hb, hc⟩
    have hne : k.1 ≠ sid := by
      rintro rfl
      rw [hno] at hk
      cases hk
    rw [Table.get?_modify_ne _ _ hne]
    exact hs
  · exact Table.All.modify h.amounts fun r _ hr => hr

end Keeps

/-! ## Recording a settlement -/

theorem insertSettlementLines_rows {t t' : Table (String × String) Money}
    {id : String} {lines : List SettlementLine}
    (h : insertSettlementLines t id lines = some t') :
    t'.rows = t.rows ++ lines.map fun l => ((id, l.no), l.amount) := by
  induction lines generalizing t with
  | nil =>
      cases h
      exact (List.append_nil _).symm
  | cons l lines ih =>
      obtain ⟨t₁, ht₁, h⟩ := Option.bind_eq_some_iff.1 h
      rw [ih h, (Table.insert?_eq_some ht₁).2, List.append_assoc]
      rfl

/-- Accepted, a settlement's lines were on distinct bills, and none was there. -/
theorem insertSettlementLines_some {t t' : Table (String × String) Money}
    {id : String} {lines : List SettlementLine}
    (h : insertSettlementLines t id lines = some t') :
    (∀ l ∈ lines, t.get? (id, l.no) = none) ∧
      (lines.map SettlementLine.no).Nodup := by
  have hn := t'.keys_nodup
  rw [insertSettlementLines_rows h, List.map_append, List.map_map,
    List.nodup_append] at hn
  obtain ⟨-, hlines, hne⟩ := hn
  refine ⟨fun l hl => Table.get?_eq_none.2 fun hk => ?_, ?_⟩
  · exact hne _ hk _ (List.mem_map_of_mem hl) rfl
  · exact List.Nodup.of_map (fun no => (id, no)) (by rwa [List.map_map])

/-- And on distinct bills with none there, they are accepted. -/
theorem insertSettlementLines_of_free {t : Table (String × String) Money}
    {id : String} {lines : List SettlementLine}
    (hfree : ∀ l ∈ lines, t.get? (id, l.no) = none)
    (hn : (lines.map SettlementLine.no).Nodup) :
    ∃ t', insertSettlementLines t id lines = some t' := by
  induction lines generalizing t with
  | nil => exact ⟨t, rfl⟩
  | cons l lines ih =>
      rw [List.forall_mem_cons] at hfree
      rw [List.map_cons, List.nodup_cons] at hn
      obtain ⟨t₁, ht₁⟩ := Table.insert?_of_free hfree.1 l.amount
      have hrest : ∀ m ∈ lines, t₁.get? (id, m.no) = none := by
        intro m hm
        have hne : (id, m.no) ≠ (id, l.no) := by
          intro heq
          exact hn.1 ((Prod.mk.inj heq).2 ▸ List.mem_map_of_mem hm)
        rw [Table.get?_insert ht₁, if_neg hne]
        exact hfree.2 m hm
      obtain ⟨t', ht'⟩ := ih hrest hn.2
      exact ⟨t', by rw [insertSettlementLines, ht₁, Option.bind_some, ht']⟩

/-- A recorded settlement lays its whole amount over bills that stand, and on
none of them more than it owes. -/
theorem AccountsKept.recorded {db db' : Db} (h : AccountsKept db)
    {claims : Claims} {body : RecordSettlementBody} {at_ : Instant}
    (hr : recordSettlement db claims body at_ = .ok db') :
    AccountsKept db' := by
  obtain ⟨id, row, lines, settlements, settlementLines, hkind, hid, -, hlive,
    -, halloc, hins, hlines, rfl⟩ := recordSettlement_ok hr
  have hrows := insertSettlementLines_rows hlines
  have hfree := (Table.insert?_eq_some hins).1
  have hkept {sid : String} {s : SettlementRow}
      (hs : db.settlements.get? sid = some s) :
      settlements.get? sid = some s := by
    have hne : sid ≠ id := by
      rintro rfl
      rw [hfree] at hs
      cases hs
    rw [Table.get?_insert hins, if_neg hne]
    exact hs
  refine ⟨?_, ?_, ?_⟩
  · intro k amount hk
    rw [Table.get?_eq_some, hrows, List.mem_append] at hk
    rcases hk with hk | hk
    · obtain ⟨hamount, s, b, hs, hrest⟩ :=
        h.lines k amount (Table.get?_eq_some.2 hk)
      exact ⟨hamount, s, b, hkept hs, hrest⟩
    · obtain ⟨l, hl, heq⟩ := List.mem_map.1 hk
      cases heq
      have hl' : l ∈ (allocateSettlement (openBillList db body.kind body.id)
          row.amount).1 := halloc ▸ hl
      obtain ⟨hpos, o, ho, hno⟩ := mem_allocateSettlement hl'
      obtain ⟨-, b, hb, hc, -⟩ := mem_openBillList ho
      refine ⟨hpos, row, b, ?_, hlive, hno ▸ hb, ?_⟩
      · rw [Table.get?_insert hins, if_pos rfl]
      · rw [hkind, hid]
        exact hc
  · have hlaid (sid : String) : sumOn settlementLines.rows (fun l => l.1.1) sid
        Prod.snd = laidBy db sid +
          sumOn lines (fun _ => id) sid SettlementLine.amount := by
      rw [hrows, sumOn_append, sumOn_map]
      rfl
    refine Table.All.insert (fun sid s hs => ?_) hins ?_
    · have hne : id ≠ sid := by
        rintro rfl
        rw [hfree] at hs
        cases hs
      rw [h.amounts sid s hs]
      refine ((hlaid sid).trans ?_).symm
      rw [sumOn_eq_zero fun l _ hk => absurd hk hne, add_zero]
    · have hsum := allocateSettlement_sum (openBillList db body.kind body.id)
        row.amount
      rw [halloc, add_zero] at hsum
      refine ((hlaid id).trans ?_).symm
      rw [h.laidBy_free hfree, zero_add, ← hsum]
      simp only [sumOn, if_true]
  · intro no b hb ht
    have hle := allocateSettlement_le
      (fun o (ho : o ∈ openBillList db body.kind body.id) =>
        (mem_openBillList ho).1.le) row.amount no
    rw [halloc] at hle
    calc laidOn { db with settlementLines } no
        = laidOn db no + sumOn lines SettlementLine.no no
            SettlementLine.amount := by
          unfold laidOn
          rw [hrows, sumOn_append, sumOn_map]
      _ ≤ laidOn db no + (b.total - laidOn db no) := by
          exact add_le_add_right
            (hle.trans (sumOn_openBillList h.owed body.kind body.id hb ht)) _
      _ = b.total := add_sub_cancel ..

end Rch
