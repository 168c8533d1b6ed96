import Rch.Api.Register

/-!
# A report accounts for every bill once

The lines of a report are the tenders the schema names and after them the ones
the bills carry, each once; a line's figures are the sums under its tender. So
the lines partition the unvoided bills, whatever their tenders are, and splitting
the lines by what they run up splits the bills the same way.
-/

namespace Rch

open Kit

variable (options : List String) (bills : List BilledRow)

/-- The bills that were not taken back. -/
def unvoided : List BilledRow := bills.filter fun b => !b.voided

def soldUnder (tender : String) : List BilledRow :=
  (unvoided bills).filter fun b => decide (b.tender = tender)

def tenderWords : List String :=
  (options ++ (soldOf bills).map SoldLine.tender).eraseDups

/-! ## The groups of the sold bills -/

theorem mem_soldOf_tenders {w : String} :
    w ∈ (soldOf bills).map SoldLine.tender ↔
      ∃ b ∈ bills, b.voided = false ∧ b.tender = w := by
  unfold soldOf groups
  rw [List.map_map, List.map_map]
  refine (List.mem_map.trans ?_).trans
    (b := ∃ b ∈ unvoided bills, b.tender = w) ?_
  · constructor
    · rintro ⟨k, hk, rfl⟩
      exact List.mem_map.1 (List.mem_dedup.1 hk)
    · intro h
      exact ⟨w, List.mem_dedup.2 (List.mem_map.2 h), rfl⟩
  · simp only [unvoided, List.mem_filter, Bool.not_eq_true', and_assoc]

theorem mem_tenderWords {w : String} :
    w ∈ tenderWords options bills ↔
      w ∈ options ∨ ∃ b ∈ bills, b.voided = false ∧ b.tender = w := by
  unfold tenderWords
  rw [List.mem_eraseDups, List.mem_append, mem_soldOf_tenders]

theorem sum_soldOf {M : Type} [AddCommMonoid M] {figure : SoldLine → M}
    {f : BilledRow → M} (h : ∀ g, figure (soldLine g) = (g.2.map f).sum) :
    ((soldOf bills).map figure).sum = ((unvoided bills).map f).sum := by
  unfold soldOf groups
  rw [List.map_map, List.map_map]
  refine Eq.trans (congrArg List.sum (List.map_congr_left fun w _ => ?_))
    (sum_map_sumOn (List.nodup_dedup _) f fun b hb =>
      List.mem_dedup.2 (List.mem_map_of_mem hb))
  rw [sumOn_eq_sum_filter]
  exact h _

theorem sum_one (l : List BilledRow) : (l.map fun _ => 1).sum = l.length := by
  rw [List.map_const', List.sum_replicate, nsmul_eq_mul, mul_one, Nat.cast_id]

/-! ## The lines -/

/-- Each line has its tender's sums, whether or not any bill carries it. -/
theorem tenderLines_soldOf :
    tenderLines options (soldOf bills) =
      (tenderWords options bills).map fun w =>
        ⟨w, ((soldUnder bills w).map BilledRow.total).sum,
          (soldUnder bills w).length⟩ := by
  unfold tenderLines tenderWords
  dsimp only
  refine List.map_congr_left fun w _ => ?_
  have hentry : (soldOf bills).map (fun r => (r.tender, r)) =
      (groups BilledRow.tender (unvoided bills)).map fun g =>
        (g.1, soldLine g) := by
    unfold soldOf
    rw [List.map_map]
    rfl
  rw [hentry, fromEntries_groups]
  split
  · rfl
  · next hk =>
      have hnone : soldUnder bills w = [] :=
        List.filter_eq_nil_iff.2 fun b hb hit =>
          hk (List.mem_map.2 ⟨b, hb, of_decide_eq_true hit⟩)
      rw [hnone]
      rfl

theorem takenOn_tenderLines (credit : Bool) :
    takenOn credit (tenderLines options (soldOf bills)) =
      (((unvoided bills).filter fun b => isCredit b.tender == credit).map
        BilledRow.total).sum := by
  unfold takenOn
  rw [tenderLines_soldOf, List.filter_map, List.map_map]
  have hnodup : ((tenderWords options bills).filter fun w =>
      isCredit w == credit).Nodup := (nodup_eraseDups _).filter _
  refine Eq.trans (congrArg List.sum (List.map_congr_left fun w hw => ?_))
    (@sum_map_sumOn _ _ _ _ _ _ BilledRow.tender _ hnodup BilledRow.total
      fun b hb => ?_)
  · have hside := (List.mem_filter.1 hw).2
    rw [sumOn_filter fun b _ hb hp => absurd hside ?_, sumOn_eq_sum_filter]
    · rfl
    · exact hb ▸ Bool.not_eq_true _ ▸ hp
  · obtain ⟨hlive, hside⟩ := List.mem_filter.1 hb
    obtain ⟨hmem, hv⟩ := List.mem_filter.1 hlive
    exact List.mem_filter.2 ⟨(mem_tenderWords options bills).2
      (.inr ⟨b, hmem, by simpa using hv, rfl⟩), hside⟩

/-! ## The report -/

/-- The figures of a Z that the hand-over of a shift prints too. -/
def RegisterTotals.handOver (t : RegisterTotals) : ShiftTotals where
  billCount := t.billCount
  grossSales := t.grossSales
  discount := t.discount
  nettSales := t.nettSales
  taxTotal := t.taxTotal
  tenders := t.tenders
  collected := t.collected
  creditSales := t.creditSales
  voidAmount := t.voidAmount
  voidBills := t.voidBills

/-- Every bill once. -/
structure AccountsFor (t : ShiftTotals) : Prop where
  /-- No tender has two lines. -/
  once : (t.tenders.map TenderLine.tender).Nodup
  /-- The lines are those of the schema, and of every tender with a bill. -/
  words : ∀ w, w ∈ t.tenders.map TenderLine.tender ↔
    w ∈ options ∨ ∃ b ∈ bills, b.voided = false ∧ b.tender = w
  /-- A line is the unvoided bills of its tender. -/
  lines : ∀ l ∈ t.tenders,
    l.amount = ((soldUnder bills l.tender).map BilledRow.total).sum ∧
      l.bills = (soldUnder bills l.tender).length
  /-- A side of the report is the unvoided bills of its tenders. -/
  sides : t.collected = (((unvoided bills).filter fun b =>
      !isCredit b.tender).map BilledRow.total).sum ∧
    t.creditSales = (((unvoided bills).filter fun b =>
      isCredit b.tender).map BilledRow.total).sum
  nett : t.collected + t.creditSales = t.nettSales ∧
    t.nettSales = ((unvoided bills).map BilledRow.total).sum
  gross : t.grossSales = t.nettSales + t.discount ∧
    t.discount = ((unvoided bills).map BilledRow.discount).sum
  tax : t.taxTotal = ((unvoided bills).map BilledRow.tax).sum
  counted : t.billCount = (unvoided bills).length
  /-- What was taken back is on its own line. -/
  voids : t.voidAmount =
      ((bills.filter BilledRow.voided).map BilledRow.total).sum ∧
    t.voidBills = (bills.filter BilledRow.voided).length

theorem takenOn_add :
    takenOn false (tenderLines options (soldOf bills)) +
        takenOn true (tenderLines options (soldOf bills)) =
      ((unvoided bills).map BilledRow.total).sum := by
  rw [takenOn_tenderLines, takenOn_tenderLines]
  induction unvoided bills with
  | nil => rfl
  | cons b l ih =>
      rw [List.filter_cons, List.filter_cons, List.map_cons, List.sum_cons, ← ih]
      cases isCredit b.tender with
      | false =>
          rw [if_pos (by decide), if_neg (by decide), List.map_cons,
            List.sum_cons, add_assoc]
      | true =>
          rw [if_neg (by decide), if_pos (by decide), List.map_cons,
            List.sum_cons, add_left_comm]

theorem accountsFor {t : ShiftTotals}
    (htenders : t.tenders = tenderLines options (soldOf bills))
    (hcollected : t.collected = takenOn false t.tenders)
    (hcredit : t.creditSales = takenOn true t.tenders)
    (hnett : t.nettSales = t.collected + t.creditSales)
    (hdiscount : t.discount = ((soldOf bills).map SoldLine.discount).sum)
    (hgross : t.grossSales = t.nettSales + t.discount)
    (htax : t.taxTotal = ((soldOf bills).map SoldLine.tax).sum)
    (hcount : t.billCount = ((soldOf bills).map SoldLine.bills).sum)
    (hvoids : (⟨t.voidAmount, t.voidBills⟩ : VoidedSum) = voidedOf bills) :
    AccountsFor options bills t := by
  have hwords : t.tenders.map TenderLine.tender = tenderWords options bills := by
    rw [htenders, tenderLines_soldOf, List.map_map]
    exact List.map_id _
  rw [htenders] at hcollected hcredit
  refine
    { once := hwords ▸ nodup_eraseDups _
      words := fun w => hwords ▸ mem_tenderWords options bills
      lines := fun l hl => ?_
      sides := ⟨?_, ?_⟩
      nett := ⟨hnett.symm, ?_⟩
      gross := ⟨hgross, ?_⟩
      tax := htax.trans (sum_soldOf bills fun _ => rfl)
      counted := ?_
      voids := ⟨congrArg VoidedSum.amount hvoids,
        congrArg VoidedSum.bills hvoids⟩ }
  · rw [htenders, tenderLines_soldOf] at hl
    obtain ⟨w, -, rfl⟩ := List.mem_map.1 hl
    exact ⟨rfl, rfl⟩
  · rw [hcollected, takenOn_tenderLines]
    simp only [beq_false]
  · rw [hcredit, takenOn_tenderLines]
    simp only [beq_true]
  · rw [hnett, hcollected, hcredit, takenOn_add]
  · rw [hdiscount]
    exact sum_soldOf bills fun _ => rfl
  · rw [hcount, ← sum_one]
    exact sum_soldOf bills fun g => (sum_one g.2).symm

/-! ## The payments against earlier bills -/

def takenIn (settlements : List OldBillRow) (from_ to_ : Instant) :
    List OldBillRow :=
  settlements.filter fun s =>
    !s.voided && decide (from_ ≤ s.at_) && decide (s.at_ < to_)

/-- Every payment of the window on the one line of its mode. -/
structure PaymentsOnce (settlements : List OldBillRow) (from_ to_ : Instant)
    (t : RegisterTotals) : Prop where
  once : (t.oldBills.map SettledLine.mode).Nodup
  words : ∀ w, w ∈ t.oldBills.map SettledLine.mode ↔
    w ∈ settlementModeOptions ∨
      ∃ s ∈ takenIn settlements from_ to_, s.mode = w
  lines : ∀ l ∈ t.oldBills, l.amount =
    (((takenIn settlements from_ to_).filter fun s =>
      decide (s.mode = l.mode)).map OldBillRow.amount).sum
  total : t.oldBillsTotal =
    ((takenIn settlements from_ to_).map OldBillRow.amount).sum

section OldBills

variable (settlements : List OldBillRow) (from_ to_ : Instant)

def modeWords : List String :=
  (settlementModeOptions ++
    (settledOf settlements from_ to_).map SettledLine.mode).eraseDups

theorem mem_modeWords {w : String} :
    w ∈ modeWords settlements from_ to_ ↔ w ∈ settlementModeOptions ∨
      ∃ s ∈ takenIn settlements from_ to_, s.mode = w := by
  unfold modeWords settledOf groups
  rw [List.mem_eraseDups, List.mem_append, List.map_map, List.map_map]
  refine or_congr_right (List.mem_map.trans ?_)
  constructor
  · rintro ⟨k, hk, rfl⟩
    exact List.mem_map.1 (List.mem_dedup.1 hk)
  · intro h
    exact ⟨w, List.mem_dedup.2 (List.mem_map.2 h), rfl⟩

theorem oldBillLines_settledOf :
    oldBillLines (settledOf settlements from_ to_) =
      (modeWords settlements from_ to_).map fun w =>
        ⟨w, sumOn (takenIn settlements from_ to_) OldBillRow.mode w
          OldBillRow.amount⟩ := by
  unfold oldBillLines modeWords
  dsimp only
  refine List.map_congr_left fun w _ => ?_
  have hentry : (settledOf settlements from_ to_).map (fun r => (r.mode, r.amount)) =
      (groups OldBillRow.mode (takenIn settlements from_ to_)).map fun g =>
        (g.1, (g.2.map OldBillRow.amount).sum) := by
    unfold settledOf
    dsimp only
    rw [List.map_map]
    rfl
  rw [hentry, fromEntries_groups, sumOn_eq_sum_filter]
  split
  · rfl
  · next hk =>
      rw [List.filter_eq_nil_iff.2 fun s hs hit =>
        hk (List.mem_map.2 ⟨s, hs, of_decide_eq_true hit⟩)]
      rfl

theorem paymentsOnce {t : RegisterTotals}
    (hlines : t.oldBills = oldBillLines (settledOf settlements from_ to_))
    (htotal : t.oldBillsTotal = (t.oldBills.map SettledLine.amount).sum) :
    PaymentsOnce settlements from_ to_ t := by
  rw [oldBillLines_settledOf] at hlines
  have hwords : t.oldBills.map SettledLine.mode =
      modeWords settlements from_ to_ := by
    rw [hlines, List.map_map]
    exact List.map_id _
  refine
    { once := hwords ▸ nodup_eraseDups _
      words := fun w => hwords ▸ mem_modeWords settlements from_ to_
      lines := fun l hl => ?_
      total := ?_ }
  · rw [hlines] at hl
    obtain ⟨w, -, rfl⟩ := List.mem_map.1 hl
    exact sumOn_eq_sum_filter ..
  · rw [htotal, hlines, List.map_map]
    exact sum_map_sumOn (nodup_eraseDups _) OldBillRow.amount fun s hs =>
      (mem_modeWords settlements from_ to_).2 (.inr ⟨s, hs, rfl⟩)

end OldBills

/-- A report accounts for every bill once: a Z for those of its session, the
hand-over of a shift for its operator's at the counter. The Z's two halves of the
tax add up to it to the paisa, whichever way the first was rounded, and the
payments of its window stand apart from its sales, each once. -/
theorem every_bill_once (bills : List BilledRow) (settlements : List OldBillRow)
    (session userId : String) (loc : LocKey) (from_ to_ : Instant) :
    let ofSession := bills.filter fun b => decide (b.sessionId = some session)
    let z := buildTotals (soldOf ofSession) (voidedOf ofSession)
      (settledOf settlements from_ to_)
    let mine := bills.filter fun b => decide (b.operatorId = userId) &&
      decide (b.loc = loc) && decide (from_ ≤ b.at_) && decide (b.at_ ≤ to_)
    AccountsFor tenderOptions ofSession z.handOver ∧
      z.sgst + z.cgst = z.taxTotal ∧
      PaymentsOnce settlements from_ to_ z ∧
      AccountsFor tillTenderOptions mine
        (shiftTotals bills userId loc from_ to_) := by
  intro ofSession z mine
  exact ⟨accountsFor _ _ rfl rfl rfl rfl rfl rfl rfl rfl rfl,
    add_sub_cancel _ _, paymentsOnce _ _ _ rfl rfl,
    accountsFor _ _ rfl rfl rfl rfl rfl rfl rfl rfl rfl⟩

end Rch
