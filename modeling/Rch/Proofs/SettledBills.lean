import Rch.Machine.Service
import Rch.Proofs.CreditCeiling

/-!
# A voided bill that is being settled

A void locks its bill and asks whether a settlement stands on it. A settlement
takes its payer's credit lock, reads the open bills without locking them, and
stores its lines, each of which needs the bill not to be locked by a void. So a
void that runs inside the gap between the reading and the storing is seen by
neither side: it finds no line yet, and the settlement has already read the
bill as open.

Outside that gap the two cannot pass each other. A void that locks the bill
first is over before the settlement reads, or keeps its lines out until then; a
settlement that has stored its lines keeps the void out until it commits.
-/

namespace Rch

open Kit

/-- Where the accounts stand when no void has passed a settlement. -/
structure AccountsHeld (db : Db) : Prop where
  /-- A line is a settlement's, on a bill; and while the settlement stands, so
  does the bill, and is its payer's. -/
  lines : db.settlementLines.All fun k amount => 0 < amount ∧
    ∃ s b, db.settlements.get? k.1 = some s ∧ db.bills.get? k.2 = some b ∧
      (s.voided = none → chargedTo s.kind s.payerId b = true)
  amounts : db.settlements.All fun sid s => s.amount = laidBy db sid
  owed : db.bills.All fun no b =>
    b.tender ∈ accountTenders → laidOn db no ≤ b.total

theorem accountsHeld_fresh (rows : MasterRows) :
    AccountsHeld (Db.fresh rows) :=
  ⟨Table.all_empty _, Table.all_empty _, Table.all_empty _⟩

/-! ## What the two sides know -/

/-- What a settlement is about to lay fits the bills as they stand. -/
structure Fits (db : Db) (r : Recording) (lines : List SettlementLine) :
    Prop where
  onBills : ∀ l ∈ lines, 0 < l.amount ∧ ∃ b, db.bills.get? l.no = some b ∧
    chargedTo r.body.kind r.body.id b = true
  within : db.bills.All fun no b => b.tender ∈ accountTenders →
    laidOn db no + sumOn lines SettlementLine.no no SettlementLine.amount ≤
      b.total
  whole : (lines.map SettlementLine.amount).sum = round2 r.body.amount

/-- No settlement that stands has a line on this bill. -/
def Unsettled (db : Db) (no : String) : Prop :=
  ∀ sid amount, db.settlementLines.get? (sid, no) = some amount →
    ∀ s, db.settlements.get? sid = some s → s.voided ≠ none

def AccountTx.pending : AccountTx → List SettlementLine
  | .record _ (.laid lines) | .record _ (.numbered _ _ lines)
  | .record _ (.headed _ _ lines) | .record _ (.recorded _ _ lines) => lines
  | _ => []

def Settling (db : Db) : AccountTx → Prop
  | .record r (.laid lines) | .record r (.numbered _ _ lines)
  | .record r (.headed _ _ lines) | .record r (.recorded _ _ lines) =>
    Fits db r lines
  | .voidBill _ no _ (.unsettled _) | .voidBill _ no _ .stamped =>
    Unsettled db no
  | _ => True

theorem liveSettlementOf_eq_none {db : Db} {no : String} :
    liveSettlementOf db no = none ↔ Unsettled db no := by
  rw [liveSettlementOf, Option.map_eq_none_iff, List.find?_eq_none]
  constructor
  · intro h sid amount hl s hs hlive
    have := h ((sid, no), amount) (Table.get?_eq_some.1 hl)
    simp [hs, hlive] at this
  · rintro h ⟨⟨sid, no'⟩, amount⟩ hl hno
    simp only [Bool.and_eq_true, decide_eq_true_eq, Option.any_eq_true] at hno
    obtain ⟨rfl, s, hs, hlive⟩ := hno
    exact h sid amount (Table.get?_eq_some.2 hl) s hs (by simpa using hlive)

theorem AccountsHeld.fits {db : Db} (h : AccountsHeld db) {r : Recording}
    {lines : List SettlementLine}
    (ha : allocateSettlement (openBillList db r.body.kind r.body.id)
      (round2 r.body.amount) = (lines, 0)) : Fits db r lines := by
  refine ⟨fun l hl => ?_, fun no b hb ht => ?_, ?_⟩
  · have hl' : l ∈ (allocateSettlement
        (openBillList db r.body.kind r.body.id)
        (round2 r.body.amount)).1 := ha ▸ hl
    obtain ⟨hpos, o, ho, hno⟩ := mem_allocateSettlement hl'
    obtain ⟨-, b, hb, hc, -⟩ := mem_openBillList ho
    exact ⟨hpos, b, hno ▸ hb, hc⟩
  · have hle := allocateSettlement_le
      (fun o (ho : o ∈ openBillList db r.body.kind r.body.id) =>
        (mem_openBillList ho).1.le) (round2 r.body.amount) no
    rw [ha] at hle
    calc laidOn db no + sumOn lines SettlementLine.no no SettlementLine.amount
        ≤ laidOn db no + (b.total - laidOn db no) :=
          add_le_add_right (hle.trans
            (sumOn_openBillList h.owed r.body.kind r.body.id hb ht)) _
      _ = b.total := add_sub_cancel ..
  · have hsum := allocateSettlement_sum
      (openBillList db r.body.kind r.body.id) (round2 r.body.amount)
    rwa [ha, add_zero] at hsum

theorem Settling.runs {hashtext : String → ℤ} {db : Db}
    {x : Tx Db AccountKey AccountTx} {at_ : Instant} {st : AccountStmt}
    (hi : AccountsHeld db) (h : Settling db x.at_) (hx : Shaped hashtext db x)
    (hs : x.at_.stmt hashtext at_ (x.write db) = some st) :
    Settling db st.next := by
  obtain ⟨t, held, write⟩ := x
  cases t with
  | sale s p =>
      obtain ⟨p', hnext⟩ := saleStmt_next hs
      rw [hnext]
      exact trivial
  | record r p =>
      cases p with
      | begun =>
          obtain ⟨_, -, rfl⟩ := Option.map_eq_some_iff.1 hs
          exact trivial
      | known | locked =>
          cases hs
          exact trivial
      | charged c =>
          simp only [AccountTx.stmt, recordStmt] at hs
          split at hs
          · cases hs
            exact trivial
          · cases hs
      | owed o =>
          obtain ⟨-, rfl⟩ := hx
          simp only [AccountTx.stmt, recordStmt] at hs
          split at hs
          · next hleft =>
              cases hs
              exact hi.fits (Prod.ext rfl hleft)
          · cases hs
      | laid lines =>
          cases hs
          exact h
      | numbered id at_ lines | headed id at_ lines =>
          obtain ⟨_, -, rfl⟩ := Option.map_eq_some_iff.1 hs
          exact h
      | recorded id at_ lines => cases hs
  | voidSettlement claims id reason p =>
      obtain ⟨p', hnext⟩ := voidSettlementStmt_next hs
      rw [hnext]
      exact trivial
  | voidBill claims no reason p =>
      cases p with
      | begun =>
          obtain ⟨row, -, hs⟩ := Option.bind_eq_some_iff.1 hs
          split at hs
          · cases hs
            exact trivial
          · cases hs
      | held at_ =>
          obtain ⟨-, -, rfl⟩ := hx
          simp only [AccountTx.stmt, voidBillStmt] at hs
          split at hs
          · next hlive =>
              cases hs
              exact liveSettlementOf_eq_none.1 hlive
          · cases hs
      | unsettled at_ =>
          cases hs
          exact h
      | stamped => cases hs

/-! ## The condition -/

/-- A void that commits passes no settlement: none that has decided to lay a
line on its bill is still open. And a sale that commits to an account comes to
no less than nothing. -/
def PassesNone (w : World Db AccountKey AccountTx) : AccountTx → Prop
  | .voidBill _ no _ _ => ∀ j y, w.tx j = some y →
    ∀ l ∈ y.at_.pending, l.no ≠ no
  | .sale s _ => s.input.tender ∈ accountTenders → 0 ≤ Doubles.round2 (.ofRat s.plan.tot)
  | _ => True

def NothingPasses (w : World Db AccountKey AccountTx) :
    TxEvent Instant AccountTx → Prop
  | .commit i => ∀ x, w.tx i = some x → PassesNone w x.at_
  | _ => True

/-! ## A commit keeps the accounts -/

section Commit

variable {hashtext : String → ℤ} {db db' : Db} {t : AccountTx}
variable {held held' : List (Lock AccountKey)}

/-- Nothing is laid on a bill that does not exist yet. -/
theorem AccountsHeld.laidOn_free (h : AccountsHeld db) {no : String}
    (hfree : db.bills.get? no = none) : laidOn db no = 0 := by
  apply sumOn_eq_zero
  rintro l hl rfl
  obtain ⟨-, s, b, -, hb, -⟩ := h.lines l.1 l.2 (Table.get?_eq_some.2 hl)
  rw [hfree] at hb
  cases hb

theorem AccountsHeld.laidBy_free (h : AccountsHeld db) {sid : String}
    (hfree : db.settlements.get? sid = none) : laidBy db sid = 0 := by
  apply sumOn_eq_zero
  rintro l hl rfl
  obtain ⟨-, s, b, hs, -⟩ := h.lines l.1 l.2 (Table.get?_eq_some.2 hl)
  rw [hfree] at hs
  cases hs

theorem AccountsHeld.sold (h : AccountsHeld db) {s : PricedSale} {no : String}
    {at_ : Instant} (hfree : db.bills.get? no = none)
    (hpos : s.input.tender ∈ accountTenders → 0 ≤ Doubles.round2 (.ofRat s.plan.tot)) :
    AccountsHeld (addBill no (s.row at_) (db.advance .bill)) := by
  have hadvanced : (db.advance .bill).bills.get? no = none := hfree
  have hget := get?_addBill (s.row at_) hadvanced
  refine ⟨fun k amount hk => ?_, h.amounts, fun no' b hb ht => ?_⟩
  · obtain ⟨hpos, st, b, hst, hb, hlive⟩ := h.lines k amount hk
    refine ⟨hpos, st, b, hst, ?_, hlive⟩
    have hne : k.2 ≠ no := by
      rintro rfl
      rw [hfree] at hb
      cases hb
    rw [hget, if_neg hne]
    exact hb
  · rw [hget] at hb
    split at hb
    · next hno =>
        cases hb
        exact (h.laidOn_free (hno ▸ hfree)).trans_le (hpos ht)
    · exact h.owed no' b hb ht

theorem AccountsHeld.billVoided (h : AccountsHeld db) {no : String}
    (stamp : VoidStamp) (hno : Unsettled db no) :
    AccountsHeld (stampBillAt no stamp db) := by
  refine ⟨fun k amount hk => ?_, h.amounts,
    Table.All.modify h.owed fun r _ hr => hr⟩
  obtain ⟨hpos, s, b, hs, hb, hlive⟩ := h.lines k amount hk
  by_cases hk' : k.2 = no
  · refine ⟨hpos, s, { b with voided := some stamp }, hs, ?_,
      fun hl => absurd hl ?_⟩
    · rw [hk'] at hb ⊢
      exact (Table.get?_modify_self ..).trans (congrArg (Option.map _) hb)
    · exact hno k.1 amount (hk' ▸ hk) s hs
  · exact ⟨hpos, s, b, hs, (Table.get?_modify_ne _ _ hk').trans hb, hlive⟩

theorem AccountsHeld.settlementVoided (h : AccountsHeld db) (id : String)
    (stamp : VoidStamp) : AccountsHeld (stampSettlementAt id stamp db) := by
  refine ⟨fun k amount hk => ?_, Table.All.modify h.amounts fun r _ hr => hr,
    h.owed⟩
  obtain ⟨hpos, s, b, hs, hb, hlive⟩ := h.lines k amount hk
  by_cases hk' : k.1 = id
  · refine ⟨hpos, { s with voided := some stamp }, b, ?_, hb, nofun⟩
    rw [hk'] at hs ⊢
    exact (Table.get?_modify_self ..).trans (congrArg (Option.map _) hs)
  · exact ⟨hpos, s, b, (Table.get?_modify_ne _ _ hk').trans hs, hb, hlive⟩

theorem laidOn_recorded {r : Recording} {id : String} {at_ : Instant}
    {lines : List SettlementLine} (hfresh : LinesFree db id lines)
    (no : String) :
    laidOn (addSettlementLines id lines
        (addSettlement id (r.row at_) (db.advance .settlement))) no =
      laidOn db no +
        sumOn lines SettlementLine.no no SettlementLine.amount := by
  have hfresh' : LinesFree (addSettlement id (r.row at_)
    (db.advance .settlement)) id lines := hfresh
  unfold laidOn
  rw [addSettlementLines_rows hfresh', sumOn_append, sumOn_map]
  rfl

theorem get?_lines_recorded {r : Recording} {id : String} {at_ : Instant}
    {lines : List SettlementLine} (hfresh : LinesFree db id lines)
    {k : String × String} {amount : Money}
    (hk : (addSettlementLines id lines (addSettlement id (r.row at_)
      (db.advance .settlement))).settlementLines.get? k = some amount) :
    db.settlementLines.get? k = some amount ∨
      ∃ l ∈ lines, k = (id, l.no) ∧ amount = l.amount := by
  have hfresh' : LinesFree (addSettlement id (r.row at_)
    (db.advance .settlement)) id lines := hfresh
  rw [Table.get?_eq_some, addSettlementLines_rows hfresh',
    List.mem_append] at hk
  rcases hk with hk | hk
  · exact .inl (Table.get?_eq_some.2 hk)
  · obtain ⟨l, hl, heq⟩ := List.mem_map.1 hk
    cases heq
    exact .inr ⟨l, hl, rfl, rfl⟩

theorem AccountsHeld.recorded (h : AccountsHeld db) {r : Recording}
    {id : String} {at_ : Instant} {lines : List SettlementLine}
    (hfree : db.settlements.get? id = none)
    (hfresh : LinesFree db id lines) (hfits : Fits db r lines) :
    AccountsHeld (addSettlementLines id lines
      (addSettlement id (r.row at_) (db.advance .settlement))) := by
  have hadvanced : (db.advance .settlement).settlements.get? id = none := hfree
  have hget (k : String) : (addSettlementLines id lines
      (addSettlement id (r.row at_) (db.advance .settlement))).settlements.get?
        k = if k = id then some (r.row at_) else db.settlements.get? k :=
    get?_addSettlement (r.row at_) hadvanced k
  have hkept {k : String} {s : SettlementRow}
      (hs : db.settlements.get? k = some s) : k ≠ id := by
    rintro rfl
    rw [hfree] at hs
    cases hs
  refine ⟨fun k amount hk => ?_, fun sid s hs => ?_, fun no b hb ht => ?_⟩
  · rcases get?_lines_recorded hfresh hk with hk | ⟨l, hl, rfl, rfl⟩
    · obtain ⟨hpos, s, b, hs, hrest⟩ := h.lines k amount hk
      refine ⟨hpos, s, b, ?_, hrest⟩
      rw [hget, if_neg (hkept hs)]
      exact hs
    · obtain ⟨hpos, b, hb, hc⟩ := hfits.onBills l hl
      exact ⟨hpos, r.row at_, b, (hget id).trans (if_pos rfl), hb,
        fun _ => hc⟩
  · have hlaid : laidBy (addSettlementLines id lines
        (addSettlement id (r.row at_) (db.advance .settlement))) sid =
        laidBy db sid +
          sumOn lines (fun _ => id) sid SettlementLine.amount := by
      have hfresh' : LinesFree (addSettlement id (r.row at_)
        (db.advance .settlement)) id lines := hfresh
      unfold laidBy
      rw [addSettlementLines_rows hfresh', sumOn_append, sumOn_map]
      rfl
    refine Eq.trans ?_ hlaid.symm
    rw [hget] at hs
    split at hs
    · next hid =>
        subst hid
        cases hs
        rw [h.laidBy_free hfree, zero_add]
        refine hfits.whole.symm.trans ?_
        simp only [sumOn, if_true]
    · next hid =>
        rw [h.amounts sid s hs, sumOn_eq_zero fun l _ hk =>
          absurd hk.symm hid, add_zero]
  · rw [laidOn_recorded hfresh]
    exact hfits.within no b hb ht

/-- Each of the four commits keeps the accounts, given what its own side
knows and that no void passes a settlement. -/
theorem AccountsHeld.commit (h : AccountsHeld db)
    (hc : AccountCommit hashtext db held t db') (hs : Settling db t)
    (hpos : ∀ s p, t = .sale s p → s.input.tender ∈ accountTenders →
      0 ≤ Doubles.round2 (.ofRat s.plan.tot)) : AccountsHeld db' := by
  cases hc with
  | sold s no at_ _ _ hfree => exact h.sold hfree (hpos s _ rfl)
  | recorded r id at_ lines _ _ _ hfree hfresh =>
      exact h.recorded hfree hfresh hs
  | settlementVoided claims id reason row stamp =>
      exact h.settlementVoided id stamp
  | billVoided claims no reason row stamp => exact h.billVoided stamp hs

/-! ## And what the other side knows -/

theorem Fits.stable {r : Recording} {lines : List SettlementLine}
    (hf : Fits db r lines) (h : AccountsHeld db)
    (hc : AccountCommit hashtext db held t db') (hs : Settling db t)
    (hclash : clash held held' = false)
    (hcredit : CreditHeld hashtext r.body.kind r.body.id held')
    (hpos : ∀ s p, t = .sale s p → s.input.tender ∈ accountTenders →
      0 ≤ Doubles.round2 (.ofRat s.plan.tot))
    (hpass : ∀ claims no reason p, t = .voidBill claims no reason p →
      ∀ l ∈ lines, l.no ≠ no) : Fits db' r lines := by
  cases hc with
  | sold s no at_ _ _ hfree =>
      have hadvanced : (db.advance .bill).bills.get? no = none := hfree
      have hget := get?_addBill (s.row at_) hadvanced
      have hne : ∀ l ∈ lines, l.no ≠ no := by
        rintro l hl rfl
        obtain ⟨-, b, hb, -⟩ := hf.onBills l hl
        rw [hfree] at hb
        cases hb
      refine ⟨fun l hl => ?_, fun no' b hb ht => ?_, hf.whole⟩
      · obtain ⟨hamount, b, hb, hcharged⟩ := hf.onBills l hl
        refine ⟨hamount, b, ?_, hcharged⟩
        rw [hget, if_neg (hne l hl)]
        exact hb
      · rw [hget] at hb
        split at hb
        · next hno =>
            subst hno
            cases hb
            have hlaid : laidOn (addBill no' (s.row at_) (db.advance .bill))
                no' = 0 := h.laidOn_free hfree
            rw [hlaid, sumOn_eq_zero fun l hl hk => absurd hk (hne l hl),
              add_zero]
            exact hpos s _ rfl ht
        · exact hf.within no' b hb ht
  | recorded r' id at_ lines' hcredit' _ _ hfree hfresh =>
      -- the two settlements are of different payers, so of different bills
      have hother : ∀ b, chargedTo r.body.kind r.body.id b = true →
          chargedTo r'.body.kind r'.body.id b = true → False := by
        intro b hb hb'
        obtain ⟨-, ⟨p, hp, hk, hid⟩, -⟩ := chargedTo_iff.1 hb
        obtain ⟨-, ⟨p', hp', hk', hid'⟩, -⟩ := chargedTo_iff.1 hb'
        obtain rfl : p = p' := Option.some.inj (hp.symm.trans hp')
        unfold CreditHeld at hcredit hcredit'
        rw [← hk', ← hid'] at hcredit'
        rw [← hk, ← hid] at hcredit
        rw [clash_of_mem hcredit' hcredit rfl] at hclash
        cases hclash
      refine ⟨hf.onBills, fun no b hb ht => ?_, hf.whole⟩
      rw [laidOn_recorded hfresh]
      by_cases hmine : ∃ l ∈ lines, l.no = no
      · obtain ⟨l, hl, rfl⟩ := hmine
        obtain ⟨-, b', hb', hc⟩ := hf.onBills l hl
        rw [sumOn_eq_zero (l := lines'), add_zero]
        · exact hf.within _ b hb ht
        · intro l' hl' hno
          obtain ⟨-, b'', hb'', hc'⟩ := hs.onBills l' hl'
          rw [hno, hb'] at hb''
          cases hb''
          exact absurd hc' fun hc' => hother b' hc hc'
      · rw [sumOn_eq_zero (l := lines) fun l hl hno =>
          absurd ⟨l, hl, hno⟩ hmine, add_zero]
        exact hs.within no b hb ht
  | settlementVoided => exact ⟨hf.onBills, hf.within, hf.whole⟩
  | billVoided claims no reason row stamp _ hrow =>
      refine ⟨fun l hl => ?_, ?_, hf.whole⟩
      · obtain ⟨hamount, b, hb, hcharged⟩ := hf.onBills l hl
        refine ⟨hamount, b, ?_, hcharged⟩
        exact (Table.get?_modify_ne _ _
          (hpass claims no reason _ rfl l hl)).trans hb
      · exact Table.All.modify hf.within fun r _ hr => hr

theorem Unsettled.stable {no : String} (hu : Unsettled db no)
    (h : AccountsHeld db) (hc : AccountCommit hashtext db held t db')
    (hclash : clash held held' = false)
    (hkey : ⟨.bill no, .update⟩ ∈ held') : Unsettled db' no := by
  cases hc with
  | sold => exact hu
  | recorded r id at_ lines _ _ hlaid hfree hfresh =>
      intro sid amount hl s hs
      rcases get?_lines_recorded hfresh hl with hl | ⟨l, hmem, heq, -⟩
      · obtain ⟨-, s', b, hs', -⟩ := h.lines _ _ hl
        have hne : sid ≠ id := by
          rintro rfl
          rw [hfree] at hs'
          cases hs'
        refine hu sid amount hl s ?_
        have hadvanced : (db.advance .settlement).settlements.get? id = none :=
          hfree
        exact ((get?_addSettlement (r.row at_) hadvanced sid).trans
          (if_neg hne)).symm.trans hs
      · obtain ⟨-, rfl⟩ := Prod.mk.inj heq
        rw [clash_of_mem (hlaid l hmem) hkey rfl] at hclash
        cases hclash
  | settlementVoided claims id reason row stamp =>
      intro sid amount hl s hs
      by_cases hid : sid = id
      · subst hid
        rw [show (stampSettlementAt sid stamp db).settlements.get? sid = _ from
          Table.get?_modify_self .., Option.map_eq_some_iff] at hs
        obtain ⟨_, -, rfl⟩ := hs
        exact nofun
      · exact hu sid amount hl s
          ((Table.get?_modify_ne _ _ hid).symm.trans hs)
  | billVoided => exact hu

theorem Settling.stable {y : Tx Db AccountKey AccountTx}
    (hy : Settling db y.at_) (hshape : Shaped hashtext db y)
    (h : AccountsHeld db) (hc : AccountCommit hashtext db held t db')
    (hs : Settling db t) (hclash : clash held y.held = false)
    (hpos : ∀ s p, t = .sale s p → s.input.tender ∈ accountTenders →
      0 ≤ Doubles.round2 (.ofRat s.plan.tot))
    (hpass : ∀ claims no reason p, t = .voidBill claims no reason p →
      ∀ l ∈ y.at_.pending, l.no ≠ no) : Settling db' y.at_ := by
  obtain ⟨u, held', write⟩ := y
  cases u with
  | record r p =>
      cases p with
      | laid lines | numbered id at_ lines | headed id at_ lines
      | recorded id at_ lines =>
          exact Fits.stable hy h hc hs hclash hshape.1 hpos hpass
      | _ => exact trivial
  | voidBill claims no reason p =>
      cases p with
      | unsettled at_ | stamped =>
          exact Unsettled.stable hy h hc hclash hshape.1
      | _ => exact trivial
  | _ => exact trivial

end Commit

/-! ## Over whole runs -/

theorem settling_kept (hashtext : String → ℤ) :
    (accounts hashtext).Kept NothingPasses AccountsHeld
      fun db x => Shaped hashtext db x ∧ Settling db x.at_ where
  init db hdb := by
    obtain ⟨rows, rfl⟩ := hdb
    exact accountsHeld_fresh rows
  begins db t _ ht := by
    refine ⟨shaped_begins ht, ?_⟩
    cases t with
    | record r p => cases p <;> first | exact trivial | cases ht
    | voidBill claims no reason p =>
        cases p <;> first | exact trivial | cases ht
    | _ => exact trivial
  runs _ _ x at_ st _ _ hi hx hs := ⟨hx.1.runs hs, hx.2.runs hi hx.1 hs⟩
  commits w i x hC hx hi hox hd := by
    refine hi.commit (hox.1.commit hd) hox.2 fun s p hat => ?_
    have hnone := hC x hx
    rw [hat] at hnone
    exact hnone
  stable w i j x y hC _ hx hy hi hox hoy hd hc := by
    have hcommit := hox.1.commit hd
    have hnone := hC x hx
    refine ⟨hoy.1.stable hcommit hc,
      hoy.2.stable hoy.1 hi hcommit hox.2 hc ?_ ?_⟩
    · intro s p hat
      rw [hat] at hnone
      exact hnone
    · intro claims no reason p hat
      rw [hat] at hnone
      exact hnone j y hy

/-- A line of a settlement that stands lies on a bill that stands. -/
def SettledBillsStand (db : Db) : Prop :=
  ∀ sid no amount s b, db.settlementLines.get? (sid, no) = some amount →
    db.settlements.get? sid = some s → s.voided = none →
    db.bills.get? no = some b → b.voided = none

theorem AccountsHeld.stand {db : Db} (h : AccountsHeld db) :
    SettledBillsStand db := by
  intro sid no amount s b hl hs hlive hb
  obtain ⟨-, s', b', hs', hb', hc⟩ := h.lines _ _ hl
  obtain rfl : s = s' := Option.some.inj (hs.symm.trans hs')
  obtain rfl : b = b' := Option.some.inj (hb.symm.trans hb')
  exact (chargedTo_iff.1 (hc hlive)).2.2

theorem AccountsHeld.settled_le {db : Db} (h : AccountsHeld db)
    (kind : PayerKind) (id : String) :
    settledNow db kind id ≤ chargedNow db kind id := by
  have hamounts : settledNow db kind id =
      db.settlements.total fun sid s =>
        if paidBy kind id s then laidBy db sid else 0 := by
    change (db.settlements.total fun _ s =>
      if paidBy kind id s then s.amount else 0) = _
    apply Table.total_congr
    intro sid s hs
    rw [h.amounts sid s (Table.get?_eq_some.2 hs)]
  have hsettled : settledNow db kind id =
      (db.settlementLines.rows.map fun l =>
        if (db.settlements.get? l.1.1).any (paidBy kind id) then l.2
        else 0).sum := hamounts.trans (Table.total_sumOn ..)
  have hlaid : (db.bills.total fun no b =>
      if chargedTo kind id b then laidOn db no else 0) =
      (db.settlementLines.rows.map fun l =>
        if (db.bills.get? l.1.2).any (chargedTo kind id) then l.2
        else 0).sum := Table.total_sumOn ..
  have hlines : settledNow db kind id ≤ db.bills.total fun no b =>
      if chargedTo kind id b then laidOn db no else 0 := by
    rw [hsettled, hlaid]
    refine List.sum_le_sum fun l hl => ?_
    obtain ⟨hpos, s, b, hs, hb, hc⟩ :=
      h.lines l.1 l.2 (Table.get?_eq_some.2 hl)
    rw [hs, hb, Option.any_some, Option.any_some]
    split
    · next hpaid =>
        have hlive : s.voided = none := by
          simp only [paidBy, Bool.and_eq_true] at hpaid
          simpa using hpaid.2
        rw [← paidBy_eq_chargedTo hlive (hc hlive), if_pos hpaid]
    · split
      · exact hpos.le
      · exact le_refl 0
  refine hlines.trans (List.sum_le_sum fun b hb => ?_)
  dsimp only
  split
  · next hc =>
      exact h.owed b.1 b.2 (Table.get?_eq_some.2 hb) (chargedTo_iff.1 hc).1
  · exact le_refl 0

/-- In every run in which no void of a bill commits while a settlement that has
decided to lay a line on it is open, and no sale to an account comes to less
than nothing: no voided bill carries a line of a settlement that stands, and no
payer's standing settlements exceed the bills charged to them. -/
theorem settled_bills_stand {hashtext : String → ℤ}
    {w : World Db AccountKey AccountTx}
    (h : (accounts hashtext).machine.ReachVia NothingPasses w) :
    SettledBillsStand w.committed ∧
      ∀ kind id, (outstandingFor w.committed kind id).settled ≤
        (outstandingFor w.committed kind id).charged := by
  have hheld := ((settling_kept hashtext).safe h).inv
  exact ⟨hheld.stand, hheld.settled_le⟩

/-! ## The gap -/

def milkSale : PricedSale where
  input :=
    { loc := "cafe", operatorId := "u2", lines := [], tender := .doctorCredit
      payer := some ⟨.doctor, "DR-001", "Consultant"⟩
      customerName := none, customerPhone := none, source := .till
      qrOrderId := none }
  plan := { lines := [], tot := 200, disc := 0, tax := 0, moves := [] }
  terms := ⟨Pct.zero, none⟩
  payer := some ⟨.doctor, "DR-001", "Consultant"⟩
  phone := none
  session := "s1"

def milkSettled : Recording :=
  ⟨⟨"u1", STORE, true⟩, ⟨.doctor, "DR-001", 150, .cash, "", by decide, by decide⟩,
    ""⟩

def milkVoided : AccountTx :=
  .voidBill ⟨"u1", STORE, true⟩ "CF/1188" "wrong table" .begun

def milkBilled : List (TxEvent Instant AccountTx) :=
  .begin_ (.sale milkSale .priced) :: List.replicate 5 (.run 0 0) ++
    [.commit 0]

/-- The settlement reads the bill as open, the void comes and goes, and the
settlement stores its line. -/
def passedRun : List (TxEvent Instant AccountTx) :=
  milkBilled ++ .begin_ (.record milkSettled .begun) ::
    List.replicate 5 (.run 1 0) ++ .begin_ milkVoided ::
    List.replicate 3 (.run 2 0) ++ .commit 2 :: List.replicate 3 (.run 1 0) ++
    [.commit 1]

theorem settled_bills_stand_parts : ∃ w,
    (accounts fun _ => 0).machine.run ⟨Db.fresh corner, []⟩ passedRun = some w ∧
      (accounts fun _ => 0).machine.Reach w ∧
      ¬SettledBillsStand w.committed := by
  have hany : ((accounts fun _ => 0).machine.run ⟨Db.fresh corner, []⟩
      passedRun).any (fun w => decide (
        (w.committed.settlementLines.get? ("STL-1970-0001", "CF/1188")).isSome ∧
        (w.committed.settlements.get? "STL-1970-0001").map
          SettlementRow.voided = some none ∧
        ((w.committed.bills.get? "CF/1188").bind BillRow.voided).isSome)) =
      true := by
    decide +kernel
  obtain ⟨w, hrun, hd⟩ := (Option.any_eq_true _ _).1 hany
  obtain ⟨hl, hs, hb⟩ := of_decide_eq_true hd
  obtain ⟨amount, hl⟩ := Option.isSome_iff_exists.1 hl
  obtain ⟨s, hs, hlive⟩ := Option.map_eq_some_iff.1 hs
  obtain ⟨stamp, hb⟩ := Option.isSome_iff_exists.1 hb
  obtain ⟨b, hb, hv⟩ := Option.bind_eq_some_iff.1 hb
  have hinit : (accounts fun _ => 0).machine.Reach ⟨Db.fresh corner, []⟩ :=
    .init ⟨⟨corner, rfl⟩, rfl⟩
  refine ⟨w, hrun, Machine.reach_run hinit hrun, fun hstand => ?_⟩
  rw [hstand _ _ amount s b hl hs hlive hb] at hv
  cases hv

def nothingPasses (w : World Db AccountKey AccountTx) :
    TxEvent Instant AccountTx → Bool
  | .commit i => (w.tx i).all fun x =>
    match x.at_ with
    | .voidBill .. => false
    | .sale s _ => decide (0 ≤ Doubles.round2 (.ofRat s.plan.tot))
    | _ => true
  | _ => true

theorem nothingPasses_sound (w : World Db AccountKey AccountTx)
    (e : TxEvent Instant AccountTx) (h : nothingPasses w e = true) :
    NothingPasses w e := by
  cases e with
  | commit i =>
      intro x hx
      simp only [nothingPasses, hx, Option.all_some] at h
      cases hat : x.at_ with
      | voidBill => simp [hat] at h
      | sale s p =>
          simp only [hat, decide_eq_true_eq] at h
          exact fun _ => h
      | _ => exact trivial
  | _ => exact trivial

/-- The same settlement with the void held off: it is refused. -/
theorem settled_bills_stand_milk : ∃ w,
    (accounts fun _ => 0).machine.runVia nothingPasses ⟨Db.fresh corner, []⟩
        (milkBilled ++ .begin_ (.record milkSettled .begun) ::
          List.replicate 8 (.run 1 0) ++ [.commit 1]) = some w ∧
      SettledBillsStand w.committed ∧
      ((accounts fun _ => 0).machine.run w
        [.begin_ milkVoided, .run 2 0, .run 2 0]).isNone = true := by
  have hany : ((accounts fun _ => 0).machine.runVia nothingPasses
      ⟨Db.fresh corner, []⟩ (milkBilled ++
        .begin_ (.record milkSettled .begun) :: List.replicate 8 (.run 1 0) ++
          [.commit 1])).any (fun w =>
      ((accounts fun _ => 0).machine.run w
        [.begin_ milkVoided, .run 2 0, .run 2 0]).isNone) = true := by
    decide +kernel
  obtain ⟨w, hrun, hnone⟩ := (Option.any_eq_true _ _).1 hany
  have hinit : (accounts fun _ => 0).machine.ReachVia NothingPasses
      ⟨Db.fresh corner, []⟩ := .init ⟨⟨corner, rfl⟩, rfl⟩
  have hreach := Machine.reachVia_runVia nothingPasses_sound hinit hrun
  exact ⟨w, hrun, (settled_bills_stand hreach).1, hnone⟩

end Rch
