import Rch.Machine.Service
import Rch.Proofs.AccountSteps

/-!
# The ceiling holds whatever the tills do

From the moment a sale has its payer's credit lock, nothing that would raise
the payer's balance can commit: another sale and the voiding of a settlement
need the lock themselves. So what the sale read only ever overstates the
balance, and the room it found is still there when it commits. The sale
compares the plan's total unrounded and stores it rounded, which comes to the
same, since the balance is whole paise.

A void of a bill takes no credit lock. It lowers the balance of whoever the
bill was charged to, unless the bill came to less than nothing.
-/

namespace Rch

open Kit

/-! ## What a commit does to a balance -/

section Figures

variable {db : Db} (kind : PayerKind) (pid : String)

theorem chargedNow_addBill {no : String} (row : BillRow)
    (hfree : db.bills.get? no = none) :
    chargedNow (addBill no row db) kind pid =
      chargedNow db kind pid + if chargedTo kind pid row then row.total else 0 := by
  obtain ⟨t, ht⟩ := Table.insert?_of_free hfree row
  have hadd : addBill no row db = { db with bills := t } := by
    unfold addBill
    rw [ht, Option.getD_some]
  rw [hadd]
  exact Table.total_insert ht
    fun _ b => if chargedTo kind pid b then b.total else 0

theorem chargedNow_stamp {no : String} {row : BillRow} (stamp : VoidStamp)
    (hrow : db.bills.get? no = some row) :
    chargedNow (stampBillAt no stamp db) kind pid +
        (if chargedTo kind pid row then row.total else 0) =
      chargedNow db kind pid := by
  have htotal := Table.total_modify hrow
    (fun b => { b with voided := some stamp })
    fun _ b => if chargedTo kind pid b then b.total else 0
  refine htotal.trans ?_
  rw [if_neg (by simp [chargedTo]), add_zero]
  rfl

theorem settledNow_addSettlement {id : String} (row : SettlementRow)
    (hfree : db.settlements.get? id = none) :
    settledNow (addSettlement id row db) kind pid =
      settledNow db kind pid + if paidBy kind pid row then row.amount else 0 := by
  obtain ⟨t, ht⟩ := Table.insert?_of_free hfree row
  have hadd : addSettlement id row db = { db with settlements := t } := by
    unfold addSettlement
    rw [ht, Option.getD_some]
  rw [hadd]
  exact Table.total_insert ht
    fun _ s => if paidBy kind pid s then s.amount else 0

theorem settledNow_stamp {id : String} {row : SettlementRow} (stamp : VoidStamp)
    (hrow : db.settlements.get? id = some row) :
    settledNow (stampSettlementAt id stamp db) kind pid +
        (if paidBy kind pid row then row.amount else 0) =
      settledNow db kind pid := by
  have htotal := Table.total_modify hrow
    (fun s => { s with voided := some stamp })
    fun _ s => if paidBy kind pid s then s.amount else 0
  refine htotal.trans ?_
  rw [if_neg (by simp [paidBy]), add_zero]
  rfl

end Figures

/-- What a void commits takes back no less than nothing. -/
def TakesBack (db : Db) : AccountTx → Prop
  | .voidBill _ no _ _ => ∀ b, db.bills.get? no = some b → 0 ≤ b.total
  | _ => True

section Locked

variable {hashtext : String → ℤ} {db db' : Db} {t : AccountTx}
variable {held held' : List (Lock AccountKey)} {kind : PayerKind} {pid : String}

/-- Under a payer's credit lock nothing else is charged to them. -/
theorem AccountCommit.charged_le (h : AccountCommit hashtext db held t db')
    (hc : clash held held' = false) (hcredit : CreditHeld hashtext kind pid held')
    (hv : TakesBack db t) : chargedNow db' kind pid ≤ chargedNow db kind pid := by
  cases h with
  | sold s no at_ hs _ hfree =>
      refine (chargedNow_addBill kind pid _ hfree).trans_le ?_
      have hnot : ¬chargedTo kind pid (s.row at_) = true := by
        intro hto
        obtain ⟨-, ⟨p, hp, rfl, rfl⟩, -⟩ := chargedTo_iff.1 hto
        rw [clash_of_mem (hs p hp) hcredit rfl] at hc
        cases hc
      rw [if_neg hnot, add_zero]
  | recorded => exact le_refl _
  | settlementVoided => exact le_refl _
  | billVoided claims no reason row stamp _ hrow =>
      rw [← chargedNow_stamp kind pid stamp hrow]
      refine le_add_of_nonneg_right ?_
      split
      · exact hv row hrow
      · exact le_refl 0

/-- Nothing a payer settled is taken back under their credit lock. -/
theorem AccountCommit.settled_le (h : AccountCommit hashtext db held t db')
    (hc : clash held held' = false)
    (hcredit : CreditHeld hashtext kind pid held') :
    settledNow db kind pid ≤ settledNow db' kind pid := by
  cases h with
  | sold => exact le_refl _
  | recorded r id at_ lines _ _ _ hfree =>
      have hadvanced : (db.advance .settlement).settlements.get? id = none := hfree
      refine le_of_le_of_eq ?_
        (settledNow_addSettlement kind pid (r.row at_) hadvanced).symm
      refine le_add_of_nonneg_right ?_
      split
      · exact Decimal.round_nonneg r.body.positive.le
      · exact le_refl 0
  | settlementVoided claims id reason row stamp hs _ hrow =>
      rw [← settledNow_stamp kind pid stamp hrow]
      have hnot : ¬paidBy kind pid row = true := by
        intro hpaid
        simp only [paidBy, Bool.and_eq_true, decide_eq_true_eq] at hpaid
        obtain ⟨⟨rfl, rfl⟩, -⟩ := hpaid
        rw [clash_of_mem hs hcredit rfl] at hc
        cases hc
      rw [if_neg hnot, add_zero]
  | billVoided => exact le_refl _

end Locked

/-! ## What a sale knows of the balance -/

/-- The payer has room for the sale under the limit it read. -/
def Room (db : Db) (s : PricedSale) : Prop :=
  ∀ p ∈ s.payer, ∀ limit ∈ s.terms.limit,
    chargedNow db p.kind p.id - settledNow db p.kind p.id +
      Doubles.round2 (.ofRat s.plan.tot) ≤ limit

/-- The limit is one its column can hold, and the total rounds on the balance
as it does by itself. -/
def Weighs (db : Db) : AccountTx → Prop
  | .sale s (.charged charged) => ∀ p ∈ s.payer, ∀ limit ∈ s.terms.limit,
      |limit.units| < 10 ^ 12 ∧
        (outstandingOf charged (settledNow db p.kind p.id)).RoundsAlone
          (.ofRat s.plan.tot)
  | _ => True

def SaleRoom (db : Db) (s : PricedSale) : SaleAt → Prop
  | .charged charged => ∀ p ∈ s.payer, chargedNow db p.kind p.id ≤ charged
  | .cleared | .numbered .. | .billed .. => Room db s
  | .priced | .locked => True

def Roomy (db : Db) (t : AccountTx) : Prop :=
  match t with
  | .sale s p => SaleRoom db s p
  | _ => True

/-- The comparison is with the rounded balance and the unrounded total. -/
theorem room_of_cleared {db : Db} {s : PricedSale} {p : PayerRef}
    {charged : Money} (hp : s.payer = some p)
    (hle : chargedNow db p.kind p.id ≤ charged)
    (hw : Weighs db (.sale s (.charged charged)))
    (h : breachesCredit (outstandingOf charged (settledNow db p.kind p.id))
      s.plan.tot s.terms.limit = false) : Room db s := by
  intro q hq limit hlimit
  obtain ⟨hsmall, halone⟩ := hw q hq limit hlimit
  rw [hp] at hq
  cases hq
  rw [Option.mem_def] at hlimit
  rw [hlimit] at h
  have hheld := of_decide_eq_false h
  rw [Doubles.round2, Decimal.ofDouble_held_add (by decide) halone,
    ← Doubles.round2] at hheld
  have hfits : outstandingOf charged (settledNow db p.kind p.id) +
      Doubles.round2 (.ofRat s.plan.tot) ≤ limit := by
    refine not_lt.1 fun hover => hheld ?_
    exact Decimal.held_lt_held (by decide) (hsmall.trans (by norm_num)) hover
  refine le_trans ?_ hfits
  refine add_le_add_left ?_ _
  calc chargedNow db p.kind p.id - settledNow db p.kind p.id
      ≤ charged - settledNow db p.kind p.id := sub_le_sub_right hle _
    _ = round2 ((charged : ℚ) - settledNow db p.kind p.id) :=
        (round2_sub ..).symm
    _ ≤ outstandingOf charged (settledNow db p.kind p.id) := le_max_right ..

theorem Roomy.runs {hashtext : String → ℤ} {db : Db}
    {x : Tx Db AccountKey AccountTx} {at_ : Instant} {st : AccountStmt}
    (h : Roomy db x.at_) (hx : Shaped hashtext db x) (hw : Weighs db x.at_)
    (hs : x.at_.stmt hashtext at_ (x.write db) = some st) :
    Roomy db st.next := by
  obtain ⟨t, held, write⟩ := x
  cases t with
  | sale s p =>
      cases p with
      | priced =>
          simp only [AccountTx.stmt, saleStmt] at hs
          split at hs
          · next hp =>
              cases hs
              intro p hq
              rw [hp] at hq
              cases hq
          · cases hs
            exact trivial
      | locked =>
          obtain ⟨-, rfl⟩ := hx
          obtain ⟨p, hp, rfl⟩ := Option.map_eq_some_iff.1 hs
          intro q hq
          rw [hp] at hq
          cases hq
          exact le_refl _
      | charged charged =>
          obtain ⟨-, rfl⟩ := hx
          obtain ⟨p, hp, hs⟩ := Option.bind_eq_some_iff.1 hs
          dsimp only at hs
          split at hs
          · cases hs
          · next hfits =>
              cases hs
              exact room_of_cleared hp (h p hp) hw (Bool.not_eq_true _ ▸ hfits)
      | cleared =>
          cases hs
          exact h
      | numbered no at_ =>
          obtain ⟨_, -, rfl⟩ := Option.map_eq_some_iff.1 hs
          exact h
      | billed no at_ => cases hs
  | record r p =>
      obtain ⟨r', p', hnext⟩ := recordStmt_next hs
      rw [hnext]
      exact trivial
  | voidSettlement claims id reason p =>
      obtain ⟨p', hnext⟩ := voidSettlementStmt_next hs
      rw [hnext]
      exact trivial
  | voidBill claims no reason p =>
      obtain ⟨p', hnext⟩ := voidBillStmt_next hs
      rw [hnext]
      exact trivial

theorem Roomy.stable {hashtext : String → ℤ} {db db' : Db} {t : AccountTx}
    {held : List (Lock AccountKey)} {y : Tx Db AccountKey AccountTx}
    (hy : Roomy db y.at_) (hs : Shaped hashtext db y)
    (h : AccountCommit hashtext db held t db')
    (hc : clash held y.held = false) (hv : TakesBack db t) :
    Roomy db' y.at_ := by
  obtain ⟨u, held', write⟩ := y
  cases u with
  | sale s p =>
      have hroom (hcredit : ∀ q ∈ s.payer,
          CreditHeld hashtext q.kind q.id held') (hr : Room db s) :
          Room db' s := by
        intro q hq limit hlimit
        refine le_trans (add_le_add_left ?_ _) (hr q hq limit hlimit)
        exact sub_le_sub (h.charged_le hc (hcredit q hq) hv)
          (h.settled_le hc (hcredit q hq))
      cases p with
      | priced => exact trivial
      | locked => exact trivial
      | charged charged =>
          intro q hq
          exact (h.charged_le hc (hs.1 q hq) hv).trans (hy q hq)
      | cleared => exact hroom hs.1 hy
      | numbered no at_ => exact hroom hs.1 hy
      | billed no at_ => exact hroom hs.1 hy
  | record r p => exact trivial
  | voidSettlement claims id reason p => exact trivial
  | voidBill claims no reason p => exact trivial

/-! ## Over whole runs -/

/-- No sale is weighed next to a half of a paisa, and no void commits of a bill
that came to less than nothing. -/
def WeighsAlone (w : World Db AccountKey AccountTx) :
    TxEvent Instant AccountTx → Prop
  | .run i _ => ∀ x, w.tx i = some x → Weighs w.committed x.at_
  | .commit i => ∀ x, w.tx i = some x → TakesBack w.committed x.at_
  | _ => True

theorem roomy_kept (hashtext : String → ℤ) :
    (accounts hashtext).Kept WeighsAlone (fun _ => True)
      fun db x => Shaped hashtext db x ∧ Roomy db x.at_ where
  init _ _ := trivial
  begins db t _ ht := by
    refine ⟨shaped_begins ht, ?_⟩
    cases t with
    | sale s p => cases p <;> first | exact trivial | cases ht
    | _ => exact trivial
  runs _ _ x _ _ hC hx _ hok hs :=
    ⟨hok.1.runs hs, hok.2.runs hok.1 (hC x hx) hs⟩
  commits _ _ _ _ _ _ _ _ := trivial
  stable w i j x y hC _ hx _ _ hox hoy hd hc := by
    have hcommit := hox.1.commit hd
    exact ⟨hoy.1.stable hcommit hc,
      hoy.2.stable hoy.1 hcommit hc (hC x hx)⟩

/-- Whatever runs beside it, settlements, settlement voids and other sales to
the same payer or to anybody, and any void of a bill but one of less than
nothing: when a sale on account commits, what its payer owes, this bill
included, is within the limit the sale read, so long as no total is weighed
next to a half of a paisa. -/
theorem credit_ceiling_holds {hashtext : String → ℤ}
    {w w' : World Db AccountKey AccountTx} {i : ℕ}
    {x : Tx Db AccountKey AccountTx} {s : PricedSale} {no : String}
    {at_ : Instant} {p : PayerRef} {limit : Money}
    (h : (accounts hashtext).machine.ReachVia WeighsAlone w)
    (hx : w.tx i = some x) (hat : x.at_ = .sale s (.billed no at_))
    (hp : s.payer = some p) (ht : s.input.tender ∈ accountTenders)
    (hlimit : s.terms.limit = some limit)
    (hcommit : (accounts hashtext).step w (.commit i) = some w') :
    w'.committed.bills.get? no = some (s.row at_) ∧
      chargedTo p.kind p.id (s.row at_) = true ∧
      (outstandingFor w'.committed p.kind p.id).charged -
        (outstandingFor w'.committed p.kind p.id).settled ≤ limit := by
  obtain ⟨t, held, write⟩ := x
  cases hat
  obtain ⟨hshaped, hroom⟩ := ((roomy_kept hashtext).safe h).ok i _ hx
  obtain ⟨-, -, hfree, rfl⟩ := hshaped
  obtain ⟨x, hx', -, rfl⟩ := Database.step_commit hcommit
  obtain rfl := Option.some.inj (hx.symm.trans hx')
  have hcharged : chargedTo p.kind p.id (s.row at_) = true :=
    chargedTo_iff.2 ⟨ht, ⟨p, hp, rfl, rfl⟩, rfl⟩
  refine ⟨?_, hcharged, ?_⟩
  · exact (get?_addBill _ hfree no).trans (if_pos rfl)
  · have hadvanced : (w.committed.advance .bill).bills.get? no = none := hfree
    have hadd := chargedNow_addBill p.kind p.id (s.row at_) hadvanced
    rw [if_pos hcharged] at hadd
    have hle := hroom p hp limit hlimit
    calc chargedNow (addBill no (s.row at_) (w.committed.advance .bill))
          p.kind p.id - settledNow w.committed p.kind p.id
        = chargedNow w.committed p.kind p.id +
            Doubles.round2 (.ofRat s.plan.tot)
            - settledNow w.committed p.kind p.id := by rw [hadd]; rfl
      _ = chargedNow w.committed p.kind p.id
            - settledNow w.committed p.kind p.id +
            Doubles.round2 (.ofRat s.plan.tot) := add_sub_right_comm ..
      _ ≤ limit := hle

/-- A bill on the account of a member of staff with a ceiling of 3,000. -/
def onAccount (tot : ℚ) : PricedSale where
  input :=
    { loc := "cafe", operatorId := "u2", lines := [], tender := .staffCredit
      payer := some ⟨.staff, "RC-1902", "Vinoth Prakash · Kitchen"⟩
      customerName := none, customerPhone := none, source := .till
      qrOrderId := none }
  plan := { lines := [], tot := tot, disc := 0, tax := 0, moves := [] }
  terms := ⟨Pct.zero, some STAFF_CREDIT_LIMIT⟩
  payer := some ⟨.staff, "RC-1902", "Vinoth Prakash · Kitchen"⟩
  phone := none
  session := "s1"

/-- Two tills sell to them at once, and the second waits for the first. -/
def twoTills (first second : ℚ) : List (TxEvent Instant AccountTx) :=
  [.begin_ (.sale (onAccount first) .priced),
   .begin_ (.sale (onAccount second) .priced),
   .run 0 0, .run 0 0, .run 0 0, .run 0 0, .run 0 0, .commit 0,
   .run 1 0, .run 1 0, .run 1 0, .run 1 0, .run 1 0]

/-- The check behind the condition, for a run that voids no bill. -/
def weighsAlone (w : World Db AccountKey AccountTx) :
    TxEvent Instant AccountTx → Bool
  | .run i _ => (w.tx i).all fun x =>
    match x.at_ with
    | .sale s (.charged charged) => s.payer.all fun p =>
      s.terms.limit.all fun limit => decide (|limit.units| < 10 ^ 12) &&
        decide ((outstandingOf charged
          (settledNow w.committed p.kind p.id)).RoundsAlone (.ofRat s.plan.tot))
    | _ => true
  | .commit i => (w.tx i).all fun x =>
    match x.at_ with
    | .voidBill .. => false
    | _ => true
  | _ => true

theorem weighsAlone_sound (w : World Db AccountKey AccountTx)
    (e : TxEvent Instant AccountTx) (h : weighsAlone w e = true) :
    WeighsAlone w e := by
  cases e with
  | run i c =>
      intro x hx
      simp only [weighsAlone, hx, Option.all_some] at h
      unfold Weighs
      split
      · next s charged hat =>
          intro p hp limit hlimit
          rw [Option.mem_def] at hp hlimit
          simp only [hat, hp, hlimit, Option.all_some, Bool.and_eq_true,
            decide_eq_true_eq] at h
          exact h
      · exact trivial
  | commit i =>
      intro x hx
      simp only [weighsAlone, hx, Option.all_some] at h
      cases hat : x.at_ with
      | voidBill => simp [hat] at h
      | _ => exact trivial
  | _ => exact trivial

def secondBilled (w : World Db AccountKey AccountTx) : Bool :=
  (w.tx 1).any fun x =>
    match x.at_ with
    | .sale s (.billed ..) => decide (s.payer = (onAccount 0).payer) &&
        decide (s.input.tender = .staffCredit) &&
        decide (s.terms.limit = some STAFF_CREDIT_LIMIT)
    | _ => false

theorem credit_ceiling_holds_tills : ∃ w w',
    (accounts fun _ => 0).machine.runVia weighsAlone ⟨Db.fresh corner, []⟩
        (twoTills 1500 1500) = some w ∧
      (accounts fun _ => 0).step w (.commit 1) = some w' ∧
      (outstandingFor w'.committed .staff "RC-1902").charged -
        (outstandingFor w'.committed .staff "RC-1902").settled ≤
          STAFF_CREDIT_LIMIT := by
  have hany : ((accounts fun _ => 0).machine.runVia weighsAlone
      ⟨Db.fresh corner, []⟩ (twoTills 1500 1500)).any (fun w => secondBilled w &&
        ((accounts fun _ => 0).step w (.commit 1)).isSome) = true := by
    decide +kernel
  obtain ⟨w, hrun, hw⟩ := (Option.any_eq_true _ _).1 hany
  rw [Bool.and_eq_true] at hw
  obtain ⟨x, hx, hbilled⟩ := (Option.any_eq_true _ _).1 hw.1
  obtain ⟨w', hw'⟩ := Option.isSome_iff_exists.1 hw.2
  have hinit : (accounts fun _ => 0).machine.ReachVia WeighsAlone
      ⟨Db.fresh corner, []⟩ := .init ⟨⟨corner, rfl⟩, rfl⟩
  have hreach := Machine.reachVia_runVia weighsAlone_sound hinit hrun
  split at hbilled
  · next s no at_ hat =>
      simp only [Bool.and_eq_true, decide_eq_true_eq] at hbilled
      obtain ⟨⟨hp, ht⟩, hlimit⟩ := hbilled
      exact ⟨w, w', hrun, hw', (credit_ceiling_holds hreach hx hat hp
        (by rw [ht]; decide) hlimit hw').2.2⟩
  · cases hbilled

/-- What the second till sold for 6.825 is weighed on 2,993.18 as 3,000.00 and
stored as 6.83. -/
theorem a_paisa_over : ∃ w w' x s no at_,
    (accounts fun _ => 0).machine.Reach w ∧ w.tx 1 = some x ∧
      x.at_ = .sale s (.billed no at_) ∧
      s.payer = some ⟨.staff, "RC-1902", "Vinoth Prakash · Kitchen"⟩ ∧
      s.input.tender ∈ accountTenders ∧
      s.terms.limit = some STAFF_CREDIT_LIMIT ∧
      (accounts fun _ => 0).step w (.commit 1) = some w' ∧
      (outstandingFor w'.committed .staff "RC-1902").charged -
        (outstandingFor w'.committed .staff "RC-1902").settled =
          STAFF_CREDIT_LIMIT + ⟨1⟩ := by
  have hany : ((accounts fun _ => 0).machine.run ⟨Db.fresh corner, []⟩
      (twoTills (299318 / 100) (6825 / 1000))).any (fun w => secondBilled w &&
        ((accounts fun _ => 0).step w (.commit 1)).any fun w' =>
          decide ((outstandingFor w'.committed .staff "RC-1902").charged -
            (outstandingFor w'.committed .staff "RC-1902").settled =
              STAFF_CREDIT_LIMIT + ⟨1⟩)) = true := by
    decide +kernel
  obtain ⟨w, hrun, hw⟩ := (Option.any_eq_true _ _).1 hany
  rw [Bool.and_eq_true] at hw
  obtain ⟨x, hx, hbilled⟩ := (Option.any_eq_true _ _).1 hw.1
  obtain ⟨w', hw', howed⟩ := (Option.any_eq_true _ _).1 hw.2
  have hreach := Machine.reach_run (m := (accounts fun _ => 0).machine)
    (.init ⟨⟨corner, rfl⟩, rfl⟩) hrun
  split at hbilled
  · next s no at_ hat =>
      simp only [Bool.and_eq_true, decide_eq_true_eq] at hbilled
      obtain ⟨⟨hp, ht⟩, hlimit⟩ := hbilled
      exact ⟨w, w', x, s, no, at_, hreach, hx, hat, hp, by rw [ht]; decide,
        hlimit, hw', of_decide_eq_true howed⟩
  · cases hbilled

end Rch
