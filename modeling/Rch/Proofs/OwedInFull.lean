import Rch.Proofs.Accounts

/-!
# What is owed bill by bill is what is owed in total

Two things part the two figures, and nothing else does. A settlement that
closed a bill and is voided leaves its lines behind: the bill-by-bill figure
goes on taking them off, and the bills stay closed. And an account bill of
less than nothing, which a rate near the whole price can round down to, is
taken off the total and owed on no bill.

Over the runs that do neither, every settlement's lines count on both sides.
-/

namespace Rch

open Kit

/-- The steps that keep both figures one: an account sale comes to no less
than nothing, and a voided settlement had closed no bill. -/
def KeepsAccounts (db : Db) : Op → Prop
  | .pay claims body _ _ => body.tender ∈ accountTenders →
      0 ≤ saleTotal db (body.input claims.sub)
  | .voidSettlement _ id _ _ => ∀ no, db.settlementLines.get? (id, no) = none
  | _ => True

theorem Sold.tender {db db' : Db} {i : SaleInput} {at_ : Instant}
    {no : String} {row : BillRow} (h : Sold db i at_ db' no row) :
    row.tender = i.tender := by
  obtain ⟨plan, terms, payer, phone, session, hrow⟩ := h.row_eq
  rw [hrow]
  rfl

theorem accountsKept_step {db db' : Db} {op : Op} (hi : AccountsKept db)
    (hk : KeepsAccounts db op) (h : op.run db = some db') :
    AccountsKept db' := by
  by_cases hp : .credit ∈ op.touches
  case neg => exact hi.same (op.frame h hp)
  cases op <;> simp only [Op.run, toOption_eq_some, Op.touches,
    List.mem_cons, List.not_mem_nil, or_false, reduceCtorEq] at h hp
  case pay =>
    obtain ⟨no, row, hs⟩ := pay_ok h
    refine hi.sold hs fun ht => ?_
    rw [hs.tender] at ht
    rw [hs.total]
    exact hk ht
  case voidBill =>
    obtain ⟨bill, stamp, -, -, hlive, hr⟩ := voidBill_ok h
    have hsame := hr.same .credit (by decide)
    refine AccountsKept.same ?_ hsame
    exact (hi.billVoided hlive).same ⟨rfl, rfl, rfl⟩
  case settleCapture =>
    obtain ⟨o, -, hs⟩ := settleCapture_ok h
    cases hs with
    | again _ => exact hi
    | refundedBefore _ _ _ => exact hi
    | duplicate _ _ _ _ => exact hi.same ⟨rfl, rfl, rfl⟩
    | unfulfillable _ _ _ _ => exact hi.same ⟨rfl, rfl, rfl⟩
    | billed _ _ _ hsold _ _ =>
        -- an online bill is charged to nobody
        have hkept := hi.sold hsold fun ht => by
          rw [hsold.tender] at ht
          exact absurd ht (by simp [saleOfOrder, accountTenders])
        exact hkept.same ⟨rfl, rfl, rfl⟩
  case recordSettlement => exact hi.recorded h
  case voidSettlement =>
    obtain ⟨row, stamp, -, -, rfl⟩ := voidSettlement_ok h
    exact hi.settlementVoided hk

theorem accountsKept_reach {db : Db}
    (h : server.ReachVia KeepsAccounts db) : AccountsKept db := by
  refine h.invariant ?_ fun db op db' _ hi hk hs => accountsKept_step hi hk hs
  rintro db ⟨rows, rfl⟩
  exact accountsKept_fresh rows

/-! ## A payment that fits -/

/-- No rule refuses a payment within what is owed: neither that nothing is
owed, nor that it is more than is owed, nor that the open bills did not take
it all. -/
theorem AccountsKept.fits {db : Db} (h : AccountsKept db) {claims : Claims}
    {body : RecordSettlementBody} {at_ : Instant} {r : Refusal}
    (hle : body.amount ≤ (outstandingFor db body.kind body.id).outstanding)
    (hr : recordSettlement db claims body at_ = .error r) :
    r.code ≠ .rule := by
  have hround : round2 body.amount ≤
      (outstandingFor db body.kind body.id).outstanding :=
    Decimal.round_le hle
  have hpos : 0 < (outstandingFor db body.kind body.id).outstanding :=
    Decimal.toRat_pos.1 (body.positive.trans_le hle)
  have hleft : (allocateSettlement (openBillList db body.kind body.id)
      (round2 body.amount)).2 = 0 := by
    apply allocateSettlement_left (Decimal.round_nonneg body.positive.le)
    · exact fun o ho => (mem_openBillList ho).1.le
    · unfold openBillList
      rw [List.map_map]
      exact hround.trans (h.agree body.kind body.id).ge
  simp only [recordSettlement, bind_error, orNotFound, assertRule, orInternal,
    someOr_error, guardOr_error, pure_error] at hr
  rcases hr with ⟨-, rfl⟩ | ⟨payer, -, hr⟩
  · intro hcode
    cases hcode
  rcases hr with ⟨hn, -⟩ | ⟨-, -, hr⟩
  · exact absurd hpos hn
  rcases hr with ⟨hn, -⟩ | ⟨-, -, hr⟩
  · exact absurd hround hn
  rcases hr with ⟨hn, -⟩ | ⟨-, -, hr⟩
  · exact absurd hleft hn
  -- what is left is the database refusing a number that is taken
  rcases hr with ⟨-, rfl⟩ | ⟨settlements, -, ⟨-, rfl⟩ | ⟨lines, -, ⟨⟩⟩⟩
  all_goals
    intro hcode
    cases hcode

/-! ## A settlement taken back -/

def owedOn (db : Db) (no : String) : Money :=
  ((db.bills.get? no).map fun b => (openBillOf db no b).owed).getD 0

/-- Every bill the settlement had covered is owed again by what it had
covered. -/
def Reopens (db db' : Db) (sid : String) : Prop :=
  ∀ no amount, db.settlementLines.get? (sid, no) = some amount →
    owedOn db' no = owedOn db no + amount

/-- A void moves no bill's figure: what it had covered stays covered. -/
theorem owedOn_voidSettlement {db db' : Db} {claims : Claims}
    {sid reason : String} {at_ : Instant}
    (h : voidSettlement db claims sid reason at_ = .ok db') (no : String) :
    owedOn db' no = owedOn db no := by
  obtain ⟨row, stamp, -, -, rfl⟩ := voidSettlement_ok h
  unfold owedOn
  simp only [openBillOf_owed]
  rfl

/-- So the bills come back exactly where there were none. -/
theorem AccountsKept.reopens_iff {db db' : Db} (h : AccountsKept db)
    {claims : Claims} {sid reason : String} {at_ : Instant}
    (hv : voidSettlement db claims sid reason at_ = .ok db') :
    Reopens db db' sid ↔ ∀ no, db.settlementLines.get? (sid, no) = none := by
  constructor
  · intro hre no
    cases hl : db.settlementLines.get? (sid, no) with
    | none => rfl
    | some amount =>
        have hsame := hre no amount hl
        rw [owedOn_voidSettlement hv, left_eq_add] at hsame
        exact absurd hsame (h.lines _ _ hl).1.ne'
  · intro hno no amount hl
    rw [hno] at hl
    cases hl

/-! ## The result -/

/-- Over every run that voids no settlement that closed a bill, and whose
account sales come to no less than nothing: both figures are one for every
payer, no rule refuses a payment within it, and a void gives back what was
covered exactly where the run may take it. -/
theorem owed_in_full {db : Db} (h : server.ReachVia KeepsAccounts db) :
    (∀ kind id, ((openBillsFor db kind id).map OpenBillRow.owed).sum =
      (outstandingFor db kind id).outstanding) ∧
    (∀ claims (body : RecordSettlementBody) at_ r,
      body.amount ≤ (outstandingFor db body.kind body.id).outstanding →
      recordSettlement db claims body at_ = .error r → r.code ≠ .rule) ∧
    ∀ claims sid reason at_ db',
      voidSettlement db claims sid reason at_ = .ok db' →
        (Reopens db db' sid ↔
          KeepsAccounts db (.voidSettlement claims sid reason at_)) := by
  have hkept := accountsKept_reach h
  exact ⟨hkept.agree, fun _ _ _ _ hle hr => hkept.fits hle hr,
    fun _ _ _ _ _ hv => hkept.reopens_iff hv⟩

def milkOnAccount : PayBody where
  loc := "cafe"
  tender := .doctorCredit
  payer := some ⟨.doctor, "DR-001", "Consultant"⟩
  lines := [⟨"milk", 4⟩]
  customerName := none
  customerPhone := none
  till := by decide
  positive := by decide

/-- Two hundred rupees' worth of milk, and `amount` of it handed over. -/
def accountRun (amount : ℚ) (h₀ : 0 < amount) (h₁ : amount ≤ 10000000) :
    List Op :=
  [.createAdjustment ⟨"u1", STORE, true⟩ ⟨"cafe", .count, "", [⟨"milk", 5⟩]⟩ 0,
   .pay ⟨"u2", "cafe", false⟩ milkOnAccount (some "s1") 0,
   .recordSettlement ⟨"u1", STORE, true⟩
    ⟨.doctor, "DR-001", amount, .cash, "", h₀, h₁⟩ 0]

/-- The check behind the condition, for a run that voids no settlement. -/
def keepsAccounts (db : Db) : Op → Bool
  | .pay claims body _ _ => decide (0 ≤ saleTotal db (body.input claims.sub))
  | .voidSettlement .. => false
  | _ => true

theorem keepsAccounts_sound (db : Db) (op : Op)
    (h : keepsAccounts db op = true) : KeepsAccounts db op := by
  unfold KeepsAccounts
  split
  · exact fun _ => of_decide_eq_true h
  · cases h
  · exact trivial

theorem owed_in_full_milk : ∃ db,
    server.runVia keepsAccounts (Db.fresh corner)
        (accountRun 150 (by decide) (by decide)) = some db ∧
      ((openBillsFor db .doctor "DR-001").map OpenBillRow.owed).sum =
        (outstandingFor db .doctor "DR-001").outstanding ∧
      (outstandingFor db .doctor "DR-001").outstanding = ⟨5000⟩ := by
  have hany : (server.runVia keepsAccounts (Db.fresh corner)
      (accountRun 150 (by decide) (by decide))).any (fun db => decide
        ((outstandingFor db .doctor "DR-001").outstanding = ⟨5000⟩)) = true := by
    decide +kernel
  obtain ⟨db, hrun, hd⟩ := (Option.any_eq_true _ _).1 hany
  have hreach : server.ReachVia KeepsAccounts db :=
    Machine.reachVia_runVia keepsAccounts_sound (.init ⟨corner, rfl⟩) hrun
  exact ⟨db, hrun, (owed_in_full hreach).1 _ _, of_decide_eq_true hd⟩

/-- A settlement in full, taken back the same day: everything is owed in
total, and no bill is open to owe it. -/
theorem voided_settlement_parts : ∃ db,
    server.run (Db.fresh corner) (accountRun 200 (by decide) (by decide) ++
      [.voidSettlement ⟨"u1", STORE, true⟩ "STL-1970-0001" "not theirs" 0]) =
        some db ∧ server.Reach db ∧
      ((openBillsFor db .doctor "DR-001").map OpenBillRow.owed).sum ≠
        (outstandingFor db .doctor "DR-001").outstanding := by
  have hany : (server.run (Db.fresh corner)
      (accountRun 200 (by decide) (by decide) ++
        [.voidSettlement ⟨"u1", STORE, true⟩ "STL-1970-0001" "not theirs" 0])
      ).any (fun db => decide
        (((openBillsFor db .doctor "DR-001").map OpenBillRow.owed).sum ≠
          (outstandingFor db .doctor "DR-001").outstanding)) = true := by
    decide +kernel
  obtain ⟨db, hrun, hd⟩ := (Option.any_eq_true _ _).1 hany
  exact ⟨db, hrun, Machine.reach_run (.init ⟨corner, rfl⟩) hrun,
    of_decide_eq_true hd⟩

end Rch
