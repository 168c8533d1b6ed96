import Rch.Domain.Billing
import Rch.Domain.Ids
import Rch.Domain.Party
import Rch.Kit.Keyed

/-!
# Ceilings, balances and the laying of a payment

A ceiling is on what is unsettled, and no ceiling is not a ceiling of zero. A
payment is laid over the open bills oldest first, each line rounded to the
paisa and the remainder carried, so the lines add back up to what was laid.
-/

namespace Rch

open Kit

/-- What one party is charged, and how much of it may be owed at once. -/
structure ResolvedTerms where
  pct : Pct
  limit : Option Money

/-- A person's own exception: each half inherits where it says nothing. -/
structure PayerTerms where
  pct : Option Pct
  limit : Option Money

def STAFF_CREDIT_LIMIT : Money := ⟨300000⟩

/-- What a party is on when the rate card has lost its row. -/
def fallbackTerms : BillParty → ResolvedTerms
  | .staff => ⟨Pct.zero, some STAFF_CREDIT_LIMIT⟩
  | .customer | .doctor | .dept => ⟨Pct.zero, none⟩

/-- Whether a bill would take a party past its ceiling. The total is not
rounded before it is added, and a half of a paisa may go either way in the
sum. -/
def breachesCredit (outstanding : Money) (total : ℚ) (limit : Option Money) :
    Bool :=
  match limit with
  | none => false
  | some limit => decide (limit.held <
      (Doubles.round2 (outstanding.held + .ofRat total)).held)

def creditBreachMessage (outstanding : Money) (total : ℚ) (payerName : String)
    (limit : Money) : String :=
  inr (round2 ((outstanding : ℚ) + total)) ++ " breaches the " ++ inr0 limit
    ++ " credit limit for " ++ payerName
    ++ ". Settle the account, take another tender, or split the bill."

/-! ## Laying a payment -/

/-- One bill a party still owes something on. -/
structure OpenBill where
  no : String
  at_ : Instant
  owed : Money
deriving DecidableEq

structure SettlementLine where
  no : String
  amount : Money
deriving DecidableEq

/-- Lay what is left over the bills in order, stopping when it runs out. -/
def layOver : List OpenBill → Money → List SettlementLine × Money
  | [], left => ([], left)
  | b :: rest, left =>
    if left ≤ 0 then ([], left)
    else if b.owed ≤ 0 then layOver rest left
    else
      let put := min b.owed left
      let (lines, left') := layOver rest (left - put)
      (⟨b.no, put⟩ :: lines, left')

/-- Walk the open bills oldest first and lay `amount` over them. The sort is
stable, so two bills of one instant keep the order they came in. -/
def allocateSettlement (bills : List OpenBill) (amount : Money) :
    List SettlementLine × Money :=
  layOver (bills.mergeSort fun a c => decide (a.at_ ≤ c.at_)) amount

/-! ## What a laying adds up to -/

theorem layOver_sum (bills : List OpenBill) (left : Money) :
    ((layOver bills left).1.map SettlementLine.amount).sum +
      (layOver bills left).2 = left := by
  induction bills generalizing left with
  | nil => exact zero_add left
  | cons b bills ih =>
      unfold layOver
      split
      · exact zero_add left
      · split
        · exact ih left
        · rw [List.map_cons, List.sum_cons, add_assoc, ih]
          exact add_sub_cancel _ _

theorem layOver_left {bills : List OpenBill} {left : Money} (h₀ : 0 ≤ left)
    (hb : ∀ b ∈ bills, 0 ≤ b.owed)
    (h : left ≤ (bills.map OpenBill.owed).sum) :
    (layOver bills left).2 = 0 := by
  induction bills generalizing left with
  | nil => exact le_antisymm h h₀
  | cons b bills ih =>
      rw [List.forall_mem_cons] at hb
      rw [List.map_cons, List.sum_cons] at h
      have hrest : 0 ≤ (bills.map OpenBill.owed).sum := by
        apply List.sum_nonneg
        intro x hx
        obtain ⟨c, hc, rfl⟩ := List.mem_map.1 hx
        exact hb.2 c hc
      unfold layOver
      split
      · next hle => exact le_antisymm hle h₀
      · split
        · next howed =>
            refine ih h₀ hb.2 ?_
            rwa [le_antisymm howed hb.1, zero_add] at h
        · refine ih (sub_nonneg.2 (min_le_right ..)) hb.2 ?_
          rcases min_choice b.owed left with hmin | hmin
          · rw [hmin]
            exact sub_le_iff_le_add'.2 h
          · rw [hmin, sub_self]
            exact hrest

theorem mem_layOver {bills : List OpenBill} {left : Money}
    {l : SettlementLine} (h : l ∈ (layOver bills left).1) :
    0 < l.amount ∧ ∃ b ∈ bills, b.no = l.no := by
  induction bills generalizing left with
  | nil => cases h
  | cons b bills ih =>
      have hrest {left : Money} (h : l ∈ (layOver bills left).1) :
          0 < l.amount ∧ ∃ c ∈ b :: bills, c.no = l.no := by
        obtain ⟨hpos, c, hc, hno⟩ := ih h
        exact ⟨hpos, c, List.mem_cons_of_mem _ hc, hno⟩
      unfold layOver at h
      split at h
      · cases h
      · next hleft =>
          split at h
          · exact hrest h
          · next howed =>
              rcases List.mem_cons.1 h with rfl | h
              · exact ⟨lt_min (not_le.1 howed) (not_le.1 hleft), b,
                  List.mem_cons_self, rfl⟩
              · exact hrest h

/-- No bill has more laid on it than it owes. -/
theorem layOver_le {bills : List OpenBill} (hb : ∀ b ∈ bills, 0 ≤ b.owed)
    (left : Money) (no : String) :
    sumOn (layOver bills left).1 SettlementLine.no no SettlementLine.amount ≤
      sumOn bills OpenBill.no no OpenBill.owed := by
  induction bills generalizing left with
  | nil => exact le_refl 0
  | cons b bills ih =>
      rw [List.forall_mem_cons] at hb
      have hhead : 0 ≤ if b.no = no then b.owed else 0 := by
        split
        · exact hb.1
        · exact le_refl 0
      have hrest : 0 ≤ sumOn bills OpenBill.no no OpenBill.owed :=
        sumOn_nonneg fun c hc _ => hb.2 c hc
      rw [sumOn_cons]
      unfold layOver
      split
      · exact add_nonneg hhead hrest
      · split
        · exact (ih hb.2 left).trans (le_add_of_nonneg_left hhead)
        · rw [sumOn_cons]
          refine add_le_add ?_ (ih hb.2 _)
          dsimp only
          split
          · exact min_le_left ..
          · exact le_refl 0

/-! ## The same, whatever order the bills came in -/

section Allocation

variable {bills : List OpenBill} {amount : Money}

theorem allocateSettlement_sum (bills : List OpenBill) (amount : Money) :
    ((allocateSettlement bills amount).1.map SettlementLine.amount).sum +
      (allocateSettlement bills amount).2 = amount := layOver_sum _ amount

theorem allocateSettlement_left (h₀ : 0 ≤ amount)
    (hb : ∀ b ∈ bills, 0 ≤ b.owed)
    (h : amount ≤ (bills.map OpenBill.owed).sum) :
    (allocateSettlement bills amount).2 = 0 := by
  apply layOver_left h₀
  · intro b hmem
    exact hb b (List.mem_mergeSort.1 hmem)
  · rw [((List.mergeSort_perm ..).map OpenBill.owed).sum_eq]
    exact h

theorem mem_allocateSettlement {l : SettlementLine}
    (h : l ∈ (allocateSettlement bills amount).1) :
    0 < l.amount ∧ ∃ b ∈ bills, b.no = l.no := by
  obtain ⟨hpos, b, hb, hno⟩ := mem_layOver h
  exact ⟨hpos, b, List.mem_mergeSort.1 hb, hno⟩

theorem allocateSettlement_le (hb : ∀ b ∈ bills, 0 ≤ b.owed)
    (amount : Money) (no : String) :
    sumOn (allocateSettlement bills amount).1 SettlementLine.no no
        SettlementLine.amount ≤
      sumOn bills OpenBill.no no OpenBill.owed := by
  refine (layOver_le (fun b hmem => hb b (List.mem_mergeSort.1 hmem)) ..).trans
    (le_of_eq ?_)
  exact sumOn_perm (List.mergeSort_perm ..) ..

end Allocation

def settlementOverpayMessage (amount outstanding : Money) (payerName : String) :
    String :=
  "Refused - " ++ inr amount ++ " is more than the " ++ inr outstanding ++ " "
    ++ payerName ++ " still owes"

def nothingOwedMessage (payerName : String) : String :=
  "Refused - " ++ payerName ++ " owes nothing"

end Rch
