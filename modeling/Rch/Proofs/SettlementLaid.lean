import Rch.Domain.Credit

/-!
# A settlement over the open bills

The walk closes bills whole while the money lasts, and stops inside one. So
the lines are a stretch of the bills, oldest first, each for what its bill
owes, and one last line for what was left by then; something is left over only
where that last line closed the last bill.
-/

namespace Rch

open Kit

def OpenBill.whole (b : OpenBill) : SettlementLine := ⟨b.no, b.owed⟩

/-- Bills closed one after another, and the one the money stopped in. -/
structure LaidOver (bills : List OpenBill) (lines : List SettlementLine)
    (left : Money) : Prop where
  nonneg : 0 ≤ left
  split : (bills = [] ∧ lines = []) ∨
    ∃ closed last rest put, bills = closed ++ last :: rest ∧
      0 < put ∧ put ≤ last.owed ∧
      lines = closed.map OpenBill.whole ++ [⟨last.no, put⟩] ∧
      (0 < left → rest = [] ∧ put = last.owed)

theorem layOver_zero (bills : List OpenBill) : layOver bills 0 = ([], 0) := by
  cases bills with
  | nil => rfl
  | cons b bills => exact if_pos (le_refl _)

theorem layOver_laid {bills : List OpenBill} (hb : ∀ b ∈ bills, 0 < b.owed)
    {amount : Money} (h₀ : 0 < amount) :
    LaidOver bills (layOver bills amount).1 (layOver bills amount).2 := by
  induction bills generalizing amount with
  | nil => exact ⟨h₀.le, .inl ⟨rfl, rfl⟩⟩
  | cons b bills ih =>
      rw [List.forall_mem_cons] at hb
      unfold layOver
      rw [if_neg (not_le.2 h₀), if_neg (not_le.2 hb.1)]
      dsimp only
      rcases le_or_gt amount b.owed with hle | hgt
      · -- the money stops in this bill
        rw [min_eq_right hle, sub_self, layOver_zero]
        refine ⟨le_refl _, .inr ⟨[], b, bills, amount, rfl, h₀, hle, rfl, ?_⟩⟩
        intro h
        exact absurd h (lt_irrefl _)
      · rw [min_eq_left hgt.le]
        have hrest := ih hb.2 (sub_pos.2 hgt)
        refine ⟨hrest.nonneg, .inr ?_⟩
        rcases hrest.split with ⟨rfl, hlines⟩ |
          ⟨closed, last, rest, put, rfl, hput, hle, hlines, hleft⟩
        · -- it was the last bill
          refine ⟨[], b, [], b.owed, rfl, hb.1, le_refl _, ?_, ?_⟩
          · rw [hlines]
            rfl
          · intro _
            exact ⟨rfl, rfl⟩
        · refine ⟨b :: closed, last, rest, put, rfl, hput, hle, ?_, hleft⟩
          rw [hlines]
          rfl

/-- The numbers the lines name are those of a stretch of the bills. -/
theorem LaidOver.names {bills : List OpenBill} {lines : List SettlementLine}
    {left : Money} (h : LaidOver bills lines left) :
    (lines.map SettlementLine.no).Sublist (bills.map OpenBill.no) := by
  rcases h.split with ⟨rfl, rfl⟩ | ⟨closed, last, rest, put, rfl, -, -, rfl, -⟩
  · exact .refl _
  · rw [List.map_append, List.map_append, List.map_map]
    apply List.Sublist.append (.refl _)
    exact (List.nil_sublist _).cons_cons _

/-- Oldest first, bills of one instant in the order they were given. -/
structure OldestFirst (bills sorted : List OpenBill) : Prop where
  perm : sorted.Perm bills
  ascending : sorted.Pairwise fun a c => a.at_ ≤ c.at_
  ties : ∀ t, (sorted.filter fun b => decide (b.at_ = t)) =
    bills.filter fun b => decide (b.at_ = t)

theorem oldestFirst_mergeSort (bills : List OpenBill) :
    OldestFirst bills
      (bills.mergeSort fun a c => decide (a.at_ ≤ c.at_)) := by
  have htrans : ∀ a b c : OpenBill, decide (a.at_ ≤ b.at_) = true →
      decide (b.at_ ≤ c.at_) = true → decide (a.at_ ≤ c.at_) = true := by
    intro a b c hab hbc
    exact decide_eq_true ((of_decide_eq_true hab).trans (of_decide_eq_true hbc))
  have htotal : ∀ a b : OpenBill,
      (decide (a.at_ ≤ b.at_) || decide (b.at_ ≤ a.at_)) = true := by
    intro a b
    simp only [Bool.or_eq_true, decide_eq_true_eq]
    exact le_total a.at_ b.at_
  have hperm := List.mergeSort_perm bills fun a c => decide (a.at_ ≤ c.at_)
  refine ⟨hperm, ?_, ?_⟩
  · exact (List.pairwise_mergeSort htrans htotal bills).imp of_decide_eq_true
  · intro t
    -- the bills of one instant are in order already, so the sort keeps them
    have hsame : (bills.filter fun b => decide (b.at_ = t)).Pairwise
        fun a c => decide (a.at_ ≤ c.at_) := by
      apply List.pairwise_of_forall_mem_list
      intro a ha c hc
      have hat := of_decide_eq_true (List.mem_filter.1 ha).2
      have hct := of_decide_eq_true (List.mem_filter.1 hc).2
      exact decide_eq_true (hat.trans hct.symm).le
    have hsub := (List.sublist_mergeSort htrans htotal hsame
      List.filter_sublist).filter fun b => decide (b.at_ = t)
    rw [List.filter_filter] at hsub
    simp only [Bool.and_self] at hsub
    exact (hsub.eq_of_length (hperm.filter _).length_eq.symm).symm

/-- A payment is laid over the open bills oldest first, exactly: nothing is
lost, each line is for a bill of its own and within it, every bill before the
last one touched is closed, none after it is touched, and money is left over
only when all are closed. -/
theorem settlement_laid {bills : List OpenBill}
    (hb : ∀ b ∈ bills, 0 < b.owed) {amount : Money} (h₀ : 0 < amount) :
    ((allocateSettlement bills amount).1.map SettlementLine.amount).sum +
        (allocateSettlement bills amount).2 = amount ∧
      (∃ sorted, OldestFirst bills sorted ∧
        LaidOver sorted (allocateSettlement bills amount).1
          (allocateSettlement bills amount).2) ∧
      ((bills.map OpenBill.no).Nodup →
        ((allocateSettlement bills amount).1.map
          SettlementLine.no).Nodup) := by
  have hsorted := oldestFirst_mergeSort bills
  have hlaid : LaidOver
      (bills.mergeSort fun a c => decide (a.at_ ≤ c.at_))
      (allocateSettlement bills amount).1
      (allocateSettlement bills amount).2 := by
    refine layOver_laid ?_ h₀
    intro b hmem
    exact hb b (hsorted.perm.mem_iff.1 hmem)
  refine ⟨allocateSettlement_sum bills amount, ⟨_, hsorted, hlaid⟩, ?_⟩
  intro hnodup
  exact hlaid.names.nodup ((hsorted.perm.map OpenBill.no).nodup_iff.2 hnodup)

/-- Twelve rupees over bills of ten and five: the older is closed, the newer
has two rupees on it, and nothing is left. -/
theorem settlement_laid_two_bills :
    let bills : List OpenBill :=
      [⟨"CF/1201", 2000, ⟨500⟩⟩, ⟨"CF/1188", 1000, ⟨1000⟩⟩]
    ((allocateSettlement bills ⟨1200⟩).1.map SettlementLine.no).Nodup ∧
      ((allocateSettlement bills ⟨1200⟩).1.map SettlementLine.amount).sum +
        (allocateSettlement bills ⟨1200⟩).2 = ⟨1200⟩ := by
  intro bills
  have h := @settlement_laid bills (by decide) ⟨1200⟩ (by decide)
  exact ⟨h.2.2 (by decide), h.1⟩

end Rch
