import Rch.Proofs.ClaimsGiven
import Rch.Screen.Progress

/-!
# What arrived and what was given back

Filling a line's sources from the front with what landed, and emptying them
from the back by what did not, meet at the same source. So a short close leaves
on each requisition line exactly what the screen was already showing as
received there.
-/

namespace Rch

open Kit

/-- An order line as it stands until its order is closed: funded exactly, and
taken in no further than it was ordered. -/
structure ShortLine.Funded (l : ShortLine) : Prop where
  src : ∀ x ∈ l.src, 0 ≤ x.qty
  total : claimTotal l.src = l.qty
  nonneg : 0 ≤ netReceived l.recv l.rejected
  le_qty : netReceived l.recv l.rejected ≤ l.qty

section Line

variable {l : ShortLine}

theorem ShortLine.Funded.caps (h : l.Funded) :
    ∀ q ∈ l.src.map ClaimSrc.qty, 0 ≤ q := by
  intro q hq
  obtain ⟨x, hx, rfl⟩ := List.mem_map.1 hq
  exact h.src x hx

theorem ShortLine.Funded.net_le (h : l.Funded) :
    netReceived l.recv l.rejected ≤ (l.src.map ClaimSrc.qty).sum := by
  rw [show (l.src.map ClaimSrc.qty).sum = l.qty from h.total]
  exact h.le_qty

theorem ShortLine.Funded.got_eq (h : l.Funded) :
    l.got = pour (netReceived l.recv l.rejected) (l.src.map ClaimSrc.qty) :=
  apportion_eq h.nonneg

theorem ShortLine.Funded.shortfall_eq (h : l.Funded) :
    l.shortfall = l.qty - netReceived l.recv l.rejected :=
  max_eq_right (sub_nonneg.2 h.le_qty)

theorem ShortLine.Funded.meet (h : l.Funded) :
    List.zipWith (· + ·) l.got (givenBack l.src l.shortfall) =
      l.src.map ClaimSrc.qty := by
  have hmeet := pour_reverse h.caps h.nonneg h.net_le
  rw [show (l.src.map ClaimSrc.qty).sum = l.qty from h.total,
    ← List.map_reverse] at hmeet
  rw [h.got_eq, h.shortfall_eq]
  exact hmeet

theorem ShortLine.Funded.given (h : l.Funded) :
    givenBack l.src l.shortfall =
      List.zipWith (· - ·) (l.src.map ClaimSrc.qty) l.got := by
  rw [← h.meet]
  apply List.ext_getElem
  · simp [h.got_eq]
  · intro i h₁ h₂
    simp

/-- What a short close leaves of a line's claims is what they got. -/
theorem ShortLine.Funded.left_eq (h : l.Funded) :
    (releaseClaim l.src l.shortfall).2 = cutTo l.src l.got := by
  have hshort : 0 ≤ l.shortfall := le_max_left ..
  rw [releaseClaim_eq _ (Decimal.toRat_nonneg.2 hshort), round3_qty, h.given]
  dsimp only
  congr 1
  apply List.ext_getElem
  · simp [h.got_eq]
  · intro i h₁ h₂
    simp

theorem ShortLine.Funded.released_eq (h : l.Funded) :
    shortfallClaims [l] =
      (cutTo l.src (List.zipWith (· - ·) (l.src.map ClaimSrc.qty)
        l.got)).reverse := by
  have hshort : 0 ≤ l.shortfall := le_max_left ..
  rw [← h.given]
  unfold shortfallClaims
  rw [List.flatMap_cons, List.flatMap_nil, List.append_nil,
    releaseClaim_eq _ (Decimal.toRat_nonneg.2 hshort), round3_qty]

theorem ShortLine.Funded.bounds (h : l.Funded) {i : ℕ} {x : ClaimSrc} {s : Qty}
    (hx : l.src[i]? = some x) (hs : l.got[i]? = some s) :
    0 ≤ s ∧ s ≤ x.qty := by
  rw [h.got_eq] at hs
  refine pour_bounds h.nonneg h.caps (i := i) ?_ hs
  rw [List.getElem?_map, hx]
  rfl

theorem ShortLine.Funded.got_sum (h : l.Funded) :
    l.got.sum = netReceived l.recv l.rejected := by
  rw [h.got_eq]
  exact sum_pour_of_le h.caps h.nonneg h.net_le

/-- The screen's share of a requisition line, as what a short close leaves. -/
theorem ShortLine.Funded.gotBy_eq (h : l.Funded) (prq : String) (i : ℕ) :
    (l.gotBy fun x => decide (x.prq = prq ∧ x.line = i)) =
      claimed (releaseClaim l.src l.shortfall).2 (prq, i) := by
  have hgot : ∀ q ∈ l.got, 0 ≤ q := by
    intro q hq
    obtain ⟨j, hj⟩ := List.getElem?_of_mem hq
    have hlt : j < l.src.length := by
      have := (List.getElem?_eq_some_iff.1 hj).1
      rwa [h.got_eq, length_pour, List.length_map] at this
    exact (h.bounds (List.getElem?_eq_getElem hlt) hj).1
  rw [h.left_eq, claimed_cutTo (by simp [h.got_eq]) hgot]
  unfold ShortLine.gotBy sumOn
  congr 1
  apply List.map_congr_left
  intro x _
  simp [ClaimSrc.key]

end Line

/-- Share by share, what a line's claims got and what a short close gives back
are the claim; and the progress shown for a requisition line is what a short
close of every order still standing would leave on it. -/
theorem arrived_and_given_back :
    (∀ l : ShortLine, l.Funded →
      l.got.length = l.src.length ∧
      shortfallClaims [l] =
        (cutTo l.src (List.zipWith (· - ·) (l.src.map ClaimSrc.qty)
          l.got)).reverse ∧
      (∀ (i : ℕ) (x : ClaimSrc) (s : Qty), l.src[i]? = some x →
        l.got[i]? = some s → 0 ≤ s ∧ s ≤ x.qty) ∧
      l.got.sum = netReceived l.recv l.rejected) ∧
    ∀ (prq : List Requisition) (po : List PurchaseOrder) (prqId : String),
      (∀ o ∈ po, o.st ≠ .cancelled → ∀ l ∈ o.lines, l.Funded) →
      ∀ (i : ℕ) (shown : PrqProgressLine),
        (prqProgress prq po prqId).lines[i]? = some shown →
        shown.received =
          ((po.filter fun o => decide (o.st ≠ .cancelled)).map fun o =>
            (o.lines.map fun l =>
              claimed (releaseClaim l.src l.shortfall).2 (prqId, i)).sum).sum := by
  refine ⟨?_, ?_⟩
  · intro l h
    refine ⟨?_, h.released_eq, ?_, h.got_sum⟩
    · rw [h.got_eq, length_pour, List.length_map]
    · intro i x s hx hs
      exact h.bounds hx hs
  · intro prq po prqId hpo i shown hshown
    unfold prqProgress at hshown
    split at hshown
    · cases hshown
    · rw [List.getElem?_mapIdx] at hshown
      obtain ⟨r, -, rfl⟩ := Option.map_eq_some_iff.1 hshown
      dsimp only
      unfold gotBy
      congr 1
      apply List.map_congr_left
      intro o ho
      obtain ⟨ho, hst⟩ := List.mem_filter.1 ho
      congr 1
      apply List.map_congr_left
      intro l hl
      exact (hpo o ho (of_decide_eq_true hst) l hl).gotBy_eq prqId i

/-- A hundred and five ordered on two requisitions, sixty-two arrived and two
turned away: the first is filled, the second got thirty-five and gives back
forty-five. -/
theorem arrived_and_given_back_two_sources :
    let l : ShortLine := ⟨⟨105000⟩, ⟨62000⟩, ⟨2000⟩,
      [⟨"PRQ-2026-011", 0, ⟨25000⟩⟩, ⟨"PRQ-2026-012", 0, ⟨80000⟩⟩]⟩
    l.got = [⟨25000⟩, ⟨35000⟩] ∧
      shortfallClaims [l] = [⟨"PRQ-2026-012", 0, ⟨45000⟩⟩] := by
  intro l
  have hl : l.Funded := ⟨by decide, by decide, by decide +kernel,
    by decide +kernel⟩
  have hgot : l.got = [⟨25000⟩, ⟨35000⟩] := by decide +kernel
  have h := arrived_and_given_back.1 l hl
  refine ⟨hgot, ?_⟩
  rw [h.2.1, hgot]
  decide +kernel

end Rch
