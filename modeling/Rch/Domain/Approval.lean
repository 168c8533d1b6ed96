import Rch.Domain.Master

/-!
# What a manager may promise

An approval gives each line the least of what was asked, what was typed and
what is still free. The status it reaches is read off the lines it wrote, and
a cancelled ticket reads it off them again.
-/

namespace Rch

open Kit

/-- One line of a stock request: asked, approved, and what was cut. -/
structure RequestLine where
  it : ItemKey
  qty : Qty
  appr : Qty
  short : Option Qty
deriving DecidableEq

/-- Which approved status a set of decided lines amounts to. -/
def approvedStatus (lines : List RequestLine) : ReqStatus :=
  if lines.all fun l => decide (l.appr = l.qty) then .managerApproved
  else .partiallyApproved

structure ApprovalPlan where
  lines : List RequestLine
  st : ReqStatus
  trimmed : Bool

/-- What the manager may actually promise: never more than was asked, than
was typed, or than is still free. `appr` is read position by position, a
missing one as zero. -/
def planApproval (lines : List RequestLine) (appr : List ℚ)
    (freeFor : ItemKey → Qty) : ApprovalPlan :=
  let asked := fun i => (appr[i]?).getD 0
  let out := lines.mapIdx fun i l =>
    let ok := max 0 (round3 (min (min (l.qty : ℚ) (asked i)) (freeFor l.it)))
    { it := l.it, qty := l.qty, appr := ok,
      short := some (l.qty - ok) : RequestLine }
  let total := (out.map RequestLine.appr).sum
  let st := if total = 0 then .rejected else approvedStatus out
  let trimmed := (out.mapIdx fun i l =>
    decide ((l.appr : ℚ) < min (l.qty : ℚ) (asked i))).any id
  ⟨out, st, trimmed⟩

theorem approvedStatus_cases (lines : List RequestLine) :
    approvedStatus lines = .managerApproved ∨
      approvedStatus lines = .partiallyApproved := by
  unfold approvedStatus
  split
  · exact .inl rfl
  · exact .inr rfl

/-- A decision reaches one of three statuses, never a ticket. -/
theorem planApproval_st_cases (lines : List RequestLine) (appr : List ℚ)
    (freeFor : ItemKey → Qty) :
    (planApproval lines appr freeFor).st = .rejected ∨
      (planApproval lines appr freeFor).st = .managerApproved ∨
      (planApproval lines appr freeFor).st = .partiallyApproved := by
  unfold planApproval
  dsimp only
  split
  · exact .inl rfl
  · exact .inr (approvedStatus_cases _)

theorem planApproval_items (lines : List RequestLine) (appr : List ℚ)
    (freeFor : ItemKey → Qty) :
    (planApproval lines appr freeFor).lines.map RequestLine.it =
      lines.map RequestLine.it := by
  apply List.ext_getElem
  · simp [planApproval]
  · intro i h₁ h₂
    simp [planApproval]

end Rch
