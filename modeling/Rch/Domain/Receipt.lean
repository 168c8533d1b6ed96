import Rch.Domain.Ids
import Rch.Domain.Party
import Rch.Domain.Vocabulary

/-!
# What a store keeper may book in

A receipt line is refused in a fixed order of sentences: past the tolerance,
more rejected than arrived, no batch, no dates, dates the wrong way round,
already expired. An order is filled by what was accepted, not by what arrived.
-/

namespace Rch

open Kit

def RECEIPT_TOLERANCE : ℚ := 102 / 100

/-- One line of a delivery, as the body carries it. -/
structure ReceiptInput where
  recv : ℚ
  rejected : ℚ
  batch : String
  mfg : String
  exp : String
deriving DecidableEq

/-- What arrived less what quality control turned away. -/
def netReceived (recv rejected : ℚ) : Qty := round3 (recv - rejected)

/-- The refusal a receipt line earns, if any. Dates are `yyyy-mm-dd` strings
and compare as strings. -/
def checkReceiptLine (name unit : String) (ordered received : Qty)
    (r : ReceiptInput) (today : String) : Option String :=
  let total := round3 ((received : ℚ) + r.recv)
  if round3 ((ordered : ℚ) * RECEIPT_TOLERANCE) < total then
    some (name ++ " - " ++ fq total unit ++ " exceeds the ordered "
      ++ fq ordered unit ++ " by more than 2%; hold it for purchase approval")
  else if r.rejected < 0 ∨ r.recv < r.rejected then
    some (name ++ " - rejected quantity cannot exceed what arrived")
  else if trim r.batch = "" then some (name ++ " needs its batch or lot number")
  else if r.mfg = "" ∨ r.exp = "" then
    some (name ++ " needs a manufacturing and an expiry date")
  else if r.exp ≤ r.mfg then
    some (name ++ " - expiry cannot fall on or before the manufacturing date")
  else if r.exp < today then
    some (name ++ " - batch " ++ trim r.batch
      ++ " has already expired; do not book it in")
  else none

/-- Where an order stands: accepted on every line, or not yet. -/
def receiptStatus (lines : List (Qty × Qty × Qty)) : PoStatus :=
  if lines.all fun l => decide (l.1 ≤ netReceived (l.2.1 : ℚ) l.2.2) then
    .received
  else .partiallyReceived

/-- An accepted receipt line rejects no more than arrived, and not less than
nothing. -/
theorem checkReceiptLine_none {name unit today : String} {ordered received : Qty}
    {r : ReceiptInput}
    (h : checkReceiptLine name unit ordered received r today = none) :
    0 ≤ r.rejected ∧ r.rejected ≤ r.recv := by
  unfold checkReceiptLine at h
  dsimp only at h
  split at h
  · cases h
  · split at h
    · cases h
    · next hr =>
        rw [not_or, not_lt, not_lt] at hr
        exact hr

theorem checkReceiptLine_within {name unit today : String}
    {ordered received : Qty} {r : ReceiptInput}
    (h : checkReceiptLine name unit ordered received r today = none) :
    round3 ((received : ℚ) + r.recv) ≤
      round3 ((ordered : ℚ) * RECEIPT_TOLERANCE) := by
  unfold checkReceiptLine at h
  dsimp only at h
  split at h
  · cases h
  · next hle => exact not_lt.1 hle

end Rch
