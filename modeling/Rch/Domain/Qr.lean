import Rch.Domain.Ids
import Rch.Domain.Vocabulary

/-!
# The rules of QR ordering

When an outlet takes orders, the caps on one order, and the path an order
walks: after payment the counter moves it along the path of its code's mode,
one named step at a time.
-/

namespace Rch

open Kit

/-! ## The path an order walks -/

def qrSteps : QrMode → List QrOrderStatus
  | .pickup => [.paid, .preparing, .ready, .collected]
  | .deliver => [.paid, .preparing, .outForDelivery, .delivered]

/-- The status after this one on a path. -/
def stepAfter (s : QrOrderStatus) : List QrOrderStatus → Option QrOrderStatus
  | a :: b :: rest => if a = s then some b else stepAfter s (b :: rest)
  | _ => none

/-- The counter's one next step, or none before payment, at the end of the
path, and on an order refunded, expired or voided. -/
def nextQrStep (mode : QrMode) (status : QrOrderStatus) :
    Option QrOrderStatus := stepAfter status (qrSteps mode)

/-- A step leaves a paid status for another paid one: it never refunds,
expires or voids. -/
theorem nextQrStep_paid {mode : QrMode} {status next : QrOrderStatus}
    (h : nextQrStep mode status = some next) :
    (status = .paid ∨ status = .preparing ∨ status = .ready ∨
      status = .outForDelivery) ∧
    (next = .preparing ∨ next = .ready ∨ next = .outForDelivery ∨
      next = .collected ∨ next = .delivered) := by
  cases mode <;> cases status <;> cases next <;> revert h <;> decide

/-! ## When an outlet takes orders -/

/-- One weekday's window, Sunday being day 0; the two times are `hh:mm`. -/
structure OrderHoursDay where
  dow : ℕ
  opens : String
  closes : String
deriving DecidableEq, Repr

structure QrOpen where
  open_ : Bool
  why : Option String
deriving DecidableEq, Repr

/-- The IST weekday of an instant; the first day of 1970 was a Thursday. -/
def istWeekday (t : Instant) : ℕ := ((istDay t + 4) % 7).toNat

/-- The IST clock at an instant, as `hh:mm`. -/
def hhmm (t : Instant) : String :=
  let minute := (((t + 19800000) % 86400000) / 60000).toNat
  Decimal.pad 2 (minute / 60) ++ ":" ++ Decimal.pad 2 (minute % 60)

/-- Whether QR ordering is open: a window opens at its first minute and shuts
at its last, and a weekday with no window is closed all day. -/
def qrOpenAt (days : List OrderHoursDay) (now : Instant) : QrOpen :=
  match days.find? fun d => decide (d.dow = istWeekday now) with
  | none => ⟨false, some "QR ordering is closed today."⟩
  | some day =>
    if hhmm now < day.opens then
      ⟨false, some ("QR ordering opens at " ++ day.opens ++ " today.")⟩
    else if day.closes ≤ hhmm now then
      ⟨false, some ("QR ordering closed at " ++ day.closes ++ " today.")⟩
    else ⟨true, none⟩

def hoursRefusal (outlet : String) (o : QrOpen) : String :=
  outlet ++ " is not taking QR orders right now - "
    ++ o.why.getD "QR ordering is closed."

def pausedRefusal (outlet : String) : String :=
  outlet ++ " has paused QR orders for now - please order at the counter."

/-! ## The caps on one order -/

def QR_MAX_LINES : ℕ := 30

def QR_MAX_QTY : ℕ := 20

/-- Unpaid orders one phone number may have open at once. -/
def QR_PENDING_PER_PHONE : ℕ := 3

example : (qrOpenAt [⟨4, "05:00", "20:00"⟩] 0).open_ = true := by decide +kernel

end Rch
