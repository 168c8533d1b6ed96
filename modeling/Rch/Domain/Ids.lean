import Rch.Domain.Numbers

/-!
# Dates and document numbers

An instant is a count of milliseconds. The hospital's calendar is the IST one,
five and a half hours ahead and without daylight saving, so a date is read off
an instant by shifting it and counting whole days.

Document numbers are printed by `formatId`, one shape per series. The shapes
start with different letters, which is what keeps a ticket's reference to a
production order from ever naming a stock request.
-/

namespace Rch

open Kit

abbrev Instant := ℤ

/-- Whole IST days since the start of 1970. -/
def istDay (t : Instant) : ℤ := (t + 19800000) / 86400000

/-- Year, month and day of a day count, by the usual era arithmetic: years
run from March, so the leap day is the last day of its year. -/
def civil (day : ℤ) : ℤ × ℕ × ℕ :=
  let z := day + 719468
  let doe := (z % 146097).toNat
  let yoe := (doe - doe / 1460 + doe / 36524 - doe / 146096) / 365
  let doy := doe - (365 * yoe + yoe / 4 - yoe / 100)
  let mp := (5 * doy + 2) / 153
  let m := if mp < 10 then mp + 3 else mp - 9
  let y := (yoe : ℤ) + z / 146097 * 400
  (if m ≤ 2 then y + 1 else y, m, doy - (153 * mp + 2) / 5 + 1)

/-- The hospital's calendar date for an instant, as `yyyy-mm-dd`. -/
def istDate (t : Instant) : String :=
  let (y, m, d) := civil (istDay t)
  Decimal.pad 4 y.toNat ++ "-" ++ Decimal.pad 2 m ++ "-" ++ Decimal.pad 2 d

def months : List String :=
  ["Jan", "Feb", "Mar", "Apr", "May", "Jun",
    "Jul", "Aug", "Sep", "Oct", "Nov", "Dec"]

/-- The same date as it is read on a document: `31-Aug-2026`. -/
def dmy (t : Instant) : String :=
  let (y, m, d) := civil (istDay t)
  Decimal.pad 2 d ++ "-" ++ (months[m - 1]?).getD "" ++ "-"
    ++ Decimal.pad 4 y.toNat

/-- A year as the calendar prints it, in as many digits as it takes. The
years before the first are counted back from it. -/
def calendarYear (y : ℤ) : ℕ := if y ≤ 0 then (1 - y).toNat else y.toNat

def ymd (t : Instant) : String :=
  let (y, m, d) := civil (istDay t)
  toString (calendarYear y) ++ Decimal.pad 2 m ++ Decimal.pad 2 d

def year (t : Instant) : String := String.ofList ((ymd t).toList.take 4)

inductive IdKind
  | req | tkt | bill | prq | po | prd | batch | vendor | contract | support
  | productReq | shopAsk | adj | zReport | adjReq | priceList | settlement
  | shift | role | qrOrder | qrCode | wastage
deriving DecidableEq, Repr

/-- Document numbers exactly as they are printed. -/
def formatId (kind : IdKind) (n : ℕ) (at_ : Instant) : String :=
  match kind with
  | .req => "REQ-" ++ year at_ ++ "-0" ++ toString n
  | .tkt => "TKT-0" ++ toString n
  | .bill => "CF/" ++ toString n
  | .prq => "PRQ-" ++ year at_ ++ "-0" ++ toString n
  | .po => "PO-" ++ year at_ ++ "-0" ++ toString n
  | .prd => "PRD-" ++ year at_ ++ "-0" ++ toString n
  | .batch => "BAT-" ++ ymd at_ ++ "-" ++ Decimal.pad 2 n
  | .vendor => "VN-" ++ Decimal.pad 3 n
  | .contract => "RC-" ++ toString n
  | .support => "SUP-00" ++ toString n
  | .productReq => "NPR-00" ++ toString n
  | .shopAsk => "ASK-0" ++ toString n
  | .adj => "ADJ-" ++ year at_ ++ "-" ++ Decimal.pad 4 n
  | .adjReq => "ADJREQ-" ++ year at_ ++ "-0" ++ toString n
  | .priceList => "PL-" ++ Decimal.pad 3 n
  | .settlement => "STL-" ++ year at_ ++ "-" ++ Decimal.pad 4 n
  | .zReport => "Z-" ++ year at_ ++ "-" ++ Decimal.pad 4 n
  | .shift => "SH-" ++ year at_ ++ "-" ++ Decimal.pad 4 n
  | .role => "ROLE-" ++ Decimal.pad 3 n
  | .qrOrder => "QO-" ++ year at_ ++ "-" ++ Decimal.pad 4 n
  | .qrCode => "QR-" ++ Decimal.pad 3 n
  | .wastage => "WST-" ++ year at_ ++ "-" ++ Decimal.pad 4 n

def sequenceStart : IdKind → ℕ
  | .req => 913
  | .tkt => 441
  | .bill => 1188
  | .prq => 16
  | .po => 143
  | .prd => 31
  | .batch => 1
  | .vendor => 6
  | .contract => 109
  | .support => 44
  | .productReq => 13
  | .shopAsk => 63
  | .adj => 1
  | .adjReq => 1
  | .priceList => 3
  | .settlement => 1
  | .zReport => 1
  | .shift => 1
  | .role => 6
  | .qrOrder => 1
  | .qrCode => 1
  | .wastage => 1

/-- A goods receipt's number: the order's year and number, and which
instalment this is. -/
def grnId (poId : String) (instalment : ℕ) : String :=
  let tail := match poId.toList.splitOn '-' with
    | [_, y, n] => String.ofList (y.drop 2 ++ n)
    | _ => String.ofList (poId.toList.filter Char.isAlphanum)
  "GRN-" ++ tail ++ "-" ++ Decimal.pad 2 instalment

/-- No two instalments of one order print one number. -/
theorem grnId_injective (poId : String) : Function.Injective (grnId poId) := by
  intro m n h
  unfold grnId at h
  exact Decimal.pad_injective 2 (String.append_right_inj _ |>.1 h)

/-! ## Telling the series apart -/

theorem formatId_req_take (n : ℕ) (t : Instant) :
    (formatId .req n t).toList.take 3 = ['R', 'E', 'Q'] := by
  simp [formatId]

theorem formatId_prd_take (n : ℕ) (t : Instant) :
    (formatId .prd n t).toList.take 3 = ['P', 'R', 'D'] := by
  simp [formatId]

theorem formatId_shopAsk_take (n : ℕ) (t : Instant) :
    (formatId .shopAsk n t).toList.take 3 = ['A', 'S', 'K'] := by
  simp [formatId]

example : istDate 1767205800000 = "2026-01-01" := by decide +kernel
example : formatId .tkt 441 0 = "TKT-0441" := by decide

end Rch
