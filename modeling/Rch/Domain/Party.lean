import Rch.Domain.Vocabulary

/-!
# Whose bill it is

Three tenders take no money at the till: they post the bill to somebody's
account, and each means exactly one kind of payer. That pairing is the table
every receivables figure filters on.
-/

namespace Rch

/-- The kind of payer a tender has to carry, or none where money changes
hands. -/
def payerKindForTender : Tender → Option PayerKind
  | .cash | .upi | .card => none
  | .staffCredit => some .staff
  | .doctorCredit => some .doctor
  | .dept => some .dept
  | .online => none

def accountTenders : List Tender := [.staffCredit, .doctorCredit, .dept]

def partyOf : Option PayerKind → BillParty
  | none => .customer
  | some .staff => .staff
  | some .dept => .dept
  | some .doctor => .doctor

def partyLabel : BillParty → String
  | .customer => "customer"
  | .staff => "staff member"
  | .doctor => "doctor"
  | .dept => "department"

def payerLabel (k : PayerKind) : String := partyLabel (partyOf (some k))

/-! ## The walk-in customer's phone -/

/-- What a trim takes off, and a pattern's blank matches. -/
def isBlank (c : Char) : Bool :=
  let n := c.toNat
  decide (9 ≤ n ∧ n ≤ 13) || decide (8192 ≤ n ∧ n ≤ 8202) ||
    [32, 160, 5760, 8232, 8233, 8239, 8287, 12288, 65279].contains n

/-- A string without the blanks at its two ends. -/
def trim (s : String) : String :=
  String.ofList
    ((s.toList.dropWhile isBlank).reverse.dropWhile isBlank).reverse

/-- Ten digits not starting with 0. -/
def tenDigits (cs : List Char) : Bool :=
  decide (cs.length = 10) && cs.all Char.isDigit && decide (cs.head? ≠ some '0')

/-- A phone number as its ten digits, or none where what was typed is not
one: blanks, hyphens, dots and brackets are ignored, and a `+91`, `91` or `0`
in front is dropped. -/
def normalizePhone (raw : String) : Option String :=
  let cs := raw.toList.filter fun c =>
    !(isBlank c || c == '-' || c == '.' || c == '(' || c == ')')
  let tails := [
    cs.dropPrefix? ['+', '9', '1'], cs.dropPrefix? ['9', '1'],
    cs.dropPrefix? ['0'], some cs]
  ((tails.filterMap id).find? tenDigits).map String.ofList

def phoneRefusal (raw : String) : String :=
  trim raw ++ " is not a phone number - give the customer's 10 digits, "
    ++ "with or without +91"

example : normalizePhone "+91 98430-22118" = some "9843022118" := by decide

end Rch
