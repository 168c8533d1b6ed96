import Rch.Domain.Party
import Rch.Domain.Text
import Rch.Kit.Csv

/-!
# A roster in a file

The hospital hands its payers over as a file, one to a line. Reading it answers
with the rows that are good and with every row that is not, each by its line
number. Blank lines and comments are passed over, and so is a header on the
first line that carries anything.
-/

namespace Rch

open Kit

structure PayerCsvRow where
  kind : PayerKind
  id : String
  name : String
deriving DecidableEq

structure PayerCsvError where
  row : ℕ
  column : String
  message : String
deriving DecidableEq

def PAYER_CSV_COLUMNS : List String := ["kind", "id", "name"]

def PayerKind.word : PayerKind → String
  | .staff => "staff"
  | .dept => "dept"
  | .doctor => "doctor"

def payerKindOptions : List PayerKind := [.staff, .dept, .doctor]

def payerKindOf (raw : String) : Option PayerKind :=
  payerKindOptions.find? fun k => decide (k.word = raw)

def badKind (raw : String) : String :=
  "\"" ++ raw ++ "\" is not a payer kind - use one of "
    ++ ", ".intercalate (payerKindOptions.map PayerKind.word)

/-- A row as it may reach the roster, or the column that is wrong. -/
def checkPayerRow (kind id name : String) :
    Except (String × String) PayerCsvRow :=
  match payerKindOf kind with
  | none => .error ("kind", badKind kind)
  | some k =>
    if trim id = "" then
      .error ("id", "an id is required - it is the hospital's own number, not "
        ++ "one this tool invents")
    else if trim name = "" then .error ("name", "a name is required")
    else .ok ⟨k, trim id, trim name⟩

def splitCsvLine (line : String) : List String :=
  (Csv.split ',' '"' line.toList).map fun f => trim (String.ofList f)

def isHeader (cells : List String) : Bool :=
  decide (3 ≤ cells.length) &&
    (PAYER_CSV_COLUMNS.zip cells).all fun c => decide (toLowerCase c.2 = c.1)

/-- What goes before the text of a file some editors write. -/
def BOM : Char := '\ufeff'

def dropBom : List Char → List Char
  | [] => []
  | c :: text => if c = BOM then text else c :: text

/-- Cut at every newline, and at the carriage return before it. -/
def splitLines : List Char → List (List Char)
  | [] => [[]]
  | [c] => if c = '\n' then [[], []] else [[c]]
  | c :: c' :: text =>
    if c = '\r' ∧ c' = '\n' then [] :: splitLines text
    else if c = '\n' then [] :: splitLines (c' :: text)
    else match splitLines (c' :: text) with
      | [] => [[c]]
      | l :: ls => (c :: l) :: ls

/-- What has been read so far; `first` while the header may still come. -/
structure PayerCsv where
  rows : List PayerCsvRow
  errors : List PayerCsvError
  first : Bool
deriving DecidableEq

/-- The line carries nothing, or a comment. -/
def skipped (line : String) : Bool :=
  decide (trim line = "") ||
    (line.toList.dropWhile isBlank).head? == some '#'

def PayerCsv.refuse (s : PayerCsv) (row : ℕ) (column message : String) :
    PayerCsv :=
  { s with first := false, errors := s.errors ++ [⟨row, column, message⟩] }

def PayerCsv.readLine (s : PayerCsv) (row : ℕ) (line : String) : PayerCsv :=
  if skipped line then s
  else
    let cells := splitCsvLine line
    if s.first && isHeader cells then { s with first := false }
    else match cells with
      | [kind, id, name] =>
        match checkPayerRow kind id name with
        | .ok r => { s with first := false, rows := s.rows ++ [r] }
        | .error bad => s.refuse row bad.1 bad.2
      | cells =>
        s.refuse row "row" ("expected 3 columns ("
          ++ ", ".intercalate PAYER_CSV_COLUMNS ++ "), found "
          ++ toString cells.length)

def parsePayerCsv (text : String) : PayerCsv :=
  ((splitLines (dropBom text.toList)).zipIdx 1).foldl
    (fun s l => s.readLine l.2 (String.ofList l.1)) ⟨[], [], true⟩

end Rch
