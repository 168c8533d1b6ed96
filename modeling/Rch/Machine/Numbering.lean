import Rch.Kit.Transactions
import Rch.Kit.Double
import Rch.Domain.Ids

/-!
# The numbers drawn from the series

Each series is one row, and drawing a number updates it: the row is locked
from there to the end of the transaction, and what the transaction drew goes
back with it when it is rolled back. A transaction may draw from as many
series as it likes, and as often. What stands on paper in the end is what the
committed transactions drew.

The counter is a `bigint`, and the number read from it is a double: past
`2 ^ 53` two counters can read as one number.
-/

namespace Rch

open Kit

/-- The rows of `sequences`, and the numbers on the documents that stand. -/
structure Numbers where
  next : IdKind → ℕ
  printed : List String

/-- One drawing: the series, where its counter stood, and when. -/
structure Drawn where
  kind : IdKind
  n : ℕ
  at_ : Instant
deriving DecidableEq

/-- The number a drawing prints: the counter as a double, as a document's. -/
def Drawn.id (d : Drawn) : String :=
  formatId d.kind (Whole.shown (nearest d.n)) d.at_

/-- The series moved on past the drawing, and its number on a document. -/
def Numbers.draw (d : Drawn) (s : Numbers) : Numbers where
  next k := if k = d.kind then d.n + 1 else s.next k
  printed := s.printed ++ [d.id]

/-- One `update … returning` of a series' row. The column holds 63 bits. -/
def allocateNumber (c : IdKind × Instant) (s : Numbers) :
    Option (Stmt Numbers IdKind Unit) :=
  if s.next c.1 + 1 < 2 ^ 63 then
    some ⟨[⟨c.1, .noKeyUpdate⟩], Numbers.draw ⟨c.1, s.next c.1, c.2⟩, ()⟩
  else none

def numbering : Database Numbers IdKind (IdKind × Instant) Unit where
  init s := (∀ k, 0 < s.next k) ∧ s.printed = []
  starts _ := true
  stmt c _ s := allocateNumber c s
  done _ := true

end Rch
