import Rch.Kit.Double
import Rch.Domain.Vocabulary

/-!
# Numbers read off what exists

An employee number and an item's code are not drawn from a series. The next
one is one past the highest that is there, and a text of another shape is
skipped. The counting is done in doubles, as the source does it.
-/

namespace Rch

open Kit

/-- What a text of the shape `^front-(\d+)$` has after its dash. -/
def digitsAfter (front s : String) : Option (List Char) :=
  let ds := s.toList.drop (front.toList.length + 1)
  if s.toList = front.toList ++ '-' :: ds ∧ ds ≠ [] ∧ ds.all Char.isDigit = true
  then some ds
  else none

/-- The highest employee number so far, and the widest printing of one. -/
structure EmpSeen where
  max : Whole
  width : ℕ
deriving DecidableEq

def EmpSeen.see (seen : EmpSeen) (e : String) : EmpSeen :=
  match digitsAfter "RC" e with
  | none => seen
  | some ds => ⟨seen.max.max (.ofDigits ds), Nat.max seen.width ds.length⟩

def nextEmpNo (existing : List String) : String :=
  let seen := existing.foldl EmpSeen.see ⟨.finite 0, 4⟩
  "RC-" ++ padStart seen.width (seen.max.add 1).text

def itemCodeSeries : ItemType → String × ℕ
  | .RAW => ("RM", 1001)
  | .PACK => ("PK", 2001)
  | .MRP => ("MR", 3001)
  | .FG => ("FG", 4001)
  | .MTO => ("MT", 5001)

def itemCodePrefix (type : ItemType) : String := (itemCodeSeries type).1

def nextCode (front : String) (next : Whole) (c : String) : Whole :=
  match digitsAfter front c with
  | none => next
  | some ds => next.max ((Whole.ofDigits ds).add 1)

def nextItemCode (type : ItemType) (existing : List String) : String :=
  let (front, first) := itemCodeSeries type
  let next := existing.foldl (nextCode front) (.finite first)
  front ++ "-" ++ next.text

/-! ## What they have seen -/

def numbersIn (front : String) (existing : List String) : List ℕ :=
  (existing.filterMap (digitsAfter front)).map fun ds =>
    Nat.ofDigitChars 10 ds 0

theorem digitsAfter_eq {front s : String} {ds : List Char}
    (h : digitsAfter front s = some ds) :
    s.toList = front.toList ++ '-' :: ds ∧ ds ≠ [] ∧
      ds.all Char.isDigit = true := by
  unfold digitsAfter at h
  dsimp only at h
  split at h
  · next hs =>
      cases h
      exact hs
  · cases h

theorem digitsAfter_of {front s : String} {ds : List Char}
    (hs : s.toList = front.toList ++ '-' :: ds) (hne : ds ≠ [])
    (hds : ds.all Char.isDigit = true) : digitsAfter front s = some ds := by
  have hdrop : s.toList.drop (front.toList.length + 1) = ds := by
    rw [hs, ← List.drop_drop, List.drop_left, List.drop_one, List.tail_cons]
  unfold digitsAfter
  dsimp only
  rw [hdrop, if_pos ⟨hs, hne, hds⟩]

theorem mem_numbersIn {front s : String} {existing : List String}
    {ds : List Char} (hs : s ∈ existing) (h : digitsAfter front s = some ds) :
    Nat.ofDigitChars 10 ds 0 ∈ numbersIn front existing :=
  List.mem_map_of_mem (List.mem_filterMap.2 ⟨s, hs, h⟩)

theorem numbersIn_none {front s : String} {existing : List String}
    (h : digitsAfter front s = none) :
    numbersIn front (s :: existing) = numbersIn front existing := by
  rw [numbersIn, List.filterMap_cons_none h, numbersIn]

theorem numbersIn_some {front s : String} {existing : List String}
    {ds : List Char} (h : digitsAfter front s = some ds) :
    numbersIn front (s :: existing) =
      Nat.ofDigitChars 10 ds 0 :: numbersIn front existing := by
  rw [numbersIn, List.filterMap_cons_some h, List.map_cons, numbersIn]

end Rch
