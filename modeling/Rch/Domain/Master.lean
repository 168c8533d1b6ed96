import Rch.Domain.Numbers
import Rch.Domain.Vocabulary
import Rch.Kit.Keyed

/-!
# The master data and the lines of a document

Every rule of the domain is parameterised by the master: the items, the
locations, and the two desks the code may name. Item keys and location keys
are data, so they are strings here as they are there.

A line is an item and a quantity. Lines arrive in a body as plain numbers and
may repeat an item; almost every write folds them first, so that a repeated
item is one line, one hold and one cover check. `foldLines` is that fold, with
its rounding at every addition.
-/

namespace Rch

open Kit

abbrev ItemKey := String
abbrev LocKey := String

/-- The central store and the central kitchen: the two locations the code may
name, and the rejected-goods shelf no operator acts at. -/
def STORE : LocKey := "store"
def KITCHEN : LocKey := "kitchen"
def QUARANTINE : LocKey := "quarantine"

/-- One shelf's place for one item. -/
structure Cell where
  loc : LocKey
  it : ItemKey
deriving DecidableEq, Repr

structure Item where
  n : String
  u : String
  t : ItemType
  gst : Decimal 2
  mrp : Option Money
  /-- Shelf life in hours. -/
  sl : Option ℕ
  src : Option Source
  active : Bool
deriving DecidableEq

structure Location where
  n : String
  type : LocType
  /-- The price list a till there charges from. -/
  list : Option String
  active : Bool
deriving DecidableEq

/-- What a rule reads: the items still sold, and every location. -/
structure Master where
  items : ItemKey → Option Item
  locations : LocKey → Option Location

/-- The name a refusal uses for an item: its own, or the key. -/
def Master.itemName (m : Master) (it : ItemKey) : String :=
  ((m.items it).map Item.n).getD it

def Master.unitOf (m : Master) (it : ItemKey) : String :=
  ((m.items it).map Item.u).getD "nos"

/-- A made-to-order item holds no stock. -/
def Master.madeToOrder (m : Master) (it : ItemKey) : Bool :=
  (m.items it).any fun item => decide (item.t = .MTO)

def Master.locName (m : Master) (loc : LocKey) : String :=
  ((m.locations loc).map Location.n).getD loc

/-- A line of a stored document. -/
structure Line where
  it : ItemKey
  qty : Qty
deriving DecidableEq, Repr

/-- A line as a body carries it: a number nobody has rounded yet. -/
structure LineInput where
  it : ItemKey
  qty : ℚ
deriving DecidableEq

/-- A stored line read as a number, the way every later rule reads it. -/
def Line.input (l : Line) : LineInput := ⟨l.it, l.qty⟩

/-- Fold repeated items into one line each, rounding at every addition. -/
def foldLines (lines : List LineInput) : List Line :=
  (accumulate LineInput.it (fun x l => round3 ((x : ℚ) + l.qty)) (0 : Qty)
    lines).map fun p => ⟨p.1, p.2⟩

/-- What the lines of a document add up to for one item. -/
def lineTotal (lines : List Line) (it : ItemKey) : Qty :=
  sumOn lines Line.it it Line.qty

/-- Folding keeps the total of every item, rounded addend by addend. -/
theorem lineTotal_foldLines (lines : List LineInput) (it : ItemKey) :
    lineTotal (foldLines lines) it =
      sumOn lines LineInput.it it fun l => round3 l.qty := by
  rw [lineTotal, foldLines, sumOn_map]
  exact sumOn_accumulate (fun x l => round3_add x l.qty) lines it

theorem foldLines_nodup (lines : List LineInput) :
    ((foldLines lines).map Line.it).Nodup := by
  rw [foldLines, List.map_map]
  exact nodup_accumulate _ _ _ lines

theorem mem_foldLines_it {lines : List LineInput} {l : Line}
    (h : l ∈ foldLines lines) : ∃ b ∈ lines, b.it = l.it := by
  obtain ⟨p, hp, rfl⟩ := List.mem_map.1 h
  exact mem_keys_accumulate.1 (List.mem_map_of_mem hp)

theorem mem_foldLines_qty {lines : List LineInput} {l : Line}
    (h : l ∈ foldLines lines) :
    l.qty = sumOn lines LineInput.it l.it fun b => round3 b.qty := by
  obtain ⟨p, hp, rfl⟩ := List.mem_map.1 h
  exact mem_accumulate (fun x l => round3_add x l.qty) hp

/-- The line that carries an item, when no item repeats. -/
theorem lineTotal_of_mem {lines : List Line}
    (hn : (lines.map Line.it).Nodup) {l : Line} (h : l ∈ lines) :
    lineTotal lines l.it = l.qty :=
  sumOn_eq_of_mem hn h Line.qty

theorem lineTotal_eq_zero {lines : List Line} {it : ItemKey}
    (h : ∀ l ∈ lines, l.it ≠ it) : lineTotal lines it = 0 :=
  sumOn_eq_zero fun l hl hk => absurd hk (h l hl)

end Rch
