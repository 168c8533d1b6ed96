import Rch.Api.Db
import Rch.Kit.Machine
import Rch.Kit.Table

/-!
# The bills a till holds open

A counter builds several bills side by side and pays them one by one. A bill is
in the browser alone until its pay is answered. The pay sends the lines as they
stand when it is pressed. The operator goes on in the meantime, and the answer
finds the till as it is by then: an accepted pay takes its bill off, a refused
one leaves the till alone.

The ids are numbered across all the browser's tills, so another till may take
numbers in between.

The state also keeps, for the statements, what the operator has rung up on each
bill, and the pays that were accepted.
-/

namespace Rch.Tills

open Kit

/-- How many bills one till may hold open at once. -/
def MAX_OPEN_BILLS : ℕ := 10

abbrev Lines := Table String ℚ

def Lines.amount (l : Lines) (it : String) : ℚ := (l.get? it).getD 0

structure OpenBill where
  /-- A browser-only key, never sent. -/
  id : ℕ
  /-- What the tab is called. -/
  n : ℕ
  lines : Lines
  tender : Tender
  payer : Option PayerRef
  custName : String
  custPhone : String

structure Till where
  /-- Oldest first. -/
  bills : List OpenBill
  active : ℕ

/-- The fields an operator sets on a bill beside its lines. -/
structure BillForm where
  tender : Option Tender
  payer : Option (Option PayerRef)
  custName : Option String
  custPhone : Option String

def blankBill (id n : ℕ) : OpenBill := ⟨id, n, Table.empty, .cash, none, "", ""⟩

/-- A till nobody has touched. -/
def freshTill : Till := ⟨[blankBill 1 1], 1⟩

/-- A pay that awaits its answer. -/
structure PayCall where
  bill : ℕ
  tender : Tender
  payer : Option PayerRef
  lines : List (String × ℚ)
  customerName : Option String
  customerPhone : Option String

def PayCall.amount (p : PayCall) (it : String) : ℚ := (p.lines.lookup it).getD 0

/-- One counter's till, and what the browser keeps beside it. -/
structure Counter where
  /-- None for a till nobody has touched. -/
  till : Option Till
  seq : ℕ
  paying : List PayCall
  /-- What was rung up on a bill and not taken back, cleared or discarded. -/
  rung : ℕ → String → ℚ
  accepted : List PayCall

def tillOf (s : Counter) : Till := s.till.getD freshTill

def activeBill (t : Till) : Option OpenBill :=
  (t.bills.find? fun b => decide (b.id = t.active)).or t.bills.head?

/-- Take one bill off the till. The last one going leaves a fresh one behind.
Where the bill on screen goes, the one before it comes up, else the one
after. -/
def withoutBill (t : Till) (seq id : ℕ) : Till × ℕ :=
  match t.bills.findIdx? fun b => decide (b.id = id) with
  | none => (t, seq)
  | some at_ =>
    let bills := t.bills.filter fun b => decide (b.id ≠ id)
    if bills = [] then (⟨[blankBill (seq + 1) 1], seq + 1⟩, seq + 1)
    else
      let before := (bills[at_ - 1]?).map OpenBill.id
      (⟨bills, if t.active = id then before.getD t.active else t.active⟩, seq)

def editActive (f : OpenBill → OpenBill) (t : Till) : Till :=
  { t with bills := t.bills.map fun b => if b.id = t.active then f b else b }

/-- So much more of an item. A line that reaches zero goes. -/
def OpenBill.add (it : String) (d : ℚ) (b : OpenBill) : OpenBill :=
  let q := b.lines.amount it + d
  { b with
    lines := if q ≤ 0 then b.lines.restrict fun k => decide (k ≠ it)
      else b.lines.set it q }

def OpenBill.clear (b : OpenBill) : OpenBill := { b with lines := Table.empty }

def OpenBill.fill (form : BillForm) (b : OpenBill) : OpenBill :=
  { b with
    tender := form.tender.getD b.tender
    payer := form.payer.getD b.payer
    custName := form.custName.getD b.custName
    custPhone := form.custPhone.getD b.custPhone }

/-- The lowest number not in use, from `n` up, in so many tries. -/
def lowestFree (used : List ℕ) : ℕ → ℕ → ℕ
  | 0, n => n
  | tries + 1, n => if n ∈ used then lowestFree used tries (n + 1) else n

def newBill (s : Counter) : Counter :=
  let t := tillOf s
  if MAX_OPEN_BILLS ≤ t.bills.length then s
  else
    let used := t.bills.map OpenBill.n
    let b := blankBill (s.seq + 1) (lowestFree used used.length 1)
    { s with till := some ⟨t.bills ++ [b], b.id⟩, seq := s.seq + 1 }

def switchBill (id : ℕ) (t : Till) : Till :=
  if t.bills.any (fun b => decide (b.id = id)) then { t with active := id } else t

/-- What was typed, where something was. -/
def typed (s : String) : Option String := if trim s = "" then none else some (trim s)

inductive Counter.Event
  | add (it : String) (d : ℚ)
  | clear
  | newBill
  | switchBill (id : ℕ)
  | discardBill (id : ℕ)
  | setBill (form : BillForm)
  | pay (tender : Tender) (payer : Option PayerRef) (custName custPhone : String)
  /-- A pay in flight is answered with its bill. -/
  | accepted (i : ℕ)
  /-- A pay in flight is refused, or never answered. -/
  | refused (i : ℕ)
  /-- Another till numbers a bill. -/
  | elsewhere

def Counter.drop (s : Counter) (id : ℕ) : Counter :=
  let r := withoutBill (tillOf s) s.seq id
  { s with till := some r.1, seq := r.2 }

def Counter.note (s : Counter) (id : ℕ) (f : String → ℚ → ℚ) : Counter :=
  { s with
    rung := fun id' it => if id' = id then f it (s.rung id' it) else s.rung id' it }

def Counter.step (s : Counter) : Counter.Event → Option Counter
  | .add it d =>
    let t := tillOf s
    some (({ s with till := some (editActive (.add it d) t) } : Counter).note
      t.active fun it' q => if it' = it then max 0 (q + d) else q)
  | .clear =>
    let t := tillOf s
    some (({ s with till := some (editActive .clear t) } : Counter).note
      t.active fun _ _ => 0)
  | .newBill => some (Tills.newBill s)
  | .switchBill id => some { s with till := some (Tills.switchBill id (tillOf s)) }
  | .discardBill id =>
    some (if (tillOf s).bills.any (fun b => decide (b.id = id)) then
      (s.drop id).note id fun _ _ => 0 else s.drop id)
  | .setBill form => some { s with till := some (editActive (.fill form) (tillOf s)) }
  | .pay tender payer custName custPhone =>
    (activeBill (tillOf s)).bind fun b =>
      if b.lines.rows = [] ∨ b.id ∈ s.paying.map PayCall.bill then none
      else some { s with
        paying := s.paying ++
          [⟨b.id, tender, payer, b.lines.rows, typed custName, typed custPhone⟩] }
  | .accepted i =>
    (s.paying[i]?).map fun p =>
      { s.drop p.bill with
        paying := s.paying.eraseIdx i, accepted := s.accepted ++ [p] }
  | .refused i =>
    (s.paying[i]?).map fun _ => { s with paying := s.paying.eraseIdx i }
  | .elsewhere => some { s with seq := s.seq + 1 }

/-- The till of one counter within one session. Bills on other tills may have
been numbered before. -/
def counterTill : Machine Counter Counter.Event where
  init s := s.till = none ∧ 1 ≤ s.seq ∧ s.paying = [] ∧ s.accepted = [] ∧
    s.rung = fun _ _ => 0
  step := Counter.step

end Rch.Tills
