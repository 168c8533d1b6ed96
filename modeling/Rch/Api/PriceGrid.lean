import Mathlib.Data.List.Sort
import Mathlib.Data.String.Basic
import Rch.Api.Db
import Rch.Domain.Billing

/-!
# The counter price grid

A batch of cells, each an item at an outlet: its price there, whether that till
sells it, or both. Outlets may share a list, so an outlet that is repriced is
first put on a list of its own, and the ones left behind keep the old list as it
was. All of it is one transaction: a refusal anywhere saves nothing.
-/

namespace Rch

open Kit

/-- The tables the grid reads and writes, with the foreign keys between them: an
outlet is on a list there is, and so is a price. -/
structure PriceBook where
  /-- Retired items included. -/
  items : ItemKey → Option Item
  outlets : Table LocKey Location
  /-- The lists, by id, with their names. -/
  lists : Table String String
  prices : Table (String × ItemKey) Money
  /-- What each outlet sells, with the line's place on its menu. -/
  menu : Table (LocKey × ItemKey) ℕ
  nextList : ℕ
  on_a_list : ∀ w l id, outlets.get? w = some l → l.list = some id →
    (lists.get? id).isSome = true
  priced_on_a_list : ∀ id it p, prices.get? (id, it) = some p →
    (lists.get? id).isSome = true

/-- One cell of a save. The price is what was typed. -/
structure OutletPriceChange where
  loc : LocKey
  it : ItemKey
  price : Option ℚ
  listed : Option Bool

def PriceBook.master (b : PriceBook) : Master where
  items it := (b.items it).filter Item.active
  locations := b.outlets.get?

def PriceBook.priceOf (b : PriceBook) (loc : LocKey) (it : ItemKey) : Money :=
  Rch.priceOf b.master (fun id it => b.prices.get? (id, it)) loc it

def PriceBook.sells (b : PriceBook) (loc : LocKey) (it : ItemKey) : Bool :=
  (b.menu.get? (loc, it)).isSome

def PriceBook.outletsOf (b : PriceBook) (id : String) : List LocKey :=
  (b.outlets.rows.filter fun r => decide (r.2.list = some id)).map Prod.fst

def PriceBook.listedAt (b : PriceBook) (loc : LocKey) (it : ItemKey) :
    Option Money :=
  ((b.outlets.get? loc).bind Location.list).bind fun id => b.prices.get? (id, it)

def isSellable (t : ItemType) : Bool :=
  match t with
  | .MRP | .FG | .MTO => true
  | .RAW | .PACK => false

def neverSoldRefusal (name : String) (t : ItemType) : String :=
  "Refused - " ++ name ++ " is " ++
    (if t = .RAW then "a raw material" else "packing") ++
    " and is never sold at a counter"

def unpricedRefusal (name outlet : String) : String :=
  "Refused - give " ++ name ++ " a price at " ++ outlet ++ " before selling it there"

/-! ## The writes -/

def PriceBook.insertList (b : PriceBook) (id name : String) : Option PriceBook :=
  match h : b.lists.insert? id name with
  | none => none
  | some lists => some
    { b with
      lists := lists
      nextList := b.nextList + 1
      on_a_list := by
        intro w l x hw hx
        have hold := b.on_a_list w l x hw hx
        rw [Table.get?_insert h]
        split
        · rfl
        · exact hold
      priced_on_a_list := by
        intro x it p hp
        have hold := b.priced_on_a_list x it p hp
        rw [Table.get?_insert h]
        split
        · rfl
        · exact hold }

def PriceBook.rowsFor (b : PriceBook) (from_ to_ : String) :
    Table (String × ItemKey) Money where
  rows := (b.prices.rows.filter fun r => decide (r.1.1 = from_)).map fun r =>
    ((to_, r.1.2), r.2)
  keys_nodup := by
    have hkeys : ((b.prices.rows.filter fun r => decide (r.1.1 = from_)).map
        Prod.fst).Nodup :=
      b.prices.keys_nodup.sublist (List.filter_sublist.map _)
    rw [List.map_map]
    change (List.map ((fun k : String × ItemKey => (to_, k.2)) ∘ Prod.fst) _).Nodup
    rw [← List.map_map]
    refine hkeys.map_on fun k hk k' hk' heq => ?_
    obtain ⟨r, hr, rfl⟩ := List.mem_map.1 hk
    obtain ⟨r', hr', rfl⟩ := List.mem_map.1 hk'
    have hfrom := of_decide_eq_true (List.mem_filter.1 hr).2
    have hfrom' := of_decide_eq_true (List.mem_filter.1 hr').2
    exact Prod.ext (hfrom.trans hfrom'.symm) (Prod.mk.inj heq).2

theorem PriceBook.get?_rowsFor (b : PriceBook) (from_ to_ : String)
    (k : String × ItemKey) : (b.rowsFor from_ to_).get? k =
      if k.1 = to_ then b.prices.get? (from_, k.2) else none := by
  have hmem (p : Money) : (b.rowsFor from_ to_).get? k = some p ↔
      k.1 = to_ ∧ b.prices.get? (from_, k.2) = some p := by
    simp only [Table.get?_eq_some, PriceBook.rowsFor, List.mem_map,
      List.mem_filter, decide_eq_true_eq, Prod.exists]
    constructor
    · rintro ⟨x, it, p', ⟨hrow, rfl⟩, heq⟩
      cases heq
      exact ⟨rfl, hrow⟩
    · rintro ⟨rfl, hrow⟩
      exact ⟨from_, k.2, p, ⟨hrow, rfl⟩, rfl⟩
  refine Option.ext fun p => ?_
  rw [hmem]
  split
  · next hk => exact and_iff_right hk
  · next hk => exact iff_of_false (fun h => hk h.1) (Option.some_ne_none p).symm

/-- A price is on a list there is, and no two rows are of one list and item. -/
def PriceBook.cloneItems (b : PriceBook) (from_ to_ : String) : Option PriceBook :=
  if h : (b.lists.get? to_).isSome = true ∧
      ∀ r ∈ (b.rowsFor from_ to_).rows, b.prices.get? r.1 = none then some
    { b with
      prices := b.prices.insertAll (b.rowsFor from_ to_).rows
      priced_on_a_list := by
        intro x it p hp
        rw [Table.get?_insertAll (b.rowsFor from_ to_).keys_nodup h.2] at hp
        change ((b.rowsFor from_ to_).get? (x, it)).or _ = some p at hp
        rw [b.get?_rowsFor] at hp
        split at hp
        · next hx =>
            have hx : x = to_ := hx
            rw [hx]
            exact h.1
        · exact b.priced_on_a_list x it p hp }
  else none

def PriceBook.setOutletList (b : PriceBook) (loc : LocKey) (id : String) :
    Option PriceBook :=
  if h : (b.lists.get? id).isSome = true then some
    { b with
      outlets := b.outlets.modify loc fun l => { l with list := some id }
      on_a_list := by
        intro w l x hw hx
        rw [Table.get?_modify] at hw
        split at hw
        · obtain ⟨l', -, rfl⟩ := Option.map_eq_some_iff.1 hw
          cases hx
          exact h
        · exact b.on_a_list w l x hw hx }
  else none

/-- Into the row there is, or a new one. The column keeps two decimals. -/
def PriceBook.upsertPrice (b : PriceBook) (id : String) (it : ItemKey) (price : ℚ) :
    Option PriceBook :=
  if h : (b.lists.get? id).isSome = true then some
    { b with
      prices := (b.prices.insert? (id, it) (Decimal.roundAway 2 price)).getD
        (b.prices.modify (id, it) fun _ => Decimal.roundAway 2 price)
      priced_on_a_list := by
        intro x it' p hp
        cases hi : b.prices.insert? (id, it) (Decimal.roundAway 2 price) with
        | none =>
            rw [hi, Option.getD_none, Table.get?_modify] at hp
            split at hp
            · next hk =>
                cases hk
                exact h
            · exact b.priced_on_a_list x it' p hp
        | some t =>
            rw [hi, Option.getD_some, Table.get?_insert hi] at hp
            split at hp
            · next hk =>
                cases hk
                exact h
            · exact b.priced_on_a_list x it' p hp }
  else none

/-- After every line there is, and nothing where it is listed already. -/
def PriceBook.listOnMenu (b : PriceBook) (loc : LocKey) (it : ItemKey) : PriceBook :=
  { b with
    menu := (b.menu.insert? (loc, it)
      (((b.menu.rows.filter fun r => decide (r.1.1 = loc)).map Prod.snd).foldl max
        0 + 1)).getD b.menu }

def PriceBook.unlistFromMenu (b : PriceBook) (loc : LocKey) (it : ItemKey) :
    PriceBook :=
  { b with menu := b.menu.restrict fun k => decide (k ≠ (loc, it)) }

/-! ## The save -/

/-- Each once, in one order for everybody. -/
def locKeysOf (changes : List OutletPriceChange) : List LocKey :=
  (changes.map OutletPriceChange.loc).dedup.insertionSort (· ≤ ·)

def repricedOf (changes : List OutletPriceChange) : List LocKey :=
  (locKeysOf changes).filter fun loc =>
    changes.any fun c => decide (c.loc = loc) && c.price.isSome

def PriceBook.same (b : PriceBook) (c : OutletPriceChange) (p : ℚ) : Bool :=
  (b.listedAt c.loc c.it).any fun m : Money => decide (m.toRat = p)

/-- Whether a cell asks for anything that is not so already. -/
def PriceBook.effective (b : PriceBook) (c : OutletPriceChange) : Bool :=
  (c.price.any fun p => !b.same c p) ||
    c.listed.any fun v => decide (v ≠ b.sells c.loc c.it)

def PriceBook.lockOutlets (b : PriceBook) :
    List LocKey → Outcome (List (LocKey × Location))
  | [] => pure []
  | loc :: locs => do
    let row ← orNotFound (b.outlets.get? loc)
      ("There is no location " ++ loc ++ ".")
    let rows ← b.lockOutlets locs
    pure ((loc, row) :: rows)

/-- The rules on each cell in turn, with the cells seen so far. -/
def PriceBook.checkCells (b : PriceBook) (seen : List (LocKey × ItemKey)) :
    List OutletPriceChange → Outcome Unit
  | [] => pure ()
  | c :: changes => do
    let item ← orNotFound (b.items c.it) ("There is no item " ++ c.it ++ ".")
    let outlet ← orNotFound (b.outlets.get? c.loc)
      ("There is no location " ++ c.loc ++ ".")
    assertRule ((c.loc, c.it) ∉ seen)
      ("Refused - " ++ item.n ++ " at " ++ outlet.n ++ " is in this save twice")
    assertRule (item.active = true)
      ("Refused - " ++ item.n ++ " is retired and cannot be priced or sold")
    assertRule (isSellable item.t = true) (neverSoldRefusal item.n item.t)
    assertRule (c.price.all (fun p => decide (0 < p)) = true)
      ("Enter a price greater than zero for " ++ item.n ++ " at " ++ outlet.n)
    assertRule (c.listed = some true →
        (c.price.isSome || (b.listedAt c.loc c.it).isSome) = true)
      (unpricedRefusal item.n outlet.n)
    b.checkCells ((c.loc, c.it) :: seen) changes

/-- The save under way: who is still on each list that is held, and the list
each outlet repriced so far is on, the last one first. -/
structure Forking where
  book : PriceBook
  sharers : Table String (List LocKey)
  listOf : List (LocKey × String)

/-- A list of the outlet's own: a copy of the one it shared, or an empty one. -/
def PriceBook.ownList (b : PriceBook) (loc : LocKey) (row : Location) :
    Outcome (PriceBook × String) := do
  let id := formatId .priceList b.nextList 0
  let b ← orInternal (b.insertList id (row.n ++ " prices")) "price_lists_pkey"
  let b ← match row.list with
    | some from_ => orInternal (b.cloneItems from_ id) "price_list_items_pkey"
    | none => pure b
  let b ← orInternal (b.setOutletList loc id) "locations_price_list_id_fkey"
  pure (b, id)

/-- The last outlet left on a list keeps it, rather than leaving a copy nobody
is on. `row` is the outlet as it was locked. -/
def Forking.keeps (st : Forking) (row : Location) : Option String :=
  row.list.filter fun id => decide (((st.sharers.get? id).getD []).length ≤ 1)

def forkOutlet (loc : LocKey) (row : Location) (st : Forking) : Outcome Forking :=
  match st.keeps row with
  | some id => pure { st with listOf := (loc, id) :: st.listOf }
  | none => do
    let (book, id) ← st.book.ownList loc row
    pure
      { book := book
        sharers := row.list.elim st.sharers fun id =>
          st.sharers.modify id fun on => on.filter fun l => decide (l ≠ loc)
        listOf := (loc, id) :: st.listOf }

def forkAll : List (LocKey × Location) → Forking → Outcome Forking
  | [], st => pure st
  | (loc, row) :: rows, st => do
    let st ← forkOutlet loc row st
    forkAll rows st

/-- The lists the outlets to be repriced are on, with who is on each. -/
def PriceBook.heldLists (b : PriceBook) (rows : List (LocKey × Location)) :
    Table String (List LocKey) :=
  Table.empty.insertAll (((rows.filterMap fun r => r.2.list).dedup.insertionSort
    (· ≤ ·)).map fun id => (id, b.outletsOf id))

def writeCell (b₀ : PriceBook) (listOf : List (LocKey × String))
    (c : OutletPriceChange) (b : PriceBook) : Outcome PriceBook := do
  let b ← match c.price.filter fun p => !b₀.same c p with
    | some p => orInternal ((listOf.lookup c.loc).bind fun id =>
        b.upsertPrice id c.it p) "price_list_items_list_id_fkey"
    | none => pure b
  pure (match c.listed.filter fun v => decide (v ≠ b₀.sells c.loc c.it) with
    | some true => b.listOnMenu c.loc c.it
    | some false => b.unlistFromMenu c.loc c.it
    | none => b)

def writeCells (b₀ : PriceBook) (listOf : List (LocKey × String)) :
    List OutletPriceChange → PriceBook → Outcome PriceBook
  | [], b => pure b
  | c :: changes, b => do
    let b ← writeCell b₀ listOf c b
    writeCells b₀ listOf changes b

def saveOutletPrices (b : PriceBook) (changes : List OutletPriceChange) :
    Outcome (PriceBook × ℕ) := do
  let rows ← b.lockOutlets (locKeysOf changes)
  checkEach changes fun c => do
    let _ ← orNotFound (b.items c.it) ("There is no item " ++ c.it ++ ".")
  checkEach rows fun r => do
    assertRule (r.2.type = .Outlet) (r.2.n ++ " is not an outlet")
    assertOpen r.2 none
  b.checkCells [] changes
  assertRule (0 < changes.countP b.effective)
    "Nothing to save - every price and switch is already as you set it"
  let repriced := rows.filter fun r => decide (r.1 ∈ repricedOf changes)
  let st ← forkAll repriced ⟨b, b.heldLists repriced, []⟩
  let b' ← writeCells b st.listOf changes st.book
  pure (b', changes.countP b.effective)

/-- What the save's transaction leaves behind: a refusal rolls it back. -/
def PriceBook.afterSave (b : PriceBook) (changes : List OutletPriceChange) :
    PriceBook :=
  match saveOutletPrices b changes with
  | .ok (b', _) => b'
  | .error _ => b

end Rch
