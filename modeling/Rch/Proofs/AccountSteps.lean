import Rch.Machine.Accounts
import Rch.Proofs.Accounts

/-!
# What a commit does to the accounts

Each of the four transactions commits one write, and the locks it holds by then
are the ones that matter to the others. `AccountCommit` lists the four once.
`Shaped` is what an open transaction has so far: its locks, the write it will
commit, and what it read of the rows it has locked. Every other fact about the
accounts is proved by looking at these.
-/

namespace Rch

open Kit

def CreditHeld (hashtext : String → ℤ) (kind : PayerKind) (id : String)
    (held : List (Lock AccountKey)) : Prop :=
  ⟨creditLock hashtext kind id, .update⟩ ∈ held

/-- A lock on everything a settlement's lines refer to. -/
def LinesHeld (lines : List SettlementLine) (held : List (Lock AccountKey)) :
    Prop :=
  ∀ l ∈ lines, ⟨.bill l.no, .keyShare⟩ ∈ held

/-- Lines on distinct bills, none of them stored. -/
def LinesFree (db : Db) (id : String) (lines : List SettlementLine) : Prop :=
  (∀ l ∈ lines, db.settlementLines.get? (id, l.no) = none) ∧
    (lines.map SettlementLine.no).Nodup

/-- What one commit writes, under which locks. -/
inductive AccountCommit (hashtext : String → ℤ) (db : Db)
    (held : List (Lock AccountKey)) : AccountTx → Db → Prop
  | sold (s : PricedSale) (no : String) (at_ : Instant)
      (credit : ∀ p ∈ s.payer, CreditHeld hashtext p.kind p.id held)
      (key : ⟨.bill no, .update⟩ ∈ held) (free : db.bills.get? no = none) :
      AccountCommit hashtext db held (.sale s (.billed no at_))
        (addBill no (s.row at_) (db.advance .bill))
  | recorded (r : Recording) (id : String) (at_ : Instant)
      (lines : List SettlementLine)
      (credit : CreditHeld hashtext r.body.kind r.body.id held)
      (key : ⟨.settlement id, .update⟩ ∈ held) (laid : LinesHeld lines held)
      (free : db.settlements.get? id = none) (fresh : LinesFree db id lines) :
      AccountCommit hashtext db held (.record r (.recorded id at_ lines))
        (addSettlementLines id lines
          (addSettlement id (r.row at_) (db.advance .settlement)))
  | settlementVoided (claims : Claims) (id reason : String)
      (row : SettlementRow) (stamp : VoidStamp)
      (credit : CreditHeld hashtext row.kind row.payerId held)
      (key : ⟨.settlement id, .update⟩ ∈ held)
      (stands : db.settlements.get? id = some row) (live : row.voided = none) :
      AccountCommit hashtext db held (.voidSettlement claims id reason .stamped)
        (stampSettlementAt id stamp db)
  | billVoided (claims : Claims) (no reason : String) (row : BillRow)
      (stamp : VoidStamp) (key : ⟨.bill no, .update⟩ ∈ held)
      (stands : db.bills.get? no = some row) (live : row.voided = none) :
      AccountCommit hashtext db held (.voidBill claims no reason .stamped)
        (stampBillAt no stamp db)

/-! ## Where an open transaction stands -/

section Shape

variable (hashtext : String → ℤ) (db : Db) (held : List (Lock AccountKey))
variable (write : Db → Db)

def SaleShaped (s : PricedSale) : SaleAt → Prop
  | .priced => write = fun db => db
  | .locked | .charged _ | .cleared =>
    (∀ p ∈ s.payer, CreditHeld hashtext p.kind p.id held) ∧ write = fun db => db
  | .numbered _ _ =>
    (∀ p ∈ s.payer, CreditHeld hashtext p.kind p.id held) ∧
      write = fun db => db.advance .bill
  | .billed no at_ =>
    (∀ p ∈ s.payer, CreditHeld hashtext p.kind p.id held) ∧
      ⟨.bill no, .update⟩ ∈ held ∧ db.bills.get? no = none ∧
      write = fun db => addBill no (s.row at_) (db.advance .bill)

def RecordShaped (r : Recording) : RecordAt → Prop
  | .begun | .known => write = fun db => db
  | .locked | .charged _ | .owed _ | .laid _ =>
    CreditHeld hashtext r.body.kind r.body.id held ∧ write = fun db => db
  | .numbered _ _ _ =>
    CreditHeld hashtext r.body.kind r.body.id held ∧
      write = fun db => db.advance .settlement
  | .headed id at_ _ =>
    CreditHeld hashtext r.body.kind r.body.id held ∧
      ⟨.settlement id, .update⟩ ∈ held ∧ db.settlements.get? id = none ∧
      write = fun db =>
        addSettlement id (r.row at_) (db.advance .settlement)
  | .recorded id at_ lines =>
    CreditHeld hashtext r.body.kind r.body.id held ∧
      ⟨.settlement id, .update⟩ ∈ held ∧ db.settlements.get? id = none ∧
      LinesHeld lines held ∧ LinesFree db id lines ∧
      write = fun db => addSettlementLines id lines
        (addSettlement id (r.row at_) (db.advance .settlement))

def VoidSettlementShaped (id : String) : VoidSettlementAt → Prop
  | .begun => write = fun db => db
  | .held row _ =>
    ⟨.settlement id, .update⟩ ∈ held ∧
      db.settlements.get? id = some row ∧ row.voided = none ∧ write = fun db => db
  | .locked row _ =>
    CreditHeld hashtext row.kind row.payerId held ∧
      ⟨.settlement id, .update⟩ ∈ held ∧
      db.settlements.get? id = some row ∧ row.voided = none ∧ write = fun db => db
  | .stamped =>
    ∃ row stamp, CreditHeld hashtext row.kind row.payerId held ∧
      ⟨.settlement id, .update⟩ ∈ held ∧
      db.settlements.get? id = some row ∧ row.voided = none ∧
      write = stampSettlementAt id stamp

def VoidBillShaped (no : String) : VoidBillAt → Prop
  | .begun => write = fun db => db
  | .held _ | .unsettled _ =>
    ⟨.bill no, .update⟩ ∈ held ∧
      (∃ row, db.bills.get? no = some row ∧ row.voided = none) ∧ write = fun db => db
  | .stamped =>
    ⟨.bill no, .update⟩ ∈ held ∧
      (∃ row, db.bills.get? no = some row ∧ row.voided = none) ∧
      ∃ stamp, write = stampBillAt no stamp

end Shape

def Shaped (hashtext : String → ℤ) (db : Db) (x : Tx Db AccountKey AccountTx) :
    Prop :=
  match x.at_ with
  | .sale s p => SaleShaped hashtext db x.held x.write s p
  | .record r p => RecordShaped hashtext db x.held x.write r p
  | .voidSettlement _ id _ p =>
    VoidSettlementShaped hashtext db x.held x.write id p
  | .voidBill _ no _ p => VoidBillShaped db x.held x.write no p

/-! ## Statement by statement -/

section Next

variable {hashtext : String → ℤ} {db : Db} {at_ : Instant} {st : AccountStmt}

/-! A statement leaves a transaction of the kind it was. -/

theorem saleStmt_next {s : PricedSale} {p : SaleAt}
    (hs : saleStmt hashtext at_ s db p = some st) :
    ∃ p', st.next = .sale s p' := by
  cases p <;> simp only [saleStmt] at hs <;>
    grind [Stmt.read, Stmt.lock, Option.map_eq_some_iff,
      Option.bind_eq_some_iff]

theorem recordStmt_next {r : Recording} {p : RecordAt}
    (hs : recordStmt hashtext at_ r db p = some st) :
    ∃ r' p', st.next = .record r' p' := by
  cases p <;> simp only [recordStmt] at hs <;>
    grind [Stmt.read, Stmt.lock, Option.map_eq_some_iff]

theorem voidSettlementStmt_next {claims : Claims} {id reason : String}
    {p : VoidSettlementAt}
    (hs : voidSettlementStmt hashtext at_ claims id reason db p = some st) :
    ∃ p', st.next = .voidSettlement claims id reason p' := by
  cases p <;> simp only [voidSettlementStmt] at hs <;>
    grind [Stmt.lock, Option.bind_eq_some_iff]

theorem voidBillStmt_next {claims : Claims} {no reason : String}
    {p : VoidBillAt} (hs : voidBillStmt at_ claims no reason db p = some st) :
    ∃ p', st.next = .voidBill claims no reason p' := by
  cases p <;> simp only [voidBillStmt] at hs <;>
    grind [Stmt.read, Stmt.lock, Option.bind_eq_some_iff]

end Next

section Runs

variable {hashtext : String → ℤ} {db : Db} {held : List (Lock AccountKey)}
variable {write : Db → Db} {at_ : Instant} {st : AccountStmt}

theorem SaleShaped.runs {s : PricedSale} {p : SaleAt}
    (h : SaleShaped hashtext db held write s p)
    (hs : saleStmt hashtext at_ s (write db) p = some st) :
    Shaped hashtext db ⟨st.next, st.locks ++ held, st.write ∘ write⟩ := by
  cases p with
  | priced =>
      obtain rfl := h
      simp only [saleStmt] at hs
      split at hs
      · next hp =>
          cases hs
          refine ⟨?_, rfl⟩
          rw [hp]
          exact nofun
      · next p hp =>
          cases hs
          refine ⟨?_, rfl⟩
          rw [hp]
          intro q hq
          cases hq
          exact List.mem_cons_self
  | locked =>
      obtain ⟨p, -, rfl⟩ := Option.map_eq_some_iff.1 hs
      exact h
  | charged c =>
      obtain ⟨p, -, hs⟩ := Option.bind_eq_some_iff.1 hs
      dsimp only at hs
      split at hs
      · cases hs
      · cases hs
        exact h
  | cleared =>
      obtain ⟨hc, rfl⟩ := h
      cases hs
      exact ⟨fun p hp => List.mem_cons_of_mem _ (hc p hp), rfl⟩
  | numbered no at_ =>
      obtain ⟨hc, rfl⟩ := h
      obtain ⟨t, ht, rfl⟩ := Option.map_eq_some_iff.1 hs
      exact ⟨fun p hp => List.mem_cons_of_mem _ (hc p hp),
        List.mem_cons_self, (Table.insert?_eq_some ht).1, rfl⟩
  | billed no at_ => cases hs

theorem RecordShaped.runs {r : Recording} {p : RecordAt}
    (h : RecordShaped hashtext db held write r p)
    (hs : recordStmt hashtext at_ r (write db) p = some st) :
    Shaped hashtext db ⟨st.next, st.locks ++ held, st.write ∘ write⟩ := by
  cases p with
  | begun =>
      obtain ⟨_, -, rfl⟩ := Option.map_eq_some_iff.1 hs
      exact h
  | known =>
      cases hs
      exact ⟨List.mem_cons_self, h⟩
  | locked =>
      cases hs
      exact h
  | charged c =>
      simp only [recordStmt] at hs
      split at hs
      · cases hs
        exact h
      · cases hs
  | owed o =>
      simp only [recordStmt] at hs
      split at hs
      · cases hs
        exact h
      · cases hs
  | laid lines =>
      obtain ⟨hc, rfl⟩ := h
      cases hs
      exact ⟨List.mem_cons_of_mem _ hc, rfl⟩
  | numbered id at_ lines =>
      obtain ⟨hc, rfl⟩ := h
      obtain ⟨t, ht, rfl⟩ := Option.map_eq_some_iff.1 hs
      exact ⟨List.mem_cons_of_mem _ hc, List.mem_cons_self,
        (Table.insert?_eq_some ht).1, rfl⟩
  | headed id at_ lines =>
      obtain ⟨hc, hkey, hfree, rfl⟩ := h
      obtain ⟨t, ht, rfl⟩ := Option.map_eq_some_iff.1 hs
      refine ⟨List.mem_append_right _ hc, List.mem_append_right _ hkey, hfree,
        ?_, insertSettlementLines_some ht, rfl⟩
      exact fun l hl => List.mem_append_left _ (List.mem_map.2 ⟨l, hl, rfl⟩)
  | recorded id at_ lines => cases hs

theorem VoidSettlementShaped.runs {claims : Claims} {id reason : String}
    {p : VoidSettlementAt} (h : VoidSettlementShaped hashtext db held write id p)
    (hs : voidSettlementStmt hashtext at_ claims id reason (write db) p =
      some st) :
    Shaped hashtext db ⟨st.next, st.locks ++ held, st.write ∘ write⟩ := by
  cases p with
  | begun =>
      obtain rfl := h
      obtain ⟨row, hrow, hs⟩ := Option.bind_eq_some_iff.1 hs
      split at hs
      · next hlive =>
          cases hs
          exact ⟨List.mem_cons_self, hrow, hlive.2.1, rfl⟩
      · cases hs
  | held row at_ =>
      obtain ⟨hkey, hrow, hlive, rfl⟩ := h
      cases hs
      exact ⟨List.mem_cons_self, List.mem_cons_of_mem _ hkey, hrow, hlive, rfl⟩
  | locked row at_ =>
      obtain ⟨hc, hkey, hrow, hlive, rfl⟩ := h
      cases hs
      exact ⟨row, _, List.mem_cons_of_mem _ hc, List.mem_cons_of_mem _ hkey,
        hrow, hlive, rfl⟩
  | stamped => cases hs

theorem VoidBillShaped.runs {claims : Claims} {no reason : String}
    {p : VoidBillAt} (h : VoidBillShaped db held write no p)
    (hs : voidBillStmt at_ claims no reason (write db) p = some st) :
    Shaped hashtext db ⟨st.next, st.locks ++ held, st.write ∘ write⟩ := by
  cases p with
  | begun =>
      obtain rfl := h
      obtain ⟨row, hrow, hs⟩ := Option.bind_eq_some_iff.1 hs
      split at hs
      · next hlive =>
          cases hs
          exact ⟨List.mem_cons_self, ⟨row, hrow, hlive.2.2.1⟩, rfl⟩
      · cases hs
  | held at_ =>
      simp only [voidBillStmt] at hs
      split at hs
      · cases hs
        exact h
      · cases hs
  | unsettled at_ =>
      obtain ⟨hkey, hrow, rfl⟩ := h
      cases hs
      exact ⟨List.mem_cons_of_mem _ hkey, hrow, _, rfl⟩
  | stamped => cases hs

end Runs

section Shape

variable {hashtext : String → ℤ} {db : Db} {x : Tx Db AccountKey AccountTx}

theorem shaped_begins {t : AccountTx} (ht : t.starts = true) :
    Shaped hashtext db (.fresh t) := by
  cases t with
  | sale s p => cases p <;> first | rfl | cases ht
  | record r p => cases p <;> first | rfl | cases ht
  | voidSettlement claims id reason p => cases p <;> first | rfl | cases ht
  | voidBill claims no reason p => cases p <;> first | rfl | cases ht

theorem Shaped.runs {at_ : Instant} {st : AccountStmt}
    (h : Shaped hashtext db x)
    (hs : x.at_.stmt hashtext at_ (x.write db) = some st) :
    Shaped hashtext db (x.after st) := by
  obtain ⟨t, held, write⟩ := x
  cases t with
  | sale s p => exact SaleShaped.runs h hs
  | record r p => exact RecordShaped.runs h hs
  | voidSettlement claims id reason p => exact VoidSettlementShaped.runs h hs
  | voidBill claims no reason p => exact VoidBillShaped.runs h hs

theorem Shaped.commit (h : Shaped hashtext db x) (hd : x.at_.done = true) :
    AccountCommit hashtext db x.held x.at_ (x.write db) := by
  obtain ⟨t, held, write⟩ := x
  cases t with
  | sale s p =>
      cases p with
      | billed no at_ =>
          obtain ⟨hc, hkey, hfree, rfl⟩ := h
          exact .sold s no at_ hc hkey hfree
      | _ => cases hd
  | record r p =>
      cases p with
      | recorded id at_ lines =>
          obtain ⟨hc, hkey, hfree, hlaid, hlines, rfl⟩ := h
          exact .recorded r id at_ lines hc hkey hlaid hfree hlines
      | _ => cases hd
  | voidSettlement claims id reason p =>
      cases p with
      | stamped =>
          obtain ⟨row, stamp, hc, hkey, hrow, hlive, rfl⟩ := h
          exact .settlementVoided claims id reason row stamp hc hkey hrow hlive
      | _ => cases hd
  | voidBill claims no reason p =>
      cases p with
      | stamped =>
          obtain ⟨hkey, ⟨row, hrow, hlive⟩, stamp, rfl⟩ := h
          exact .billVoided claims no reason row stamp hkey hrow hlive
      | _ => cases hd

end Shape

/-! ## What a commit leaves the others -/

section Others

variable {hashtext : String → ℤ} {db db' : Db}
variable {held held' : List (Lock AccountKey)} {t : AccountTx}

theorem get?_addBill {no : String} (row : BillRow)
    (hfree : db.bills.get? no = none) (k : String) :
    (addBill no row db).bills.get? k =
      if k = no then some row else db.bills.get? k := by
  obtain ⟨t, ht⟩ := Table.insert?_of_free hfree row
  unfold addBill
  rw [ht]
  exact Table.get?_insert ht k

theorem get?_addSettlement {id : String} (row : SettlementRow)
    (hfree : db.settlements.get? id = none) (k : String) :
    (addSettlement id row db).settlements.get? k =
      if k = id then some row else db.settlements.get? k := by
  obtain ⟨t, ht⟩ := Table.insert?_of_free hfree row
  unfold addSettlement
  rw [ht]
  exact Table.get?_insert ht k

theorem addSettlementLines_rows {id : String} {lines : List SettlementLine}
    (h : LinesFree db id lines) :
    (addSettlementLines id lines db).settlementLines.rows =
      db.settlementLines.rows ++ lines.map fun l => ((id, l.no), l.amount) := by
  obtain ⟨t, ht⟩ := insertSettlementLines_of_free h.1 h.2
  unfold addSettlementLines
  rw [ht]
  exact insertSettlementLines_rows ht

variable (h : AccountCommit hashtext db held t db') (hc : clash held held' = false)

include h hc

/-- A bill this transaction has locked stays the row it read, and a number it
has taken stays free. -/
theorem AccountCommit.bill_kept {no : String}
    (hkey : ⟨.bill no, .update⟩ ∈ held') :
    db'.bills.get? no = db.bills.get? no := by
  have hother : ∀ {no' : String}, ⟨.bill no', .update⟩ ∈ held → no ≠ no' := by
    rintro no' hk rfl
    rw [clash_of_mem hk hkey rfl] at hc
    cases hc
  cases h with
  | sold s no' at_ _ hk hfree =>
      exact (get?_addBill _ hfree no).trans (if_neg (hother hk))
  | recorded => rfl
  | settlementVoided => rfl
  | billVoided claims no' reason row stamp hk => exact Table.get?_modify_ne _ _ (hother hk)

theorem AccountCommit.settlement_kept {id : String}
    (hkey : ⟨.settlement id, .update⟩ ∈ held') :
    db'.settlements.get? id = db.settlements.get? id := by
  have hother : ∀ {id' : String}, ⟨.settlement id', .update⟩ ∈ held →
      id ≠ id' := by
    rintro id' hk rfl
    rw [clash_of_mem hk hkey rfl] at hc
    cases hc
  cases h with
  | sold => rfl
  | recorded r id' at_ lines _ hk _ hfree =>
      exact (get?_addSettlement _ hfree id).trans (if_neg (hother hk))
  | settlementVoided claims id' reason row stamp _ hk =>
      exact Table.get?_modify_ne _ _ (hother hk)
  | billVoided => rfl

/-- Only a settlement's own recording adds lines under its number. -/
theorem AccountCommit.lines_free {id : String} {lines : List SettlementLine}
    (hkey : ⟨.settlement id, .update⟩ ∈ held') (hl : LinesFree db id lines) :
    LinesFree db' id lines := by
  cases h with
  | sold => exact hl
  | recorded r id' at_ lines' _ hk _ _ hfresh =>
      have hfresh' : LinesFree (addSettlement id' (r.row at_)
        (db.advance .settlement)) id' lines' := hfresh
      refine ⟨fun l hmem => ?_, hl.2⟩
      have hfree := hl.1 l hmem
      rw [Table.get?_eq_none] at hfree ⊢
      rw [addSettlementLines_rows hfresh', List.map_append, List.mem_append,
        not_or]
      refine ⟨hfree, fun hm => ?_⟩
      obtain ⟨p, hp, heq⟩ := List.mem_map.1 hm
      obtain ⟨l', -, rfl⟩ := List.mem_map.1 hp
      obtain ⟨rfl, -⟩ := Prod.mk.inj heq
      rw [clash_of_mem hk hkey rfl] at hc
      cases hc
  | settlementVoided => exact hl
  | billVoided => exact hl

end Others

theorem Shaped.stable {hashtext : String → ℤ} {db db' : Db}
    {held : List (Lock AccountKey)} {t : AccountTx} {y : Tx Db AccountKey AccountTx}
    (hy : Shaped hashtext db y) (h : AccountCommit hashtext db held t db')
    (hc : clash held y.held = false) : Shaped hashtext db' y := by
  obtain ⟨u, held', write⟩ := y
  cases u with
  | sale s p =>
      cases p with
      | billed no at_ =>
          obtain ⟨hcredit, hkey, hfree, hw⟩ := hy
          exact ⟨hcredit, hkey, (h.bill_kept hc hkey).trans hfree, hw⟩
      | _ => exact hy
  | record r p =>
      cases p with
      | headed id at_ lines =>
          obtain ⟨hcredit, hkey, hfree, hw⟩ := hy
          exact ⟨hcredit, hkey, (h.settlement_kept hc hkey).trans hfree, hw⟩
      | recorded id at_ lines =>
          obtain ⟨hcredit, hkey, hfree, hlaid, hlines, hw⟩ := hy
          exact ⟨hcredit, hkey, (h.settlement_kept hc hkey).trans hfree, hlaid,
            h.lines_free hc hkey hlines, hw⟩
      | _ => exact hy
  | voidSettlement claims id reason p =>
      cases p with
      | begun => exact hy
      | held row at_ =>
          obtain ⟨hkey, hrow, hrest⟩ := hy
          exact ⟨hkey, (h.settlement_kept hc hkey).trans hrow, hrest⟩
      | locked row at_ =>
          obtain ⟨hcredit, hkey, hrow, hrest⟩ := hy
          exact ⟨hcredit, hkey, (h.settlement_kept hc hkey).trans hrow, hrest⟩
      | stamped =>
          obtain ⟨row, stamp, hcredit, hkey, hrow, hrest⟩ := hy
          exact ⟨row, stamp, hcredit, hkey,
            (h.settlement_kept hc hkey).trans hrow, hrest⟩
  | voidBill claims no reason p =>
      cases p with
      | begun => exact hy
      | held at_ | unsettled at_ =>
          obtain ⟨hkey, ⟨row, hrow, hlive⟩, hw⟩ := hy
          exact ⟨hkey, ⟨row, (h.bill_kept hc hkey).trans hrow, hlive⟩, hw⟩
      | stamped =>
          obtain ⟨hkey, ⟨row, hrow, hlive⟩, hw⟩ := hy
          exact ⟨hkey, ⟨row, (h.bill_kept hc hkey).trans hrow, hlive⟩, hw⟩

end Rch
