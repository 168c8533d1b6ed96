import Rch.Machine.Registers
import Rch.Machine.Service

/-!
# Each bill falls inside exactly one Z

Whoever adds a bill to a session, or takes one out of its takings, holds the
session's row shared or has opened the session itself; whoever closes it holds
the row alone. So while a close counts, no commit moves a bill of its session,
and once it has committed none ever will.

A session a sale opened is nobody else's business until it commits: it is free
of every lock but the sale's, and the index entry keeps a second one out.
-/

namespace Rch

open Kit

/-! ## The session a sale belongs to -/

/-- How a sale came by its session, and what it has written for it. -/
inductive SessionFor (r : Registers) (held : List (Lock RegisterKey))
    (s : TillSale) (session : String) : (Registers → Registers) → Prop
  | shared (row : SessionRow) (key : ⟨.session session, .share⟩ ∈ held)
      (stands : r.db.sessions.get? session = some row)
      (loc : row.loc = s.input.loc) (still : row.closedAt = none) :
      SessionFor r held s session fun r => r
  | opened (at_ : Instant) (entry : ⟨.openAt s.input.loc, .update⟩ ∈ held)
      (key : ⟨.session session, .update⟩ ∈ held)
      (free : r.db.sessions.get? session = none)
      (none_ : openSessionAt r.db s.input.loc = none) :
      SessionFor r held s session
        (openSession session (freshSession s.input.loc s.input.operatorId at_))

def SessionStands (r : Registers) (held : List (Lock RegisterKey))
    (bill : BillRow) : Prop :=
  ∀ session, bill.sessionId = some session →
    ⟨.session session, .share⟩ ∈ held ∧
      ∃ row, r.db.sessions.get? session = some row ∧ row.closedAt = none

/-- What one commit writes, under which locks. -/
inductive RegisterCommit (r : Registers) (held : List (Lock RegisterKey)) :
    RegisterTx → Registers → Prop
  | raised (s : TillSale) (session no : String) (at_ : Instant)
      (opening : Registers → Registers)
      (by_ : SessionFor r held s session opening)
      (key : ⟨.bill no, .update⟩ ∈ held) (free : r.db.bills.get? no = none) :
      RegisterCommit r held (.sale s (.billed session no at_))
        (raiseBill no (s.row session at_) (advanceSequence .bill (opening r)))
  | unsold (claims : Claims) (no reason : String) (bill : BillRow)
      (stamp : VoidStamp) (key : ⟨.bill no, .update⟩ ∈ held)
      (stands : r.db.bills.get? no = some bill)
      (session : SessionStands r held bill) :
      RegisterCommit r held (.voidBill claims no reason (.stamped bill))
        (unsell no stamp r)
  | closed (claims : Claims) (body : CloseRegisterBody) (session zNo : String)
      (at_ : Instant) (row : SessionRow) (t : ClosedTotals)
      (settled : List SettledLine)
      (key : ⟨.session session, .update⟩ ∈ held)
      (stands : r.db.sessions.get? session = some row)
      (counted : t.totals =
        buildTotals (soldIn r.db session) (voidedIn r.db session) settled) :
      RegisterCommit r held (.close claims body (.closed session))
        (closeSession session zNo claims.sub at_ t
          (advanceSequence .zReport r))
  | elsewhere (db : Db) :
      RegisterCommit r held (.elsewhere db .written) (writeElsewhere db r)

/-! ## Where an open transaction stands -/

section Shape

variable (r : Registers) (held : List (Lock RegisterKey))
variable (write : Registers → Registers)

def TillShaped (s : TillSale) : TillAt → Prop
  | .begun | .pass _ | .missed _ => write = fun r => r
  | .held session => SessionFor r held s session write
  | .numbered session _ _ =>
    ∃ opening, SessionFor r held s session opening ∧
      write = fun r => advanceSequence .bill (opening r)
  | .billed session no at_ =>
    ∃ opening, SessionFor r held s session opening ∧
      ⟨.bill no, .update⟩ ∈ held ∧ r.db.bills.get? no = none ∧
      write = fun r =>
        raiseBill no (s.row session at_) (advanceSequence .bill (opening r))

def TillVoidShaped (no : String) : TillVoidAt → Prop
  | .begun => write = fun r => r
  | .found bill _ | .placed bill _ =>
    ⟨.bill no, .update⟩ ∈ held ∧ r.db.bills.get? no = some bill ∧
      write = fun r => r
  | .held bill _ =>
    ⟨.bill no, .update⟩ ∈ held ∧ r.db.bills.get? no = some bill ∧
      SessionStands r held bill ∧ write = fun r => r
  | .stamped bill =>
    ⟨.bill no, .update⟩ ∈ held ∧ r.db.bills.get? no = some bill ∧
      SessionStands r held bill ∧ ∃ stamp, write = unsell no stamp

def Taken (session : String) : Prop :=
  ⟨.session session, .update⟩ ∈ held ∧
    ∃ row, r.db.sessions.get? session = some row

/-- These are the totals of the session as it stands. -/
def Counts (session : String) (totals : RegisterTotals) : Prop :=
  ∃ settled, totals =
    buildTotals (soldIn r.db session) (voidedIn r.db session) settled

def CloseShaped (claims : Claims) : CloseAt → Prop
  | .begun | .placed => write = fun r => r
  | .taken session _ => Taken r held session ∧ write = fun r => r
  | .sold session _ _ sold =>
    Taken r held session ∧ sold = soldIn r.db session ∧ write = fun r => r
  | .voided session _ _ sold voided =>
    Taken r held session ∧ sold = soldIn r.db session ∧
      voided = voidedIn r.db session ∧ write = fun r => r
  | .counted session _ totals =>
    Taken r held session ∧ Counts r session totals ∧ write = fun r => r
  | .numbered session _ totals _ =>
    Taken r held session ∧ Counts r session totals ∧
      write = advanceSequence .zReport
  | .closed session =>
    Taken r held session ∧ ∃ zNo at_ t, Counts r session t.totals ∧
      write = fun r => closeSession session zNo claims.sub at_ t
        (advanceSequence .zReport r)

def ElsewhereShaped (db : Db) : ElsewhereAt → Prop
  | .begun => write = fun r => r
  | .written => write = writeElsewhere db

end Shape

def RegisterShaped (r : Registers) (x : Tx Registers RegisterKey RegisterTx) :
    Prop :=
  match x.at_ with
  | .sale s p => TillShaped r x.held x.write s p
  | .voidBill _ no _ p => TillVoidShaped r x.held x.write no p
  | .close claims _ p => CloseShaped r x.held x.write claims p
  | .elsewhere db p => ElsewhereShaped x.write db p

/-- The books. -/
structure RegistersKept (r : Registers) : Prop where
  /-- A bill is of one session, of its own outlet. -/
  bills : r.db.bills.All fun _ b => ∃ session row,
    b.sessionId = some session ∧ r.db.sessions.get? session = some row ∧
      row.loc = b.loc
  /-- At most one session an outlet is open. -/
  oneOpen : ∀ session row session' row',
    r.db.sessions.get? session = some row →
    r.db.sessions.get? session' = some row' →
    row.closedAt = none → row'.closedAt = none → row.loc = row'.loc →
    session = session'
  /-- A closed session's stored totals are those of its bills. -/
  counted : ∀ session row, r.db.sessions.get? session = some row →
    row.closedAt ≠ none → ∃ t, r.closedTotals session = some t ∧
      Counts r session t.totals

/-! ## Statement by statement -/

section Runs

variable {r : Registers} {held : List (Lock RegisterKey)}
variable {write : Registers → Registers} {c : RegisterChoice}
variable {st : RegisterStmt}

theorem lockOpenOutlet_some {db : Db} {loc : LocKey} {next : RegisterTx}
    (h : lockOpenOutlet db loc next = some st) :
    st = .lock (.outlet loc) .share next := by
  obtain ⟨_, -, rfl⟩ := Option.map_eq_some_iff.1 h
  rfl

theorem openSessionAt_some {db : Db} {loc : LocKey} {s : String × SessionRow}
    (h : openSessionAt db loc = some s) :
    db.sessions.get? s.1 = some s.2 ∧ s.2.loc = loc ∧ s.2.closedAt = none := by
  have hp := List.find?_some h
  simp only [Bool.and_eq_true, decide_eq_true_eq, Option.isNone_iff_eq_none]
    at hp
  exact ⟨Table.get?_eq_some.2 (List.mem_of_find?_eq_some h), hp⟩

/-- More locks do no harm. -/
theorem SessionFor.mono {s : TillSale} {session : String}
    {opening : Registers → Registers} {held' : List (Lock RegisterKey)}
    (h : SessionFor r held s session opening) (hsub : held ⊆ held') :
    SessionFor r held' s session opening := by
  cases h with
  | shared row key stands loc still =>
      exact .shared row (hsub key) stands loc still
  | opened at_ entry key free none_ =>
      exact .opened at_ (hsub entry) (hsub key) free none_

theorem TillShaped.runs {s : TillSale} {p : TillAt}
    (h : TillShaped r held write s p)
    (hs : tillStmt c s (write r) p = some st) :
    RegisterShaped r ⟨st.next, st.locks ++ held, st.write ∘ write⟩ := by
  cases p with
  | begun =>
      obtain rfl := lockOpenOutlet_some hs
      exact h
  | pass n =>
      obtain rfl := h
      simp only [tillStmt] at hs
      split at hs
      · split at hs
        · next session hopen =>
            cases hs
            obtain ⟨hstands, hloc, hstill⟩ :=
              openSessionAt_some (Option.filter_eq_some_iff.1 hopen).1
            exact .shared session.2 List.mem_cons_self hstands hloc hstill
        · cases hs
          rfl
      · cases hs
  | missed n =>
      obtain rfl := h
      simp only [tillStmt] at hs
      split at hs
      · next hnone =>
          cases hs
          exact .opened c.at_ List.mem_cons_self
            (List.mem_cons_of_mem _ List.mem_cons_self) hnone.2 hnone.1
      · cases hs
        rfl
  | held session =>
      cases hs
      exact ⟨write, h.mono (List.subset_append_right ..), rfl⟩
  | numbered session no at_ =>
      obtain ⟨opening, hfor, rfl⟩ := h
      obtain ⟨t, ht, rfl⟩ := Option.map_eq_some_iff.1 hs
      have hfree := (Table.insert?_eq_some ht).1
      refine ⟨opening, hfor.mono (List.subset_append_right ..),
        List.mem_cons_self, ?_, rfl⟩
      cases hfor <;> exact hfree
  | billed session no at_ => cases hs

theorem TillVoidShaped.runs {claims : Claims} {no reason : String}
    {p : TillVoidAt} (hi : RegistersKept r)
    (h : TillVoidShaped r held write no p)
    (hs : tillVoidStmt c claims no reason (write r) p = some st) :
    RegisterShaped r ⟨st.next, st.locks ++ held, st.write ∘ write⟩ := by
  cases p with
  | begun =>
      obtain rfl := h
      obtain ⟨bill, hbill, hs⟩ := Option.bind_eq_some_iff.1 hs
      split at hs
      · cases hs
        exact ⟨List.mem_cons_self, hbill, rfl⟩
      · cases hs
  | found bill at_ =>
      simp only [tillVoidStmt] at hs
      split at hs
      · obtain rfl := lockOpenOutlet_some hs
        exact ⟨List.mem_cons_of_mem _ h.1, h.2⟩
      · cases hs
  | placed bill at_ =>
      obtain ⟨hkey, hbill, rfl⟩ := h
      obtain ⟨session, row, hsession, hrow, -⟩ := hi.bills no bill hbill
      simp only [tillVoidStmt, hsession, hrow] at hs
      split at hs
      · next hstill =>
          cases hs
          refine ⟨List.mem_cons_of_mem _ hkey, hbill, ?_, rfl⟩
          intro session' hs'
          rw [hsession] at hs'
          cases hs'
          exact ⟨List.mem_cons_self, row, hrow, hstill⟩
      · cases hs
  | held bill at_ =>
      obtain ⟨hkey, hbill, hsession, rfl⟩ := h
      cases hs
      refine ⟨List.mem_cons_of_mem _ hkey, hbill, fun session hs => ?_, _, rfl⟩
      obtain ⟨hheld, hrow⟩ := hsession session hs
      exact ⟨List.mem_cons_of_mem _ hheld, hrow⟩
  | stamped bill => cases hs

theorem CloseShaped.runs {claims : Claims} {body : CloseRegisterBody}
    {p : CloseAt} (h : CloseShaped r held write claims p)
    (hs : closeStmt c claims body (write r) p = some st) :
    RegisterShaped r ⟨st.next, st.locks ++ held, st.write ∘ write⟩ := by
  cases p with
  | begun =>
      obtain ⟨_, -, rfl⟩ := Option.map_eq_some_iff.1 hs
      exact h
  | placed =>
      obtain rfl := h
      obtain ⟨session, hopen, rfl⟩ := Option.map_eq_some_iff.1 hs
      have hstands := openSessionAt_some (Option.filter_eq_some_iff.1 hopen).1
      exact ⟨⟨List.mem_cons_self, session.2, hstands.1⟩, rfl⟩
  | taken session row =>
      obtain ⟨htaken, rfl⟩ := h
      cases hs
      exact ⟨htaken, rfl, rfl⟩
  | sold session row at_ sold =>
      obtain ⟨htaken, hsold, rfl⟩ := h
      cases hs
      exact ⟨htaken, hsold, rfl, rfl⟩
  | voided session row at_ sold voided =>
      obtain ⟨htaken, rfl, rfl, rfl⟩ := h
      cases hs
      exact ⟨htaken, ⟨_, rfl⟩, rfl⟩
  | counted session at_ totals =>
      obtain ⟨⟨hkey, hrow⟩, hcounts, rfl⟩ := h
      cases hs
      exact ⟨⟨List.mem_cons_of_mem _ hkey, hrow⟩, hcounts, rfl⟩
  | numbered session at_ totals zNo =>
      obtain ⟨⟨hkey, hrow⟩, hcounts, rfl⟩ := h
      cases hs
      exact ⟨⟨List.mem_cons_of_mem _ hkey, hrow⟩, zNo, at_, _, hcounts, rfl⟩
  | closed session => cases hs

end Runs

section Shape

variable {r : Registers} {x : Tx Registers RegisterKey RegisterTx}

theorem registerShaped_begins {t : RegisterTx} (ht : t.starts = true) :
    RegisterShaped r (.fresh t) := by
  cases t with
  | sale s p => cases p <;> first | rfl | cases ht
  | voidBill claims no reason p => cases p <;> first | rfl | cases ht
  | close claims body p => cases p <;> first | rfl | cases ht
  | elsewhere db p => cases p <;> first | rfl | cases ht

theorem RegisterShaped.runs {c : RegisterChoice} {st : RegisterStmt}
    (hi : RegistersKept r) (h : RegisterShaped r x)
    (hs : x.at_.stmt c (x.write r) = some st) :
    RegisterShaped r (x.after st) := by
  obtain ⟨t, held, write⟩ := x
  cases t with
  | sale s p => exact TillShaped.runs h hs
  | voidBill claims no reason p => exact TillVoidShaped.runs hi h hs
  | close claims body p => exact CloseShaped.runs h hs
  | elsewhere db p =>
      cases p with
      | begun =>
          obtain rfl : _ = _ := h
          cases hs
          rfl
      | written => cases hs

theorem RegisterShaped.commit (h : RegisterShaped r x)
    (hd : x.at_.done = true) :
    RegisterCommit r x.held x.at_ (x.write r) := by
  obtain ⟨t, held, write⟩ := x
  cases t with
  | sale s p =>
      cases p with
      | billed session no at_ =>
          obtain ⟨opening, hfor, hkey, hfree, rfl⟩ := h
          exact .raised s session no at_ opening hfor hkey hfree
      | _ => cases hd
  | voidBill claims no reason p =>
      cases p with
      | stamped bill =>
          obtain ⟨hkey, hbill, hsession, stamp, rfl⟩ := h
          exact .unsold claims no reason bill stamp hkey hbill hsession
      | _ => cases hd
  | close claims body p =>
      cases p with
      | closed session =>
          obtain ⟨⟨hkey, row, hrow⟩, zNo, at_, t, ⟨settled, hcounts⟩, rfl⟩ := h
          exact .closed claims body session zNo at_ row t settled hkey hrow
            hcounts
      | _ => cases hd
  | elsewhere db p =>
      cases p with
      | written =>
          obtain rfl : _ = _ := h
          exact .elsewhere db
      | begun => cases hd

end Shape

/-! ## What a commit leaves the others -/

section Others

variable {r r' : Registers} {held held' : List (Lock RegisterKey)}
variable {t : RegisterTx}

theorem get?_raiseBill {no : String} (row : BillRow)
    (hfree : r.db.bills.get? no = none) (k : String) :
    (raiseBill no row r).db.bills.get? k =
      if k = no then some row else r.db.bills.get? k := by
  obtain ⟨t, ht⟩ := Table.insert?_of_free hfree row
  unfold raiseBill
  rw [ht]
  exact Table.get?_insert ht k

theorem get?_openSession {session : String} (row : SessionRow)
    (hfree : r.db.sessions.get? session = none) (k : String) :
    (openSession session row r).db.sessions.get? k =
      if k = session then some row else r.db.sessions.get? k := by
  obtain ⟨t, ht⟩ := Table.insert?_of_free hfree row
  unfold openSession
  rw [ht]
  exact Table.get?_insert ht k

theorem SessionFor.bills {s : TillSale} {session : String}
    {opening : Registers → Registers} (h : SessionFor r held s session opening) :
    (opening r).db.bills = r.db.bills ∧
      (opening r).closedTotals = r.closedTotals := by
  cases h <;> exact ⟨rfl, rfl⟩

/-- The sale's session, once it is written, and the others as they were. -/
theorem SessionFor.sessions {s : TillSale} {session : String}
    {opening : Registers → Registers} (h : SessionFor r held s session opening) :
    (∃ row, (opening r).db.sessions.get? session = some row ∧
      row.loc = s.input.loc ∧ row.closedAt = none) ∧
      ∀ k, k ≠ session →
        (opening r).db.sessions.get? k = r.db.sessions.get? k := by
  cases h with
  | shared row key stands loc still =>
      exact ⟨⟨row, stands, loc, still⟩, fun _ _ => rfl⟩
  | opened at_ entry key free none_ =>
      have hget := get?_openSession (r := r)
        (freshSession s.input.loc s.input.operatorId at_) free
      refine ⟨⟨_, (hget session).trans (if_pos rfl), rfl, rfl⟩, fun k hk => ?_⟩
      exact (hget k).trans (if_neg hk)

/-- The bills of a session change only under that session. -/
theorem billsIn_raiseBill {no session : String} {row : BillRow}
    (hfree : r.db.bills.get? no = none) (hne : row.sessionId ≠ some session) :
    billsIn (raiseBill no row r).db session = billsIn r.db session := by
  obtain ⟨t, ht⟩ := Table.insert?_of_free hfree row
  unfold billsIn raiseBill
  dsimp only
  rw [ht, Option.getD_some, (Table.insert?_eq_some ht).2, List.map_append,
    List.filter_append]
  simp [hne]

theorem billsIn_unsell {no session : String} {bill : BillRow}
    {stamp : VoidStamp} (hbill : r.db.bills.get? no = some bill)
    (hne : bill.sessionId ≠ some session) :
    billsIn (unsell no stamp r).db session = billsIn r.db session := by
  refine Table.filter_modify fun b hb => ?_
  rw [hbill] at hb
  cases hb
  exact ⟨decide_eq_false hne, decide_eq_false hne⟩

theorem Counts.congr {session : String} {totals : RegisterTotals}
    (h : Counts r session totals)
    (hb : billsIn r'.db session = billsIn r.db session) :
    Counts r' session totals := by
  obtain ⟨settled, rfl⟩ := h
  refine ⟨settled, ?_⟩
  unfold soldIn voidedIn
  rw [hb]

theorem openSessionAt_eq_none {db : Db} {loc : LocKey} :
    openSessionAt db loc = none ↔ ∀ session row,
      db.sessions.get? session = some row → row.loc = loc →
        row.closedAt ≠ none := by
  unfold openSessionAt
  rw [List.find?_eq_none]
  constructor
  · intro h session row hrow hloc hstill
    have := h (session, row) (Table.get?_eq_some.1 hrow)
    simp [hloc, hstill] at this
  · rintro h ⟨session, row⟩ hmem hp
    simp only [Bool.and_eq_true, decide_eq_true_eq, Option.isNone_iff_eq_none]
      at hp
    exact h session row (Table.get?_eq_some.2 hmem) hp.1 hp.2

section Kept

variable (h : RegisterCommit r held t r') (hc : clash held held' = false)

include h hc

/-- A session held in any way stays the row it was, and one about to be opened
stays unopened. -/
theorem RegisterCommit.session_kept {session : String} {mode : RowLock}
    (hkey : ⟨.session session, mode⟩ ∈ held') :
    r'.db.sessions.get? session = r.db.sessions.get? session := by
  have hother {other : String} (hk : ⟨.session other, .update⟩ ∈ held) :
      session ≠ other := by
    rintro rfl
    rw [clash_of_mem hk hkey rfl] at hc
    cases hc
  cases h with
  | raised s other no at_ opening hfor =>
      cases hfor with
      | shared => rfl
      | opened at_ _ key free _ =>
          exact (get?_openSession _ free session).trans (if_neg (hother key))
  | unsold => rfl
  | closed claims body other zNo at_ row t settled key =>
      exact Table.get?_modify_ne _ _ (hother key)
  | elsewhere => rfl

theorem RegisterCommit.none_kept {loc : LocKey}
    (hentry : ⟨.openAt loc, .update⟩ ∈ held')
    (hnone : openSessionAt r.db loc = none) :
    openSessionAt r'.db loc = none := by
  rw [openSessionAt_eq_none] at hnone ⊢
  cases h with
  | raised s other no at_ opening hfor =>
      cases hfor with
      | shared => exact hnone
      | opened at_ entry key free _ =>
          intro session row hrow hloc
          rw [show (raiseBill no _ (advanceSequence .bill (openSession other
            (freshSession s.input.loc s.input.operatorId at_) r))).db.sessions =
              (openSession other (freshSession s.input.loc s.input.operatorId
                at_) r).db.sessions from rfl, get?_openSession _ free] at hrow
          split at hrow
          · cases hrow
            have hloc' : s.input.loc = loc := hloc
            rw [hloc'] at entry
            rw [clash_of_mem entry hentry rfl] at hc
            cases hc
          · exact hnone session row hrow hloc
  | unsold => exact hnone
  | closed claims body other zNo at_ row t settled key stands =>
      refine Table.All.modify (P := fun _ (row : SessionRow) =>
        row.loc = loc → row.closedAt ≠ none) hnone fun _ _ _ _ => ?_
      exact Option.some_ne_none _
  | elsewhere => exact hnone

theorem RegisterCommit.bill_kept {no : String}
    (hkey : ⟨.bill no, .update⟩ ∈ held') :
    r'.db.bills.get? no = r.db.bills.get? no := by
  have hother {other : String} (hk : ⟨.bill other, .update⟩ ∈ held) :
      no ≠ other := by
    rintro rfl
    rw [clash_of_mem hk hkey rfl] at hc
    cases hc
  cases h with
  | raised s session other at_ opening hfor key free =>
      have hfree : (advanceSequence .bill (opening r)).db.bills.get? other =
          none := by
        rw [← free, ← hfor.bills.1]
        rfl
      refine (get?_raiseBill _ hfree no).trans ((if_neg (hother key)).trans ?_)
      rw [← hfor.bills.1]
      rfl
  | unsold claims other reason bill stamp key =>
      exact Table.get?_modify_ne _ _ (hother key)
  | closed => rfl
  | elsewhere => rfl

/-- Nothing moves the bills of a session somebody has to themselves. -/
theorem RegisterCommit.bills_kept {session : String}
    (hkey : ⟨.session session, .update⟩ ∈ held') :
    billsIn r'.db session = billsIn r.db session := by
  cases h with
  | raised s other no at_ opening hfor key free =>
      have hne : other ≠ session := by
        rintro rfl
        cases hfor with
        | shared _ hk | opened _ _ hk =>
            rw [clash_of_mem hk hkey rfl] at hc
            cases hc
      have hfree : (advanceSequence .bill (opening r)).db.bills.get? no =
          none := by
        rw [← free, ← hfor.bills.1]
        rfl
      rw [billsIn_raiseBill hfree fun h => hne (Option.some.inj h)]
      unfold billsIn
      rw [← hfor.bills.1]
      rfl
  | unsold claims no reason bill stamp _ hbill hsession =>
      refine billsIn_unsell hbill fun hs => ?_
      rw [clash_of_mem (hsession session hs).1 hkey rfl] at hc
      cases hc
  | closed => rfl
  | elsewhere => rfl

theorem SessionFor.stable {s : TillSale} {session : String}
    {opening : Registers → Registers}
    (hs : SessionFor r held' s session opening) :
    SessionFor r' held' s session opening := by
  cases hs with
  | shared row key stands loc still =>
      exact .shared row key ((h.session_kept hc key).trans stands) loc still
  | opened at_ entry key free none_ =>
      exact .opened at_ entry key ((h.session_kept hc key).trans free)
        (h.none_kept hc entry none_)

theorem SessionStands.stable {bill : BillRow}
    (hs : SessionStands r held' bill) : SessionStands r' held' bill := by
  intro session hsession
  obtain ⟨hkey, row, hrow, hstill⟩ := hs session hsession
  exact ⟨hkey, row, (h.session_kept hc hkey).trans hrow, hstill⟩

theorem Taken.stable {session : String} (ht : Taken r held' session) :
    Taken r' held' session := by
  obtain ⟨hkey, row, hrow⟩ := ht
  exact ⟨hkey, row, (h.session_kept hc hkey).trans hrow⟩

end Kept

theorem RegisterShaped.stable {y : Tx Registers RegisterKey RegisterTx}
    (hy : RegisterShaped r y) (h : RegisterCommit r held t r')
    (hc : clash held y.held = false) : RegisterShaped r' y := by
  obtain ⟨u, held', write⟩ := y
  cases u with
  | sale s p =>
      cases p with
      | held session => exact SessionFor.stable h hc hy
      | numbered session no at_ =>
          obtain ⟨opening, hfor, hw⟩ := hy
          exact ⟨opening, hfor.stable h hc, hw⟩
      | billed session no at_ =>
          obtain ⟨opening, hfor, hkey, hfree, hw⟩ := hy
          exact ⟨opening, hfor.stable h hc, hkey,
            (h.bill_kept hc hkey).trans hfree, hw⟩
      | _ => exact hy
  | voidBill claims no reason p =>
      cases p with
      | begun => exact hy
      | found bill at_ | placed bill at_ =>
          obtain ⟨hkey, hbill, hw⟩ := hy
          exact ⟨hkey, (h.bill_kept hc hkey).trans hbill, hw⟩
      | held bill at_ =>
          obtain ⟨hkey, hbill, hsession, hw⟩ := hy
          exact ⟨hkey, (h.bill_kept hc hkey).trans hbill,
            hsession.stable h hc, hw⟩
      | stamped bill =>
          obtain ⟨hkey, hbill, hsession, hw⟩ := hy
          exact ⟨hkey, (h.bill_kept hc hkey).trans hbill,
            hsession.stable h hc, hw⟩
  | close claims body p =>
      have hcounts {session : String} {totals : RegisterTotals}
          (htaken : Taken r held' session) (hn : Counts r session totals) :
          Counts r' session totals := hn.congr (h.bills_kept hc htaken.1)
      have hreads {session : String} (htaken : Taken r held' session) :
          soldIn r'.db session = soldIn r.db session ∧
            voidedIn r'.db session = voidedIn r.db session := by
        unfold soldIn voidedIn
        rw [h.bills_kept hc htaken.1]
        exact ⟨rfl, rfl⟩
      cases p with
      | begun | placed => exact hy
      | taken session row => exact ⟨hy.1.stable h hc, hy.2⟩
      | sold session row at_ sold =>
          obtain ⟨htaken, hsold, hw⟩ := hy
          exact ⟨htaken.stable h hc, hsold.trans (hreads htaken).1.symm, hw⟩
      | voided session row at_ sold voided =>
          obtain ⟨htaken, hsold, hvoided, hw⟩ := hy
          exact ⟨htaken.stable h hc, hsold.trans (hreads htaken).1.symm,
            hvoided.trans (hreads htaken).2.symm, hw⟩
      | counted session at_ totals | numbered session at_ totals zNo =>
          obtain ⟨htaken, hn, hw⟩ := hy
          exact ⟨htaken.stable h hc, hcounts htaken hn, hw⟩
      | closed session =>
          obtain ⟨htaken, zNo, at_, t, hn, hw⟩ := hy
          exact ⟨htaken.stable h hc, zNo, at_, t, hcounts htaken hn, hw⟩
  | elsewhere db p => exact hy

/-! ## A commit keeps the books -/

theorem RegistersKept.raised (hi : RegistersKept r) {s : TillSale}
    {session no : String} {at_ : Instant} {opening : Registers → Registers}
    (hfor : SessionFor r held s session opening)
    (free : r.db.bills.get? no = none) :
    RegistersKept (raiseBill no (s.row session at_)
      (advanceSequence .bill (opening r))) := by
  obtain ⟨⟨new, hnew, hloc, hstill⟩, hothers⟩ := hfor.sessions
  obtain ⟨hbills, htotals⟩ := hfor.bills
  have hfree : (advanceSequence .bill (opening r)).db.bills.get? no = none := by
    rw [← free, ← hbills]
    rfl
  have hget : ∀ k, (raiseBill no (s.row session at_)
      (advanceSequence .bill (opening r))).db.bills.get? k =
        if k = no then some (s.row session at_) else r.db.bills.get? k := by
    intro k
    rw [← hbills]
    exact get?_raiseBill _ hfree k
  refine ⟨fun k b hb => ?_, fun k row k' row' hrow hrow' h₁ h₂ hl => ?_,
    fun k row hrow hclosed => ?_⟩
  · rw [hget] at hb
    split at hb
    · cases hb
      exact ⟨session, new, rfl, hnew, hloc⟩
    · obtain ⟨session', row, hs, hrow, hbloc⟩ := hi.bills k b hb
      by_cases hsession : session' = session
      · subst hsession
        cases hfor with
        | shared => exact ⟨session', row, hs, hrow, hbloc⟩
        | opened _ _ _ free' =>
            rw [free'] at hrow
            cases hrow
      · exact ⟨session', row, hs, (hothers session' hsession).trans hrow, hbloc⟩
  · change (opening r).db.sessions.get? k = some row at hrow
    change (opening r).db.sessions.get? k' = some row' at hrow'
    cases hfor with
    | shared => exact hi.oneOpen k row k' row' hrow hrow' h₁ h₂ hl
    | opened at' _ _ free' none_ =>
        rw [openSessionAt_eq_none] at none_
        rw [get?_openSession _ free'] at hrow hrow'
        split at hrow
        · next hk =>
            split at hrow'
            · next hk' => exact hk.trans hk'.symm
            · cases hrow
              exact absurd h₂ (none_ k' row' hrow' hl.symm)
        · split at hrow'
          · cases hrow'
            exact absurd h₁ (none_ k row hrow hl)
          · exact hi.oneOpen k row k' row' hrow hrow' h₁ h₂ hl
  · change (opening r).db.sessions.get? k = some row at hrow
    have hne : k ≠ session := by
      rintro rfl
      rw [hnew] at hrow
      cases hrow
      exact hclosed hstill
    rw [hothers k hne] at hrow
    obtain ⟨t, ht, hn⟩ := hi.counted k row hrow hclosed
    refine ⟨t, htotals ▸ ht, hn.congr ?_⟩
    rw [billsIn_raiseBill hfree fun h => hne (Option.some.inj h).symm]
    unfold billsIn
    rw [← hbills]
    rfl

theorem RegistersKept.closed (hi : RegistersKept r) {session zNo by_ : String}
    {at_ : Instant} {row : SessionRow} {t : ClosedTotals}
    {settled : List SettledLine}
    (stands : r.db.sessions.get? session = some row)
    (counted : t.totals =
      buildTotals (soldIn r.db session) (voidedIn r.db session) settled) :
    RegistersKept (closeSession session zNo by_ at_ t
      (advanceSequence .zReport r)) := by
  let shut : SessionRow → SessionRow := fun s =>
    { s with zNo := some zNo, closedAt := some at_, closedBy := some by_ }
  have hself : (r.db.sessions.modify session shut).get? session =
      some (shut row) := by
    rw [Table.get?_modify_self, stands, Option.map_some]
  have hother {k : String} (hk : k ≠ session) :
      (r.db.sessions.modify session shut).get? k = r.db.sessions.get? k :=
    Table.get?_modify_ne _ _ hk
  -- what is open now was open before, as it was
  have hopen : ∀ k s, (r.db.sessions.modify session shut).get? k = some s →
      s.closedAt = none → r.db.sessions.get? k = some s := by
    intro k s hs hstill
    by_cases hk : k = session
    · subst hk
      rw [hself] at hs
      cases hs
      cases hstill
    · rwa [hother hk] at hs
  refine ⟨fun no b hb => ?_, fun k s k' s' hs hs' h₁ h₂ => ?_,
    fun k s hs hclosed => ?_⟩
  · obtain ⟨k, s, hk, hs, hloc⟩ := hi.bills no b hb
    by_cases hks : k = session
    · subst hks
      rw [stands] at hs
      cases hs
      exact ⟨k, shut row, hk, hself, hloc⟩
    · exact ⟨k, s, hk, (hother hks).trans hs, hloc⟩
  · exact hi.oneOpen k s k' s' (hopen k s hs h₁) (hopen k' s' hs' h₂) h₁ h₂
  · by_cases hk : k = session
    · subst hk
      exact ⟨t, if_pos rfl, settled, counted⟩
    · obtain ⟨t', ht', hn⟩ := hi.counted k s ((hother hk).symm.trans hs) hclosed
      exact ⟨t', (if_neg hk).trans ht', hn⟩

theorem RegistersKept.commit (hi : RegistersKept r)
    (h : RegisterCommit r held t r') : RegistersKept r' := by
  cases h with
  | raised s session no at_ opening hfor key free => exact hi.raised hfor free
  | unsold claims no reason bill stamp key hbill hsession =>
      refine ⟨Table.All.modify hi.bills fun _ _ hb => hb, hi.oneOpen,
        fun k row hrow hclosed => ?_⟩
      obtain ⟨t, ht, hn⟩ := hi.counted k row hrow hclosed
      refine ⟨t, ht, hn.congr (billsIn_unsell hbill fun hs => ?_)⟩
      obtain ⟨-, row', hrow', hstill⟩ := hsession k hs
      obtain rfl : row = row' := Option.some.inj (Eq.trans (Eq.symm hrow) hrow')
      exact hclosed hstill
  | closed claims body session zNo at_ row t settled key stands counted =>
      exact hi.closed stands counted
  | elsewhere db =>
      exact ⟨hi.bills, hi.oneOpen, fun k row hrow hclosed => by
        obtain ⟨t, ht, hn⟩ := hi.counted k row hrow hclosed
        exact ⟨t, ht, hn.congr rfl⟩⟩

end Others

/-! ## Over whole runs -/

theorem registersKept_fresh (rows : MasterRows) :
    RegistersKept ⟨Db.fresh rows, fun _ => none⟩ :=
  ⟨Table.all_empty _, nofun, nofun⟩

theorem registers_kept :
    registers.Kept (fun _ _ => True) RegistersKept RegisterShaped where
  init r hr := by
    obtain ⟨rows, rfl⟩ := hr
    exact registersKept_fresh rows
  begins r t _ ht := registerShaped_begins ht
  runs _ _ x c st _ _ hi hx hs := hx.runs hi hs
  commits w i x _ _ hi hx hd := hi.commit (hx.commit hd)
  stable w i j x y _ _ _ _ _ hox hoy hd hc := hoy.stable (hox.commit hd) hc

/-- The session a sale or a void is about to commit against. -/
def RegisterTx.against : RegisterTx → Option String
  | .sale _ (.billed session _ _) => some session
  | .voidBill _ _ _ (.stamped bill) => bill.sessionId
  | _ => none

theorem RegisterShaped.against {r : Registers}
    {x : Tx Registers RegisterKey RegisterTx} {session : String}
    (h : RegisterShaped r x) (hx : x.at_.against = some session) :
    (∀ row, r.db.sessions.get? session = some row → row.closedAt = none) ∧
      ∃ row, (x.write r).db.sessions.get? session = some row ∧
        row.closedAt = none := by
  obtain ⟨t, held, write⟩ := x
  cases t with
  | sale s p =>
      cases p with
      | billed session' no at_ =>
          cases hx
          obtain ⟨opening, hfor, -, -, rfl⟩ := h
          obtain ⟨⟨row, hrow, -, hstill⟩, -⟩ := hfor.sessions
          refine ⟨fun row' hrow' => ?_, row, hrow, hstill⟩
          cases hfor with
          | shared =>
              rw [hrow'] at hrow
              cases hrow
              exact hstill
          | opened _ _ _ free =>
              rw [free] at hrow'
              cases hrow'
      | _ => cases hx
  | voidBill claims no reason p =>
      cases p with
      | stamped bill =>
          obtain ⟨-, -, hsession, stamp, rfl⟩ := h
          obtain ⟨-, row, hrow, hstill⟩ := hsession session hx
          refine ⟨fun row' hrow' => ?_, row, hrow, hstill⟩
          rw [hrow'] at hrow
          cases hrow
          exact hstill
      | _ => cases hx
  | close claims body p => cases hx
  | elsewhere db p => cases hx

/-- Whatever the order of the statements of sales, voids and closes, at any
number of outlets: every bill is of one session, of its own outlet; an outlet
has at most one session open; what a closed session stored of its bills is what
its bills add up to still; and when a sale or a void commits, its session is
open and stays so. -/
theorem each_bill_in_one_z {w : World Registers RegisterKey RegisterTx}
    (h : registers.machine.Reach w) :
    RegistersKept w.committed ∧
      ∀ i w', registers.step w (.commit i) = some w' →
        ∀ x session, w.tx i = some x → x.at_.against = some session →
          (∀ row, w.committed.db.sessions.get? session = some row →
            row.closedAt = none) ∧
          ∃ row, w'.committed.db.sessions.get? session = some row ∧
            row.closedAt = none := by
  have hsafe := registers_kept.safe h
  refine ⟨hsafe.inv, fun i w' hw' x session hx hsession => ?_⟩
  obtain ⟨x', hx', -, rfl⟩ := Database.step_commit hw'
  obtain rfl := Option.some.inj (hx.symm.trans hx')
  exact (hsafe.ok i x hx).against hsession

def cashSale : TillSale where
  input :=
    { loc := "cafe", operatorId := "u2", lines := [], tender := .cash
      payer := none, customerName := none, customerPhone := none
      source := .till, qrOrderId := none }
  plan := { lines := [], tot := 200, disc := 0, tax := 0, moves := [] }
  terms := ⟨Pct.zero, none⟩
  payer := none
  phone := none

/-- Two first sales at once. The second waits for the first one's session and
sells against it; the close waits for both and counts both. -/
def firstSales : List (TxEvent RegisterChoice RegisterTx) :=
  let c : RegisterChoice := ⟨0, "s1", false⟩
  [.begin_ (.sale cashSale .begun), .begin_ (.sale cashSale .begun),
   .run 0 c, .run 1 c, .run 0 c, .run 1 c, .run 0 c, .run 0 c, .run 0 c,
   .commit 0, .run 1 c, .run 1 c, .run 1 c, .run 1 c,
   .begin_ (.close ⟨"u2", "cafe", false⟩ ⟨"cafe", none, ""⟩ .begun),
   .run 2 c, .commit 1, .run 2 c, .run 2 c, .run 2 c, .run 2 c, .run 2 c,
   .run 2 c, .commit 2]

theorem each_bill_in_one_z_cafe : ∃ w,
    registers.machine.run ⟨⟨Db.fresh corner, fun _ => none⟩, []⟩ firstSales =
        some w ∧
      RegistersKept w.committed ∧
      (w.committed.closedTotals "s1").map (fun t => t.totals.nettSales) =
        some ⟨40000⟩ := by
  have hany : (registers.machine.run ⟨⟨Db.fresh corner, fun _ => none⟩, []⟩
      firstSales).any (fun w => decide ((w.committed.closedTotals "s1").map
        (fun t => t.totals.nettSales) = some ⟨40000⟩)) = true := by
    decide +kernel
  obtain ⟨w, hrun, hd⟩ := (Option.any_eq_true _ _).1 hany
  have hinit : registers.machine.Reach ⟨⟨Db.fresh corner, fun _ => none⟩, []⟩ :=
    .init ⟨⟨corner, rfl⟩, rfl⟩
  exact ⟨w, hrun, (each_bill_in_one_z (Machine.reach_run hinit hrun)).1,
    of_decide_eq_true hd⟩

end Rch
