import Rch.Machine.Shifts

/-!
# One shift after another

Whatever the order of the statements of sign-ins, closes, sales and voids, a
person has one shift open at most, and of any two the one was closed before the
other was opened. So no bill is on two of a person's hand-overs, but for one rung
at the very instant the one was closed and the other opened at the same counter.

The advisory lock carries it: between a sign-in's look at the open shift and its
commit nobody else moves that person's shifts, so the index on open shifts never
has anything to refuse.
-/

namespace Rch.Shifts

open Kit

variable {env : ShiftEnv} {s s' : Book} {held held' : List (Lock ShiftKey)}

/-- The first was closed by the time the other was opened. -/
def Before (r r' : ShiftRow) : Prop := ∃ t, r.closedAt = some t ∧ t ≤ r'.openedAt

structure InOrder (s : Book) : Prop where
  apart : ∀ id id' r r', s.shifts.get? id = some r → s.shifts.get? id' = some r' → id ≠ id' →
    r.userId = r'.userId → Before r r' ∨ Before r' r
  opened : ∀ id r, s.shifts.get? id = some r → r.openedAt ≤ s.clock
  closed : ∀ id r t, s.shifts.get? id = some r → r.closedAt = some t →
    r.openedAt ≤ t ∧ t ≤ s.clock ∧ r.closedTotals.isSome = true
  numbered : ∀ id r, s.shifts.get? id = some r → id < s.sequence

/-! ## What a look at the open shift found -/

def Past (s : Book) (userId : String) (at_ : Instant) : Prop :=
  ∀ id r, s.shifts.get? id = some r → r.userId = userId →
    r.openedAt ≤ at_ ∧ ∀ t, r.closedAt = some t → t ≤ at_

/-- The person's shift that is open, as it was found. -/
structure Found (s : Book) (userId : String) (id : ℕ) (row : ShiftRow) (at_ : Instant) :
    Prop where
  here : s.shifts.get? id = some row
  owner : row.userId = userId
  open_ : row.closedAt = none
  past : Past s userId at_

/-- What a sign-in elsewhere writes of the shift left open. -/
def autoClose (shut : Option (ℕ × ShiftTotals)) (at_ : Instant) (s : Book) : Book :=
  match shut with
  | none => s
  | some (id, totals) => closeShiftRow id at_ totals true s

/-- What a sign-in closes is all that is open. -/
structure Ready (s : Book) (userId : String) (at_ : Instant) (shut : Option (ℕ × ShiftTotals)) :
    Prop where
  past : Past s userId at_
  all : ∀ id r, s.shifts.get? id = some r → r.userId = userId → r.closedAt = none →
    ∃ totals, shut = some (id, totals)
  open_ : ∀ id totals, shut = some (id, totals) → ∃ r, s.shifts.get? id = some r ∧
    r.userId = userId ∧ r.closedAt = none

def SameFor (userId : String) (s s' : Book) : Prop :=
  ∀ id r, r.userId = userId → (s'.shifts.get? id = some r ↔ s.shifts.get? id = some r)

theorem Past.same {userId : String} {at_ : Instant} (h : Past s userId at_)
    (hs : SameFor userId s s') : Past s' userId at_ :=
  fun id r hr hu => h id r ((hs id r hu).1 hr) hu

theorem Found.same {userId : String} {id : ℕ} {row : ShiftRow} {at_ : Instant}
    (h : Found s userId id row at_) (hs : SameFor userId s s') : Found s' userId id row at_ :=
  ⟨(hs id row h.owner).2 h.here, h.owner, h.open_, h.past.same hs⟩

theorem Ready.same {userId : String} {at_ : Instant} {shut : Option (ℕ × ShiftTotals)}
    (h : Ready s userId at_ shut) (hs : SameFor userId s s') : Ready s' userId at_ shut := by
  refine ⟨h.past.same hs, fun id r hr hu => h.all id r ((hs id r hu).1 hr) hu, ?_⟩
  intro id totals heq
  obtain ⟨r, hr, hu, hopen⟩ := h.open_ id totals heq
  exact ⟨r, (hs id r hu).2 hr, hu, hopen⟩

theorem openShiftOf_some {userId : String} {id : ℕ} {row : ShiftRow}
    (h : openShiftOf s userId = some (id, row)) :
    s.shifts.get? id = some row ∧ row.userId = userId ∧ row.closedAt = none := by
  have hp := List.find?_some h
  rw [Bool.and_eq_true, decide_eq_true_eq, Option.isNone_iff_eq_none] at hp
  exact ⟨Table.get?_eq_some.2 (List.mem_of_find?_eq_some h), hp.1, hp.2⟩

theorem openShiftOf_none {userId : String} (h : openShiftOf s userId = none) {id : ℕ}
    {r : ShiftRow} (hr : s.shifts.get? id = some r) (hu : r.userId = userId) :
    r.closedAt ≠ none := by
  intro hopen
  have hall := List.find?_eq_none.1 h (id, r) (Table.get?_eq_some.1 hr)
  rw [Bool.and_eq_true, decide_eq_true_eq, Option.isNone_iff_eq_none] at hall
  exact hall ⟨hu, hopen⟩

theorem openShiftOf_eq_none {userId : String} (h : ∀ id r, s.shifts.get? id = some r →
    r.userId = userId → r.closedAt ≠ none) : openShiftOf s userId = none := by
  cases heq : openShiftOf s userId with
  | none => rfl
  | some p =>
      obtain ⟨hrow, hu, hopen⟩ := openShiftOf_some heq
      exact absurd hopen (h p.1 p.2 hrow hu)

theorem InOrder.past (h : InOrder s) {at_ : Instant} (hat : s.clock ≤ at_) (userId : String) :
    Past s userId at_ := fun id r hr _ =>
  ⟨(h.opened id r hr).trans hat, fun t ht => (h.closed id r t hr ht).2.1.trans hat⟩

/-- No two shifts of a person's are open. -/
theorem InOrder.one (h : InOrder s) {id id' : ℕ} {r r' : ShiftRow}
    (hr : s.shifts.get? id = some r) (hr' : s.shifts.get? id' = some r')
    (hu : r.userId = r'.userId) (ho : r.closedAt = none) (ho' : r'.closedAt = none) :
    id = id' := by
  by_contra hne
  rcases h.apart id id' r r' hr hr' hne hu with ⟨t, ht, -⟩ | ⟨t, ht, -⟩
  · rw [ho] at ht
    cases ht
  · rw [ho'] at ht
    cases ht

/-! ## The writes -/

theorem get?_closeShiftRow {id : ℕ} {row : ShiftRow} {at_ : Instant} {totals : ShiftTotals}
    {auto : Bool} (hrow : s.shifts.get? id = some row) (k : ℕ) :
    (closeShiftRow id at_ totals auto s).shifts.get? k = if k = id then
      some { row with closedAt := some at_, closedTotals := some (totals, auto) }
    else s.shifts.get? k := Table.get?_modify_of_get? hrow _ k

theorem get?_insertShift {id : ℕ} (hfree : s.shifts.get? id = none) (row : ShiftRow) (k : ℕ) :
    (insertShift id row s).shifts.get? k = if k = id then some row else s.shifts.get? k :=
  Table.get?_insert_of_free hfree row k

theorem InOrder.close (h : InOrder s) {userId : String} {id : ℕ} {row : ShiftRow}
    {at_ : Instant} (hf : Found s userId id row at_) (totals : ShiftTotals) (auto : Bool) :
    InOrder (closeShiftRow id at_ totals auto s) := by
  have hget : ∀ k, (closeShiftRow id at_ totals auto s).shifts.get? k = if k = id then
      some { row with closedAt := some at_, closedTotals := some (totals, auto) }
    else s.shifts.get? k := get?_closeShiftRow hf.here
  have hat : row.openedAt ≤ at_ := (hf.past id row hf.here hf.owner).1
  have hother : ∀ k r, k ≠ id → s.shifts.get? k = some r → r.userId = userId →
      ∃ t, r.closedAt = some t ∧ t ≤ row.openedAt := by
    intro k r hk hr hu
    rcases h.apart k id r row hr hf.here hk (hu.trans hf.owner.symm) with hbefore | ⟨t, ht, -⟩
    · exact hbefore
    · rw [hf.open_] at ht
      cases ht
  have hclock : ∀ t, t ≤ s.clock → t ≤ (closeShiftRow id at_ totals auto s).clock :=
    fun t ht => ht.trans (le_max_left _ _)
  refine ⟨?_, ?_, ?_, ?_⟩
  · intro k k' r r' hr hr' hne hu
    rw [hget] at hr hr'
    split at hr
    · next hk =>
        cases hr
        rw [if_neg fun hk' => hne (hk.trans hk'.symm)] at hr'
        obtain ⟨t, ht, hle⟩ := hother k' r' (fun hk' => hne (hk.trans hk'.symm)) hr'
          (hu.symm.trans hf.owner)
        exact .inr ⟨t, ht, hle⟩
    · next hk =>
        split at hr'
        · cases hr'
          obtain ⟨t, ht, hle⟩ := hother k r hk hr (hu.trans hf.owner)
          exact .inl ⟨t, ht, hle⟩
        · exact h.apart k k' r r' hr hr' hne hu
  · intro k r hr
    rw [hget] at hr
    split at hr
    · cases hr
      exact hclock _ (h.opened id row hf.here)
    · exact hclock _ (h.opened k r hr)
  · intro k r t hr ht
    rw [hget] at hr
    split at hr
    · cases hr
      cases ht
      exact ⟨hat, le_max_right _ _, rfl⟩
    · obtain ⟨hle, hle', htotals⟩ := h.closed k r t hr ht
      exact ⟨hle, hclock _ hle', htotals⟩
  · intro k r hr
    rw [hget] at hr
    split at hr
    · next hk =>
        rw [hk]
        exact h.numbered id row hf.here
    · exact h.numbered k r hr

theorem Ready.found {userId : String} {at_ : Instant} {id : ℕ} {totals : ShiftTotals}
    (h : Ready s userId at_ (some (id, totals))) : ∃ row, Found s userId id row at_ := by
  obtain ⟨row, hrow, hu, hopen⟩ := h.open_ id totals rfl
  exact ⟨row, hrow, hu, hopen, h.past⟩

theorem Found.ready (h : InOrder s) {userId : String} {id : ℕ} {row : ShiftRow} {at_ : Instant}
    (hf : Found s userId id row at_) (totals : ShiftTotals) :
    Ready s userId at_ (some (id, totals)) := by
  refine ⟨hf.past, fun k r hr hu hopen => ?_, fun k totals' heq => ?_⟩
  · have hk := h.one hr hf.here (hu.trans hf.owner.symm) hopen hf.open_
    exact ⟨totals, by rw [hk]⟩
  · cases heq
    exact ⟨row, hf.here, hf.owner, hf.open_⟩

/-- What a sign-in is left with before it opens a shift. -/
theorem Ready.vacated (h : InOrder s) {userId : String} {at_ : Instant}
    {shut : Option (ℕ × ShiftTotals)} (hr : Ready s userId at_ shut) :
    InOrder (autoClose shut at_ s) ∧
      ∀ id r, (autoClose shut at_ s).shifts.get? id = some r → r.userId = userId →
        ∃ t, r.closedAt = some t ∧ t ≤ at_ := by
  cases shut with
  | none =>
      refine ⟨h, fun id r hget hu => ?_⟩
      cases hclosed : r.closedAt with
      | some t => exact ⟨t, rfl, (hr.past id r hget hu).2 t hclosed⟩
      | none =>
          obtain ⟨totals, heq⟩ := hr.all id r hget hu hclosed
          cases heq
  | some p =>
      obtain ⟨id, totals⟩ := p
      obtain ⟨row, hf⟩ := hr.found
      refine ⟨h.close hf totals true, fun k r hget hu => ?_⟩
      change (closeShiftRow id at_ totals true s).shifts.get? k = some r at hget
      rw [get?_closeShiftRow hf.here] at hget
      split at hget
      · cases hget
        exact ⟨at_, rfl, le_refl _⟩
      · next hk =>
          cases hclosed : r.closedAt with
          | some t => exact ⟨t, rfl, (hr.past k r hget hu).2 t hclosed⟩
          | none =>
              obtain ⟨totals', heq⟩ := hr.all k r hget hu hclosed
              cases heq
              exact absurd rfl hk

/-- A number that was drawn names no shift. -/
theorem InOrder.drawn (h : InOrder s) : InOrder (drawNumber s) ∧
    s.shifts.get? s.sequence = none := by
  refine ⟨⟨h.apart, h.opened, h.closed, fun id r hr => Nat.lt_succ_of_lt (h.numbered id r hr)⟩,
    ?_⟩
  cases hget : s.shifts.get? s.sequence with
  | none => rfl
  | some r => exact absurd (h.numbered _ r hget) (Nat.lt_irrefl _)

theorem sequence_autoClose (shut : Option (ℕ × ShiftTotals)) (at_ : Instant) (s : Book) :
    (autoClose shut at_ s).sequence = s.sequence := by
  cases shut with
  | none => rfl
  | some p => rfl

/-- What a sign-in writes where a shift is opened. -/
def startWrite (userId : String) (loc : LocKey) (id : ℕ) (at_ : Instant)
    (shut : Option (ℕ × ShiftTotals)) (s : Book) : Book :=
  insertShift id (freshShift userId loc at_) (drawNumber (autoClose shut at_ s))

theorem free_startWrite (h : InOrder s) {userId : String} {at_ : Instant}
    {shut : Option (ℕ × ShiftTotals)} (hr : Ready s userId at_ shut) :
    (drawNumber (autoClose shut at_ s)).shifts.get? s.sequence = none := by
  have hdrawn := (hr.vacated h).1.drawn.2
  rw [sequence_autoClose] at hdrawn
  exact hdrawn

theorem InOrder.start (h : InOrder s) {userId : String} {at_ : Instant}
    {shut : Option (ℕ × ShiftTotals)} (hr : Ready s userId at_ shut) (loc : LocKey) :
    InOrder (startWrite userId loc s.sequence at_ shut s) := by
  obtain ⟨hvacated, hall⟩ := hr.vacated h
  have hbase := hvacated.drawn.1
  have hfree := free_startWrite h hr
  have hget := fun k => get?_insertShift hfree (freshShift userId loc at_) k
  have hold : ∀ k r, (drawNumber (autoClose shut at_ s)).shifts.get? k = some r →
      r.userId = userId → ∃ t, r.closedAt = some t ∧ t ≤ at_ := hall
  have hseq : s.sequence < (drawNumber (autoClose shut at_ s)).sequence := by
    change s.sequence < (autoClose shut at_ s).sequence + 1
    rw [sequence_autoClose]
    exact Nat.lt_succ_self _
  unfold startWrite
  generalize drawNumber (autoClose shut at_ s) = b at *
  have hclock : ∀ t, t ≤ b.clock →
      t ≤ (insertShift s.sequence (freshShift userId loc at_) b).clock :=
    fun t ht => ht.trans (le_max_left _ _)
  refine ⟨?_, ?_, ?_, ?_⟩
  · intro k k' r r' hk hk' hne hu
    rw [hget] at hk hk'
    split at hk
    · next heq =>
        cases hk
        rw [if_neg fun heq' => hne (heq.trans heq'.symm)] at hk'
        obtain ⟨t, ht, hle⟩ := hold k' r' hk' hu.symm
        exact .inr ⟨t, ht, hle⟩
    · next heq =>
        split at hk'
        · cases hk'
          obtain ⟨t, ht, hle⟩ := hold k r hk hu
          exact .inl ⟨t, ht, hle⟩
        · exact hbase.apart k k' r r' hk hk' hne hu
  · intro k r hk
    rw [hget] at hk
    split at hk
    · cases hk
      exact le_max_right _ _
    · exact hclock _ (hbase.opened k r hk)
  · intro k r t hk ht
    rw [hget] at hk
    split at hk
    · cases hk
      cases ht
    · obtain ⟨hle, hle', htotals⟩ := hbase.closed k r t hk ht
      exact ⟨hle, hclock _ hle', htotals⟩
  · intro k r hk
    rw [hget] at hk
    split at hk
    · next heq =>
        rw [heq]
        exact hseq
    · exact hbase.numbered k r hk

/-! ## Where each transaction stands -/

section Shape

variable (env : ShiftEnv) (s : Book) (held : List (Lock ShiftKey)) (write : Book → Book)
variable (userId : String) (loc : LocKey)

def Locked (P : Prop) : Prop := ⟨env.lock userId, .update⟩ ∈ held ∧ P

/-- A shift about to be stored, under the number just drawn. -/
structure Opening (id : ℕ) (at_ : Instant) (shut : Option (ℕ × ShiftTotals)) : Prop where
  key : ⟨.sequence, .noKeyUpdate⟩ ∈ held
  drawn : id = s.sequence
  ready : Ready s userId at_ shut

def SignInShaped : SignInAt → Prop
  | .begun => write = id
  | .locked | .kept => Locked env held userId (write = id)
  | .closing id row at_ _ =>
    Locked env held userId (Found s userId id row at_ ∧ write = fun x => x)
  | .vacated at_ =>
    Locked env held userId (∃ shut, Ready s userId at_ shut ∧ write = autoClose shut at_)
  | .numbered id at_ =>
    Locked env held userId (∃ shut, Opening s held userId id at_ shut ∧
      write = fun s => drawNumber (autoClose shut at_ s))
  | .opened =>
    Locked env held userId (∃ id at_ shut, Opening s held userId id at_ shut ∧
      write = startWrite userId loc id at_ shut)

def CloseShaped : CloseAt → Prop
  | .begun => write = id
  | .locked => Locked env held userId (write = id)
  | .closing id row at_ _ =>
    Locked env held userId (Found s userId id row at_ ∧ write = fun x => x)
  | .closed =>
    Locked env held userId (∃ id row at_ totals, Found s userId id row at_ ∧
      write = closeShiftRow id at_ totals false)

/-- A write that leaves the shifts and their numbers alone. -/
def Aside : Prop :=
  ∀ s, (write s).shifts = s.shifts ∧ (write s).sequence = s.sequence ∧ s.clock ≤ (write s).clock

end Shape

def ShiftShaped (env : ShiftEnv) (s : Book) (x : Tx Book ShiftKey ShiftTx) : Prop :=
  match x.at_ with
  | .signIn userId loc p => SignInShaped env s x.held x.write userId loc p
  | .close userId _ p => CloseShaped env s x.held x.write userId p
  | .sale _ _ _ | .voidBill _ _ => Aside x.write

/-- What one commit writes, and under whose lock. -/
inductive ShiftCommit (env : ShiftEnv) (s : Book) (held : List (Lock ShiftKey)) : Book → Prop
  | aside (s' : Book) (shifts : s'.shifts = s.shifts) (sequence : s'.sequence = s.sequence)
      (clock : s.clock ≤ s'.clock) : ShiftCommit env s held s'
  | shut (userId : String) (id : ℕ) (row : ShiftRow) (at_ : Instant) (totals : ShiftTotals)
      (key : ⟨env.lock userId, .update⟩ ∈ held) (found : Found s userId id row at_) :
      ShiftCommit env s held (closeShiftRow id at_ totals false s)
  | started (userId : String) (loc : LocKey) (id : ℕ) (at_ : Instant)
      (shut : Option (ℕ × ShiftTotals)) (key : ⟨env.lock userId, .update⟩ ∈ held)
      (opening : Opening s held userId id at_ shut) :
      ShiftCommit env s held (startWrite userId loc id at_ shut s)

/-! ## A statement keeps it -/

section Runs

variable {c : ShiftChoice} {write : Book → Book} {userId : String} {loc : LocKey}
variable {st : ShiftStmt}

theorem Opening.mono {id : ℕ} {at_ : Instant} {shut : Option (ℕ × ShiftTotals)}
    (h : Opening s held userId id at_ shut) (hsub : held ⊆ held') :
    Opening s held' userId id at_ shut := ⟨hsub h.key, h.drawn, h.ready⟩

/-- Somebody with no shift open is ready for one. -/
theorem InOrder.ready (h : InOrder s) {at_ : Instant} (hnone : openShiftOf s userId = none)
    (hat : s.clock ≤ at_) : Ready s userId at_ none := by
  refine ⟨h.past hat userId, fun id r hr hu hopen => ?_, fun id totals heq => ?_⟩
  · exact absurd hopen (openShiftOf_none hnone hr hu)
  · cases heq

theorem InOrder.found (h : InOrder s) {at_ : Instant} {id : ℕ} {row : ShiftRow}
    (hsome : openShiftOf s userId = some (id, row)) (hat : s.clock ≤ at_) :
    Found s userId id row at_ := by
  obtain ⟨hrow, hu, hopen⟩ := openShiftOf_some hsome
  exact ⟨hrow, hu, hopen, h.past hat userId⟩

theorem SignInShaped.runs (hi : InOrder s) {p : SignInAt}
    (h : SignInShaped env s held write userId loc p)
    (hs : signInStmt env c (write s) userId loc p = some st) :
    ShiftShaped env s ⟨st.next, st.locks ++ held, st.write ∘ write⟩ := by
  cases p with
  | begun =>
      cases hs
      exact ⟨List.mem_cons_self, h⟩
  | locked =>
      obtain ⟨hkey, rfl⟩ := h
      simp only [signInStmt, id_eq] at hs
      split at hs
      · next id row hsome =>
          split at hs
          · cases hs
            exact ⟨hkey, rfl⟩
          · split at hs
            · next hat =>
                cases hs
                exact ⟨hkey, hi.found hsome hat, rfl⟩
            · cases hs
      · next hnone =>
          split at hs
          · next hat =>
              cases hs
              exact ⟨hkey, none, hi.ready hnone hat, rfl⟩
          · cases hs
  | closing id row at_ count =>
      obtain ⟨hkey, hf, rfl⟩ := h
      cases count with
      | looked | sold lines =>
          cases hs
          exact ⟨hkey, hf, rfl⟩
      | counted totals =>
          cases hs
          exact ⟨List.mem_cons_of_mem _ hkey, some (id, totals), hf.ready hi totals, rfl⟩
  | vacated at_ =>
      obtain ⟨hkey, shut, hr, rfl⟩ := h
      cases hs
      exact ⟨List.mem_cons_of_mem _ hkey, shut,
        ⟨List.mem_cons_self, sequence_autoClose shut at_ s, hr⟩, rfl⟩
  | numbered id at_ =>
      obtain ⟨hkey, shut, ho, rfl⟩ := h
      simp only [signInStmt, Option.ite_none_right_eq_some] at hs
      obtain ⟨-, hst⟩ := hs
      cases hst
      exact ⟨List.mem_cons_of_mem _ hkey, id, at_, shut,
        ho.mono (List.subset_cons_self _ _), rfl⟩
  | kept | opened => cases hs

theorem CloseShaped.runs (hi : InOrder s) {p : CloseAt}
    (h : CloseShaped env s held write userId p)
    (hs : closeStmt env c (write s) userId loc p = some st) :
    ShiftShaped env s ⟨st.next, st.locks ++ held, st.write ∘ write⟩ := by
  cases p with
  | begun =>
      cases hs
      exact ⟨List.mem_cons_self, h⟩
  | locked =>
      obtain ⟨hkey, rfl⟩ := h
      obtain ⟨⟨id, row⟩, hsome, hs⟩ := Option.bind_eq_some_iff.1 hs
      split at hs
      · next hat =>
          cases hs
          exact ⟨hkey, hi.found hsome hat.2, rfl⟩
      · cases hs
  | closing id row at_ count =>
      obtain ⟨hkey, hf, rfl⟩ := h
      cases count with
      | looked | sold lines =>
          cases hs
          exact ⟨hkey, hf, rfl⟩
      | counted totals =>
          cases hs
          exact ⟨List.mem_cons_of_mem _ hkey, id, row, at_, totals, hf, rfl⟩
  | closed => cases hs

theorem Aside.comp {f : Book → Book} (hf : Aside f) (h : Aside write) : Aside (f ∘ write) := by
  intro s
  obtain ⟨hshifts, hseq, hclock⟩ := hf (write s)
  obtain ⟨hshifts', hseq', hclock'⟩ := h s
  exact ⟨hshifts.trans hshifts', hseq.trans hseq', hclock'.trans hclock⟩

theorem aside_id : Aside id := fun _ => ⟨rfl, rfl, le_refl _⟩

theorem saleStmt_aside {b : BilledRow} {drawn : Option (String × Instant)} {rung : Bool}
    {s : Book} (hs : saleStmt c s b drawn rung = some st) :
    Aside st.write ∧ ∃ drawn rung, st.next = .sale b drawn rung := by
  cases rung with
  | true => cases drawn <;> cases hs
  | false =>
      cases drawn with
      | none =>
          simp only [saleStmt, Option.ite_none_right_eq_some] at hs
          obtain ⟨-, hst⟩ := hs
          cases hst
          exact ⟨aside_id, _, _, rfl⟩
      | some p =>
          obtain ⟨no, at_⟩ := p
          obtain ⟨t, -, rfl⟩ := Option.map_eq_some_iff.1 hs
          exact ⟨fun _ => ⟨rfl, rfl, le_max_left _ _⟩, _, _, rfl⟩

theorem ShiftShaped.runs (hi : InOrder s) {x : Tx Book ShiftKey ShiftTx}
    (h : ShiftShaped env s x) (hs : x.at_.stmt env c (x.write s) = some st) :
    ShiftShaped env s (x.after st) := by
  obtain ⟨t, held, write⟩ := x
  cases t with
  | signIn userId loc p => exact SignInShaped.runs hi h hs
  | close userId loc p => exact CloseShaped.runs hi h hs
  | sale b drawn rung =>
      obtain ⟨hwrite, drawn', rung', hnext⟩ := saleStmt_aside hs
      have haside := hwrite.comp h
      unfold ShiftShaped Tx.after
      rw [hnext]
      exact haside
  | voidBill no stamped =>
      cases stamped with
      | true => cases hs
      | false =>
          obtain ⟨b, -, rfl⟩ := Option.map_eq_some_iff.1 hs
          have hstrike : Aside (strike no) := fun _ => ⟨rfl, rfl, le_refl _⟩
          exact hstrike.comp h

theorem shiftShaped_begins {t : ShiftTx} (ht : t.starts = true) :
    ShiftShaped env s (.fresh t) := by
  cases t with
  | signIn userId loc p => cases p <;> first | rfl | cases ht
  | close userId loc p => cases p <;> first | rfl | cases ht
  | sale b drawn rung => exact aside_id
  | voidBill no stamped => exact aside_id

theorem ShiftShaped.commit {x : Tx Book ShiftKey ShiftTx} (h : ShiftShaped env s x)
    (hd : x.at_.done = true) : ShiftCommit env s x.held (x.write s) := by
  obtain ⟨t, held, write⟩ := x
  cases t with
  | signIn userId loc p =>
      cases p with
      | kept =>
          obtain ⟨-, rfl⟩ : Locked env held userId (write = id) := h
          exact .aside s rfl rfl (le_refl _)
      | opened =>
          obtain ⟨hkey, id, at_, shut, ho, rfl⟩ : Locked env held userId _ := h
          exact .started userId loc id at_ shut hkey ho
      | _ => cases hd
  | close userId loc p =>
      cases p with
      | closed =>
          obtain ⟨hkey, id, row, at_, totals, hf, rfl⟩ : Locked env held userId _ := h
          exact .shut userId id row at_ totals hkey hf
      | _ => cases hd
  | sale _ _ _ | voidBill _ _ =>
      have haside : Aside write := h
      obtain ⟨hshifts, hseq, hclock⟩ := haside s
      exact .aside _ hshifts hseq hclock

end Runs

/-! ## What a commit leaves -/

theorem InOrder.aside (h : InOrder s) (hshifts : s'.shifts = s.shifts)
    (hseq : s'.sequence = s.sequence) (hclock : s.clock ≤ s'.clock) : InOrder s' := by
  refine ⟨?_, ?_, ?_, ?_⟩ <;> rw [hshifts]
  · exact h.apart
  · exact fun id r hr => (h.opened id r hr).trans hclock
  · intro id r t hr ht
    obtain ⟨hle, hle', htotals⟩ := h.closed id r t hr ht
    exact ⟨hle, hle'.trans hclock, htotals⟩
  · rw [hseq]
    exact h.numbered

theorem InOrder.commit (h : InOrder s) (hc : ShiftCommit env s held s') : InOrder s' := by
  cases hc with
  | aside s' shifts sequence clock => exact h.aside shifts sequence clock
  | shut userId id row at_ totals key found => exact h.close found totals false
  | started userId loc id at_ shut key opening =>
      obtain ⟨-, rfl, hready⟩ := opening
      exact h.start hready loc

/-- A shift closed under one person's lock is nobody else's. -/
theorem Found.sameFor {userId userId' : String} {id : ℕ} {row : ShiftRow} {at_ : Instant}
    (hf : Found s userId id row at_) (hne : userId ≠ userId') (totals : ShiftTotals)
    (auto : Bool) : SameFor userId' s (closeShiftRow id at_ totals auto s) := by
  intro k r hu
  rw [get?_closeShiftRow hf.here]
  split
  · next hk =>
      rw [hk, hf.here]
      constructor
      · intro heq
        cases heq
        exact absurd (hf.owner.symm.trans hu) hne
      · intro heq
        cases heq
        exact absurd (hf.owner.symm.trans hu) hne
  · rfl

theorem Ready.sameFor {userId userId' : String} {at_ : Instant}
    {shut : Option (ℕ × ShiftTotals)} (hr : Ready s userId at_ shut) (hne : userId ≠ userId') :
    SameFor userId' s (autoClose shut at_ s) := by
  cases shut with
  | none => exact fun _ _ _ => Iff.rfl
  | some p =>
      obtain ⟨row, hf⟩ := hr.found
      exact hf.sameFor hne p.2 true

/-- What one transaction commits leaves alone the person another one holds. -/
theorem ShiftCommit.sameFor (h : InOrder s) (hc : ShiftCommit env s held s')
    (hapart : clash held held' = false) {userId : String}
    (hkey : ⟨env.lock userId, .update⟩ ∈ held') : SameFor userId s s' := by
  have hother : ∀ u, ⟨env.lock u, .update⟩ ∈ held → u ≠ userId := by
    rintro u hu rfl
    rw [clash_of_mem hu hkey rfl] at hapart
    cases hapart
  cases hc with
  | aside s' shifts sequence clock =>
      intro k r _
      rw [shifts]
  | shut u id row at_ totals key found => exact found.sameFor (hother u key) totals false
  | started u loc id at_ shut key opening =>
      obtain ⟨-, rfl, hready⟩ := opening
      have hne := hother u key
      intro k r hu
      have hauto := hready.sameFor hne k r hu
      unfold startWrite
      rw [get?_insertShift (free_startWrite h hready)]
      split
      · next hk =>
          rw [hk, h.drawn.2]
          constructor
          · intro heq
            cases heq
            exact absurd hu hne
          · intro heq
            cases heq
      · exact hauto

theorem ShiftCommit.sequence (hc : ShiftCommit env s held s') (hapart : clash held held' = false)
    (hkey : ⟨.sequence, .noKeyUpdate⟩ ∈ held') : s'.sequence = s.sequence := by
  cases hc with
  | aside s' shifts sequence clock => exact sequence
  | shut userId id row at_ totals key found => rfl
  | started userId loc id at_ shut key opening =>
      rw [clash_of_mem opening.key hkey rfl] at hapart
      cases hapart

theorem ShiftCommit.opening (h : InOrder s) (hc : ShiftCommit env s held s')
    (hapart : clash held held' = false) {userId : String}
    (hkey : ⟨env.lock userId, .update⟩ ∈ held') {id : ℕ} {at_ : Instant}
    {shut : Option (ℕ × ShiftTotals)} (ho : Opening s held' userId id at_ shut) :
    Opening s' held' userId id at_ shut :=
  ⟨ho.key, ho.drawn.trans (hc.sequence hapart ho.key).symm,
    ho.ready.same (hc.sameFor h hapart hkey)⟩

theorem ShiftShaped.stable {y : Tx Book ShiftKey ShiftTx} (h : InOrder s)
    (hc : ShiftCommit env s held s') (hapart : clash held y.held = false)
    (hy : ShiftShaped env s y) : ShiftShaped env s' y := by
  obtain ⟨t, held', write⟩ := y
  cases t with
  | signIn userId loc p =>
      cases p with
      | begun | locked | kept => exact hy
      | closing id row at_ count =>
          obtain ⟨hkey, hf, hw⟩ := hy
          exact ⟨hkey, hf.same (hc.sameFor h hapart hkey), hw⟩
      | vacated at_ =>
          obtain ⟨hkey, shut, hr, hw⟩ := hy
          exact ⟨hkey, shut, hr.same (hc.sameFor h hapart hkey), hw⟩
      | numbered id at_ =>
          obtain ⟨hkey, shut, ho, hw⟩ := hy
          exact ⟨hkey, shut, hc.opening h hapart hkey ho, hw⟩
      | opened =>
          obtain ⟨hkey, id, at_, shut, ho, hw⟩ := hy
          exact ⟨hkey, id, at_, shut, hc.opening h hapart hkey ho, hw⟩
  | close userId loc p =>
      cases p with
      | begun | locked => exact hy
      | closing id row at_ count =>
          obtain ⟨hkey, hf, hw⟩ := hy
          exact ⟨hkey, hf.same (hc.sameFor h hapart hkey), hw⟩
      | closed =>
          obtain ⟨hkey, id, row, at_, totals, hf, hw⟩ := hy
          exact ⟨hkey, id, row, at_, totals, hf.same (hc.sameFor h hapart hkey), hw⟩
  | sale _ _ _ | voidBill _ _ => exact hy

theorem shifts_kept (env : ShiftEnv) :
    (shifts env).Kept (fun _ _ => True) InOrder (ShiftShaped env) where
  init s hs := by
    have hnone : ∀ id r, s.shifts.get? id ≠ some r := by
      intro id r hr
      rw [show s.shifts = .empty from hs] at hr
      cases hr
    exact ⟨fun id _ r _ hr => absurd hr (hnone id r), fun id r hr => absurd hr (hnone id r),
      fun id r _ hr => absurd hr (hnone id r), fun id r hr => absurd hr (hnone id r)⟩
  begins _ _ _ ht := shiftShaped_begins ht
  runs _ _ _ _ _ _ _ hi hx hs := hx.runs hi hs
  commits _ _ _ _ _ hi hx hd := hi.commit (hx.commit hd)
  stable _ _ _ _ _ _ _ _ _ hi hx hy hd hapart := hy.stable hi (hx.commit hd) hapart

/-! ## What a run leaves of a shift -/

/-- A shift stays whose and where it was, and once closed it is final. -/
structure ShiftRow.Carries (r r' : ShiftRow) : Prop where
  userId : r'.userId = r.userId
  loc : r'.loc = r.loc
  openedAt : r'.openedAt = r.openedAt
  final : r.closedAt ≠ none → r' = r

theorem ShiftRow.Carries.refl (r : ShiftRow) : r.Carries r := ⟨rfl, rfl, rfl, fun _ => rfl⟩

theorem ShiftRow.Carries.trans {r r' r'' : ShiftRow} (h : r.Carries r') (h' : r'.Carries r'') :
    r.Carries r'' where
  userId := h'.userId.trans h.userId
  loc := h'.loc.trans h.loc
  openedAt := h'.openedAt.trans h.openedAt
  final hclosed := by
    have heq := h.final hclosed
    have hclosed' : r'.closedAt ≠ none := by
      rw [heq]
      exact hclosed
    exact (h'.final hclosed').trans heq

def Lasts (s s' : Book) : Prop :=
  ∀ id r, s.shifts.get? id = some r → ∃ r', s'.shifts.get? id = some r' ∧ r.Carries r'

theorem Lasts.refl (s : Book) : Lasts s s := fun _ r hr => ⟨r, hr, .refl r⟩

theorem Lasts.trans {s'' : Book} (h : Lasts s s') (h' : Lasts s' s'') : Lasts s s'' := by
  intro id r hr
  obtain ⟨r', hr', hc⟩ := h id r hr
  obtain ⟨r'', hr'', hc'⟩ := h' id r' hr'
  exact ⟨r'', hr'', hc.trans hc'⟩

theorem Found.lasts {userId : String} {id : ℕ} {row : ShiftRow} {at_ : Instant}
    (hf : Found s userId id row at_) (totals : ShiftTotals) (auto : Bool) :
    Lasts s (closeShiftRow id at_ totals auto s) := by
  intro k r hr
  rw [get?_closeShiftRow hf.here]
  split
  · next hk =>
      rw [hk, hf.here] at hr
      cases hr
      exact ⟨_, rfl, rfl, rfl, rfl, fun hclosed => absurd hf.open_ hclosed⟩
  · exact ⟨r, hr, .refl r⟩

theorem Ready.lasts {userId : String} {at_ : Instant} {shut : Option (ℕ × ShiftTotals)}
    (h : Ready s userId at_ shut) : Lasts s (autoClose shut at_ s) := by
  cases shut with
  | none => exact .refl s
  | some p =>
      obtain ⟨row, hf⟩ := h.found
      exact hf.lasts p.2 true

theorem ShiftCommit.lasts (h : InOrder s) (hc : ShiftCommit env s held s') : Lasts s s' := by
  cases hc with
  | aside s' shifts sequence clock =>
      intro id r hr
      exact ⟨r, shifts ▸ hr, .refl r⟩
  | shut userId id row at_ totals key found => exact found.lasts totals false
  | started userId loc id at_ shut key opening =>
      obtain ⟨-, rfl, hready⟩ := opening
      intro k r hr
      obtain ⟨r', hr', hc⟩ := hready.lasts k r hr
      refine ⟨r', ?_, hc⟩
      unfold startWrite
      rw [get?_insertShift (free_startWrite h hready), if_neg]
      · exact hr'
      · intro hk
        rw [hk, h.drawn.2] at hr
        cases hr

section Worlds

variable {w w' : World Book ShiftKey ShiftTx}

theorem safe_shifts (h : (shifts env).machine.Reach w) :
    Database.Safe InOrder (ShiftShaped env) w := (shifts_kept env).safe h

theorem lasts_step (h : Database.Safe InOrder (ShiftShaped env) w)
    {e : TxEvent ShiftChoice ShiftTx} (he : (shifts env).step w e = some w') :
    Lasts w.committed w'.committed := by
  cases e with
  | begin_ t =>
      obtain ⟨-, rfl⟩ := Database.step_begin he
      exact .refl _
  | run i c =>
      obtain ⟨x, st, -, -, -, rfl⟩ := Database.step_run he
      exact .refl _
  | commit i =>
      obtain ⟨x, hx, hd, rfl⟩ := Database.step_commit he
      exact ((h.ok i x hx).commit hd).lasts h.inv
  | abort i =>
      obtain ⟨x, -, rfl⟩ := Database.step_abort he
      exact .refl _

theorem lasts_run (h : Database.Safe InOrder (ShiftShaped env) w)
    (hrun : ((shifts env).machine.startingAt w).Reach w') : Lasts w.committed w'.committed := by
  have hboth : Lasts w.committed w'.committed ∧
      Database.Safe InOrder (ShiftShaped env) w' := by
    refine Machine.Reach.invariant (I := fun v => Lasts w.committed v.committed ∧
      Database.Safe InOrder (ShiftShaped env) v) ?_ ?_ hrun
    · rintro v rfl
      exact ⟨.refl _, h⟩
    · intro v e v' _ hv he
      exact ⟨hv.1.trans (lasts_step hv.2 he), hv.2.step (shifts_kept env) trivial he⟩
  exact hboth.1

theorem numbered_runs (h : Database.Safe InOrder (ShiftShaped env) w) {i : ℕ}
    {x : Tx Book ShiftKey ShiftTx} (hx : w.tx i = some x) {userId : String} {loc : LocKey}
    {id : ℕ} {at_ : Instant} (hat : x.at_ = .signIn userId loc (.numbered id at_))
    (c : ShiftChoice) : (x.at_.stmt env c (x.write w.committed)).isSome = true := by
  have hok := h.ok i x hx
  unfold ShiftShaped at hok
  rw [hat] at hok ⊢
  obtain ⟨-, shut, ⟨-, rfl, hready⟩, hw⟩ : Locked env x.held userId _ := hok
  have hclear : openShiftOf (x.write w.committed) userId = none := by
    rw [hw]
    refine openShiftOf_eq_none fun k r hr hu hopen => ?_
    obtain ⟨t, ht, -⟩ := (hready.vacated h.inv).2 k r hr hu
    rw [hopen] at ht
    cases ht
  have hfree : (x.write w.committed).shifts.get? w.committed.sequence = none := by
    rw [hw]
    exact free_startWrite h.inv hready
  simp only [ShiftTx.stmt, signInStmt, hclear, hfree, and_self, if_true, Option.isSome_some]

end Worlds

/-! ## The windows -/

/-- What a shift's figures count, up to now while it is open. -/
def counted (s : Book) (r : ShiftRow) (now : Instant) : List BilledRow :=
  rungUp s r (r.closedAt.getD now)

theorem mem_counted {r : ShiftRow} {now : Instant} {b : BilledRow} (h : b ∈ counted s r now) :
    b.operatorId = r.userId ∧ b.loc = r.loc ∧ r.openedAt ≤ b.at_ ∧
      ∀ t, r.closedAt = some t → b.at_ ≤ t := by
  have hwhen := (List.mem_filter.1 h).2
  simp only [Bool.and_eq_true, decide_eq_true_eq] at hwhen
  obtain ⟨⟨⟨hop, hloc⟩, hfrom⟩, hto⟩ := hwhen
  refine ⟨hop, hloc, hfrom, fun t ht => ?_⟩
  rw [ht] at hto
  exact hto

/-- A bill in both of two windows was rung as the one closed and the other opened. -/
theorem Before.meets {r r' : ShiftRow} (h : Before r r') {b : BilledRow} {now now' : Instant}
    (hb : b ∈ counted s r now) (hb' : b ∈ counted s' r' now') :
    r.closedAt = some b.at_ ∧ r'.openedAt = b.at_ := by
  obtain ⟨t, ht, hle⟩ := h
  have hto := (mem_counted hb).2.2.2 t ht
  have hfrom := (mem_counted hb').2.2.1
  have heq : t = b.at_ := le_antisymm (hle.trans hfrom) hto
  have heq' : r'.openedAt = b.at_ := le_antisymm hfrom (hto.trans hle)
  exact ⟨ht.trans (congrArg some heq), heq'⟩

/-- In every state the sign-ins, closes, sales and voids can reach: of two shifts
of one person's, one was closed before the other was opened, so the one that is
open is the one a look finds; a bill on two of them was rung at one counter as the
one closed and the other opened; no sign-in meets the index on open shifts; and
whatever follows, a shift keeps its person, its counter and its start, and a closed
one its end and its figures. -/
theorem shift_windows {env : ShiftEnv} {w : World Book ShiftKey ShiftTx}
    (h : (shifts env).machine.Reach w) :
    (∀ id id' r r', w.committed.shifts.get? id = some r →
      w.committed.shifts.get? id' = some r' → id ≠ id' → r.userId = r'.userId →
      Before r r' ∨ Before r' r) ∧
    (∀ id r, w.committed.shifts.get? id = some r → r.closedAt = none →
      openShiftOf w.committed r.userId = some (id, r)) ∧
    (∀ id r t, w.committed.shifts.get? id = some r → r.closedAt = some t →
      r.openedAt ≤ t ∧ r.closedTotals.isSome = true) ∧
    (∀ id id' r r' b now now', w.committed.shifts.get? id = some r →
      w.committed.shifts.get? id' = some r' → id ≠ id' →
      b ∈ counted w.committed r now → b ∈ counted w.committed r' now' →
      r.loc = r'.loc ∧ (r.closedAt = some b.at_ ∧ r'.openedAt = b.at_ ∨
        r'.closedAt = some b.at_ ∧ r.openedAt = b.at_)) ∧
    (∀ i x userId loc id at_ c, w.tx i = some x →
      x.at_ = .signIn userId loc (.numbered id at_) →
      (x.at_.stmt env c (x.write w.committed)).isSome = true) ∧
    ∀ w', ((shifts env).machine.startingAt w).Reach w' →
      ∀ id r, w.committed.shifts.get? id = some r →
        ∃ r', w'.committed.shifts.get? id = some r' ∧ r.Carries r' := by
  have hsafe := safe_shifts h
  have hi := hsafe.inv
  refine ⟨hi.apart, ?_, ?_, ?_, ?_, ?_⟩
  · intro id r hr hopen
    cases hfound : openShiftOf w.committed r.userId with
    | none => exact absurd hopen (openShiftOf_none hfound hr rfl)
    | some p =>
        obtain ⟨hp, hu, hclosed⟩ := openShiftOf_some hfound
        have hid := hi.one hr hp hu.symm hopen hclosed
        rw [← hid, hr] at hp
        rw [hid, Option.some.inj hp]
  · intro id r t hr ht
    obtain ⟨hle, -, htotals⟩ := hi.closed id r t hr ht
    exact ⟨hle, htotals⟩
  · intro id id' r r' b now now' hr hr' hne hb hb'
    have hu := (mem_counted hb).1.symm.trans (mem_counted hb').1
    refine ⟨(mem_counted hb).2.1.symm.trans (mem_counted hb').2.1, ?_⟩
    rcases hi.apart id id' r r' hr hr' hne hu with hbefore | hbefore
    · exact .inl (hbefore.meets hb hb')
    · exact .inr (hbefore.meets hb' hb)
  · intro i x userId loc id at_ c hx hat
    exact numbered_runs hsafe hx hat c
  · intro w' hrun
    exact lasts_run hsafe hrun

/-- A counter operator's bill at one counter, then a sign-in at another. -/
def movedBill : BilledRow :=
  ⟨none, "u1", "kiosk", 0, "Cash", ⟨10000⟩, 0, ⟨500⟩, false⟩

def emptyBook : Book := ⟨.empty, .empty, 1, 0⟩

def movedRun : List (TxEvent ShiftChoice ShiftTx) :=
  [.begin_ (.signIn "u1" "kiosk" .begun), .run 0 ⟨0, ""⟩, .run 0 ⟨10, ""⟩, .run 0 ⟨10, ""⟩,
    .run 0 ⟨10, ""⟩, .commit 0,
    .begin_ (.sale movedBill none false), .run 1 ⟨15, "B1"⟩, .run 1 ⟨15, "B1"⟩, .commit 1,
    .begin_ (.signIn "u1" "cafe" .begun), .begin_ (.voidBill "B1" false),
    .run 2 ⟨20, ""⟩, .run 2 ⟨20, ""⟩, .run 2 ⟨20, ""⟩, .run 3 ⟨20, ""⟩, .commit 3,
    .run 2 ⟨20, ""⟩, .run 2 ⟨20, ""⟩, .run 2 ⟨20, ""⟩, .run 2 ⟨20, ""⟩, .commit 2]

/-- The shift left at the first counter is closed as the second one opens. The bill
voided between the two reads of its figures is counted in both. -/
theorem shift_windows_moved :
    ∃ w, (shifts ⟨fun _ => 0⟩).machine.Reach w ∧ ∃ r r',
      w.committed.shifts.get? 1 = some r ∧ w.committed.shifts.get? 2 = some r' ∧
      (Before r r' ∨ Before r' r) ∧ r.closedAt = some 20 ∧ r'.closedAt = none ∧
      (r.closedTotals.map fun p => (p.1.billCount, p.1.voidBills, p.2)) = some (1, 1, true) := by
  have hany : ((shifts ⟨fun _ => 0⟩).machine.run ⟨emptyBook, []⟩ movedRun).any
      (fun w => (w.committed.shifts.get? 1).any fun r =>
        (w.committed.shifts.get? 2).any fun r' =>
          decide (r.userId = "u1" ∧ r'.userId = "u1" ∧ r.closedAt = some 20 ∧
            r'.closedAt = none ∧ (r.closedTotals.map fun p =>
              (p.1.billCount, p.1.voidBills, p.2)) = some (1, 1, true))) = true := by
    decide +kernel
  obtain ⟨w, hrun, hw⟩ := (Option.any_eq_true _ _).1 hany
  obtain ⟨r, hr, hw⟩ := (Option.any_eq_true _ _).1 hw
  obtain ⟨r', hr', hw⟩ := (Option.any_eq_true _ _).1 hw
  obtain ⟨hu, hu', hclosed, hopen, htotals⟩ := of_decide_eq_true hw
  have hinit : (shifts ⟨fun _ => 0⟩).machine.init ⟨emptyBook, []⟩ := ⟨rfl, rfl⟩
  have hreach : (shifts ⟨fun _ => 0⟩).machine.Reach w := Machine.reach_run (.init hinit) hrun
  exact ⟨w, hreach, r, r', hr, hr',
    (shift_windows hreach).1 1 2 r r' hr hr' (by decide) (hu.trans hu'.symm),
    hclosed, hopen, htotals⟩

end Rch.Shifts
