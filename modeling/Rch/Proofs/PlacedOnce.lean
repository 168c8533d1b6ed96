import Rch.Machine.Placing
import Rch.Machine.Service
import Rch.Proofs.QrEffect

/-!
# A QR order once per checkout, and few of them per phone

An order's nonce, its phone and its window are what it was stored with, and an
order once paid or lapsed is never unpaid again. So an unpaid order counted
before a transaction holds its phone's lock is the most there will be until it
commits, and the count a placing passed still stands when its order lands.

A secret is written under the order's row, which no other transaction holds
meanwhile: the row a replay checked is the row it rewrites, and the secrets of
one order follow one another in the order they are committed.
-/

namespace Rch

open Kit

/-! ## What a write leaves of an order -/

/-- A rewrite that keeps what an order was placed with, and brings none back to
its payment. -/
structure Lasting (f : QrOrderRow → QrOrderRow) : Prop where
  nonce : ∀ o, (f o).nonce = o.nonce
  code : ∀ o, (f o).qrCodeId = o.qrCodeId
  phone : ∀ o, (f o).customerPhone = o.customerPhone
  expires : ∀ o, (f o).expiresAt = o.expiresAt
  unpaid : ∀ o, (f o).status = .awaitingPayment → o.status = .awaitingPayment

theorem patchOrder_lasting {next : QrOrderStatus} (h : next ≠ .awaitingPayment)
    (at_ : Instant) (p : OrderPatch) :
    Lasting fun o => patchOrder o next at_ p :=
  ⟨fun _ => rfl, fun _ => rfl, fun _ => rfl, fun _ => rfl,
    fun _ hnext => absurd hnext h⟩

/-- No move leads back to the payment. -/
theorem ne_awaitingPayment_of_transition {a b : QrOrderStatus}
    (h : b ∈ qrOrderTransitions a) : b ≠ .awaitingPayment := by
  rintro rfl
  cases a <;> revert h <;> decide

section Pending

variable {s : QrStore} {phone : String} {now : Instant}

/-- Later, no more orders are pending. -/
theorem pendingForPhone_anti (db : Db) (phone : String) {now now' : Instant}
    (h : now ≤ now') :
    pendingForPhone db phone now' ≤ pendingForPhone db phone now := by
  unfold pendingForPhone
  rw [← List.countP_eq_length_filter, ← List.countP_eq_length_filter]
  refine List.countP_mono_left fun o _ ho => ?_
  simp only [Bool.and_eq_true, decide_eq_true_eq] at ho ⊢
  exact ⟨ho.1, lt_of_le_of_lt h ho.2⟩

theorem pendingForPhone_edit (s : QrStore) (phone : String) (now : Instant)
    {f : QrOrderRow → QrOrderRow} (hf : Lasting f) (order : String) :
    pendingForPhone (s.edit order f).db phone now ≤
      pendingForPhone s.db phone now := by
  unfold pendingForPhone QrStore.edit Table.modify Table.update
  rw [← List.countP_eq_length_filter, ← List.countP_eq_length_filter,
    List.countP_map]
  refine List.countP_mono_left fun o _ ho => ?_
  simp only [Function.comp, Bool.and_eq_true, decide_eq_true_eq] at ho ⊢
  split at ho
  · rw [hf.phone, hf.expires] at ho
    exact ⟨⟨ho.1.1, hf.unpaid _ ho.1.2⟩, ho.2⟩
  · exact ho

theorem pendingForPhone_store (s : QrStore) (phone : String) (now : Instant)
    {row : QrOrderRow} {m : Minted} :
    pendingForPhone (storeOrder row m s).db phone now ≤
      pendingForPhone s.db phone now +
        if row.customerPhone = phone then 1 else 0 := by
  change ((((s.db.qrOrders.insert? m.order row).getD s.db.qrOrders).rows.filter
    _).length ≤ _)
  cases hins : s.db.qrOrders.insert? m.order row with
  | none => exact Nat.le_add_right _ _
  | some t =>
      rw [Option.getD_some, (Table.insert?_eq_some hins).2, List.filter_append,
        List.length_append]
      refine Nat.add_le_add_left ?_ _
      split
      · exact List.length_filter_le _ [(m.order, row)]
      · next hphone =>
          rw [List.filter_cons_of_neg (by simp [hphone])]
          exact Nat.le_refl 0

end Pending

/-! ## What a commit writes -/

/-- The phone's lock is held, and it was below its cap at a clock not yet
past. -/
structure BelowCap (env : QrEnv) (s : QrStore) (held : List (Lock QrKey))
    (phone : String) (now : Instant) : Prop where
  key : ⟨env.phoneLock phone, .update⟩ ∈ held
  read : now ≤ s.clock
  few : pendingForPhone s.db phone now < QR_PENDING_PER_PHONE

/-- The order's row is held, and is this one. -/
structure HoldsOrder (s : QrStore) (held : List (Lock QrKey)) (order : String)
    (o : QrOrderRow) : Prop where
  key : ⟨.order order, .update⟩ ∈ held
  stands : s.db.qrOrders.get? order = some o

/-- The row a replay passed: unpaid, and not past its window. -/
structure Waits (s : QrStore) (held : List (Lock QrKey)) (order : String)
    (now : Instant) (o : QrOrderRow) : Prop extends HoldsOrder s held order o where
  unpaid : o.status = .awaitingPayment
  unexpired : now < o.expiresAt
  read : now ≤ s.clock

/-- An order about to be stored: its number and its nonce are free, and held. -/
structure Lands (env : QrEnv) (s : QrStore) (held : List (Lock QrKey))
    (a : PlaceAsk) (m : Minted) (row : QrOrderRow) : Prop extends
    BelowCap env s held a.body.phone m.at_ where
  order : ⟨.order m.order, .update⟩ ∈ held
  nonce : ⟨.nonce (env.sha256 a.nonce), .update⟩ ∈ held
  free : s.db.qrOrders.get? m.order = none
  unused : orderByNonce s.db (env.sha256 a.nonce) = none
  of : ∃ code plan, row = quotedOrder code a.body
    ⟨env.sha256 m.secret, env.sha256 a.nonce, a.ip⟩ plan env.config.ttlMin m.at_

/-- What one commit writes, under which locks. -/
inductive QrCommit (env : QrEnv) (s : QrStore) (held : List (Lock QrKey)) :
    QrStore → Prop
  | stored (a : PlaceAsk) (m : Minted) (row : QrOrderRow)
      (lands : Lands env s held a m row) :
      QrCommit env s held (storeOrder row m (advanceOrders s))
  | rotated (m : Minted) (o : QrOrderRow)
      (waits : Waits s held m.order m.at_ o) :
      QrCommit env s held (setSecret env m s)
  | edited (order : String) (f : QrOrderRow → QrOrderRow) (lasting : Lasting f)
      (secret : ∀ o, (f o).secretHash = o.secretHash)
      (key : ⟨.order order, .noKeyUpdate⟩ ∈ held) :
      QrCommit env s held (s.edit order f)
  | aside (db : Db) : QrCommit env s held (writeAside db s)
  | ticked (t : Instant) : QrCommit env s held (tickTo t s)

def lastMinted (s : QrStore) (id : String) : Option Minted :=
  s.minted.find? fun m => decide (m.order = id)

structure QrKept (env : QrEnv) (s : QrStore) : Prop where
  once : ∀ id id' o o', s.db.qrOrders.get? id = some o →
    s.db.qrOrders.get? id' = some o' → o.nonce = o'.nonce → id = id'
  opens : ∀ id o, s.db.qrOrders.get? id = some o → ∃ m,
    lastMinted s id = some m ∧ o.secretHash = env.sha256 m.secret
  capped : ∀ phone now, s.clock ≤ now →
    pendingForPhone s.db phone now ≤ QR_PENDING_PER_PHONE

theorem orderByNonce_some {db : Db} {n : String} {p : String × QrOrderRow}
    (h : orderByNonce db n = some p) :
    db.qrOrders.get? p.1 = some p.2 ∧ p.2.nonce = n := by
  have hn := List.find?_some h
  exact ⟨Table.get?_eq_some.2 (List.mem_of_find?_eq_some h),
    of_decide_eq_true hn⟩

theorem orderByNonce_none {db : Db} {n : String} (h : orderByNonce db n = none)
    {id : String} {o : QrOrderRow} (ho : db.qrOrders.get? id = some o) :
    o.nonce ≠ n := by
  have hall := List.find?_eq_none.1 h _ (Table.get?_eq_some.1 ho)
  exact fun heq => hall (decide_eq_true heq)

section Commit

variable {env : QrEnv} {s s' : QrStore} {held : List (Lock QrKey)}

theorem get?_storeOrder {row : QrOrderRow} {m : Minted}
    (h : s.db.qrOrders.get? m.order = none) (id : String) :
    (storeOrder row m (advanceOrders s)).db.qrOrders.get? id =
      if id = m.order then some row else s.db.qrOrders.get? id :=
  Table.get?_insert_of_free h row id

theorem get?_edit (s : QrStore) (order : String) (f : QrOrderRow → QrOrderRow)
    (id : String) : (s.edit order f).db.qrOrders.get? id =
      if id = order then (s.db.qrOrders.get? id).map f
      else s.db.qrOrders.get? id := Table.get?_modify ..

theorem get?_edit_some {order : String} {f : QrOrderRow → QrOrderRow}
    {id : String} {o : QrOrderRow}
    (h : (s.edit order f).db.qrOrders.get? id = some o) :
    ∃ o₀, s.db.qrOrders.get? id = some o₀ ∧
      (o = o₀ ∨ id = order ∧ o = f o₀) := by
  rw [get?_edit] at h
  split at h
  · next hid =>
      obtain ⟨o₀, ho₀, rfl⟩ := Option.map_eq_some_iff.1 h
      exact ⟨o₀, ho₀, .inr ⟨hid, rfl⟩⟩
  · exact ⟨o, h, .inl rfl⟩

theorem secret_lasting (m : Minted) : Lasting fun o : QrOrderRow =>
    { o with secretHash := env.sha256 m.secret, updatedAt := m.at_ } :=
  ⟨fun _ => rfl, fun _ => rfl, fun _ => rfl, fun _ => rfl, fun _ h => h⟩

theorem once_edit (h : QrKept env s) {f : QrOrderRow → QrOrderRow}
    (hf : Lasting f) (order : String) {id id' : String} {o o' : QrOrderRow}
    (ho : (s.edit order f).db.qrOrders.get? id = some o)
    (ho' : (s.edit order f).db.qrOrders.get? id' = some o')
    (hn : o.nonce = o'.nonce) : id = id' := by
  obtain ⟨o₀, hget, hnew⟩ := get?_edit_some ho
  obtain ⟨o₀', hget', hnew'⟩ := get?_edit_some ho'
  refine h.once id id' o₀ o₀' hget hget' ?_
  have hnonce : o.nonce = o₀.nonce := by
    rcases hnew with rfl | ⟨-, rfl⟩
    · rfl
    · exact hf.nonce o₀
  have hnonce' : o'.nonce = o₀'.nonce := by
    rcases hnew' with rfl | ⟨-, rfl⟩
    · rfl
    · exact hf.nonce o₀'
  rw [← hnonce, ← hnonce', hn]

theorem QrKept.stored (h : QrKept env s) {a : PlaceAsk} {m : Minted}
    {row : QrOrderRow} (hl : Lands env s held a m row) :
    QrKept env (storeOrder row m (advanceOrders s)) := by
  obtain ⟨code, plan, hrow⟩ := hl.of
  have hnonce : row.nonce = env.sha256 a.nonce := by rw [hrow]; rfl
  refine ⟨fun id id' o o' ho ho' hn => ?_, fun id o ho => ?_,
    fun phone now hnow => ?_⟩
  · rw [get?_storeOrder hl.free] at ho ho'
    split at ho
    · next hid =>
        split at ho'
        · next hid' => exact hid.trans hid'.symm
        · cases ho
          exact absurd (hn.symm.trans hnonce) (orderByNonce_none hl.unused ho')
    · split at ho'
      · cases ho'
        exact absurd (hn.trans hnonce) (orderByNonce_none hl.unused ho)
      · exact h.once id id' o o' ho ho' hn
  · rw [get?_storeOrder hl.free] at ho
    change ∃ m', (m :: s.minted).find? _ = some m' ∧ _
    split at ho
    · next hid =>
        cases ho
        refine ⟨m, List.find?_cons_of_pos (decide_eq_true hid.symm), ?_⟩
        rw [hrow]
        rfl
    · next hid =>
        obtain ⟨m', hm', hsecret⟩ := h.opens id o ho
        refine ⟨m', ?_, hsecret⟩
        rw [List.find?_cons_of_neg (by simpa using Ne.symm hid)]
        exact hm'
  · refine Nat.le_trans (pendingForPhone_store _ phone now) ?_
    change pendingForPhone s.db phone now + _ ≤ _
    split
    · next hphone =>
        have hp : a.body.phone = phone := by rw [← hphone, hrow]; rfl
        have hfew := hl.few
        rw [hp] at hfew
        have hclock : m.at_ ≤ now := le_trans hl.read hnow
        have hanti := pendingForPhone_anti s.db phone hclock
        omega
    · exact h.capped phone now hnow

theorem QrKept.rotated (h : QrKept env s) (m : Minted) :
    QrKept env (setSecret env m s) := by
  refine ⟨fun id id' o o' ho ho' hn => once_edit h (secret_lasting m) m.order
    ho ho' hn, fun id o ho => ?_, fun phone now hnow => ?_⟩
  · obtain ⟨o₀, hget, hnew⟩ := get?_edit_some ho
    obtain ⟨m', hm', hsecret⟩ := h.opens id o₀ hget
    change ∃ m', (m :: s.minted).find? _ = some m' ∧ _
    by_cases hid : id = m.order
    · refine ⟨m, List.find?_cons_of_pos (decide_eq_true hid.symm), ?_⟩
      change (s.edit m.order _).db.qrOrders.get? id = some o at ho
      rw [get?_edit, if_pos hid, hget] at ho
      cases ho
      rfl
    · refine ⟨m', ?_, ?_⟩
      · rw [List.find?_cons_of_neg (by simpa using Ne.symm hid)]
        exact hm'
      · rcases hnew with rfl | ⟨hid', -⟩
        · exact hsecret
        · exact absurd hid' hid
  · exact Nat.le_trans
      (pendingForPhone_edit s phone now (secret_lasting m) m.order)
      (h.capped phone now hnow)

theorem QrKept.edited (h : QrKept env s) {f : QrOrderRow → QrOrderRow}
    (hf : Lasting f) (hsecret : ∀ o, (f o).secretHash = o.secretHash)
    (order : String) : QrKept env (s.edit order f) := by
  refine ⟨fun id id' o o' ho ho' hn => once_edit h hf order ho ho' hn,
    fun id o ho => ?_, fun phone now hnow => ?_⟩
  · obtain ⟨o₀, hget, hnew⟩ := get?_edit_some ho
    obtain ⟨m, hm, hmatch⟩ := h.opens id o₀ hget
    refine ⟨m, hm, ?_⟩
    rcases hnew with rfl | ⟨-, rfl⟩
    · exact hmatch
    · rw [hsecret, hmatch]
  · exact Nat.le_trans (pendingForPhone_edit s phone now hf order)
      (h.capped phone now hnow)

theorem QrKept.commit (h : QrKept env s) (hc : QrCommit env s held s') :
    QrKept env s' := by
  cases hc with
  | stored a m row lands => exact h.stored lands
  | rotated m o waits => exact h.rotated m
  | edited order f lasting secret key => exact h.edited lasting secret order
  | aside db => exact ⟨h.once, h.opens, h.capped⟩
  | ticked t =>
      exact ⟨h.once, h.opens, fun phone now hnow =>
        h.capped phone now (le_trans (le_max_left ..) hnow)⟩

end Commit

/-! ## Where an open transaction stands -/

section Shape

variable (env : QrEnv) (s : QrStore) (held : List (Lock QrKey))
variable (write : QrStore → QrStore)

def PlaceShaped (a : PlaceAsk) : PlaceAt → Prop
  | .begun | .coded _ | .located _ => write = id
  | .timed _ now | .opened _ now => now ≤ s.clock ∧ write = id
  | .phoneHeld _ now | .held _ now =>
    ⟨env.phoneLock a.body.phone, .update⟩ ∈ held ∧ now ≤ s.clock ∧ write = id
  | .few _ now | .capped _ now | .quoted _ now _ =>
    BelowCap env s held a.body.phone now ∧ write = id
  | .numbered _ now _ _ =>
    BelowCap env s held a.body.phone now ∧ write = advanceOrders
  | .stored m => ∃ row, Lands env s held a m row ∧
    write = fun s => storeOrder row m (advanceOrders s)

def ReplayShaped (order : String) : ReplayAt → Prop
  | .begun => write = id
  | .held o => HoldsOrder s held order o ∧ write = id
  | .checked now => ∃ o, Waits s held order now o ∧ write = id
  | .rotated m => m.order = order ∧ ∃ o, Waits s held order m.at_ o ∧
    write = setSecret env m

def MoveShaped (order : String) (next : QrOrderStatus) (at_ : Instant)
    (patch : OrderPatch) : MoveAt → Prop
  | .begun | .held _ => write = id
  | .moved => next ≠ .awaitingPayment ∧ ⟨.order order, .noKeyUpdate⟩ ∈ held ∧
    write = moveOrder order next at_ patch

/-- A transaction of one statement, and what it writes. -/
def OnceShaped (locks : List (Lock QrKey)) (writes : QrStore → QrStore) :
    OnceAt → Prop
  | .begun => write = id
  | .written => locks ⊆ held ∧ write = writes

end Shape

def QrShaped (env : QrEnv) (s : QrStore) (x : Tx QrStore QrKey QrTx) : Prop :=
  match x.at_ with
  | .place a p => PlaceShaped env s x.held x.write a p
  | .replay order p => ReplayShaped env s x.held x.write order p
  | .move order next at_ patch p =>
    MoveShaped x.held x.write order next at_ patch p
  | .checkout order rzpOrderId p => OnceShaped x.held x.write
    [⟨.order order, .noKeyUpdate⟩] (noteRzpOrder order rzpOrderId) p
  | .elsewhere db p => OnceShaped x.held x.write [] (writeAside db) p
  | .tick t p => OnceShaped x.held x.write [] (tickTo t) p

/-! ## Statement by statement -/

section Runs

variable {env : QrEnv} {s : QrStore} {held held' : List (Lock QrKey)}
variable {write : QrStore → QrStore} {secret : String} {st : QrStmt}

theorem BelowCap.mono {phone : String} {now : Instant}
    (h : BelowCap env s held phone now) (hsub : held ⊆ held') :
    BelowCap env s held' phone now := ⟨hsub h.key, h.read, h.few⟩

theorem PlaceShaped.runs {a : PlaceAsk} {p : PlaceAt}
    (h : PlaceShaped env s held write a p)
    (hs : placeStmt env secret a (write s) p = some st) :
    QrShaped env s ⟨st.next, st.locks ++ held, st.write ∘ write⟩ := by
  cases p with
  | begun =>
      obtain ⟨code, -, rfl⟩ := Option.map_eq_some_iff.1 hs
      exact h
  | coded code =>
      obtain ⟨loc, -, rfl⟩ := Option.map_eq_some_iff.1 hs
      exact h
  | located code =>
      obtain rfl := h
      simp only [placeStmt, Option.ite_none_right_eq_some] at hs
      obtain ⟨-, hst⟩ := hs
      cases hst
      exact ⟨le_refl s.clock, rfl⟩
  | timed code now =>
      simp only [placeStmt, Option.ite_none_left_eq_some] at hs
      obtain ⟨-, hst⟩ := hs
      cases hst
      exact h
  | opened code now =>
      cases hs
      exact ⟨List.mem_cons_self, h⟩
  | phoneHeld code now =>
      cases hs
      exact ⟨List.mem_cons_of_mem _ h.1, h.2⟩
  | held code now =>
      obtain ⟨hkey, hread, rfl⟩ := h
      simp only [placeStmt, Option.ite_none_right_eq_some] at hs
      obtain ⟨hfew, hst⟩ := hs
      cases hst
      exact ⟨⟨hkey, hread, hfew⟩, rfl⟩
  | few code now =>
      simp only [placeStmt, Option.ite_none_right_eq_some] at hs
      obtain ⟨-, hst⟩ := hs
      cases hst
      exact h
  | capped code now =>
      obtain ⟨plan, -, rfl⟩ := Option.map_eq_some_iff.1 hs
      exact h
  | quoted code now plan =>
      obtain ⟨hcap, rfl⟩ := h
      cases hs
      exact ⟨hcap.mono (List.subset_append_right ..), rfl⟩
  | numbered code now plan id =>
      obtain ⟨hcap, rfl⟩ := h
      simp only [placeStmt, Option.ite_none_right_eq_some] at hs
      obtain ⟨⟨hunused, hfree⟩, hst⟩ := hs
      cases hst
      refine ⟨_, ⟨hcap.mono (List.subset_append_right ..), List.mem_cons_self,
        List.mem_cons_of_mem _ List.mem_cons_self, hfree, hunused,
        code, plan, rfl⟩, rfl⟩
  | stored m => cases hs

theorem ReplayShaped.runs {order : String} {p : ReplayAt}
    (h : ReplayShaped env s held write order p)
    (hs : replayStmt env secret order (write s) p = some st) :
    QrShaped env s ⟨st.next, st.locks ++ held, st.write ∘ write⟩ := by
  cases p with
  | begun =>
      obtain rfl := h
      obtain ⟨o, ho, rfl⟩ := Option.map_eq_some_iff.1 hs
      exact ⟨⟨List.mem_cons_self, ho⟩, rfl⟩
  | held o =>
      obtain ⟨hholds, rfl⟩ := h
      simp only [replayStmt, Option.ite_none_right_eq_some] at hs
      obtain ⟨⟨hunpaid, hunexpired⟩, hst⟩ := hs
      cases hst
      exact ⟨o, ⟨hholds, hunpaid, hunexpired, le_refl s.clock⟩, rfl⟩
  | checked now =>
      obtain ⟨o, hwaits, rfl⟩ := h
      cases hs
      exact ⟨rfl, o, ⟨⟨List.mem_cons_of_mem _ hwaits.key, hwaits.stands⟩,
        hwaits.unpaid, hwaits.unexpired, hwaits.read⟩, rfl⟩
  | rotated m => cases hs

theorem MoveShaped.runs {order : String} {next : QrOrderStatus} {at_ : Instant}
    {patch : OrderPatch} {p : MoveAt}
    (h : MoveShaped held write order next at_ patch p)
    (hs : moveStmt order next at_ patch (write s) p = some st) :
    QrShaped env s ⟨st.next, st.locks ++ held, st.write ∘ write⟩ := by
  cases p with
  | begun =>
      obtain ⟨o, -, rfl⟩ := Option.map_eq_some_iff.1 hs
      exact h
  | held o =>
      obtain rfl := h
      obtain ⟨db, hmove, rfl⟩ := Option.map_eq_some_iff.1 hs
      have hst := (moveQrOrder_ok (toOption_eq_some.1 hmove)).1
      exact ⟨ne_awaitingPayment_of_transition hst, List.mem_cons_self, rfl⟩
  | moved => cases hs

theorem qrShaped_begins {t : QrTx} (ht : t.starts = true) :
    QrShaped env s (.fresh t) := by
  cases t with
  | place a p => cases p <;> first | rfl | cases ht
  | replay order p => cases p <;> first | rfl | cases ht
  | move order next at_ patch p => cases p <;> first | rfl | cases ht
  | checkout order rzpOrderId p => cases p <;> first | rfl | cases ht
  | elsewhere db p => cases p <;> first | rfl | cases ht
  | tick t p => cases p <;> first | rfl | cases ht

theorem QrShaped.runs {x : Tx QrStore QrKey QrTx} (h : QrShaped env s x)
    (hs : x.at_.stmt env secret (x.write s) = some st) :
    QrShaped env s (x.after st) := by
  obtain ⟨t, held, write⟩ := x
  cases t with
  | place a p => exact PlaceShaped.runs h hs
  | replay order p => exact ReplayShaped.runs h hs
  | move order next at_ patch p => exact MoveShaped.runs h hs
  | checkout order rzpOrderId p =>
      cases p with
      | begun =>
          obtain rfl : write = id := h
          cases hs
          exact ⟨List.subset_append_left .., rfl⟩
      | written => cases hs
  | elsewhere db p =>
      cases p with
      | begun =>
          obtain rfl : write = id := h
          cases hs
          exact ⟨List.nil_subset _, rfl⟩
      | written => cases hs
  | tick t p =>
      cases p with
      | begun =>
          obtain rfl : write = id := h
          cases hs
          exact ⟨List.nil_subset _, rfl⟩
      | written => cases hs

theorem checkout_lasting (rzpOrderId : String) : Lasting fun o : QrOrderRow =>
    { o with rzpOrderId := o.rzpOrderId.orElse fun _ => some rzpOrderId } :=
  ⟨fun _ => rfl, fun _ => rfl, fun _ => rfl, fun _ => rfl, fun _ h => h⟩

theorem QrShaped.commit {x : Tx QrStore QrKey QrTx} (h : QrShaped env s x)
    (hd : x.at_.done = true) : QrCommit env s x.held (x.write s) := by
  obtain ⟨t, held, write⟩ := x
  cases t with
  | place a p =>
      cases p with
      | stored m =>
          obtain ⟨row, hl, rfl⟩ : ∃ row, Lands env s held a m row ∧ _ := h
          exact .stored a m row hl
      | _ => cases hd
  | replay order p =>
      cases p with
      | rotated m =>
          obtain ⟨rfl, o, hw, rfl⟩ : m.order = order ∧ ∃ o,
            Waits s held order m.at_ o ∧ _ := h
          exact .rotated m o hw
      | _ => cases hd
  | move order next at_ patch p =>
      cases p with
      | moved =>
          obtain ⟨hne, hkey, rfl⟩ : next ≠ .awaitingPayment ∧
            (⟨.order order, .noKeyUpdate⟩ : Lock QrKey) ∈ held ∧ _ := h
          exact .edited order _ (patchOrder_lasting hne at_ patch)
            (fun _ => rfl) hkey
      | _ => cases hd
  | checkout order rzpOrderId p =>
      cases p with
      | begun => cases hd
      | written =>
          obtain ⟨hsub, rfl⟩ : _ ⊆ held ∧ _ := h
          exact .edited order _ (checkout_lasting rzpOrderId) (fun _ => rfl)
            (hsub List.mem_cons_self)
  | elsewhere db p =>
      cases p with
      | begun => cases hd
      | written =>
          obtain ⟨-, rfl⟩ : _ ⊆ held ∧ _ := h
          exact .aside db
  | tick t p =>
      cases p with
      | begun => cases hd
      | written =>
          obtain ⟨-, rfl⟩ : _ ⊆ held ∧ _ := h
          exact .ticked t

end Runs

/-! ## What a commit leaves of the others -/

section Stable

variable {env : QrEnv} {s s' : QrStore} {held held' : List (Lock QrKey)}

theorem QrCommit.clock (h : QrCommit env s held s') : s.clock ≤ s'.clock := by
  cases h with
  | ticked t => exact le_max_left ..
  | stored | rotated | edited | aside => exact le_refl _

/-- A row another transaction holds is not rewritten. -/
theorem QrCommit.stands (h : QrCommit env s held s')
    (hapart : clash held held' = false) {order : String} {o : QrOrderRow}
    (ho : HoldsOrder s held' order o) : s'.db.qrOrders.get? order = some o := by
  have hother : ∀ {k}, ⟨.order k, .noKeyUpdate⟩ ∈ held → order ≠ k := by
    rintro k hk rfl
    rw [clash_of_mem hk ho.key rfl] at hapart
    cases hapart
  cases h with
  | stored a m row lands =>
      rw [get?_storeOrder lands.free, if_neg]
      · exact ho.stands
      · rintro rfl
        exact absurd (lands.free.symm.trans ho.stands) (Option.some_ne_none o).symm
  | rotated m o' waits =>
      have hne : order ≠ m.order := by
        rintro rfl
        rw [clash_of_mem waits.key ho.key rfl] at hapart
        cases hapart
      change (s.edit m.order _).db.qrOrders.get? order = some o
      rw [get?_edit, if_neg hne]
      exact ho.stands
  | edited order' f lasting secret key =>
      rw [get?_edit, if_neg (hother key)]
      exact ho.stands
  | aside db => exact ho.stands
  | ticked t => exact ho.stands

theorem QrCommit.holds (h : QrCommit env s held s')
    (hapart : clash held held' = false) {order : String} {o : QrOrderRow}
    (ho : HoldsOrder s held' order o) : HoldsOrder s' held' order o :=
  ⟨ho.key, h.stands hapart ho⟩

theorem QrCommit.waits (h : QrCommit env s held s')
    (hapart : clash held held' = false) {order : String} {now : Instant}
    {o : QrOrderRow} (ho : Waits s held' order now o) :
    Waits s' held' order now o :=
  ⟨h.holds hapart ho.toHoldsOrder, ho.unpaid, ho.unexpired,
    le_trans ho.read h.clock⟩

/-- A count taken under the phone's lock is still the most there are. -/
theorem QrCommit.belowCap (h : QrCommit env s held s')
    (hapart : clash held held' = false) {phone : String} {now : Instant}
    (hc : BelowCap env s held' phone now) : BelowCap env s' held' phone now := by
  refine ⟨hc.key, le_trans hc.read h.clock, lt_of_le_of_lt ?_ hc.few⟩
  cases h with
  | stored a m row lands =>
      have hne : row.customerPhone ≠ phone := by
        obtain ⟨code, plan, rfl⟩ := lands.of
        rintro rfl
        rw [clash_of_mem lands.key hc.key rfl] at hapart
        cases hapart
      refine Nat.le_trans (pendingForPhone_store _ phone now) ?_
      rw [if_neg hne]
      exact Nat.le_refl _
  | rotated m o waits =>
      exact pendingForPhone_edit s phone now (secret_lasting m) m.order
  | edited order f lasting secret key =>
      exact pendingForPhone_edit s phone now lasting order
  | aside db => exact Nat.le_refl _
  | ticked t => exact Nat.le_refl _

/-- No other order takes a nonce whose entry is held. -/
theorem QrCommit.unused (h : QrCommit env s held s')
    (hapart : clash held held' = false) {n : String}
    (hkey : ⟨.nonce n, .update⟩ ∈ held') (hn : orderByNonce s.db n = none) :
    orderByNonce s'.db n = none := by
  have hall : ∀ {id o}, s.db.qrOrders.get? id = some o → o.nonce ≠ n :=
    fun ho => orderByNonce_none hn ho
  -- The rows afterwards are those of before, and a new one's nonce is its own.
  have hnew : ∀ {id o}, s'.db.qrOrders.get? id = some o → o.nonce ≠ n := by
    intro id o ho
    have hedit {f order} (hf : Lasting f)
        (ho : (s.edit order f).db.qrOrders.get? id = some o) : o.nonce ≠ n := by
      obtain ⟨o₀, hget, rfl | ⟨-, rfl⟩⟩ := get?_edit_some ho
      · exact hall hget
      · rw [hf.nonce]
        exact hall hget
    cases h with
    | stored a m row lands =>
        rw [get?_storeOrder lands.free] at ho
        split at ho
        · cases ho
          obtain ⟨code, plan, rfl⟩ := lands.of
          rintro rfl
          rw [clash_of_mem lands.nonce hkey rfl] at hapart
          cases hapart
        · exact hall ho
    | rotated m o' waits => exact hedit (secret_lasting m) ho
    | edited order f lasting secret key => exact hedit lasting ho
    | aside db => exact hall ho
    | ticked t => exact hall ho
  refine List.find?_eq_none.2 fun p hp heq => ?_
  exact hnew (Table.get?_eq_some.2 hp) (of_decide_eq_true heq)

/-- No other order takes a number that is held. -/
theorem QrCommit.free (h : QrCommit env s held s')
    (hapart : clash held held' = false) {id : String}
    (hkey : ⟨.order id, .update⟩ ∈ held')
    (hfree : s.db.qrOrders.get? id = none) :
    s'.db.qrOrders.get? id = none := by
  have hedit (f order) : (s.edit order f).db.qrOrders.get? id = none := by
    rw [get?_edit, hfree]
    split <;> rfl
  cases h with
  | stored a m row lands =>
      have hne : id ≠ m.order := by
        rintro rfl
        rw [clash_of_mem lands.order hkey rfl] at hapart
        cases hapart
      rw [get?_storeOrder lands.free, if_neg hne]
      exact hfree
  | rotated m o waits => exact hedit _ _
  | edited order f lasting secret key => exact hedit _ _
  | aside db => exact hfree
  | ticked t => exact hfree

theorem QrCommit.lands (h : QrCommit env s held s')
    (hapart : clash held held' = false) {a : PlaceAsk} {m : Minted}
    {row : QrOrderRow} (hl : Lands env s held' a m row) :
    Lands env s' held' a m row :=
  ⟨h.belowCap hapart hl.toBelowCap, hl.order, hl.nonce,
    h.free hapart hl.order hl.free, h.unused hapart hl.nonce hl.unused, hl.of⟩

theorem QrShaped.stable {y : Tx QrStore QrKey QrTx}
    (h : QrCommit env s held s') (hapart : clash held y.held = false)
    (hy : QrShaped env s y) : QrShaped env s' y := by
  obtain ⟨t, held', write⟩ := y
  cases t with
  | place a p =>
      cases p with
      | begun | coded | located => exact hy
      | timed code now => exact ⟨le_trans hy.1 h.clock, hy.2⟩
      | opened code now => exact ⟨le_trans hy.1 h.clock, hy.2⟩
      | phoneHeld code now => exact ⟨hy.1, le_trans hy.2.1 h.clock, hy.2.2⟩
      | held code now => exact ⟨hy.1, le_trans hy.2.1 h.clock, hy.2.2⟩
      | few code now => exact ⟨h.belowCap hapart hy.1, hy.2⟩
      | capped code now => exact ⟨h.belowCap hapart hy.1, hy.2⟩
      | quoted code now plan => exact ⟨h.belowCap hapart hy.1, hy.2⟩
      | numbered code now plan id => exact ⟨h.belowCap hapart hy.1, hy.2⟩
      | stored m =>
          obtain ⟨row, hl, hw⟩ := hy
          exact ⟨row, h.lands hapart hl, hw⟩
  | replay order p =>
      cases p with
      | begun => exact hy
      | held o => exact ⟨h.holds hapart hy.1, hy.2⟩
      | checked now =>
          obtain ⟨o, hw, hwrite⟩ := hy
          exact ⟨o, h.waits hapart hw, hwrite⟩
      | rotated m =>
          obtain ⟨hm, o, hw, hwrite⟩ := hy
          exact ⟨hm, o, h.waits hapart hw, hwrite⟩
  | move order next at_ patch p => exact hy
  | checkout order rzpOrderId p => exact hy
  | elsewhere db p => exact hy
  | tick t p => exact hy

end Stable

theorem qrKept_fresh (env : QrEnv) (rows : MasterRows) (t : Instant) :
    QrKept env ⟨Db.fresh rows, t, []⟩ := by
  refine ⟨fun id id' o o' ho => ?_, fun id o ho => ?_, fun phone now _ => ?_⟩
  · cases ho
  · cases ho
  · exact Nat.zero_le _

theorem qrDesk_kept (env : QrEnv) :
    (qrDesk env).Kept (fun _ _ => True) (QrKept env) (QrShaped env) where
  init := by
    rintro _ ⟨rows, t, rfl⟩
    exact qrKept_fresh env rows t
  begins _ _ _ ht := qrShaped_begins ht
  runs _ _ _ _ _ _ _ _ hx hs := hx.runs hs
  commits _ _ _ _ _ hi hx hd := hi.commit (hx.commit hd)
  stable _ _ _ _ _ _ _ _ _ _ hx hy hd hapart := hy.stable (hx.commit hd) hapart

end Rch
