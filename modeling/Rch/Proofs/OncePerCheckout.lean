import Rch.Proofs.PlacedOnce

/-!
# Placing a QR order, request by request

Every request runs its own transactions at the desk, and what it is answered
with it has committed there: an order under its own nonce, and the secret it
minted for it. Nothing at the desk takes either away again.

Of two requests with one nonce the insert decides, and the loser is a replay:
its own placing ends there with nothing stored, the winner's order is committed
by then, and looking it up leads where a used nonce always does.
-/

namespace Rch

open Kit

/-! ## What a step at the desk leaves standing -/

def Named (env : QrEnv) (s : QrStore) (a : PlaceAsk) (id : String) : Prop :=
  ∃ o, s.db.qrOrders.get? id = some o ∧ o.nonce = env.sha256 a.nonce

/-- What a call's transaction is about: a request, or an order. -/
def QrTx.about : QrTx → Option (PlaceAsk ⊕ String)
  | .place a _ => some (.inl a)
  | .replay order _ => some (.inr order)
  | _ => none

structure Onward (w w' : World QrStore QrKey QrTx) : Prop where
  begun : w.txs.length ≤ w'.txs.length
  about : ∀ t x', t < w.txs.length → w'.tx t = some x' →
    ∃ x, w.tx t = some x ∧ x.at_.about = x'.at_.about
  minted : w.committed.minted ⊆ w'.committed.minted
  kept : ∀ id o, w.committed.db.qrOrders.get? id = some o →
    ∃ o', w'.committed.db.qrOrders.get? id = some o' ∧ o'.nonce = o.nonce

section Desk

variable {env : QrEnv} {s s' : QrStore} {held : List (Lock QrKey)}
variable {w w' : World QrStore QrKey QrTx}

theorem placeStmt_next {secret : String} {a : PlaceAsk} {p : PlaceAt}
    {st : QrStmt} (h : placeStmt env secret a s p = some st) :
    ∃ q, st.next = .place a q := by
  cases p with
  | begun | coded | capped =>
      obtain ⟨_, -, rfl⟩ := Option.map_eq_some_iff.1 h
      exact ⟨_, rfl⟩
  | located | held | few | numbered =>
      simp only [placeStmt, Option.ite_none_right_eq_some] at h
      obtain ⟨-, hst⟩ := h
      cases hst
      exact ⟨_, rfl⟩
  | timed =>
      simp only [placeStmt, Option.ite_none_left_eq_some] at h
      obtain ⟨-, hst⟩ := h
      cases hst
      exact ⟨_, rfl⟩
  | opened | phoneHeld | quoted =>
      cases h
      exact ⟨_, rfl⟩
  | stored => cases h

theorem replayStmt_next {secret order : String} {p : ReplayAt} {st : QrStmt}
    (h : replayStmt env secret order s p = some st) :
    ∃ q, st.next = .replay order q := by
  cases p with
  | begun =>
      obtain ⟨_, -, rfl⟩ := Option.map_eq_some_iff.1 h
      exact ⟨_, rfl⟩
  | held =>
      simp only [replayStmt, Option.ite_none_right_eq_some] at h
      obtain ⟨-, hst⟩ := h
      cases hst
      exact ⟨_, rfl⟩
  | checked =>
      cases h
      exact ⟨_, rfl⟩
  | rotated => cases h

theorem stmt_about {secret : String} {t : QrTx} {st : QrStmt}
    (h : t.stmt env secret s = some st) : t.about = st.next.about := by
  cases t with
  | place a p =>
      obtain ⟨q, hq⟩ := placeStmt_next h
      rw [hq]
      rfl
  | replay order p =>
      obtain ⟨q, hq⟩ := replayStmt_next h
      rw [hq]
      rfl
  | move order next at_ patch p =>
      cases p with
      | begun | held =>
          obtain ⟨_, -, rfl⟩ := Option.map_eq_some_iff.1 h
          rfl
      | moved => cases h
  | checkout order rzpOrderId p =>
      cases p with
      | begun =>
          cases h
          rfl
      | written => cases h
  | elsewhere db p =>
      cases p with
      | begun =>
          cases h
          rfl
      | written => cases h
  | tick t p =>
      cases p with
      | begun =>
          cases h
          rfl
      | written => cases h

theorem QrCommit.minted (h : QrCommit env s held s') :
    s.minted ⊆ s'.minted := by
  cases h with
  | stored a m row lands => exact List.subset_cons_self m s.minted
  | rotated m o waits => exact List.subset_cons_self m s.minted
  | edited | aside | ticked => exact List.Subset.refl _

theorem QrCommit.kept (h : QrCommit env s held s') {id : String}
    {o : QrOrderRow} (ho : s.db.qrOrders.get? id = some o) :
    ∃ o', s'.db.qrOrders.get? id = some o' ∧ o'.nonce = o.nonce := by
  have hedit {f order} (hf : Lasting f) :
      ∃ o', (s.edit order f).db.qrOrders.get? id = some o' ∧
        o'.nonce = o.nonce := by
    rw [get?_edit, ho]
    split
    · exact ⟨f o, rfl, hf.nonce o⟩
    · exact ⟨o, rfl, rfl⟩
  cases h with
  | stored a m row lands =>
      refine ⟨o, ?_, rfl⟩
      rw [get?_storeOrder lands.free, if_neg]
      · exact ho
      · rintro rfl
        cases lands.free.symm.trans ho
  | rotated m o' waits => exact hedit (secret_lasting m)
  | edited order f lasting secret key => exact hedit lasting
  | aside db => exact ⟨o, ho, rfl⟩
  | ticked t => exact ⟨o, ho, rfl⟩

theorem onward_begin (w : World QrStore QrKey QrTx) (t : QrTx) :
    Onward w { w with txs := w.txs ++ [some (.fresh t)] } := by
  refine ⟨by simp, fun t' x' ht hx' => ?_, List.Subset.refl _,
    fun _ o ho => ⟨o, ho, rfl⟩⟩
  rw [World.tx_append, if_neg (Nat.ne_of_lt ht)] at hx'
  exact ⟨x', hx', rfl⟩

theorem onward_put {i : ℕ} {x : Tx QrStore QrKey QrTx}
    {y : Option (Tx QrStore QrKey QrTx)} (hx : w.tx i = some x)
    (hy : ∀ z ∈ y, x.at_.about = z.at_.about) : Onward w (w.put i y) := by
  refine ⟨by simp [World.put], fun t x' _ hx' => ?_, List.Subset.refl _,
    fun _ o ho => ⟨o, ho, rfl⟩⟩
  rw [World.tx_put hx] at hx'
  split at hx'
  · next hit => exact ⟨x, hit ▸ hx, hy x' hx'⟩
  · exact ⟨x', hx', rfl⟩

theorem Onward.committed (h : Onward w w')
    (hc : QrCommit env w'.committed held s') :
    Onward w { w' with committed := s' } := by
  refine ⟨h.begun, h.about, List.Subset.trans h.minted hc.minted, fun id o ho => ?_⟩
  obtain ⟨o₁, ho₁, hn₁⟩ := h.kept id o ho
  obtain ⟨o₂, ho₂, hn₂⟩ := hc.kept ho₁
  exact ⟨o₂, ho₂, hn₂.trans hn₁⟩

theorem onward_commit (hs : Database.Safe (QrKept env) (QrShaped env) w)
    {i : ℕ} {x : Tx QrStore QrKey QrTx} (hx : w.tx i = some x)
    (hd : x.at_.done = true) :
    Onward w { w.put i none with committed := x.write w.committed } :=
  (onward_put hx fun z hz => by cases hz).committed ((hs.ok i x hx).commit hd)

theorem onward_step (hs : Database.Safe (QrKept env) (QrShaped env) w)
    {e : TxEvent String QrTx} (h : (qrDesk env).step w e = some w') :
    Onward w w' := by
  cases e with
  | begin_ t =>
      obtain ⟨-, rfl⟩ := Database.step_begin h
      exact onward_begin w t
  | run i c =>
      obtain ⟨x, st, hx, hst, -, rfl⟩ := Database.step_run h
      refine onward_put hx fun z hz => ?_
      cases hz
      exact stmt_about hst
  | commit i =>
      obtain ⟨x, hx, hd, rfl⟩ := Database.step_commit h
      exact onward_commit hs hx hd
  | abort i =>
      obtain ⟨x, hx, rfl⟩ := Database.step_abort (d := qrDesk env) h
      exact onward_put hx fun z hz => by cases hz

end Desk

/-! ## What a request can show for itself -/

section Calls

variable {env : QrEnv} {w w' : World QrStore QrKey QrTx} {p p' : Placing}

def CallOk (env : QrEnv) (w : World QrStore QrKey QrTx) (c : PlaceCall) :
    Prop :=
  match c.at_ with
  | .arrived | .coded _ | .refused => True
  | .lost _ => ∃ id, Named env w.committed c.ask id
  | .placing _ t => t < w.txs.length ∧
    ∀ x, w.tx t = some x → x.at_.about = some (.inl c.ask)
  | .replaying t => t < w.txs.length ∧ ∃ id, Named env w.committed c.ask id ∧
    ∀ x, w.tx t = some x → x.at_.about = some (.inr id)
  | .minted m | .answered m => m ∈ w.committed.minted ∧
    Named env w.committed c.ask m.order

theorem Named.onward {a : PlaceAsk} {id : String}
    (h : Named env w.committed a id) (ho : Onward w w') :
    Named env w'.committed a id := by
  obtain ⟨o, hget, hn⟩ := h
  obtain ⟨o', hget', hn'⟩ := ho.kept id o hget
  exact ⟨o', hget', hn'.trans hn⟩

theorem CallOk.onward {c : PlaceCall} (h : CallOk env w c)
    (ho : Onward w w') : CallOk env w' c := by
  obtain ⟨a, at_⟩ := c
  cases at_ with
  | arrived | coded | refused => trivial
  | lost code =>
      obtain ⟨id, hn⟩ := h
      exact ⟨id, hn.onward ho⟩
  | placing code t =>
      obtain ⟨hlt, hx⟩ := h
      refine ⟨Nat.lt_of_lt_of_le hlt ho.begun, fun x' hx' => ?_⟩
      obtain ⟨x, hw, hsame⟩ := ho.about t x' hlt hx'
      exact hsame ▸ hx x hw
  | replaying t =>
      obtain ⟨hlt, id, hn, hx⟩ := h
      refine ⟨Nat.lt_of_lt_of_le hlt ho.begun, id, hn.onward ho,
        fun x' hx' => ?_⟩
      obtain ⟨x, hw, hsame⟩ := ho.about t x' hlt hx'
      exact hsame ▸ hx x hw
  | minted m => exact ⟨ho.minted h.1, h.2.onward ho⟩
  | answered m => exact ⟨ho.minted h.1, h.2.onward ho⟩

def CallsOk (env : QrEnv) (p : Placing) : Prop :=
  ∀ c ∈ p.calls, CallOk env p.world c

theorem CallsOk.onward (h : CallsOk env p) (ho : Onward p.world w') :
    CallsOk env { p with world := w' } := fun c hc => (h c hc).onward ho

theorem call_become (p : Placing) (i : ℕ) (at_ : CallAt) (j : ℕ) :
    (p.become i at_).calls[j]? =
      if i = j then (p.calls[j]?).map fun c => { c with at_ }
      else p.calls[j]? := by
  unfold Placing.become
  rw [List.getElem?_modify]
  split
  · rfl
  · exact Option.map_id_apply

theorem CallsOk.become (h : CallsOk env p) {i : ℕ} {at_ : CallAt}
    (hc : ∀ c, p.calls[i]? = some c → CallOk env p.world { c with at_ }) :
    CallsOk env (p.become i at_) := by
  intro c' hc'
  obtain ⟨j, hj⟩ := List.mem_iff_getElem?.1 hc'
  rw [call_become] at hj
  split at hj
  · next hij =>
      obtain ⟨c, hcj, rfl⟩ := Option.map_eq_some_iff.1 hj
      exact hc c (hij ▸ hcj)
  · exact h c' (List.mem_of_getElem? hj)

theorem CallsOk.begins (h : CallsOk env p) {i : ℕ} {t : QrTx}
    {at_ : ℕ → CallAt} (hc : ∀ c, p.calls[i]? = some c →
      CallOk env { p.world with txs := p.world.txs ++ [some (.fresh t)] }
        { c with at_ := at_ p.world.txs.length }) :
    CallsOk env (p.begins i t at_) :=
  (h.onward (onward_begin p.world t)).become hc

theorem CallsOk.replay (h : CallsOk env p) {i : ℕ} {c : PlaceCall}
    (hc : p.calls[i]? = some c) (code : QrCodeRow)
    {prior : String × QrOrderRow}
    (hprior : orderByNonce p.db (env.sha256 c.ask.nonce) = some prior) :
    CallsOk env (p.replay i code prior) := by
  obtain ⟨hget, hn⟩ := orderByNonce_some hprior
  unfold Placing.replay
  split
  · refine h.begins fun c' hc' => ?_
    obtain rfl := Option.some.inj (hc'.symm.trans hc)
    refine ⟨by simp, prior.1, ⟨prior.2, hget, hn⟩, fun x hx => ?_⟩
    rw [World.tx_append, if_pos rfl] at hx
    cases hx
    rfl
  · exact h.become fun _ _ => trivial

/-- A call's transaction that is done was its own, and committed a secret it
minted for the order under its nonce. -/
theorem CallsOk.commit (hs : Database.Safe (QrKept env) (QrShaped env) p.world)
    (h : CallsOk env p) {i : ℕ} {c : PlaceCall} (hc : p.calls[i]? = some c)
    {t : ℕ} (ht : Placing.txOf c.at_ = some t) {x : Tx QrStore QrKey QrTx}
    (hx : p.world.tx t = some x) {m : Minted}
    (hm : Placing.mintedBy x.at_ = some m) :
    m ∈ (x.write p.world.committed).minted ∧
      Named env (x.write p.world.committed) c.ask m.order := by
  have hok := h c (List.mem_of_getElem? hc)
  have hshape := hs.ok t x hx
  obtain ⟨a, at_⟩ := c
  obtain ⟨y, held, write⟩ := x
  cases at_ with
  | placing code t' =>
      cases ht
      have habout : y.about = some (.inl a) := hok.2 _ hx
      cases y with
      | place a' q =>
          cases q with
          | stored m' =>
              cases hm
              obtain rfl : a' = a := Sum.inl.inj (Option.some.inj habout)
              obtain ⟨row, hl, rfl⟩ :
                ∃ row, Lands env p.world.committed held a' m row ∧ _ := hshape
              obtain ⟨code, plan, hrow⟩ := hl.of
              refine ⟨List.mem_cons_self, row, ?_, ?_⟩
              · rw [get?_storeOrder hl.free, if_pos rfl]
              · rw [hrow]
                rfl
          | _ => cases hm
      | replay order q => cases habout
      | _ => cases hm
  | replaying t' =>
      cases ht
      obtain ⟨-, id, hn, hall⟩ := hok
      have habout : y.about = some (.inr id) := hall _ hx
      cases y with
      | place a' q => cases habout
      | replay order q =>
          cases q with
          | rotated m' =>
              cases hm
              obtain rfl : order = id := Sum.inr.inj (Option.some.inj habout)
              obtain ⟨rfl, o, hw, rfl⟩ : m.order = order ∧ ∃ o,
                Waits p.world.committed held order m.at_ o ∧ _ := hshape
              obtain ⟨o', ho', hno'⟩ := hn
              refine ⟨List.mem_cons_self, ?_⟩
              have hturn : QrCommit env p.world.committed held
                  (setSecret env m p.world.committed) := .rotated m o hw
              obtain ⟨o'', ho'', hn''⟩ := hturn.kept ho'
              exact ⟨o'', ho'', hn''.trans hno'⟩
          | _ => cases hm
      | _ => cases hm
  | _ => cases ht

theorem done_of_mintedBy {t : QrTx} {m : Minted}
    (h : Placing.mintedBy t = some m) : t.done = true := by
  cases t with
  | place a q =>
      cases q with
      | stored m' => rfl
      | _ => cases h
  | replay order q =>
      cases q with
      | rotated m' => rfl
      | _ => cases h
  | _ => cases h

theorem named_of_beaten {a : PlaceAsk} {t : QrTx}
    (h : Placing.beaten env p.db a t = true) : ∃ id, Named env p.store a id := by
  cases t with
  | place a' q =>
      cases q with
      | numbered code now plan id =>
          obtain ⟨prior, hprior⟩ := Option.isSome_iff_exists.1 h
          exact ⟨prior.1, prior.2, orderByNonce_some hprior⟩
      | _ => cases h
  | _ => cases h

/-- What an event does to the requests, and at the desk. -/
inductive CallStep (env : QrEnv) (p : Placing) : Placing → Prop
  | asked (a : PlaceAsk) :
      CallStep env p { p with calls := p.calls ++ [⟨a, .arrived⟩] }
  /-- A call moves on, and nothing is claimed of it there. -/
  | stands (i : ℕ) (at_ : CallAt) (hat : ∀ w a, CallOk env w ⟨a, at_⟩) :
      CallStep env p (p.become i at_)
  | places (i : ℕ) (c : PlaceCall) (code : QrCodeRow)
      (hc : p.calls[i]? = some c) :
      CallStep env p (p.begins i (.place c.ask .begun) (.placing code))
  | replays (i : ℕ) (c : PlaceCall) (code : QrCodeRow)
      (prior : String × QrOrderRow) (hc : p.calls[i]? = some c)
      (hprior : orderByNonce p.db (env.sha256 c.ask.nonce) = some prior) :
      CallStep env p (p.replay i code prior)
  | aborts (i t : ℕ) (x : Tx QrStore QrKey QrTx) (at_ : CallAt)
      (hx : p.world.tx t = some x) (hat : ∀ w a, CallOk env w ⟨a, at_⟩) :
      CallStep env p ({ p with world := p.world.put t none }.become i at_)
  /-- Beaten to its nonce by an order that stands under it. -/
  | loses (i t : ℕ) (c : PlaceCall) (code : QrCodeRow)
      (x : Tx QrStore QrKey QrTx) (id : String) (hc : p.calls[i]? = some c)
      (hx : p.world.tx t = some x) (hn : Named env p.store c.ask id) :
      CallStep env p ({ p with world := p.world.put t none }.become i
        (.lost code))
  | commits (i t : ℕ) (c : PlaceCall) (x : Tx QrStore QrKey QrTx) (m : Minted)
      (hc : p.calls[i]? = some c) (ht : Placing.txOf c.at_ = some t)
      (hx : p.world.tx t = some x) (hm : Placing.mintedBy x.at_ = some m) :
      CallStep env p (Placing.become { p with world := { p.world.put t none with
        committed := x.write p.world.committed } } i (.minted m))
  | answers (i : ℕ) (c : PlaceCall) (m : Minted)
      (hc : p.calls[i]? = some c) (hat : c.at_ = .minted m) :
      CallStep env p (p.become i (.answered m))
  | desk (e : TxEvent String QrTx) (w : World QrStore QrKey QrTx)
      (h : (qrDesk env).step p.world e = some w) :
      CallStep env p { p with world := w }

theorem callStep_of {e : Placing.Event} (h : p.step env e = some p') :
    CallStep env p p' := by
  cases e with
  | ask a =>
      cases h
      exact .asked a
  | code i =>
      obtain ⟨⟨a, at_⟩, -, h⟩ := Option.bind_eq_some_iff.1 h
      cases at_ with
      | arrived =>
          obtain ⟨code, -, rfl⟩ := Option.map_eq_some_iff.1 h
          exact .stands i (.coded code) fun _ _ => trivial
      | _ => cases h
  | prior i =>
      obtain ⟨⟨a, at_⟩, hc, h⟩ := Option.bind_eq_some_iff.1 h
      cases at_ with
      | coded code =>
          simp only [Placing.prior] at h
          split at h
          · next prior hprior =>
              cases h
              exact .replays i _ code prior hc hprior
          · cases h
            exact .places i _ code hc
      | _ => cases h
  | lose i =>
      obtain ⟨⟨a, at_⟩, hc, h⟩ := Option.bind_eq_some_iff.1 h
      cases at_ with
      | placing code t =>
          obtain ⟨x, hx, h⟩ := Option.bind_eq_some_iff.1 h
          simp only [Option.ite_none_right_eq_some] at h
          obtain ⟨hbeaten, hp⟩ := h
          cases hp
          obtain ⟨id, hn⟩ := named_of_beaten hbeaten
          exact .loses i t _ code x id hc hx hn
      | _ => cases h
  | winner i =>
      obtain ⟨⟨a, at_⟩, hc, h⟩ := Option.bind_eq_some_iff.1 h
      cases at_ with
      | lost code =>
          obtain ⟨prior, hprior, rfl⟩ := Option.map_eq_some_iff.1 h
          exact .replays i _ code prior hc hprior
      | _ => cases h
  | commit i =>
      obtain ⟨c, hc, h⟩ := Option.bind_eq_some_iff.1 h
      simp only [Placing.commit, Option.bind_eq_some_iff,
        Option.map_eq_some_iff] at h
      obtain ⟨t, ht, x, hx, m, hm, rfl⟩ := h
      exact .commits i t c x m hc ht hx hm
  | answer i =>
      obtain ⟨⟨a, at_⟩, hc, h⟩ := Option.bind_eq_some_iff.1 h
      cases at_ with
      | minted m =>
          cases h
          exact .answers i _ m hc rfl
      | _ => cases h
  | refuse i =>
      obtain ⟨⟨a, at_⟩, -, h⟩ := Option.bind_eq_some_iff.1 h
      cases at_ with
      | answered | refused => cases h
      | _ =>
          simp only [Placing.refuse] at h
          split at h
          · next t ht =>
              cases h
              obtain ⟨-, hsome⟩ := Option.filter_eq_some_iff.1 ht
              obtain ⟨x, hx⟩ := Option.isSome_iff_exists.1 hsome
              exact .aborts i t x .refused hx fun _ _ => trivial
          · cases h
            exact .stands i .refused fun _ _ => trivial
  | desk e =>
      simp only [Placing.step, Option.ite_none_right_eq_some,
        Option.map_eq_some_iff] at h
      obtain ⟨-, w', hw, rfl⟩ := h
      exact .desk e w' hw

/-- Every event is one step at the desk, or none. -/
theorem CallStep.world (h : CallStep env p p') :
    p'.world = p.world ∨
      ∃ e, (qrDesk env).step p.world e = some p'.world := by
  cases h with
  | asked | stands | answers => exact .inl rfl
  | places i c code hc => exact .inr ⟨.begin_ (.place c.ask .begun), rfl⟩
  | replays i c code prior hc hprior =>
      unfold Placing.replay
      split
      · exact .inr ⟨.begin_ (.replay prior.1 .begun), rfl⟩
      · exact .inl rfl
  | aborts i t x at_ hx hat =>
      refine .inr ⟨.abort t, ?_⟩
      simp only [Database.step, hx, Option.map_some]
      rfl
  | loses i t c code x id hc hx hn =>
      refine .inr ⟨.abort t, ?_⟩
      simp only [Database.step, hx, Option.map_some]
      rfl
  | commits i t c x m hc ht hx hm =>
      exact .inr ⟨.commit t, Database.step_commit_of hx (done_of_mintedBy hm)⟩
  | desk e w h => exact .inr ⟨e, h⟩

theorem CallsOk.step (hs : Database.Safe (QrKept env) (QrShaped env) p.world)
    (h : CallsOk env p) (hstep : CallStep env p p') : CallsOk env p' := by
  cases hstep with
  | asked a =>
      intro c hc
      rcases List.mem_append.1 hc with hc | hc
      · exact h c hc
      · rw [List.mem_singleton.1 hc]
        trivial
  | stands i at_ hat => exact h.become fun c _ => hat p.world c.ask
  | places i c code hc =>
      refine h.begins fun c' hc' => ⟨by simp, fun x hx => ?_⟩
      rw [World.tx_append, if_pos rfl] at hx
      obtain rfl := Option.some.inj (hc'.symm.trans hc)
      cases hx
      rfl
  | replays i c code prior hc hprior => exact h.replay hc code hprior
  | aborts i t x at_ hx hat =>
      have hgone : Onward p.world (p.world.put t none) :=
        onward_put hx fun z hz => by cases hz
      exact (h.onward hgone).become fun c _ => hat _ c.ask
  | loses i t c code x id hc hx hn =>
      have hgone : Onward p.world (p.world.put t none) :=
        onward_put hx fun z hz => by cases hz
      refine (h.onward hgone).become fun c' hc' => ?_
      obtain rfl := Option.some.inj (hc'.symm.trans hc)
      exact ⟨id, hn⟩
  | commits i t c x m hc ht hx hm =>
      have hw := onward_commit hs hx (done_of_mintedBy hm)
      refine (h.onward hw).become fun c' hc' => ?_
      obtain rfl := Option.some.inj (hc'.symm.trans hc)
      exact h.commit hs hc ht hx hm
  | answers i c m hc hat =>
      refine h.become fun c' hc' => ?_
      obtain rfl := Option.some.inj (hc'.symm.trans hc)
      have hok := h c' (List.mem_of_getElem? hc)
      unfold CallOk at hok
      rw [hat] at hok
      exact hok
  | desk e w hw => exact h.onward (onward_step hs hw)

end Calls

section Runs

variable {env : QrEnv} {p p' : Placing}

theorem placing_desk (hr : (placing env).Reach p) :
    (qrDesk env).machine.Reach p.world := by
  refine hr.view (fun p h => ?_) fun p e p' he hdesk => ?_
  · exact .init h.1
  rcases (callStep_of he).world with hsame | ⟨e', he'⟩
  · rw [hsame]
    exact hdesk
  · exact hdesk.step he'

theorem placing_safe (hr : (placing env).Reach p) :
    Database.Safe (QrKept env) (QrShaped env) p.world :=
  (qrDesk_kept env).safe (placing_desk hr)

theorem callsOk_reach (hr : (placing env).Reach p) : CallsOk env p := by
  refine hr.invariant (fun p h c hc => ?_) fun p e p' hr h he =>
    h.step (placing_safe hr) (callStep_of he)
  rw [h.2] at hc
  cases hc

theorem orderByNonce_of {s : QrStore} (h : QrKept env s) {id n : String}
    {o : QrOrderRow} (ho : s.db.qrOrders.get? id = some o) (hn : o.nonce = n) :
    orderByNonce s.db n = some (id, o) := by
  cases hfind : orderByNonce s.db n with
  | none => exact absurd hn (orderByNonce_none hfind ho)
  | some prior =>
      obtain ⟨id', o'⟩ := prior
      obtain ⟨hget, hn'⟩ := orderByNonce_some hfind
      obtain rfl := h.once id' id o' o hget ho (hn'.trans hn.symm)
      obtain rfl := Option.some.inj (hget.symm.trans ho)
      rfl

theorem step_desk_run {t : ℕ} {secret : String}
    {w : World QrStore QrKey QrTx}
    (h : (qrDesk env).step p.world (.run t secret) = some w) :
    (placing env).step p (.desk (.run t secret)) =
      some { p with world := w } := by
  simp only [placing, Placing.step, Placing.alien, if_true, h, Option.map_some]

theorem replay_runs {w : World QrStore QrKey QrTx} {id : String}
    {o : QrOrderRow} (secret : String)
    (ho : w.committed.db.qrOrders.get? id = some o)
    (hunpaid : o.status = .awaitingPayment)
    (hlive : w.committed.clock < o.expiresAt)
    (hfree : w.free w.txs.length [⟨.order id, .update⟩] = true) :
    let n := w.txs.length
    let m : Minted := ⟨id, secret, w.committed.clock⟩
    ∃ w₂ w₃ w₄ x,
      (qrDesk env).step
        { w with txs := w.txs ++ [some (.fresh (.replay id .begun))] }
        (.run n secret) = some w₂ ∧
      (qrDesk env).step w₂ (.run n secret) = some w₃ ∧
      (qrDesk env).step w₃ (.run n secret) = some w₄ ∧
      w₄.tx n = some x ∧ x.at_ = .replay id (.rotated m) ∧
      w₄.committed = w.committed := by
  intro n m
  let x₁ : Tx QrStore QrKey QrTx := .fresh (.replay id .begun)
  let w₁ : World QrStore QrKey QrTx := { w with txs := w.txs ++ [some x₁] }
  have hx₁ : w₁.tx n = some x₁ := by
    rw [World.tx_append, if_pos rfl]
  -- The lock is taken on the row as it is.
  let s₁ : QrStmt := .lock (.order id) .update (.replay id (.held o))
  have hs₁ : (qrDesk env).stmt secret x₁.at_ (x₁.write w₁.committed) =
      some s₁ := by
    change (w.committed.db.qrOrders.get? id).map _ = some s₁
    rw [ho]
    rfl
  have hfree₁ : w₁.free n s₁.locks = true := by
    rw [World.free_append]
    exact hfree
  let x₂ := x₁.after s₁
  have hx₂ : (w₁.put n (some x₂)).tx n = some x₂ := by
    rw [World.tx_put hx₁, if_pos rfl]
  let s₂ : QrStmt := .read (.replay id (.checked w.committed.clock))
  have hs₂ : (qrDesk env).stmt secret x₂.at_
      (x₂.write (w₁.put n (some x₂)).committed) = some s₂ := if_pos ⟨hunpaid, hlive⟩
  let x₃ := x₂.after s₂
  have hx₃ : ((w₁.put n (some x₂)).put n (some x₃)).tx n = some x₃ := by
    rw [World.tx_put hx₂, if_pos rfl]
  let s₃ : QrStmt := ⟨[⟨.order id, .noKeyUpdate⟩], setSecret env m,
    .replay id (.rotated m)⟩
  -- What was free of the row's lock is free of the weaker one.
  have hfree₃ : ((w₁.put n (some x₂)).put n (some x₃)).free n s₃.locks =
      true := by
    rw [World.free_put hx₂, World.free_put hx₁, World.free_append]
    exact World.free_of_update hfree .noKeyUpdate
  refine ⟨w₁.put n (some x₂), (w₁.put n (some x₂)).put n (some x₃),
    ((w₁.put n (some x₂)).put n (some x₃)).put n (some (x₃.after s₃)),
    x₃.after s₃, ?_, ?_, ?_, ?_, rfl, rfl⟩
  · exact Database.step_run_of hx₁ hs₁ hfree₁
  · exact Database.step_run_of hx₂ hs₂ (World.free_nil _ n)
  · exact Database.step_run_of hx₃ (s := s₃) rfl hfree₃
  · rw [World.tx_put hx₃, if_pos rfl]

/-- Looking its nonce up, first or beaten, a request finds the order stored
under it. -/
theorem step_looksUp (hr : (placing env).Reach p) {i : ℕ} {c : PlaceCall}
    {code : QrCodeRow} {e : Placing.Event} {id : String} {o : QrOrderRow}
    (hc : p.calls[i]? = some c) (hl : Placing.looksUp i c.at_ = some (code, e))
    (ho : p.db.qrOrders.get? id = some o)
    (hn : o.nonce = env.sha256 c.ask.nonce) :
    (placing env).step p e = some (p.replay i code (id, o)) := by
  have hfind : orderByNonce p.db (env.sha256 c.ask.nonce) = some (id, o) :=
    orderByNonce_of (placing_safe hr).inv ho hn
  obtain ⟨a, at_⟩ := c
  cases at_ with
  | coded code' =>
      cases hl
      change (p.calls[i]?).bind (p.prior env i) = _
      rw [hc, Option.bind_some, Placing.prior]
      simp only [hfind]
  | lost code' =>
      cases hl
      change (p.calls[i]?).bind (p.winner env i) = _
      rw [hc, Option.bind_some, Placing.winner]
      simp only [hfind, Option.map_some]
  | _ => cases hl

/-- Finding one it never places: it goes to the order, or is turned away from
another code's. -/
theorem spent_nonce (hr : (placing env).Reach p) {i : ℕ} {c : PlaceCall}
    {code : QrCodeRow} {e : Placing.Event} {id : String} {o : QrOrderRow}
    (hc : p.calls[i]? = some c) (hl : Placing.looksUp i c.at_ = some (code, e))
    (ho : p.db.qrOrders.get? id = some o)
    (hn : o.nonce = env.sha256 c.ask.nonce) (he : p.step env e = some p') :
    p'.calls[i]? = some { c with at_ :=
      if o.qrCodeId = code.id then .replaying p.world.txs.length
      else .refused } := by
  obtain rfl := Option.some.inj (he.symm.trans (step_looksUp hr hc hl ho hn))
  unfold Placing.replay
  split
  · change (Placing.become _ i _).calls[i]? = _
    rw [call_become, if_pos rfl]
    exact congrArg (Option.map _) hc
  · rw [call_become, if_pos rfl, hc]
    rfl

/-- A request whose nonce names an unpaid order of its own code, with the row
free and time left, is answered with it. -/
theorem handed_back (hr : (placing env).Reach p) {i : ℕ} {c : PlaceCall}
    {code : QrCodeRow} {e : Placing.Event} {id : String} {o : QrOrderRow}
    (secret : String) (hc : p.calls[i]? = some c)
    (hl : Placing.looksUp i c.at_ = some (code, e))
    (ho : p.db.qrOrders.get? id = some o)
    (hn : o.nonce = env.sha256 c.ask.nonce) (hcode : o.qrCodeId = code.id)
    (hunpaid : o.status = .awaitingPayment)
    (hlive : p.store.clock < o.expiresAt)
    (hfree : p.world.free p.world.txs.length [⟨.order id, .update⟩] = true) :
    ∃ p', (placing env).run p
        [e, .desk (.run p.world.txs.length secret),
          .desk (.run p.world.txs.length secret),
          .desk (.run p.world.txs.length secret), .commit i, .answer i] =
        some p' ∧
      p'.calls[i]? =
        some { c with at_ := .answered ⟨id, secret, p.store.clock⟩ } := by
  obtain ⟨w₂, w₃, w₄, x, h₁, h₂, h₃, hx, hxat, -⟩ :=
    @replay_runs env p.world id o secret ho hunpaid hlive hfree
  have hlook : (placing env).step p e =
      some (p.begins i (.replay id .begun) .replaying) := by
    rw [step_looksUp hr hc hl ho hn, Placing.replay, if_pos hcode]
  let p₁ := p.begins i (.replay id .begun) .replaying
  have hc₁ : p₁.calls[i]? =
      some { c with at_ := .replaying p.world.txs.length } := by
    change (Placing.become _ i _).calls[i]? = _
    rw [call_become, if_pos rfl]
    exact congrArg (Option.map _) hc
  let m : Minted := ⟨id, secret, p.store.clock⟩
  let p₄ : Placing := { p₁ with world := w₄ }
  let p₅ : Placing := Placing.become { p₄ with world := { w₄.put
    p.world.txs.length none with committed := x.write w₄.committed } } i
      (.minted m)
  have hcommit : (placing env).step p₄ (.commit i) = some p₅ := by
    change (p₁.calls[i]?).bind (p₄.commit i) = _
    rw [hc₁, Option.bind_some, Placing.commit]
    simp only [Placing.txOf, Option.bind_some]
    rw [show p₄.world.tx p.world.txs.length = some x from hx, Option.bind_some,
      hxat]
    rfl
  have hc₅ : p₅.calls[i]? = some { c with at_ := .minted m } := by
    change (Placing.become _ i _).calls[i]? = _
    rw [call_become, if_pos rfl]
    exact congrArg (Option.map _) hc₁
  have hanswer : (placing env).step p₅ (.answer i) =
      some (p₅.become i (.answered m)) := by
    change (p₅.calls[i]?).bind (p₅.answer i) = _
    rw [hc₅]
    rfl
  refine ⟨p₅.become i (.answered m), ?_, ?_⟩
  · rw [Machine.run, hlook, Option.bind_some, Machine.run,
      step_desk_run (p := p₁) h₁, Option.bind_some, Machine.run,
      step_desk_run (p := { p₁ with world := w₂ }) h₂, Option.bind_some,
      Machine.run, step_desk_run (p := { p₁ with world := w₃ }) h₃,
      Option.bind_some, Machine.run, hcommit, Option.bind_some, Machine.run,
      hanswer]
    rfl
  · rw [call_become, if_pos rfl, hc₅]
    rfl

/-! ## Beaten to a nonce -/

/-- The placing's own checks let it through to its insert, on what is
committed, and nobody else holds what it locks on the way. -/
inductive LetThrough (env : QrEnv) (w : World QrStore QrKey QrTx) (t : ℕ)
    (secret : String) (a : PlaceAsk) : PlaceAt → Prop
  | insert (code : QrCodeRow) (now : Instant) (plan : BillPlan) (id : String) :
      LetThrough env w t secret a (.numbered code now plan id)
  | next (q q' : PlaceAt) (st : QrStmt)
      (passes : placeStmt env secret a w.committed q = some st)
      (leads : st.next = .place a q') (free : w.free t st.locks = true)
      (rest : LetThrough env w t secret a q') :
      LetThrough env w t secret a q

/-- Before its number is taken a placing has written nothing. -/
theorem PlaceShaped.reads {s : QrStore} {held : List (Lock QrKey)}
    {write : QrStore → QrStore} {secret : String} {a : PlaceAsk}
    {q q' : PlaceAt} {st : QrStmt} (h : PlaceShaped env s held write a q)
    (hst : placeStmt env secret a s q = some st)
    (hnext : st.next = .place a q') (hq' : ∀ m, q' ≠ .stored m) :
    write = id := by
  cases q with
  | begun | coded | located => exact h
  | timed | opened => exact h.2
  | phoneHeld | held => exact h.2.2
  | few | capped | quoted => exact h.2
  | numbered code now plan id =>
      simp only [placeStmt, Option.ite_none_right_eq_some] at hst
      obtain ⟨-, hst⟩ := hst
      cases hst
      cases hnext
      exact absurd rfl (hq' _)
  | stored m => cases hst

theorem LetThrough.not_stored {w : World QrStore QrKey QrTx} {t : ℕ}
    {secret : String} {a : PlaceAsk} {m : Minted}
    (h : LetThrough env w t secret a (.stored m)) : False := by
  cases h with
  | next _ q' st passes leads free rest => cases passes

/-- Let through, it comes to its insert, and changes nothing on its way but
its own place. -/
theorem LetThrough.runs {w : World QrStore QrKey QrTx} {t : ℕ} {secret : String}
    {a : PlaceAsk} {q : PlaceAt} (h : LetThrough env w t secret a q) :
    ∀ {p : Placing} {x : Tx QrStore QrKey QrTx}, (placing env).Reach p →
      p.world.committed = w.committed → (∀ l, p.world.free t l = w.free t l) →
      p.world.tx t = some x → x.at_ = .place a q →
      ∃ k w' y code now plan id,
        (placing env).run p (List.replicate k (.desk (.run t secret))) =
          some { p with world := w' } ∧
        w'.committed = p.world.committed ∧
        w'.txs.length = p.world.txs.length ∧ w'.tx t = some y ∧
        y.at_ = .place a (.numbered code now plan id) ∧
        ∀ j, j ≠ t → w'.tx j = p.world.tx j := by
  induction h with
  | insert code now plan id =>
      intro p x _ _ _ hx hat
      exact ⟨0, p.world, x, code, now, plan, id, rfl, rfl, rfl, hx, hat,
        fun _ _ => rfl⟩
  | next q q' st passes leads free rest ih =>
      intro p x hr hw hfree hx hat
      obtain ⟨y, held, write⟩ := x
      obtain rfl : y = .place a q := hat
      have hshape : PlaceShaped env p.world.committed held write a q :=
        (placing_safe hr).ok t _ hx
      rw [hw] at hshape
      obtain rfl := hshape.reads passes leads fun m hm =>
        (hm ▸ rest).not_stored
      -- The statement reads what is committed, which is what was let through.
      let x' := (⟨.place a q, held, id⟩ : Tx QrStore QrKey QrTx).after st
      have hstep : (qrDesk env).step p.world (.run t secret) =
          some (p.world.put t (some x')) := by
        refine Database.step_run_of hx (s := st) ?_ ((hfree _).trans free)
        change placeStmt env secret a p.world.committed q = some st
        rw [hw]
        exact passes
      have hdesk := step_desk_run (p := p) hstep
      have hx' : (p.world.put t (some x')).tx t = some x' := by
        rw [World.tx_put hx, if_pos rfl]
      obtain ⟨k, w', z, code, now, plan, id, hrun, hc, hlen, hz, hzat, hother⟩ :=
        ih (p := { p with world := p.world.put t (some x') }) (hr.step hdesk) hw
          (fun l => by rw [World.free_put hx]; exact hfree l) hx' leads
      refine ⟨k + 1, w', z, code, now, plan, id, ?_, hc, ?_, hz, hzat, ?_⟩
      · rw [List.replicate_succ, Machine.run, hdesk, Option.bind_some]
        exact hrun
      · rw [hlen]
        simp [World.put]
      · intro j hj
        rw [hother j hj, World.tx_put hx, if_neg (Ne.symm hj)]

/-- A placing whose nonce is taken stores nothing at its insert, and its
request is the loser. -/
theorem beaten_insert (hr : (placing env).Reach p) {i t : ℕ} {c : PlaceCall}
    {code code' : QrCodeRow} {x : Tx QrStore QrKey QrTx} {now : Instant}
    {plan : BillPlan} {id id' : String} {o : QrOrderRow}
    (hc : p.calls[i]? = some c) (hat : c.at_ = .placing code t)
    (hx : p.world.tx t = some x)
    (hxat : x.at_ = .place c.ask (.numbered code' now plan id'))
    (ho : p.db.qrOrders.get? id = some o)
    (hn : o.nonce = env.sha256 c.ask.nonce) :
    (∀ secret, (qrDesk env).step p.world (.run t secret) = none) ∧
      (placing env).step p (.lose i) =
        some ({ p with world := p.world.put t none }.become i (.lost code)) := by
  have hfind : orderByNonce p.db (env.sha256 c.ask.nonce) = some (id, o) :=
    orderByNonce_of (placing_safe hr).inv ho hn
  constructor
  · intro secret
    obtain ⟨y, held, write⟩ := x
    obtain rfl : y = .place c.ask (.numbered code' now plan id') := hxat
    obtain ⟨-, rfl⟩ : BelowCap env p.world.committed held _ now ∧
      write = advanceOrders := (placing_safe hr).ok t _ hx
    have hstmt : (qrDesk env).stmt secret
        (.place c.ask (.numbered code' now plan id'))
        (advanceOrders p.world.committed) = none := by
      refine if_neg fun hfree => ?_
      have hnone : orderByNonce p.db (env.sha256 c.ask.nonce) = none := hfree.1
      cases hfind.symm.trans hnone
    simp only [Database.step, hx, Option.bind_some, hstmt, Option.bind_none]
  · change (p.calls[i]?).bind (p.lose env i) = _
    rw [hc, Option.bind_some, Placing.lose, hat]
    simp only [hx, Option.bind_some, Placing.beaten, hxat, hfind,
      Option.isSome_some, if_true]

/-- A loser whose order is there, unpaid and unexpired, with the row free, is
answered with it. -/
theorem loser_handed (hr : (placing env).Reach p) {i t : ℕ} {c : PlaceCall}
    {code : QrCodeRow} {x : Tx QrStore QrKey QrTx} {q : PlaceAt} {id : String}
    {o : QrOrderRow} {draw : String} (secret : String)
    (hc : p.calls[i]? = some c) (hat : c.at_ = .placing code t)
    (hx : p.world.tx t = some x) (hxat : x.at_ = .place c.ask q)
    (hlet : LetThrough env p.world t draw c.ask q)
    (ho : p.db.qrOrders.get? id = some o)
    (hn : o.nonce = env.sha256 c.ask.nonce) (hcode : o.qrCodeId = code.id)
    (hunpaid : o.status = .awaitingPayment)
    (hlive : p.store.clock < o.expiresAt)
    (hfree : p.world.free p.world.txs.length [⟨.order id, .update⟩] = true) :
    ∃ k p', (placing env).run p
        (List.replicate k (.desk (.run t draw)) ++
          [.lose i, .winner i, .desk (.run p.world.txs.length secret),
            .desk (.run p.world.txs.length secret),
            .desk (.run p.world.txs.length secret), .commit i, .answer i]) =
        some p' ∧
      p'.calls[i]? =
        some { c with at_ := .answered ⟨id, secret, p.store.clock⟩ } := by
  obtain ⟨k, w', y, code', now, plan, id', hrun, hw, hlen, hy, hyat, hother⟩ :=
    hlet.runs hr rfl (fun _ => rfl) hx hxat
  let p₁ : Placing := { p with world := w' }
  have hr₁ : (placing env).Reach p₁ := Machine.reach_run hr hrun
  have ho₁ : p₁.db.qrOrders.get? id = some o := by
    change w'.committed.db.qrOrders.get? id = some o
    rw [hw]
    exact ho
  obtain ⟨-, hlose⟩ := beaten_insert hr₁ hc hat hy hyat ho₁ hn
  let p₂ : Placing :=
    { p₁ with world := w'.put t none }.become i (.lost code)
  have hc₂ : p₂.calls[i]? = some { c with at_ := .lost code } := by
    rw [call_become, if_pos rfl]
    exact congrArg (Option.map _) hc
  have hlen₂ : p₂.world.txs.length = p.world.txs.length := by
    change (w'.txs.set t none).length = _
    rw [List.length_set, hlen]
  -- The loser's own transaction is gone, and the others are where they were.
  have hfree₂ : p₂.world.free p₂.world.txs.length [⟨.order id, .update⟩] =
      true := by
    rw [World.free_iff] at hfree ⊢
    intro j z hz hj
    rw [show p₂.world = w'.put t none from rfl, World.tx_put hy] at hz
    split at hz
    · cases hz
    · next hne =>
        rw [hother j (Ne.symm hne)] at hz
        exact hfree j z hz (hlen₂ ▸ hj)
  have hlive₂ : p₂.store.clock < o.expiresAt := by
    change w'.committed.clock < o.expiresAt
    rw [hw]
    exact hlive
  obtain ⟨p', hrest, hlast⟩ := handed_back (hr₁.step hlose) secret hc₂
    (e := .winner i) rfl ho₁ hn hcode hunpaid hlive₂ hfree₂
  refine ⟨k, p', ?_, ?_⟩
  · rw [Machine.run_append, hrun, Option.bind_some, Machine.run, hlose,
      Option.bind_some, ← hlen₂]
    exact hrest
  · rw [hlast]
    rw [show p₂.store.clock = p.store.clock from congrArg QrStore.clock hw]

/-- A secret is minted again only while the order waits for its payment. -/
theorem handed_unpaid (hr : (placing env).Reach p) {i t : ℕ} {c : PlaceCall}
    (hc : p.calls[i]? = some c) (hat : c.at_ = .replaying t)
    (he : p.step env (.commit i) = some p') :
    ∃ m o, p'.calls[i]? = some { c with at_ := .minted m } ∧
      p.db.qrOrders.get? m.order = some o ∧
      o.nonce = env.sha256 c.ask.nonce ∧ o.status = .awaitingPayment ∧
      m.at_ < o.expiresAt ∧ m.at_ ≤ p.store.clock := by
  change (p.calls[i]?).bind (p.commit i) = _ at he
  rw [hc, Option.bind_some] at he
  simp only [Placing.commit, hat, Placing.txOf, Option.bind_some,
    Option.bind_eq_some_iff, Option.map_eq_some_iff] at he
  obtain ⟨x, hx, m, hm, rfl⟩ := he
  have hok := callsOk_reach hr c (List.mem_of_getElem? hc)
  have hshape := (placing_safe hr).ok t x hx
  unfold CallOk at hok
  rw [hat] at hok
  obtain ⟨-, id, ⟨o, ho, hno⟩, hall⟩ := hok
  have habout := hall x hx
  obtain ⟨y, held, write⟩ := x
  cases y with
  | replay order q =>
      cases q with
      | rotated m' =>
          cases hm
          obtain rfl : order = id := Sum.inr.inj (Option.some.inj habout)
          obtain ⟨rfl, o', hw, -⟩ : m.order = order ∧ ∃ o',
            Waits p.world.committed held order m.at_ o' ∧ _ := hshape
          obtain rfl := Option.some.inj (ho.symm.trans hw.stands)
          refine ⟨m, o, ?_, ho, hno, hw.unpaid, hw.unexpired, hw.read⟩
          rw [call_become, if_pos rfl]
          exact congrArg (Option.map _) hc
      | _ => cases hm
  | place a q => cases habout
  | _ => cases hm

/-- Once per checkout, and few per phone. -/
structure PlacedOnce (env : QrEnv) (p : Placing) : Prop where
  /-- At most one order a nonce. -/
  once : ∀ id id' o o', p.db.qrOrders.get? id = some o →
    p.db.qrOrders.get? id' = some o' → o.nonce = o'.nonce → id = id'
  /-- What a request is answered with is the order under its nonce. -/
  answered : ∀ c ∈ p.calls, ∀ m, c.at_ = .answered m →
    m ∈ p.store.minted ∧ ∃ o, p.db.qrOrders.get? m.order = some o ∧
      o.nonce = env.sha256 c.ask.nonce
  /-- Where there is one already it is handed back, to its own code only. -/
  spent : ∀ i c code e id o p', p.calls[i]? = some c →
    Placing.looksUp i c.at_ = some (code, e) →
    p.db.qrOrders.get? id = some o → o.nonce = env.sha256 c.ask.nonce →
    p.step env e = some p' →
    p'.calls[i]? = some { c with at_ :=
      if o.qrCodeId = code.id then .replaying p.world.txs.length
      else .refused }
  /-- It is handed back only while it waits for its payment. -/
  unpaid : ∀ i t c p', p.calls[i]? = some c → c.at_ = .replaying t →
    p.step env (.commit i) = some p' →
    ∃ m o, p'.calls[i]? = some { c with at_ := .minted m } ∧
      p.db.qrOrders.get? m.order = some o ∧
      o.nonce = env.sha256 c.ask.nonce ∧ o.status = .awaitingPayment ∧
      m.at_ < o.expiresAt ∧ m.at_ ≤ p.store.clock
  /-- And while it does, it is, once nobody else holds its row. -/
  handed : ∀ i c code e id o secret, p.calls[i]? = some c →
    Placing.looksUp i c.at_ = some (code, e) →
    p.db.qrOrders.get? id = some o →
    o.nonce = env.sha256 c.ask.nonce → o.qrCodeId = code.id →
    o.status = .awaitingPayment → p.store.clock < o.expiresAt →
    p.world.free p.world.txs.length [⟨.order id, .update⟩] = true →
    ∃ p', (placing env).run p
        [e, .desk (.run p.world.txs.length secret),
          .desk (.run p.world.txs.length secret),
          .desk (.run p.world.txs.length secret), .commit i, .answer i] =
        some p' ∧
      p'.calls[i]? =
        some { c with at_ := .answered ⟨id, secret, p.store.clock⟩ }
  /-- A placing that finds its nonce taken at its insert stores nothing: its
  request has lost, -/
  beaten : ∀ i c code t x code' now plan id' id o, p.calls[i]? = some c →
    c.at_ = .placing code t → p.world.tx t = some x →
    x.at_ = .place c.ask (.numbered code' now plan id') →
    p.db.qrOrders.get? id = some o → o.nonce = env.sha256 c.ask.nonce →
    (∀ secret, (qrDesk env).step p.world (.run t secret) = none) ∧
      ∃ p', p.step env (.lose i) = some p' ∧
        p'.calls[i]? = some { c with at_ := .lost code }
  /-- the winner's order is there for the loser to look up, -/
  won : ∀ c ∈ p.calls, ∀ code, c.at_ = .lost code →
    ∃ id o, p.db.qrOrders.get? id = some o ∧
      o.nonce = env.sha256 c.ask.nonce
  /-- and from where its own checks let it through to the insert, the loser is
  handed that order like any request that finds its nonce used. -/
  raced : ∀ i c code t x q draw id o secret, p.calls[i]? = some c →
    c.at_ = .placing code t → p.world.tx t = some x →
    x.at_ = .place c.ask q → LetThrough env p.world t draw c.ask q →
    p.db.qrOrders.get? id = some o → o.nonce = env.sha256 c.ask.nonce →
    o.qrCodeId = code.id → o.status = .awaitingPayment →
    p.store.clock < o.expiresAt →
    p.world.free p.world.txs.length [⟨.order id, .update⟩] = true →
    ∃ k p', (placing env).run p
        (List.replicate k (.desk (.run t draw)) ++
          [.lose i, .winner i, .desk (.run p.world.txs.length secret),
            .desk (.run p.world.txs.length secret),
            .desk (.run p.world.txs.length secret), .commit i, .answer i]) =
        some p' ∧
      p'.calls[i]? =
        some { c with at_ := .answered ⟨id, secret, p.store.clock⟩ }
  /-- Of all the secrets minted for an order the last opens it, and no other. -/
  opens : ∀ id o secret, p.db.qrOrders.get? id = some o →
    (env.secretMatches o.secretHash secret = true ↔
      ∃ m, lastMinted p.store id = some m ∧
        env.sha256 secret = env.sha256 m.secret)
  /-- A phone's unpaid orders stay within the cap. -/
  capped : ∀ phone now, p.store.clock ≤ now →
    pendingForPhone p.db phone now ≤ QR_PENDING_PER_PHONE

/-- Whatever the order of the requests' steps, of the payments, the lapses and
everything else the server writes. -/
theorem placed_once (hr : (placing env).Reach p) : PlacedOnce env p where
  once := (placing_safe hr).inv.once
  answered c hc m hm := by
    have hok := callsOk_reach hr c hc
    unfold CallOk at hok
    rw [hm] at hok
    exact hok
  spent _ _ _ _ _ _ _ hc hl ho hn he := spent_nonce hr hc hl ho hn he
  unpaid _ _ _ _ hc hat he := handed_unpaid hr hc hat he
  handed _ _ _ _ _ _ secret hc hl ho hn hcode hunpaid hlive hfree :=
    handed_back hr secret hc hl ho hn hcode hunpaid hlive hfree
  beaten i c code t x _ _ _ _ _ _ hc hat hx hxat ho hn := by
    obtain ⟨hnone, hlose⟩ := beaten_insert hr hc hat hx hxat ho hn
    refine ⟨hnone, _, hlose, ?_⟩
    rw [call_become, if_pos rfl]
    exact congrArg (Option.map _) hc
  won c hc code hat := by
    have hok := callsOk_reach hr c hc
    unfold CallOk at hok
    rw [hat] at hok
    exact hok
  raced _ _ _ _ _ _ _ _ _ secret hc hat hx hxat hlet ho hn hcode hunpaid hlive
      hfree :=
    loser_handed hr secret hc hat hx hxat hlet ho hn hcode hunpaid hlive hfree
  opens id o secret ho := by
    obtain ⟨m, hm, hhash⟩ := (placing_safe hr).inv.opens id o ho
    unfold QrEnv.secretMatches
    rw [decide_eq_true_eq, hhash]
    constructor
    · exact fun h => ⟨m, hm, h⟩
    · rintro ⟨m', hm', h⟩
      obtain rfl := Option.some.inj (hm.symm.trans hm')
      exact h
  capped := (placing_safe hr).inv.capped

end Runs

/-! ## One checkout, four requests -/

def twoCodes : MasterRows :=
  { corner with
    qrCodes := fun token =>
      if token = "poster" then some ⟨"QR-001", "cafe", "Lobby", .pickup, true⟩
      else if token = "standee" then
        some ⟨"QR-002", "cafe", "Ward", .pickup, true⟩
      else none }

def twoCodesStocked : Db :=
  ((server.run (Db.fresh twoCodes) [.createAdjustment ⟨"u1", STORE, true⟩
    ⟨"cafe", .count, "", [⟨"milk", 5⟩]⟩ 0]).getD (Db.fresh twoCodes))

def twoCodesEnv : QrEnv where
  config := ⟨⟨500000⟩, 15, 5⟩
  sha256 := fun s => "sha256:" ++ s
  hashtext := fun _ => 0

def cartonAsk (token : String) : PlaceAsk where
  token := token
  body := guestOrder 3 (by decide) (by decide)
  nonce := "checkout"
  ip := "10.0.0.1"

/-- The place, and a retry that comes before it is answered. -/
def askedTwice : List Placing.Event :=
  [.desk (.begin_ (.elsewhere twoCodesStocked .begun)), .desk (.run 0 ""),
    .desk (.commit 0), .ask (cartonAsk "poster"), .code 0, .prior 0] ++
  List.replicate 11 (.desk (.run 1 "first")) ++
  [.commit 0, .answer 0, .ask (cartonAsk "poster"), .code 1, .prior 1] ++
  List.replicate 3 (.desk (.run 2 "second")) ++ [.commit 1]

/-- A third retry overtakes it, and a fourth comes from the other code. -/
def retriesOvertaken : List Placing.Event :=
  askedTwice ++ [.ask (cartonAsk "poster"), .code 2, .prior 2] ++
  List.replicate 3 (.desk (.run 3 "third")) ++
  [.commit 2, .answer 2, .ask (cartonAsk "standee"), .code 3, .prior 3]

/-- Before anything is served. -/
def twoCodesOpen : Placing := ⟨⟨⟨Db.fresh twoCodes, 0, []⟩, []⟩, []⟩

theorem twoCodesOpen_init : (placing twoCodesEnv).init twoCodesOpen :=
  ⟨⟨⟨twoCodes, 0, rfl⟩, rfl⟩, rfl⟩

/-- The answer that leaves last carries a secret that opens nothing, and a
request for an order that waits for its payment is turned away. -/
theorem late_answer_opens_nothing : ∃ p p' o,
    (placing twoCodesEnv).Reach p ∧
      p.step twoCodesEnv (.answer 1) = some p' ∧
      (p'.calls.map PlaceCall.at_)[1]? =
        some (.answered ⟨"QO-1970-0001", "second", 0⟩) ∧
      p'.db.qrOrders.get? "QO-1970-0001" = some o ∧
      o.status = .awaitingPayment ∧ p'.store.clock < o.expiresAt ∧
      twoCodesEnv.secretMatches o.secretHash "second" = false ∧
      twoCodesEnv.secretMatches o.secretHash "third" = true ∧
      o.nonce = twoCodesEnv.sha256 (cartonAsk "standee").nonce ∧
      (p'.calls.map PlaceCall.at_)[3]? = some .refused := by
  have hany : ((placing twoCodesEnv).run twoCodesOpen retriesOvertaken).any
      (fun p => (p.step twoCodesEnv (.answer 1)).any fun p' =>
        (p'.db.qrOrders.get? "QO-1970-0001").any fun o => decide (
          (p'.calls.map PlaceCall.at_)[1]? =
            some (.answered ⟨"QO-1970-0001", "second", 0⟩) ∧
          o.status = .awaitingPayment ∧ p'.store.clock < o.expiresAt ∧
          twoCodesEnv.secretMatches o.secretHash "second" = false ∧
          twoCodesEnv.secretMatches o.secretHash "third" = true ∧
          o.nonce = twoCodesEnv.sha256 (cartonAsk "standee").nonce ∧
          (p'.calls.map PlaceCall.at_)[3]? = some .refused)) = true := by
    decide +kernel
  obtain ⟨p, hrun, hp⟩ := (Option.any_eq_true _ _).1 hany
  obtain ⟨p', hp', ho⟩ := (Option.any_eq_true _ _).1 hp
  obtain ⟨o, hget, hall⟩ := (Option.any_eq_true _ _).1 ho
  obtain ⟨hlast, hrest⟩ := of_decide_eq_true hall
  exact ⟨p, p', o, Machine.reach_run (.init twoCodesOpen_init) hrun, hp', hlast,
    hget, hrest⟩

/-- The retry on its own: its secret opens the order, and the first one no
longer does. -/
theorem placed_once_retried : ∃ p o,
    (placing twoCodesEnv).run twoCodesOpen (askedTwice ++ [.answer 1]) =
        some p ∧
      PlacedOnce twoCodesEnv p ∧
      (p.calls.map PlaceCall.at_)[1]? =
        some (.answered ⟨"QO-1970-0001", "second", 0⟩) ∧
      p.db.qrOrders.get? "QO-1970-0001" = some o ∧
      twoCodesEnv.secretMatches o.secretHash "first" = false ∧
      twoCodesEnv.secretMatches o.secretHash "second" = true := by
  have hany : ((placing twoCodesEnv).run twoCodesOpen
      (askedTwice ++ [.answer 1])).any (fun p =>
        (p.db.qrOrders.get? "QO-1970-0001").any fun o => decide (
          (p.calls.map PlaceCall.at_)[1]? =
            some (.answered ⟨"QO-1970-0001", "second", 0⟩) ∧
          twoCodesEnv.secretMatches o.secretHash "first" = false ∧
          twoCodesEnv.secretMatches o.secretHash "second" = true)) = true := by
    decide +kernel
  obtain ⟨p, hrun, hp⟩ := (Option.any_eq_true _ _).1 hany
  obtain ⟨o, hget, hall⟩ := (Option.any_eq_true _ _).1 hp
  obtain ⟨hlast, hsecrets⟩ := of_decide_eq_true hall
  exact ⟨p, o, hrun,
    placed_once (Machine.reach_run (.init twoCodesOpen_init) hrun), hlast, hget,
    hsecrets⟩

end Rch
