import Rch.Kit.Calendar
import Rch.Proofs.OncePerCheckout
import Rch.Screen.OrderPage

/-!
# One checkout, one order

A customer taps Pay, loses the answer and taps again. As long as nothing that is
ordered changes and nothing was heard that settles the request before, the next
one carries its nonce; after anything else it carries a new one. The server keeps
at most one order under a nonce, so an attempt is one order at most, however
often it is sent and whatever arrives of it.

What carries it is where the latest request stands: unanswered, the page is
placing, and answered, the attempt is kept or given up by what was said.
-/

namespace Rch.OrderPage

open Kit

/-- What was heard of it settles nothing. -/
def Send.Unsettled (a : Send) : Prop :=
  a.heard = some .lost ∨ ∃ status message, a.heard = some (.refused status message) ∧ status ≠ 409

/-- `b` was sent next after `a`. -/
structure Follows (b a : Send) : Prop where
  heard : a.heard ≠ none
  kept : b.body = a.body → a.Unsettled → b.nonce = a.nonce
  fresh : ¬ (b.body = a.body ∧ a.Unsettled) → a.nonce < b.nonce
  paid : b.body = a.body → ∀ o, a.heard = some (.created o) →
    o.status = .awaitingPayment → a.paid = true

/-- Where the latest request stands. -/
structure Standing (s : Phone) (a : Send) : Prop where
  out : a.heard = none → s.placing = true ∧ s.attempt = some (a.nonce, a.body)
  back : a.heard ≠ none → s.placing = false
  open_ : a.Unsettled → s.attempt = some (a.nonce, a.body)
  refused : ∀ message, a.heard = some (.refused 409 message) → s.attempt = none
  created : ∀ o, a.heard = some (.created o) →
    s.attempt = none ∧ (s.placed = some ⟨o, a.body⟩ ∨ a.paid = true)

structure Attempts (s : Phone) : Prop where
  chain : s.sends.IsChain Follows
  drawn : ∀ a ∈ s.sends, a.nonce < s.drawn
  held : ∀ a, s.attempt = some a → a.1 < s.drawn
  latest : ∀ a, s.sends.head? = some a → Standing s a

/-- What the checkout rests on is as it was. -/
structure Kept (s s' : Phone) : Prop where
  placing : s'.placing = s.placing
  placed : s'.placed = s.placed
  attempt : s'.attempt = s.attempt
  drawn : s'.drawn = s.drawn
  sends : s'.sends = s.sends

theorem Kept.refl (s : Phone) : Kept s s := ⟨rfl, rfl, rfl, rfl, rfl⟩

variable {s s' : Phone}

theorem Kept.put (s : Phone) (it : String) (n : ℚ) : Kept s (put s it n) := by
  unfold OrderPage.put
  split
  · exact .refl s
  · dsimp only
    split
    · exact ⟨rfl, rfl, rfl, rfl, rfl⟩
    · split
      · exact .refl s
      · split <;> exact ⟨rfl, rfl, rfl, rfl, rfl⟩

theorem Kept.menuAnswered (s : Phone) (r : MenuReply) : Kept s (menuAnswered s r) := by
  unfold OrderPage.menuAnswered
  cases r with
  | read m => exact ⟨rfl, rfl, rfl, rfl, rfl⟩
  | refused status message =>
      dsimp only
      split <;> exact ⟨rfl, rfl, rfl, rfl, rfl⟩
  | lost => exact ⟨rfl, rfl, rfl, rfl, rfl⟩

theorem Kept.openCheckout (s : Phone) : Kept s (openCheckout s) := by
  unfold OrderPage.openCheckout
  split <;> exact ⟨rfl, rfl, rfl, rfl, rfl⟩

theorem Kept.scriptSettled (s : Phone) (o : Opened) : Kept s (scriptSettled s o) := by
  cases o <;> exact ⟨rfl, rfl, rfl, rfl, rfl⟩

theorem Kept.handOver (s : Phone) : Kept s (handOver s) := by
  unfold OrderPage.handOver
  split <;> exact ⟨rfl, rfl, rfl, rfl, rfl⟩

theorem step_cases {e : Event} (h : step s e = some s') :
    Kept s s' ∨
    (∃ token, s.placing = false ∧ s.customer.incomplete = false ∧ (bodyOf s).lines ≠ [] ∧
      reopens s (bodyOf s) = false ∧ s' = send s token (bodyOf s)) ∨
    (∃ i a r, s.sends[i]? = some a ∧ a.heard = none ∧ s' = placeAnswered s i a r) ∨
    ∃ k order r, s' = verified s k order r := by
  cases e with
  | loadMenu token =>
      cases h
      exact .inl ⟨rfl, rfl, rfl, rfl, rfl⟩
  | menuAnswered r =>
      rw [step] at h
      split at h
      · cases h
        exact .inl (.menuAnswered s r)
      · cases h
  | add it =>
      cases h
      exact .inl (.put s it _)
  | remove it =>
      cases h
      exact .inl (.put s it _)
  | setQty it n =>
      cases h
      exact .inl (.put s it n)
  | setCustomer c =>
      rw [step] at h
      split at h
      · cases h
        exact .inl ⟨rfl, rfl, rfl, rfl, rfl⟩
      · cases h
  | clearNotice =>
      cases h
      exact .inl ⟨rfl, rfl, rfl, rfl, rfl⟩
  | placeOrder =>
      cases h
      unfold placeOrder
      split
      · exact .inl (.refl s)
      · next token _ =>
          split
          · exact .inl (.refl s)
          · next hidle =>
              dsimp only
              split
              · exact .inl (.refl s)
              · next hlines =>
                  split
                  · exact .inl (.openCheckout s)
                  · next hreopens =>
                      simp only [Bool.or_eq_true, not_or, Bool.not_eq_true] at hidle hreopens
                      exact .inr (.inl ⟨token, hidle.1.1, hidle.2, hlines, hreopens, rfl⟩)
  | placeAnswered i r =>
      obtain ⟨a, ha, rfl⟩ := Option.map_eq_some_iff.1 h
      obtain ⟨hget, hheard⟩ := Option.filter_eq_some_iff.1 ha
      exact .inr (.inr (.inl ⟨i, a, r, hget, Option.isNone_iff_eq_none.1 hheard, rfl⟩))
  | scriptSettled o =>
      rw [step] at h
      split at h
      · cases h
        exact .inl (.scriptSettled s o)
      · cases h
  | turnedDown sheet why =>
      obtain ⟨failed, -, rfl⟩ := Option.map_eq_some_iff.1 h
      exact .inl ⟨rfl, rfl, rfl, rfl, rfl⟩
  | dismissed sheet =>
      obtain ⟨failed, -, rfl⟩ := Option.map_eq_some_iff.1 h
      exact .inl ⟨rfl, rfl, rfl, rfl, rfl⟩
  | paid sheet =>
      obtain ⟨failed, -, rfl⟩ := Option.map_eq_some_iff.1 h
      exact .inl (.handOver s)
  | backstop =>
      obtain ⟨sheet, -, rfl⟩ := Option.map_eq_some_iff.1 h
      dsimp only
      split <;> exact .inl ⟨rfl, rfl, rfl, rfl, rfl⟩
  | verified k r =>
      obtain ⟨order, -, rfl⟩ := Option.map_eq_some_iff.1 h
      exact .inr (.inr (.inr ⟨k, order, r, rfl⟩))

/-! ## Each step keeps the attempts -/

theorem Attempts.kept (h : Attempts s) (hk : Kept s s') : Attempts s' := by
  refine ⟨hk.sends ▸ h.chain, ?_, ?_, ?_⟩
  · intro a ha
    rw [hk.drawn]
    exact h.drawn a (hk.sends ▸ ha)
  · intro a ha
    rw [hk.drawn]
    exact h.held a (hk.attempt ▸ ha)
  · intro a ha
    rw [hk.sends] at ha
    have hst := h.latest a ha
    exact {
      out := fun hnone => by
        rw [hk.placing, hk.attempt]
        exact hst.out hnone
      back := fun hsome => hk.placing.trans (hst.back hsome)
      open_ := fun hopen => hk.attempt.trans (hst.open_ hopen)
      refused := fun message hm => hk.attempt.trans (hst.refused message hm)
      created := fun o ho => by
        rw [hk.attempt, hk.placed]
        exact hst.created o ho }

theorem keptNonce_none (body : Body) (h : s.attempt = none) : keptNonce s body = none := by
  unfold keptNonce
  rw [h]
  rfl

theorem keptNonce_some (body : Body) {body' : Body} {n : ℕ} (h : s.attempt = some (n, body')) :
    keptNonce s body = if body' = body then some n else none := by
  unfold keptNonce
  rw [h, Option.filter_some]
  by_cases heq : body' = body
  · rw [if_pos heq, if_pos (decide_eq_true heq)]
    rfl
  · rw [if_neg heq, if_neg (fun h => heq (of_decide_eq_true h))]
    rfl

theorem Send.Unsettled.heard {a : Send} (h : a.Unsettled) :
    a.heard ≠ none ∧ (∀ o, a.heard ≠ some (.created o)) ∧
      ∀ message, a.heard ≠ some (.refused 409 message) := by
  rcases h with h | ⟨status, message, h, hstatus⟩
  · rw [h]
    exact ⟨by simp, by simp, by simp⟩
  · rw [h]
    refine ⟨by simp, by simp, fun message' heq => hstatus ?_⟩
    simp only [Option.some.injEq, PlaceReply.refused.injEq] at heq
    exact heq.1

/-- A request answered and nothing settled by it, or answered and done with. -/
theorem heard_cases (a : Send) : a.heard = none ∨ a.Unsettled ∨
    (∃ message, a.heard = some (.refused 409 message)) ∨ ∃ o, a.heard = some (.created o) := by
  cases h : a.heard with
  | none => exact .inl rfl
  | some r =>
      cases r with
      | created o => exact .inr (.inr (.inr ⟨o, rfl⟩))
      | refused status message =>
          by_cases hstatus : status = 409
          · rw [hstatus]
            exact .inr (.inr (.inl ⟨message, rfl⟩))
          · exact .inr (.inl (.inr ⟨status, message, h, hstatus⟩))
      | lost => exact .inr (.inl (.inl h))

/-- The nonce a request is sent under, by where the one before stands. -/
theorem send_follows (h : Attempts s) (hidle : s.placing = false) (token : String) {body : Body}
    (hreopens : reopens s body = false) {a : Send} (ha : s.sends.head? = some a) :
    Follows ⟨(keptNonce s body).getD s.drawn, token, body, s.menu, none, false⟩ a := by
  have hst := h.latest a ha
  have hdrawn := h.drawn a (List.mem_of_mem_head? ha)
  have hheard : a.heard ≠ none := fun hnone => by
    have hout := (hst.out hnone).1
    rw [hidle] at hout
    cases hout
  rcases heard_cases a with hnone | hopen | ⟨message, href⟩ | ⟨o, hcreated⟩
  · exact absurd hnone hheard
  · have hkept := keptNonce_some body (hst.open_ hopen)
    refine ⟨hheard, ?_, ?_, fun _ o ho => absurd ho (hopen.heard.2.1 o)⟩
    · intro hbody _
      dsimp only at hbody ⊢
      rw [hkept, if_pos hbody.symm, Option.getD_some]
    · intro hno
      dsimp only at hno ⊢
      rw [hkept, if_neg fun heq => hno ⟨heq.symm, hopen⟩, Option.getD_none]
      exact hdrawn
  · have hkept := keptNonce_none body (hst.refused message href)
    refine ⟨hheard, fun _ hopen => absurd href (hopen.heard.2.2 message), ?_, ?_⟩
    · intro _
      dsimp only
      rw [hkept, Option.getD_none]
      exact hdrawn
    · intro _ o ho
      rw [href] at ho
      cases ho
  · obtain ⟨hattempt, hplaced⟩ := hst.created o hcreated
    have hkept := keptNonce_none body hattempt
    refine ⟨hheard, fun _ hopen => absurd hcreated (hopen.heard.2.1 o), ?_, ?_⟩
    · intro _
      dsimp only
      rw [hkept, Option.getD_none]
      exact hdrawn
    · intro hbody o' ho' hunpaid
      rw [hcreated] at ho'
      cases ho'
      refine hplaced.resolve_left fun hplaced => ?_
      unfold reopens at hreopens
      rw [hplaced, Option.any_some, decide_eq_false_iff_not] at hreopens
      exact hreopens ⟨hbody.symm, hunpaid⟩

theorem Attempts.send (h : Attempts s) (hidle : s.placing = false) {token : String}
    {body : Body} (hreopens : reopens s body = false) : Attempts (OrderPage.send s token body) := by
  have hfollows := fun a ha => send_follows (a := a) h hidle token hreopens ha
  have hdraws : (OrderPage.send s token body).drawn =
      if (keptNonce s body).isSome then s.drawn else s.drawn + 1 := rfl
  have hnonce : (keptNonce s body).getD s.drawn < (OrderPage.send s token body).drawn := by
    rw [hdraws]
    cases hkept : keptNonce s body with
    | none => exact Nat.lt_succ_self _
    | some n =>
        obtain ⟨a, hattempt, hn⟩ := Option.map_eq_some_iff.1 hkept
        have hheld := h.held a (Option.filter_eq_some_iff.1 hattempt).1
        rw [hn] at hheld
        exact hheld
  have hgrows : s.drawn ≤ (OrderPage.send s token body).drawn := by
    rw [hdraws]
    split
    · exact le_refl _
    · exact Nat.le_succ _
  refine ⟨List.isChain_cons.2 ⟨fun a ha => hfollows a ha, h.chain⟩, ?_, ?_, ?_⟩
  · intro a ha
    rcases List.mem_cons.1 ha with rfl | ha
    · exact hnonce
    · exact lt_of_lt_of_le (h.drawn a ha) hgrows
  · intro a ha
    cases ha
    exact hnonce
  · intro a ha
    cases ha
    refine ⟨fun _ => ⟨rfl, rfl⟩, fun hsome => absurd rfl hsome, ?_, ?_, ?_⟩
    · exact fun hopen => absurd rfl hopen.heard.1
    · exact fun message hm => by cases hm
    · exact fun o ho => by cases ho

theorem Attempts.out (h : Attempts s) {i : ℕ} {a : Send} (ha : s.sends[i]? = some a)
    (hnone : a.heard = none) : i = 0 ∧ s.placing = true := by
  have hzero : i = 0 := by
    cases i with
    | zero => rfl
    | succ i =>
        exfalso
        have hlen := (List.getElem?_eq_some_iff.1 ha).1
        have hnext := List.isChain_iff_getElem.1 h.chain i (by omega)
        rw [(List.getElem?_eq_some_iff.1 ha).2] at hnext
        exact hnext.heard hnone
  rw [hzero, ← List.head?_eq_getElem?] at ha
  exact ⟨hzero, ((h.latest a ha).out hnone).1⟩

theorem Follows.answered {b a : Send} (h : Follows b a) (heard : Option PlaceReply) :
    Follows { b with heard } a := ⟨h.heard, h.kept, h.fresh, h.paid⟩

theorem Attempts.placeAnswered (h : Attempts s) {i : ℕ} {a : Send}
    (ha : s.sends[i]? = some a) (hnone : a.heard = none) (r : PlaceReply) :
    Attempts (placeAnswered s i a r) := by
  obtain ⟨rfl, hplacing⟩ := h.out ha hnone
  rw [← List.head?_eq_getElem?] at ha
  obtain ⟨hout, hattempt⟩ := (h.latest a ha).out hnone
  obtain ⟨rest, hsends⟩ : ∃ rest, s.sends = a :: rest := by
    cases hs : s.sends with
    | nil =>
        rw [hs] at ha
        cases ha
    | cons b rest =>
        rw [hs] at ha
        cases ha
        exact ⟨rest, rfl⟩
  have hchain := h.chain
  rw [hsends, List.isChain_cons] at hchain
  have hanswered : ∀ s' : Phone, s'.sends = { a with heard := some r } :: rest →
      s'.drawn = s.drawn → (s'.attempt = none ∨ s'.attempt = s.attempt) →
      Standing s' { a with heard := some r } → Attempts s' := by
    intro s' hs' hd hatt hst
    refine ⟨?_, ?_, ?_, ?_⟩
    · rw [hs', List.isChain_cons]
      exact ⟨fun b hb => (hchain.1 b hb).answered _, hchain.2⟩
    · intro b hb
      rw [hs'] at hb
      rw [hd]
      rcases List.mem_cons.1 hb with rfl | hb
      · exact h.drawn a (hsends ▸ List.mem_cons_self)
      · exact h.drawn b (hsends ▸ List.mem_cons_of_mem _ hb)
    · intro b hb
      rw [hd]
      rcases hatt with hatt | hatt
      · rw [hatt] at hb
        cases hb
      · exact h.held b (hatt ▸ hb)
    · intro b hb
      rw [hs', List.head?_cons] at hb
      cases hb
      exact hst
  have hmodify : s.sends.modify 0 (fun a => { a with heard := some r }) =
      { a with heard := some r } :: rest := by
    rw [hsends]
    rfl
  cases r with
  | created o =>
      have hplaced : Attempts { s with
          placing := false
          sends := s.sends.modify 0 fun a => { a with heard := some (.created o) }
          placed := some ⟨o, a.body⟩
          order := some (o.orderId, o.status)
          attempt := none } := by
        refine hanswered _ hmodify rfl (.inl rfl) ?_
        refine ⟨fun hno => (by cases hno), fun _ => rfl, ?_, fun _ hm => (by cases hm), ?_⟩
        · exact fun hopen => absurd rfl (hopen.heard.2.1 o)
        · intro o' ho'
          cases ho'
          exact ⟨rfl, .inl rfl⟩
      exact hplaced.kept (.openCheckout _)
  | refused status message =>
      refine hanswered _ hmodify rfl ?_ ?_
      · change (if status = 409 then none else s.attempt) = none ∨ _ = s.attempt
        split
        · exact .inl rfl
        · exact .inr (if_neg ‹_›)
      · refine ⟨fun hno => (by cases hno), fun _ => rfl, ?_, ?_, fun o ho => by cases ho⟩
        · intro hopen
          have hstatus : status ≠ 409 := fun heq =>
            hopen.heard.2.2 message (by rw [heq])
          change (if status = 409 then none else s.attempt) = _
          rw [if_neg hstatus]
          exact hattempt
        · intro message' hm
          cases hm
          change (if 409 = 409 then none else s.attempt) = none
          exact if_pos rfl
  | lost =>
      refine hanswered _ hmodify rfl (.inr rfl) ?_
      exact ⟨fun hno => (by cases hno), fun _ => rfl, fun _ => hattempt,
        fun _ hm => (by cases hm), fun o ho => by cases ho⟩

theorem Attempts.verified (h : Attempts s) (k : ℕ) (order : String × QrOrderStatus)
    (r : VerifyReply) : Attempts (verified s k order r) := by
  have hmarks : ∀ {b a : Send}, Follows b a →
      Follows { b with paid := true } { a with paid := true } := fun hf =>
    ⟨hf.heard, hf.kept, hf.fresh, fun _ _ _ _ => rfl⟩
  refine ⟨?_, ?_, h.held, ?_⟩
  · change List.IsChain Follows (s.sends.map _)
    rw [List.isChain_map]
    exact h.chain.imp fun _ _ hf => hmarks hf
  · intro a ha
    obtain ⟨b, hb, rfl⟩ := List.mem_map.1 ha
    exact h.drawn b hb
  · intro a ha
    change (s.sends.map _).head? = some a at ha
    rw [List.head?_map] at ha
    obtain ⟨b, hb, rfl⟩ := Option.map_eq_some_iff.1 ha
    have hst := h.latest b hb
    exact ⟨hst.out, hst.back, hst.open_, hst.refused, fun o ho =>
      ⟨(hst.created o ho).1, .inr rfl⟩⟩

theorem attempts_reach (h : orderPage.Reach s) : Attempts s := by
  refine Machine.Reach.invariant ?_ ?_ h
  · rintro _ rfl
    exact ⟨List.isChain_nil, fun a ha => (by cases ha), fun a ha => (by cases ha),
      fun a ha => by cases ha⟩
  · intro s e s' _ hs he
    rcases step_cases he with hk | ⟨token, hidle, -, -, hreopens, rfl⟩ |
      ⟨i, a, r, ha, hnone, rfl⟩ | ⟨k, order, r, rfl⟩
    · exact hs.kept hk
    · exact hs.send hidle hreopens
    · exact hs.placeAnswered ha hnone r
    · exact hs.verified k order r

/-! ## Requests that are one attempt -/

/-- The request before the `k`-th was for the same and settled nothing. -/
def Retried (sends : List Send) (k : ℕ) : Prop :=
  ∃ b a, sends[k]? = some b ∧ sends[k + 1]? = some a ∧ b.body = a.body ∧ a.Unsettled

variable {sends : List Send} {i j : ℕ} {a b : Send}

theorem follows_of {k : ℕ} (h : sends.IsChain Follows) (hb : sends[k]? = some b)
    (ha : sends[k + 1]? = some a) : Follows b a := by
  obtain ⟨hlt, rfl⟩ := List.getElem?_eq_some_iff.1 ha
  obtain ⟨hlt', rfl⟩ := List.getElem?_eq_some_iff.1 hb
  exact List.isChain_iff_getElem.1 h k hlt

theorem Follows.nonce_le (h : Follows b a) : a.nonce ≤ b.nonce := by
  by_cases hagain : b.body = a.body ∧ a.Unsettled
  · exact (h.kept hagain.1 hagain.2).ge
  · exact (h.fresh hagain).le

/-- Earlier requests carry no later nonce, and the same only as one attempt. -/
theorem nonce_eq_iff (h : sends.IsChain Follows) (hij : i ≤ j) (hb : sends[i]? = some b)
    (ha : sends[j]? = some a) : a.nonce ≤ b.nonce ∧
      (a.nonce = b.nonce ↔ ∀ k, i ≤ k → k < j → Retried sends k) := by
  induction j, hij using Nat.le_induction generalizing a with
  | base =>
      cases hb.symm.trans ha
      exact ⟨le_refl _, fun _ k hk hk' => by omega, fun _ => rfl⟩
  | succ j hij ih =>
      obtain ⟨c, hc⟩ : ∃ c, sends[j]? = some c := by
        have hlt := (List.getElem?_eq_some_iff.1 ha).1
        exact ⟨sends[j], List.getElem?_eq_getElem (by omega)⟩
      obtain ⟨hle, hiff⟩ := ih hc
      have hfollows := follows_of h hc ha
      have hstep := hfollows.nonce_le
      refine ⟨le_trans hstep hle, ?_, ?_⟩
      · intro heq k hk hk'
        have hca : a.nonce = c.nonce := by omega
        rcases Nat.lt_or_eq_of_le (Nat.le_of_lt_succ hk') with hlt | rfl
        · exact hiff.1 (hca ▸ heq) k hk hlt
        · refine ⟨c, a, hc, ha, ?_⟩
          by_contra hno
          exact absurd (hfollows.fresh hno) (by omega)
      · intro hall
        obtain ⟨c', a', hc', ha', hbody, hopen⟩ := hall j hij (Nat.lt_succ_self j)
        cases hc.symm.trans hc'
        cases ha.symm.trans ha'
        rw [← hiff.2 fun k hk hlt => hall k hk (Nat.lt_succ_of_lt hlt)]
        exact (hfollows.kept hbody hopen).symm

/-- One request is out at most. Requests carry one nonce just where each was a retry
of the one before, and so they make one order. A request answered with an unpaid
order is followed by one for the same only once the check of some payment was
answered since. -/
theorem one_order_an_attempt {env : QrEnv} {p : Placing} (uuid : ℕ → String)
    (hs : orderPage.Reach s) (hp : (placing env).Reach p) :
    (∀ i a, s.sends[i]? = some a → a.heard = none → i = 0 ∧ s.placing = true) ∧
    (∀ i j b a, i ≤ j → s.sends[i]? = some b → s.sends[j]? = some a →
      (a.nonce = b.nonce ↔ ∀ k, i ≤ k → k < j → Retried s.sends k)) ∧
    (∀ i j b a, i ≤ j → s.sends[i]? = some b → s.sends[j]? = some a →
      (∀ k, i ≤ k → k < j → Retried s.sends k) →
      ∀ id id' o o', p.db.qrOrders.get? id = some o → p.db.qrOrders.get? id' = some o' →
        o.nonce = env.sha256 (uuid b.nonce) → o'.nonce = env.sha256 (uuid a.nonce) →
        id = id') ∧
    ∀ k b a o, s.sends[k]? = some b → s.sends[k + 1]? = some a → b.body = a.body →
      a.heard = some (.created o) → o.status = .awaitingPayment → a.paid = true := by
  have h := attempts_reach hs
  refine ⟨fun i a ha hnone => h.out ha hnone,
    fun i j b a hij hb ha => (nonce_eq_iff h.chain hij hb ha).2, ?_, ?_⟩
  · intro i j b a hij hb ha hretried id id' o o' ho ho' hn hn'
    have heq := (nonce_eq_iff h.chain hij hb ha).2.2 hretried
    exact (placing_safe hp).inv.once id id' o o' ho ho' (by rw [hn, hn', heq])
  · intro k b a o hb ha hbody hcreated hunpaid
    exact (follows_of h.chain hb ha).paid hbody o hcreated hunpaid

/-! ## An answer lost -/

def cafeMenu : Menu where
  outletName := "Cafe"
  mode := .pickup
  open_ := true
  paused := false
  items := [⟨"milk", "Milk", true, 5⟩]
  distinct := by decide

/-- Three cartons, the answer lost, and Pay tapped again. -/
def tappedAgain : List Event :=
  [.loadMenu "poster", .menuAnswered (.read cafeMenu), .setQty "milk" 3,
    .setCustomer ⟨"Guest", "9843022118", ""⟩, .placeOrder, .placeAnswered 0 .lost, .placeOrder]

/-- Two requests, and the one order the server keeps of them. -/
theorem one_order_an_attempt_retried : ∃ s p o, orderPage.Reach s ∧
    (placing twoCodesEnv).Reach p ∧ s.sends.map Send.nonce = [0, 0] ∧
    p.db.qrOrders.get? "QO-1970-0001" = some o ∧
    o.nonce = twoCodesEnv.sha256 "checkout" ∧
    ∀ id o', p.db.qrOrders.get? id = some o' →
      o'.nonce = twoCodesEnv.sha256 "checkout" → id = "QO-1970-0001" := by
  have hphone : (orderPage.run blank tappedAgain).any
      (fun s => decide (s.sends.map Send.nonce = [0, 0])) = true := by decide +kernel
  have hserver : ((placing twoCodesEnv).run twoCodesOpen askedTwice).any
      (fun p => (p.db.qrOrders.get? "QO-1970-0001").any fun o =>
        decide (o.nonce = twoCodesEnv.sha256 "checkout")) = true := by
    decide +kernel
  obtain ⟨s, hs, hsends⟩ := (Option.any_eq_true _ _).1 hphone
  obtain ⟨p, hp, ho⟩ := (Option.any_eq_true _ _).1 hserver
  obtain ⟨o, hget, hnonce⟩ := (Option.any_eq_true _ _).1 ho
  have hsends := of_decide_eq_true hsends
  have hnonce := of_decide_eq_true hnonce
  have hs : orderPage.Reach s := Machine.reach_run (.init rfl) hs
  have hp : (placing twoCodesEnv).Reach p := Machine.reach_run (.init twoCodesOpen_init) hp
  obtain ⟨b, rest, hb, hzero, hrest⟩ := List.map_eq_cons_iff.1 hsends
  obtain ⟨a, rest, rfl, hzero', -⟩ := List.map_eq_cons_iff.1 hrest
  obtain ⟨-, honly, hone, -⟩ := one_order_an_attempt (fun _ => "checkout") hs hp
  have hget₀ : s.sends[0]? = some b := by rw [hb]; rfl
  have hget₁ : s.sends[1]? = some a := by rw [hb]; rfl
  have hretried := (honly 0 1 b a (by decide) hget₀ hget₁).1 (hzero'.trans hzero.symm)
  exact ⟨s, p, o, hs, hp, hsends, hget, hnonce, fun id o' ho' hn' =>
    hone 0 1 b a (by decide) hget₀ hget₁ hretried id _ o' o ho' hget hn' hnonce⟩

/-!
## What the order page sends, the server's form takes

Whatever the customer taps, and whatever menus are read meanwhile, the cart stays
within the caps and within the menu on screen. So every request has lines enough
and not too many, each of an item the menu offered, once and no more of it than
there was, and a phone number the server reads as it stands.
-/

/-! ## The cart and the menu -/

/-- No more of an item than the menu gives. -/
def Within (m : Menu) (cart : Cart) : Prop :=
  ∀ it n, cart.get? it = some n →
    ∃ item, m.item it = some item ∧ item.available = true ∧ n ≤ limitOf item

/-- The keys of every menu read are as long as a key of the schema's. -/
def KeysFit (_ : Phone) : Event → Prop
  | .menuAnswered (.read m) => ∀ i ∈ m.items, 1 ≤ codePoints i.it ∧ codePoints i.it ≤ 64
  | _ => True

structure CartOk (s : Phone) : Prop where
  within : ∀ m, s.menu = some m → Within m s.cart
  keyed : ∀ m, s.menu = some m → ∀ i ∈ m.items, 1 ≤ codePoints i.it ∧ codePoints i.it ≤ 64
  capped : s.cart.rows.length ≤ QR_MAX_LINES
  typed : s.customer.typed = true

theorem Within.restrict {m : Menu} {cart : Cart} (h : Within m cart) (p : String → Bool) :
    Within m (cart.restrict p) := by
  intro it n hn
  rw [Table.get?_restrict] at hn
  split at hn
  · exact h it n hn
  · cases hn

theorem length_restrict (cart : Cart) (p : String → Bool) :
    (cart.restrict p).rows.length ≤ cart.rows.length := List.length_filter_le _ _

/-- Setting an item that is in the cart adds no line. -/
theorem length_set {cart : Cart} {it : String} {n q : ℕ} (h : cart.get? it = some n) :
    (cart.set it q).rows.length = cart.rows.length := by
  unfold Table.set
  rw [Table.insert?_of_taken h, Option.getD_none]
  exact List.length_map _

theorem within_reconcile (m : Menu) (cart : Cart) : Within m (m.reconcile cart) := by
  intro it n hn
  unfold Menu.reconcile at hn
  rw [Table.get?_update, Table.get?_filter] at hn
  obtain ⟨n₀, hn₀, rfl⟩ := Option.map_eq_some_iff.1 hn
  obtain ⟨item, hitem, havailable⟩ := (Option.any_eq_true _ _).1 (Option.filter_eq_some_iff.1 hn₀).2
  refine ⟨item, hitem, havailable, ?_⟩
  rw [hitem, Option.map_some, Option.getD_some]
  exact min_le_right _ _

theorem length_reconcile (m : Menu) (cart : Cart) :
    (m.reconcile cart).rows.length ≤ cart.rows.length := by
  unfold Menu.reconcile Table.update
  rw [List.length_map]
  exact List.length_filter_le _ _

theorem CartOk.put (h : CartOk s) (it : String) (n : ℚ) : CartOk (put s it n) := by
  unfold OrderPage.put
  split
  · exact h
  · next item hitem =>
      obtain ⟨m, hm, hitem⟩ := Option.bind_eq_some_iff.1 hitem
      have hdeleted : ∀ notice, CartOk { s with
          cart := s.cart.restrict fun k => decide (k ≠ it), notice } := fun notice =>
        ⟨fun m hm => (h.within m hm).restrict _, h.keyed,
          (length_restrict _ _).trans h.capped, h.typed⟩
      dsimp only
      split
      · exact hdeleted none
      · split
        · exact h
        · next hopen =>
            split
            · exact ⟨h.within, h.keyed, h.capped, h.typed⟩
            · next hroom =>
                have havailable : item.available = true := by
                  cases ha : item.available with
                  | true => rfl
                  | false => exact absurd (.inl ha) hopen
                split
                · exact hdeleted _
                · refine ⟨fun m' hm' k q hk => ?_, h.keyed, ?_, h.typed⟩
                  · cases hm.symm.trans hm'
                    rw [Table.get?_set] at hk
                    split at hk
                    · next heq =>
                        cases hk
                        rw [heq]
                        exact ⟨item, hitem, havailable, min_le_right _ _⟩
                    · exact h.within m hm k q hk
                  · change (s.cart.set it _).rows.length ≤ _
                    cases hget : s.cart.get? it with
                    | some q => exact (length_set hget).trans_le h.capped
                    | none =>
                        have hlt : s.cart.rows.length < QR_MAX_LINES :=
                          not_le.1 fun hle => hroom ⟨hget, hle⟩
                        exact (Table.length_set_le _ _ _).trans hlt

theorem CartOk.menuAnswered (h : CartOk s) (r : MenuReply)
    (hfit : KeysFit s (.menuAnswered r)) : CartOk (menuAnswered s r) := by
  unfold OrderPage.menuAnswered
  cases r with
  | read m =>
      refine ⟨fun m' hm' => ?_, fun m' hm' => ?_,
        (length_reconcile m s.cart).trans h.capped, h.typed⟩
      · cases hm'
        exact within_reconcile m s.cart
      · cases hm'
        exact hfit
  | refused status message =>
      dsimp only
      split
      · exact ⟨fun m hm => (by cases hm), fun m hm => (by cases hm), h.capped, h.typed⟩
      · exact ⟨h.within, h.keyed, h.capped, h.typed⟩
  | lost => exact ⟨h.within, h.keyed, h.capped, h.typed⟩

/-- The menu, the cart and the form are as they were. -/
structure SameForm (s s' : Phone) : Prop where
  menu : s'.menu = s.menu
  cart : s'.cart = s.cart
  customer : s'.customer = s.customer

theorem CartOk.of_eq (h : CartOk s) (hsame : SameForm s s') : CartOk s' where
  within m hm := hsame.cart ▸ h.within m (hsame.menu ▸ hm)
  keyed m hm := h.keyed m (hsame.menu ▸ hm)
  capped := hsame.cart ▸ h.capped
  typed := hsame.customer ▸ h.typed

theorem openCheckout_cart (s : Phone) : SameForm s (openCheckout s) := by
  unfold openCheckout
  split <;> exact ⟨rfl, rfl, rfl⟩

theorem placeAnswered_sends (s : Phone) (i : ℕ) (a : Send) (r : PlaceReply) :
    (placeAnswered s i a r).sends = s.sends.modify i fun a => { a with heard := some r } := by
  cases r with
  | created o => exact (Kept.openCheckout _).sends
  | refused status message => rfl
  | lost => rfl

theorem placeAnswered_cart (s : Phone) (i : ℕ) (a : Send) (r : PlaceReply) :
    SameForm s (placeAnswered s i a r) := by
  cases r with
  | created o =>
      obtain ⟨hmenu, hcart, hcustomer⟩ := openCheckout_cart { s with
        placing := false
        sends := s.sends.modify i fun a => { a with heard := some (.created o) }
        placed := some ⟨o, a.body⟩
        order := some (o.orderId, o.status)
        attempt := none }
      exact ⟨hmenu, hcart, hcustomer⟩
  | refused status message => exact ⟨rfl, rfl, rfl⟩
  | lost => exact ⟨rfl, rfl, rfl⟩

theorem CartOk.step {e : Event} (h : CartOk s) (hfit : KeysFit s e)
    (he : step s e = some s') : CartOk s' := by
  cases e with
  | loadMenu token =>
      cases he
      exact h.of_eq ⟨rfl, rfl, rfl⟩
  | menuAnswered r =>
      rw [OrderPage.step] at he
      split at he
      · cases he
        exact h.menuAnswered r hfit
      · cases he
  | add it =>
      cases he
      exact h.put it _
  | remove it =>
      cases he
      exact h.put it _
  | setQty it n =>
      cases he
      exact h.put it n
  | setCustomer c =>
      simp only [OrderPage.step, Option.ite_none_right_eq_some] at he
      obtain ⟨htyped, hs⟩ := he
      cases hs
      exact ⟨h.within, h.keyed, h.capped, htyped⟩
  | clearNotice =>
      cases he
      exact h.of_eq ⟨rfl, rfl, rfl⟩
  | placeOrder =>
      cases he
      unfold placeOrder
      split
      · exact h
      · split
        · exact h
        · dsimp only
          split
          · exact h
          · split
            · exact h.of_eq (openCheckout_cart s)
            · exact h.of_eq ⟨rfl, rfl, rfl⟩
  | placeAnswered i r =>
      obtain ⟨a, -, rfl⟩ := Option.map_eq_some_iff.1 he
      exact h.of_eq (placeAnswered_cart s i a r)
  | scriptSettled o =>
      rw [OrderPage.step] at he
      split at he
      · cases he
        cases o <;> exact h.of_eq ⟨rfl, rfl, rfl⟩
      · cases he
  | turnedDown sheet why =>
      obtain ⟨failed, -, rfl⟩ := Option.map_eq_some_iff.1 he
      exact h.of_eq ⟨rfl, rfl, rfl⟩
  | dismissed sheet =>
      obtain ⟨failed, -, rfl⟩ := Option.map_eq_some_iff.1 he
      exact h.of_eq ⟨rfl, rfl, rfl⟩
  | paid sheet =>
      obtain ⟨failed, -, rfl⟩ := Option.map_eq_some_iff.1 he
      unfold handOver
      split <;> exact h.of_eq ⟨rfl, rfl, rfl⟩
  | backstop =>
      obtain ⟨sheet, -, rfl⟩ := Option.map_eq_some_iff.1 he
      dsimp only
      split <;> exact h.of_eq ⟨rfl, rfl, rfl⟩
  | verified k r =>
      obtain ⟨order, -, rfl⟩ := Option.map_eq_some_iff.1 he
      exact ⟨fun m _ it n hn => (by cases hn), h.keyed, Nat.zero_le _, h.typed⟩

theorem cartOk_reach (h : orderPage.ReachVia KeysFit s) : CartOk s := by
  refine Machine.ReachVia.invariant ?_ ?_ h
  · rintro _ rfl
    exact ⟨fun m hm => (by cases hm), fun m hm => (by cases hm), Nat.zero_le _,
      by decide⟩
  · intro s e s' _ hs hfit he
    exact hs.step hfit he

/-! ## What is sent -/

theorem digit_kept {c : Char} (h : c.isDigit = true) :
    (!(isBlank c || c == '-' || c == '.' || c == '(' || c == ')')) = true := by
  obtain ⟨hlow, hhigh⟩ := Calendar.isDigit_bounds h
  have hblank : isBlank c = false := by
    simp only [isBlank, Bool.or_eq_false_iff, decide_eq_false_iff_not, List.contains_eq_mem,
      List.mem_cons, List.not_mem_nil, or_false]
    omega
  have hsign : ∀ d : Char, d.toNat < 48 → (c == d) = false := fun d hd =>
    beq_eq_false_iff_ne.2 fun heq => by
      rw [heq] at hlow
      omega
  rw [hblank, hsign '-' (by decide), hsign '.' (by decide), hsign '(' (by decide),
    hsign ')' (by decide)]
  rfl

theorem normalizePhone_idem {raw phone : String} (h : normalizePhone raw = some phone) :
    normalizePhone phone = some phone := by
  unfold normalizePhone at h
  dsimp only at h
  obtain ⟨cs, hfind, rfl⟩ := Option.map_eq_some_iff.1 h
  have hten := List.find?_some hfind
  have hparts := hten
  unfold tenDigits at hparts
  simp only [Bool.and_eq_true, decide_eq_true_eq, List.all_eq_true] at hparts
  obtain ⟨⟨hlen, hdigits⟩, hzero⟩ := hparts
  have hplain : cs.filter (fun c =>
      !(isBlank c || c == '-' || c == '.' || c == '(' || c == ')')) = cs :=
    List.filter_eq_self.2 fun c hc => digit_kept (hdigits c hc)
  have hfirst : ∀ d p, cs.head? ≠ some d → cs.dropPrefix? (d :: p) = none := by
    intro d p hd
    cases cs with
    | nil => rfl
    | cons c cs =>
        have hne : (c == d) = false := beq_eq_false_iff_ne.2 fun heq => hd (by rw [heq]; rfl)
        rw [List.dropPrefix?, hne]
        rfl
  have hplus : cs.head? ≠ some '+' := fun hhead => by
    have hdigit := hdigits '+' (List.mem_of_mem_head? hhead)
    cases hdigit
  unfold normalizePhone
  rw [String.toList_ofList, hplain]
  dsimp only
  rw [hfirst '+' _ hplus, hfirst '0' _ hzero]
  cases hcode : cs.dropPrefix? ['9', '1'] with
  | none =>
      simp only [List.filterMap_cons, List.filterMap_nil, id, List.find?_cons, hten,
        Option.map_some]
  | some rest =>
      obtain ⟨p, hcs, hp⟩ := List.dropPrefix?_eq_some_iff.1 hcode
      have hshort : tenDigits rest = false := by
        have hp : p = ['9', '1'] := beq_iff_eq.1 hp
        rw [hcs, hp, List.length_append] at hlen
        have hrest : rest.length ≠ 10 := by
          change 2 + rest.length = 10 at hlen
          omega
        unfold tenDigits
        rw [decide_eq_false hrest]
        rfl
      simp only [List.filterMap_cons, List.filterMap_nil, id, List.find?_cons, hten, hshort,
        Option.map_some]

/-- A form's field counts no less than the schema does, and trimming adds nothing. -/
theorem codePoints_le_units (s : String) : codePoints s ≤ utf16Units s :=
  Nat.le_add_right _ _

theorem codePoints_trim_le (s : String) : codePoints (trim s) ≤ codePoints s := by
  unfold codePoints trim
  rw [String.toList_ofList, List.length_reverse]
  refine ((List.dropWhile_sublist _).length_le).trans ?_
  rw [List.length_reverse]
  exact (List.dropWhile_sublist _).length_le

theorem codePoints_pos {s : String} (h : s ≠ "") : 1 ≤ codePoints s := by
  unfold codePoints
  rw [Nat.one_le_iff_ne_zero, Ne, List.length_eq_zero_iff]
  exact fun hnil => h (String.toList_inj.1 hnil)

theorem normalizePhone_length {raw phone : String} (h : normalizePhone raw = some phone) :
    codePoints phone = 10 := by
  unfold normalizePhone at h
  dsimp only at h
  obtain ⟨cs, hfind, rfl⟩ := Option.map_eq_some_iff.1 h
  have hten := List.find?_some hfind
  unfold tenDigits at hten
  simp only [Bool.and_eq_true, decide_eq_true_eq] at hten
  unfold codePoints
  rw [String.toList_ofList]
  exact hten.1.1

/-- What the server's form takes of a request. -/
structure Taken (a : Send) : Prop where
  body : ∃ b : CreateQrOrderBody, b.name = a.body.name ∧ b.phone = a.body.phone ∧
    b.detail = a.body.detail ∧
    b.lines.map (fun l => (l.it, l.qty)) = a.body.lines.map fun l => (l.it, l.qty)
  phone : normalizePhone a.body.phone = some a.body.phone
  named : a.body.name ≠ ""
  distinct : (a.body.lines.map CartLine.it).Nodup
  offered : ∃ m, a.menu = some m ∧
    (∀ l ∈ a.body.lines, ∃ item, m.item l.it = some item ∧ item.available = true ∧
      l.qty ≤ item.max) ∧
    (a.body.detail.isSome = true → m.mode = .deliver)

theorem its_sublist (cart : Cart) (items : List MenuItem) :
    ((items.filterMap fun i => ((cart.get? i.it).filter fun n => decide (0 < n)).map
      fun n => (⟨i.it, n⟩ : CartLine)).map CartLine.it).Sublist (items.map MenuItem.it) := by
  induction items with
  | nil => exact .slnil
  | cons i items ih =>
      rw [List.filterMap_cons, List.map_cons]
      cases (cart.get? i.it).filter fun n => decide (0 < n) with
      | none => exact ih.cons _
      | some n => exact ih.cons_cons _

theorem mem_cartLines {m : Menu} {cart : Cart} {l : CartLine}
    (h : l ∈ cartLines (some m) cart) : cart.get? l.it = some l.qty ∧ 0 < l.qty := by
  obtain ⟨i, -, hi⟩ := List.mem_filterMap.1 h
  obtain ⟨n, hn, rfl⟩ := Option.map_eq_some_iff.1 hi
  obtain ⟨hget, hpos⟩ := Option.filter_eq_some_iff.1 hn
  exact ⟨hget, of_decide_eq_true hpos⟩

/-- Lines are distinct, and no more than the cart's. -/
theorem cartLines_bounds (m : Menu) (cart : Cart) :
    ((cartLines (some m) cart).map CartLine.it).Nodup ∧
      (cartLines (some m) cart).length ≤ cart.rows.length := by
  have hnodup : ((cartLines (some m) cart).map CartLine.it).Nodup :=
    m.distinct.sublist (its_sublist cart m.items)
  refine ⟨hnodup, ?_⟩
  have hsub : (cartLines (some m) cart).map CartLine.it ⊆ cart.rows.map Prod.fst := by
    intro it hit
    obtain ⟨l, hl, rfl⟩ := List.mem_map.1 hit
    exact Table.mem_keys (Table.get?_eq_some.1 (mem_cartLines hl).1)
  have hlen := (List.subperm_of_subset hnodup hsub).length_le
  rwa [List.length_map, List.length_map] at hlen

theorem bodyOf_lines {m : Menu} (hm : s.menu = some m) :
    (bodyOf s).lines = cartLines (some m) s.cart := by
  unfold bodyOf
  rw [hm]

theorem bodyOf_phone {phone : String} (h : normalizePhone s.customer.phone = some phone) :
    (bodyOf s).phone = phone := by
  unfold bodyOf
  rw [h]
  rfl

/-- A detail is sent where the code delivers, trimmed. -/
theorem bodyOf_detail {m : Menu} (hm : s.menu = some m) {d : String}
    (hd : (bodyOf s).detail = some d) : m.mode = .deliver ∧ d = trim s.customer.detail := by
  unfold bodyOf at hd
  rw [hm, Option.any_some] at hd
  by_cases hmode : m.mode = .deliver
  · simp only [hmode, decide_true, if_true, Option.ite_none_left_eq_some,
      Option.some.injEq] at hd
    exact ⟨hmode, hd.2.symm⟩
  · simp only [hmode, decide_false, Bool.false_eq_true, if_false, if_true, reduceCtorEq] at hd

theorem CartOk.offered (h : CartOk s) {m : Menu} (hm : s.menu = some m) {l : CartLine}
    (hl : l ∈ (bodyOf s).lines) : ∃ item, m.item l.it = some item ∧ item.available = true ∧
      (1 ≤ codePoints l.it ∧ codePoints l.it ≤ 64) ∧ 0 < l.qty ∧ l.qty ≤ limitOf item := by
  rw [bodyOf_lines hm] at hl
  obtain ⟨hget, hpos⟩ := mem_cartLines hl
  obtain ⟨item, hitem, havailable, hle⟩ := h.within m hm _ _ hget
  have hfind : m.items.find? (fun i => decide (i.it = l.it)) = some item := hitem
  have hkey : item.it = l.it := by simpa using List.find?_some hfind
  have hkeyed := h.keyed m hm item (List.mem_of_find?_eq_some hfind)
  rw [hkey] at hkeyed
  exact ⟨item, hitem, havailable, hkeyed, hpos, hle⟩

/-- What was typed through the form's fields fits the schema's. -/
theorem trim_fits {field : String} (h : utf16Units field ≤ 80) :
    codePoints (trim field) ≤ 80 :=
  (codePoints_trim_le _).trans ((codePoints_le_units _).trans h)

/-- The body the request's schema reads. -/
theorem CartOk.body (h : CartOk s) {m : Menu} (hm : s.menu = some m) {phone : String}
    (hname : trim s.customer.name ≠ "") (hphone : normalizePhone s.customer.phone = some phone)
    (hlines : (bodyOf s).lines ≠ []) :
    ∃ b : CreateQrOrderBody, b.name = (bodyOf s).name ∧ b.phone = (bodyOf s).phone ∧
      b.detail = (bodyOf s).detail ∧
      b.lines.map (fun l => (l.it, l.qty)) = (bodyOf s).lines.map fun l => (l.it, l.qty) := by
  have hline : ∀ l ∈ (bodyOf s).lines, (1 ≤ codePoints l.it ∧ codePoints l.it ≤ 64) ∧
      0 < l.qty ∧ l.qty ≤ QR_MAX_QTY := by
    intro l hl
    obtain ⟨item, -, -, hkeyed, hpos, hle⟩ := h.offered hm hl
    exact ⟨hkeyed, hpos, hle.trans (min_le_right _ _)⟩
  have htyped := h.typed
  simp only [Customer.typed, Bool.and_eq_true, decide_eq_true_eq] at htyped
  refine ⟨⟨(bodyOf s).name, (bodyOf s).phone, (bodyOf s).detail,
    (bodyOf s).lines.attach.map fun l => ⟨l.1.it, l.1.qty, (hline l.1 l.2).1,
      (hline l.1 l.2).2.1, (hline l.1 l.2).2.2⟩,
    ⟨codePoints_pos hname, trim_fits htyped.1.1⟩, ?_, fun d hd => ?_, ?_, ?_⟩,
    rfl, rfl, rfl, ?_⟩
  · rw [bodyOf_phone hphone, normalizePhone_length hphone]
    decide
  · rw [(bodyOf_detail hm hd).2]
    exact trim_fits htyped.2
  · simpa using hlines
  · rw [List.length_map, List.length_attach, bodyOf_lines hm]
    exact (cartLines_bounds m s.cart).2.trans h.capped
  · calc _ = ((bodyOf s).lines.attach.map Subtype.val).map fun l => (l.it, l.qty) := by
          rw [List.map_map, List.map_map]
          rfl
      _ = _ := by rw [List.attach_map_subtype_val]

theorem taken_of (h : CartOk s) (hcustomer : s.customer.incomplete = false)
    (hlines : (bodyOf s).lines ≠ []) {n : ℕ} {token : String} :
    Taken ⟨n, token, bodyOf s, s.menu, none, false⟩ := by
  unfold Customer.incomplete at hcustomer
  rw [Bool.or_eq_false_iff, decide_eq_false_iff_not, Option.isNone_eq_false_iff] at hcustomer
  obtain ⟨hname, hphone⟩ := hcustomer
  obtain ⟨phone, hphone⟩ := Option.isSome_iff_exists.1 hphone
  obtain ⟨m, hm⟩ : ∃ m, s.menu = some m := by
    cases hm : s.menu with
    | none =>
        unfold bodyOf cartLines at hlines
        rw [hm] at hlines
        exact absurd rfl hlines
    | some m => exact ⟨m, rfl⟩
  refine ⟨h.body hm hname hphone hlines, ?_, hname, ?_, m, hm, fun l hl => ?_,
    fun hdetail => ?_⟩
  · dsimp only
    rw [bodyOf_phone hphone]
    exact normalizePhone_idem hphone
  · dsimp only
    rw [bodyOf_lines hm]
    exact (cartLines_bounds m s.cart).1
  · obtain ⟨item, hitem, havailable, -, -, hle⟩ := h.offered hm hl
    exact ⟨item, hitem, havailable, hle.trans (min_le_left _ _)⟩
  · obtain ⟨d, hd⟩ := Option.isSome_iff_exists.1 hdetail
    exact (bodyOf_detail hm hd).1

/-- Every request is one the server's form takes, of what was on offer. -/
theorem requests_taken (h : orderPage.ReachVia KeysFit s) : ∀ a ∈ s.sends, Taken a := by
  refine Machine.ReachVia.invariant (I := fun s => ∀ a ∈ s.sends, Taken a) ?_ ?_ h
  · rintro _ rfl a ha
    cases ha
  · intro s e s' hr hs _ he a ha
    have hmarked : ∀ {b : Send} {heard : Option PlaceReply} {paid : Bool}, Taken b →
        Taken { b with heard, paid } := fun ht =>
      ⟨ht.body, ht.phone, ht.named, ht.distinct, ht.offered⟩
    rcases step_cases he with hk | ⟨token, -, hcustomer, hlines, -, rfl⟩ |
      ⟨i, b, r, hb, -, rfl⟩ | ⟨k, order, r, rfl⟩
    · exact hs a (hk.sends ▸ ha)
    · rcases List.mem_cons.1 ha with rfl | ha
      · exact taken_of (cartOk_reach hr) hcustomer hlines
      · exact hs a ha
    · rw [placeAnswered_sends] at ha
      obtain ⟨k, hk⟩ := List.mem_iff_getElem?.1 ha
      rw [List.getElem?_modify] at hk
      split at hk
      · obtain ⟨c, hc, rfl⟩ := Option.map_eq_some_iff.1 hk
        exact hmarked (hs c (List.mem_of_getElem? hc))
      · obtain ⟨c, hc, rfl⟩ := Option.map_eq_some_iff.1 hk
        exact hs c (List.mem_of_getElem? hc)
    · obtain ⟨b, hb, rfl⟩ := List.mem_map.1 ha
      exact hmarked (hs b hb)

/-- More than there is of one item, and an item a second menu no longer sells. -/
def wardMenu : Menu where
  outletName := "Cafe"
  mode := .deliver
  open_ := true
  paused := false
  items := [⟨"tea", "Tea", true, 40⟩, ⟨"milk", "Milk", true, 5⟩]
  distinct := by decide

def soldOut : Menu := { wardMenu with
  items := [⟨"tea", "Tea", true, 3⟩, ⟨"milk", "Milk", false, 0⟩]
  distinct := by decide }

def overOrdered : List Event :=
  [.loadMenu "ward", .menuAnswered (.read wardMenu), .setQty "tea" 25, .add "milk",
    .loadMenu "ward", .menuAnswered (.read soldOut),
    .setCustomer ⟨" Guest ", "+91 98430-22118", " Bed 4 "⟩, .placeOrder]

def keysFit (_ : Phone) : Event → Bool
  | .menuAnswered (.read m) =>
    m.items.all fun i => decide (1 ≤ codePoints i.it ∧ codePoints i.it ≤ 64)
  | _ => true

theorem keysFit_sound (s : Phone) (e : Event) (h : keysFit s e = true) : KeysFit s e := by
  cases e with
  | menuAnswered r =>
      cases r with
      | read m => exact fun i hi => of_decide_eq_true (List.all_eq_true.1 h i hi)
      | refused | lost => trivial
  | _ => trivial

theorem requests_taken_capped : ∃ s a, orderPage.ReachVia KeysFit s ∧ s.sends = [a] ∧
    Taken a ∧ a.body = ⟨"Guest", "9843022118", some "Bed 4", [⟨"tea", 3⟩]⟩ := by
  have hany : (orderPage.runVia keysFit blank overOrdered).any (fun s => decide
      (s.sends.map Send.body = [⟨"Guest", "9843022118", some "Bed 4", [⟨"tea", 3⟩]⟩])) = true := by
    decide +kernel
  obtain ⟨s, hs, hsends⟩ := (Option.any_eq_true _ _).1 hany
  have hs : orderPage.ReachVia KeysFit s :=
    Machine.reachVia_runVia keysFit_sound (.init rfl) hs
  obtain ⟨a, rest, ha, hbody, hrest⟩ := List.map_eq_cons_iff.1 (of_decide_eq_true hsends)
  cases List.map_eq_nil_iff.1 hrest
  exact ⟨s, a, hs, ha, requests_taken hs a (ha ▸ List.mem_cons_self), hbody⟩

end Rch.OrderPage
