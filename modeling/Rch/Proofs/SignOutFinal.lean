import Rch.Screen.SignOut

/-!
# Signed out, the tab stays signed out

A continuation writes without asking whose session it is in, so what keeps a
signed-out tab signed out is what the calls made since carry: no token, so the
server serves them nothing. That leaves what arrives meanwhile for calls made
before the sign-out, a refresh that lands, and the splash of a snapshot asked
for before there is anything on screen, and the condition is about these.

In the session that follows the continuations still do not ask whose it is, and
seven kinds of what is left over reach into it. The others never do.

A broadcast needs no condition: it replaces a token and never hands one out.
-/

namespace Rch.SignOut

open Kit

/-- A sign-in asked for since the last sign-out is out. -/
def Terminal.Pending (s : Terminal) : Prop :=
  ∃ c ∈ s.calls, c.ask = .login ∧ c.born = s.signOuts

structure SignedOff (s : Terminal) : Prop where
  token : s.token = none
  user : s.user = none
  auth : s.auth = .signedOut ∨ s.auth = .signingIn ∧ s.Pending

/-! ## The condition -/

/-- An answer that brings nobody. -/
def Nobody (c : Call) : Reply → Prop
  | .session .. => False
  | .person user => c.ask = .me none ∨ c.ask = .me (some user)
  | .done | .unauthorized | .refused => True

/-- While the tab is signed out, no answer to a call from before brings anybody,
no refresh brings a token, and no snapshot is asked for before one was shown. -/
def Careful (s : Terminal) : Event → Prop
  | .reply i r => s.out = true →
      ∀ c, s.calls[i]? = some c → s.late c = true → Nobody c r
  | .refreshed (some _) => s.out = false
  | .load => s.out = true → s.hydrated = true
  | _ => True

def Call.carried (c : Call) : Option String :=
  match c.phase with
  | .sent token | .resent token => token
  | _ => none

/-- A call that fits a tab with so many sign-outs behind it: the streams from
before are stopped, and what was asked since the last one carries nothing while
the tab is signed out. -/
structure Fits (n : ℕ) (out : Bool) (c : Call) : Prop where
  born : c.born ≤ n
  aborted : c.aborted = true → c.ask = .stream
  stopped : c.born < n → c.ask = .stream → c.aborted = true
  bare : out = true → c.born = n → c.ask ≠ .restore ∧ c.carried = none

section Fits

variable {n : ℕ} {out : Bool} {c : Call}

theorem Call.stop_aborted (hc : c.aborted = true → c.ask = .stream)
    (h : c.stop.aborted = true) : c.stop.ask = .stream := by
  obtain h | h := Bool.or_eq_true_iff.1 h
  · exact hc h
  · exact of_decide_eq_true h

theorem Fits.stop (h : Fits n out c) : Fits n out c.stop where
  born := h.born
  aborted := Call.stop_aborted h.aborted
  stopped hlt hs := by
    rw [Call.stop, h.stopped hlt hs, Bool.true_or]
  bare := h.bare

theorem Fits.ended (h : Fits n out c) : Fits (n + 1) true c.stop where
  born := Nat.le_succ_of_le h.born
  aborted := Call.stop_aborted h.aborted
  stopped _ hs := by
    have hask : c.ask = .stream := hs
    rw [Call.stop, hask, decide_eq_true rfl, Bool.or_true]
  bare _ hborn := absurd hborn (Nat.ne_of_lt (Nat.lt_succ_of_le h.born))

theorem Fits.back (h : Fits n out c) : Fits n (out && false) c where
  born := h.born
  aborted := h.aborted
  stopped := h.stopped
  bare ho := by rw [Bool.and_false] at ho; cases ho

theorem Fits.phase (h : Fits n out c) {p : Phase}
    (hp : out = true → c.born = n → Call.carried { c with phase := p } = none) :
    Fits n out { c with phase := p } where
  born := h.born
  aborted := h.aborted
  stopped := h.stopped
  bare ho hb := ⟨(h.bare ho hb).1, hp ho hb⟩

theorem Fits.settle (h : Fits n out c) (ok : Bool) (b : ℕ) :
    Fits n out (c.settle ok b) := by
  unfold Call.settle
  split
  · exact h.phase fun _ _ => rfl
  · exact h

theorem Fits.asked {a : Ask} {token : Option String} (ha : a ≠ .restore)
    (ht : out = true → token = none) : Fits n out ⟨a, .sent token, n, false⟩ where
  born := Nat.le_refl n
  aborted := Bool.noConfusion
  stopped hlt := absurd hlt (Nat.lt_irrefl n)
  bare ho _ := ⟨ha, ht ho⟩

end Fits

/-- What holds in a careful run. -/
structure Quiet (s : Terminal) : Prop where
  calls : ∀ c ∈ s.calls, Fits s.signOuts s.out c
  off : s.out = true → SignedOff s

section Quiet

variable {s s' : Terminal} {a : Ask}

/-! ## The sign-in that is out -/

theorem Terminal.Pending.kept (hn : s'.signOuts = s.signOuts)
    (hkept : ∀ c ∈ s.calls, c.ask = .login →
      ∃ c' ∈ s'.calls, c'.ask = .login ∧ c'.born = c.born)
    (h : s.Pending) : s'.Pending := by
  obtain ⟨c, hc, hask, hborn⟩ := h
  obtain ⟨c', hc', hask', hborn'⟩ := hkept c hc hask
  exact ⟨c', hc', hask', hborn'.trans (hborn.trans hn.symm)⟩

/-- The tab's own state is as it was, and its sign-ins are still out. -/
theorem SignedOff.kept (h : SignedOff s) (ht : s'.token = s.token)
    (hu : s'.user = s.user) (ha : s'.auth = s.auth)
    (hp : s.Pending → s'.Pending) : SignedOff s' where
  token := ht.trans h.token
  user := hu.trans h.user
  auth := by
    rw [ha]
    exact h.auth.imp_right fun hi => ⟨hi.1, hp hi.2⟩

theorem mem_eraseIdx_of_ne {l : List Call} {i : ℕ} {c d : Call}
    (hi : l[i]? = some c) (hd : d ∈ l) (hne : d.ask ≠ c.ask) : d ∈ l.eraseIdx i := by
  rw [List.mem_eraseIdx_iff_getElem?]
  obtain ⟨j, hj⟩ := List.mem_iff_getElem?.1 hd
  refine ⟨j, fun hji => hne ?_, hj⟩
  subst hji
  rw [hi] at hj
  cases hj
  rfl

/-! ## What each step does to the calls -/

theorem Quiet.mem_erase (h : Quiet s) (i : ℕ) :
    ∀ c ∈ s.calls.eraseIdx i, Fits s.signOuts s.out c :=
  fun c hc => h.calls c (List.mem_of_mem_eraseIdx hc)

theorem mem_modify {l : List Call} {i : ℕ} {f : Call → Call} {c : Call}
    (hc : c ∈ l.modify i f) : c ∈ l ∨ ∃ d ∈ l, c = f d := by
  obtain ⟨j, hj⟩ := List.mem_iff_getElem?.1 hc
  rw [List.getElem?_modify] at hj
  obtain ⟨d, hd, hfd⟩ := Option.map_eq_some_iff.1 hj
  have hmem : d ∈ l := List.mem_of_getElem? hd
  split at hfd
  · exact .inr ⟨d, hmem, hfd.symm⟩
  · cases hfd
    exact .inl hmem

theorem mem_modify_phase {l : List Call} (i : ℕ) (p : Phase) {c : Call}
    (hc : c ∈ l) : ∃ c' ∈ l.modify i (fun c => { c with phase := p }),
      c'.ask = c.ask ∧ c'.born = c.born := by
  obtain ⟨j, hj⟩ := List.mem_iff_getElem?.1 hc
  refine ⟨if i = j then { c with phase := p } else c,
    List.mem_iff_getElem?.2 ⟨j, ?_⟩, ?_, ?_⟩
  · rw [List.getElem?_modify, hj]
    rfl
  · split <;> rfl
  · split <;> rfl

theorem Quiet.mem_phase (h : Quiet s) (i : ℕ) (p : Phase)
    (hp : s.out = true → ∀ c : Call, Call.carried { c with phase := p } = none) :
    ∀ c ∈ s.calls.modify i (fun c => { c with phase := p }),
      Fits s.signOuts s.out c := by
  intro c hc
  obtain hc | ⟨d, hd, rfl⟩ := mem_modify hc
  · exact h.calls c hc
  · exact (h.calls d hd).phase fun ho _ => hp ho d

theorem Quiet.mem_asked (h : Quiet s) {a : Ask} (ha : a ≠ .restore) :
    ∀ c ∈ s.calls ++ [⟨a, .sent s.token, s.signOuts, false⟩],
      Fits s.signOuts s.out c := by
  intro c hc
  obtain hc | hc := List.mem_append.1 hc
  · exact h.calls c hc
  · cases List.mem_singleton.1 hc
    exact .asked ha fun ho => (h.off ho).token

/-! ## Asking -/

theorem Terminal.Pending.append (hp : s.Pending) {l : List Call} {t : Terminal}
    (hn : t.signOuts = s.signOuts) (hl : t.calls = s.calls ++ l) : t.Pending :=
  hp.kept hn fun c hc hask =>
    ⟨c, by rw [hl]; exact List.mem_append_left l hc, hask, rfl⟩

theorem Quiet.call (h : Quiet s) (ha : a ≠ .restore) : Quiet (s.call a) where
  calls := h.mem_asked ha
  off ho := (h.off ho).kept rfl rfl rfl fun hp => hp.append rfl rfl

theorem Quiet.signIn (h : Quiet s) :
    Quiet ((s.setAuth .signingIn).call .login) where
  calls := h.mem_asked (by decide)
  off ho :=
    ⟨(h.off ho).token, (h.off ho).user,
      .inr ⟨rfl, _, List.mem_append_right _ (List.mem_singleton_self _), rfl, rfl⟩⟩

theorem Quiet.setAuth (h : Quiet s) (b : Auth) (hb : s.out = true → b = .signedOut) :
    Quiet (s.setAuth b) where
  calls := by
    intro c hc
    change c ∈ (if b = .signedOut then s.calls.map Call.stop else s.calls) at hc
    split at hc
    · obtain ⟨d, hd, rfl⟩ := List.mem_map.1 hc
      exact (h.calls d hd).stop
    · exact h.calls c hc
  off ho := ⟨(h.off ho).token, (h.off ho).user, .inl (hb ho)⟩

theorem Quiet.loadSnapshot (h : Quiet s) (hs : s.out = true → s.hydrated = true) :
    Quiet s.loadSnapshot := by
  unfold Terminal.loadSnapshot
  split
  · next hadmin =>
      refine h.setAuth .ready fun ho => ?_
      rw [(h.off ho).user] at hadmin
      cases hadmin
  · split
    · exact h.call (by decide)
    · next hbare =>
        refine Quiet.call (h.setAuth .loading fun ho => ?_) (by decide)
        exact absurd (hs ho) hbare

/-! ## Signing out -/

/-- Whatever the tab was doing, the end of the session finds it signed out. -/
theorem quiet_sessionLost (h : ∀ c ∈ s.calls, Fits s.signOuts s.out c) :
    Quiet s.sessionLost where
  calls := by
    intro c hc
    obtain ⟨d, hd, rfl⟩ := List.mem_map.1 hc
    change Fits (if s.live then s.signOuts + 1 else s.signOuts) (s.out || s.live)
      d.stop
    cases hlive : s.live with
    | true =>
        rw [if_pos rfl, Bool.or_true]
        exact (h d hd).ended
    | false =>
        rw [if_neg Bool.false_ne_true, Bool.or_false]
        exact (h d hd).stop
  off _ := ⟨rfl, rfl, .inl rfl⟩

theorem quiet_signedOff (h : ∀ c ∈ s.calls, Fits s.signOuts s.out c) :
    Quiet s.signedOff where
  calls := (quiet_sessionLost h).calls
  off _ := ⟨rfl, rfl, .inl rfl⟩

/-! ## Answers -/

variable {i : ℕ} {c : Call} {r : Reply}

/-- A call that goes, and is not a sign-in. -/
theorem Quiet.rest (h : Quiet s) (hi : s.calls[i]? = some c)
    (hne : c.ask ≠ .login) : Quiet { s with calls := s.calls.eraseIdx i } where
  calls := h.mem_erase i
  off ho := (h.off ho).kept rfl rfl rfl <| .kept (s := s) rfl fun d hd hask =>
    ⟨d, mem_eraseIdx_of_ne hi hd (fun heq => hne (heq ▸ hask)), hask, rfl⟩

theorem Quiet.phase (h : Quiet s) (i : ℕ) (p : Phase)
    (hp : s.out = true → ∀ c : Call, Call.carried { c with phase := p } = none) :
    Quiet { s with calls := s.calls.modify i fun c => { c with phase := p } } where
  calls := h.mem_phase i p hp
  off ho := (h.off ho).kept rfl rfl rfl <| .kept (s := s) rfl fun _ hd hask =>
    let ⟨d', hd', hask', hborn'⟩ := mem_modify_phase i p hd
    ⟨d', hd', hask'.trans hask, hborn'⟩

/-- While the tab is signed out, only a call from before the sign-out carries a
token, or is the one the page loaded with. -/
theorem Quiet.late_of_carried (h : Quiet s) (ho : s.out = true) (hc : c ∈ s.calls)
    (hcar : c.carried ≠ none ∨ c.ask = .restore) : s.late c = true := by
  have hfit := h.calls c hc
  refine decide_eq_true (Nat.lt_of_le_of_ne hfit.born fun hborn => ?_)
  obtain ⟨hrestore, hnone⟩ := hfit.bare ho hborn
  exact hcar.elim (fun hne => hne hnone) hrestore

theorem Quiet.writes (h : Quiet s) (ho : s.out = false) (token : Option String)
    (user : Option User) : Quiet { s with token := token, user := user } where
  calls := h.calls
  off ho' := by cases ho.symm.trans ho'

theorem Quiet.taken (h : Quiet s) (token : String) (user : User)
    (hgone : s.out = false ∨ s.late c = false) :
    Quiet (({ s with calls := s.calls.eraseIdx i } : Terminal).takes c token user) ∧
      (({ s with calls := s.calls.eraseIdx i } : Terminal).takes c token user).out =
        false := by
  have hout : (s.out && s.late c) = false := by
    obtain ho | hl := hgone
    · rw [ho, Bool.false_and]
    · rw [hl, Bool.and_false]
  refine ⟨⟨fun d hd => ?_, fun ho => by cases hout.symm.trans ho⟩, hout⟩
  change Fits s.signOuts (s.out && s.late c) d
  rw [hout, ← Bool.and_false s.out]
  exact (h.mem_erase i d hd).back

theorem Quiet.setTill (h : Quiet s) (loc : LocKey) (t : Tills.Counter) :
    Quiet (s.setTill loc t) where
  calls := h.calls
  off ho := (h.off ho).kept rfl rfl rfl id

theorem Quiet.rereads (h : Quiet s) {before : Option User} {user : User}
    (hi : s.out = true → before = none ∨ before = some user) :
    Quiet (s.rereads before user) := by
  cases before with
  | none => exact h
  | some b =>
      rw [Terminal.rereads]
      split
      · exact h
      · next hne =>
          have ho : s.out = false := by
            refine Bool.eq_false_iff.2 fun ho => ?_
            obtain hb | hb := hi ho
            · cases hb
            · exact hne (Option.some.inj hb)
          have hw := h.writes ho s.token (some user)
          split
          · exact hw.loadSnapshot fun ho' => by cases ho.symm.trans ho'
          · exact hw

/-- An answer that brings somebody finds the tab signed in, or is the sign-in
it waits for. -/
theorem Quiet.accepts (h : Quiet s) (hi : s.calls[i]? = some c)
    (hC : s.out = true → s.late c = true → Nobody c r)
    (hbare : s.out = true → s.late c = false →
      c.ask.tokenless = true ∧ c.ask ≠ .restore)
    (he : ({ s with calls := s.calls.eraseIdx i } : Terminal).accepts c r = some s') :
    Quiet s' := by
  -- a late answer that brings somebody finds the tab signed in
  have hstay {user : User} (hr : r = .person user ∨ ∃ t m, r = .session t user m)
      (hme : ∀ b, c.ask ≠ .me b) (hl : s.late c = true) : s.out = false := by
    refine Bool.eq_false_iff.2 fun ho => ?_
    have hnobody := hC ho hl
    obtain rfl | ⟨t, m, rfl⟩ := hr
    · obtain heq | heq := hnobody
      · exact hme _ heq
      · exact hme _ heq
    · exact hnobody
  have hin {user : User} (hr : r = .person user ∨ ∃ t m, r = .session t user m)
      (hme : ∀ b, c.ask ≠ .me b) (hask : c.ask.tokenless = false) :
      s.out = false := by
    cases hl : s.late c with
    | true => exact hstay hr hme hl
    | false =>
        refine Bool.eq_false_iff.2 fun ho => ?_
        cases hask.symm.trans (hbare ho hl).1
  cases r with
  | session token user must =>
      have htaken (hme : ∀ b, c.ask ≠ .me b) := h.taken (i := i) token user <| by
        cases hl : s.late c with
        | true => exact .inl (hstay (.inr ⟨_, _, rfl⟩) hme hl)
        | false => exact .inr rfl
      cases hask : c.ask with
      | login =>
          obtain ⟨ht, hno⟩ := htaken fun b hb => by cases hask.symm.trans hb
          rw [Terminal.accepts, hask] at he
          cases he
          split
          · exact ht.setAuth .ready fun ho => by cases hno.symm.trans ho
          · exact (ht.setAuth .loading fun ho => by
              cases hno.symm.trans ho).loadSnapshot fun ho => by
                cases hno.symm.trans ho
      | restore =>
          obtain ⟨ht, hno⟩ := htaken fun b hb => by cases hask.symm.trans hb
          rw [Terminal.accepts, hask] at he
          cases he
          split
          · exact ht.setAuth .ready fun ho => by cases hno.symm.trans ho
          · exact ht.loadSnapshot fun ho => by cases hno.symm.trans ho
      | changePassword =>
          have ho := hin (.inr ⟨_, _, rfl⟩) (fun b hb => by cases hask.symm.trans hb)
            (by rw [hask]; rfl)
          rw [Terminal.accepts, hask] at he
          cases he
          exact ((h.rest hi (by rw [hask]; decide)).writes ho (some token)
            (some user)).loadSnapshot fun ho' => by cases ho.symm.trans ho'
      | _ =>
          rw [Terminal.accepts, hask] at he
          cases he
  | person user =>
      cases hask : c.ask with
      | saveProfile =>
          have ho := hin (.inl rfl) (fun b hb => by cases hask.symm.trans hb)
            (by rw [hask]; rfl)
          rw [Terminal.accepts, hask] at he
          cases he
          exact (h.rest hi (by rw [hask]; decide)).writes ho s.token (some user)
      | me before =>
          rw [Terminal.accepts, hask] at he
          cases he
          refine (h.rest hi (by rw [hask]; exact Ask.noConfusion)).rereads
            fun ho => ?_
          cases hl : s.late c with
          | true =>
              obtain heq | heq := hC ho hl
              · exact .inl (Ask.me.inj (hask.symm.trans heq))
              · exact .inr (Ask.me.inj (hask.symm.trans heq))
          | false =>
              have hopen := (hbare ho hl).1
              rw [hask] at hopen
              cases hopen
      | snapshot =>
          have ho := hin (.inl rfl) (fun b hb => by cases hask.symm.trans hb)
            (by rw [hask]; rfl)
          rw [Terminal.accepts, hask] at he
          cases he
          have hw := (h.rest hi (by rw [hask]; decide)).writes ho s.token (some user)
          have hw' : Quiet { s with
              calls := s.calls.eraseIdx i, user := some user, hydrated := true } :=
            ⟨hw.calls, fun ho' => by cases ho.symm.trans ho'⟩
          exact hw'.setAuth .ready fun ho' => by cases ho.symm.trans ho'
      | _ =>
          rw [Terminal.accepts, hask] at he
          cases he
  | done =>
      cases hask : c.ask with
      | pay loc bill =>
          rw [Terminal.accepts, hask] at he
          cases he
          exact (h.rest hi (by rw [hask]; exact Ask.noConfusion)).setTill loc _
      | logout =>
          rw [Terminal.accepts, hask] at he
          cases he
          exact quiet_signedOff (h.mem_erase i)
      | other =>
          rw [Terminal.accepts, hask] at he
          cases he
          exact h.rest hi (by rw [hask]; decide)
      | _ =>
          rw [Terminal.accepts, hask] at he
          cases he
  | unauthorized | refused => cases he

theorem Quiet.fails (h : Quiet s) (hi : s.calls[i]? = some c) :
    Quiet (({ s with calls := s.calls.eraseIdx i } : Terminal).fails c) := by
  have hshut : Quiet (({ s with
      calls := s.calls.eraseIdx i, user := none } : Terminal).setAuth .signedOut) := by
    refine ⟨fun d hd => ?_, fun ho => ⟨(h.off ho).token, rfl, .inl rfl⟩⟩
    obtain ⟨d', hd', rfl⟩ := List.mem_map.1 hd
    exact (h.mem_erase i d' hd').stop
  unfold Terminal.fails
  cases hask : c.ask with
  | login | restore => exact hshut
  | logout => exact quiet_signedOff (h.mem_erase i)
  | snapshot =>
      have hr := h.rest hi (by rw [hask]; decide)
      change Quiet (if s.user = none then _ else _)
      split
      · exact hr
      · next hin =>
          refine hr.setAuth _ fun ho => ?_
          exact absurd (h.off ho).user hin
  | changePassword | saveProfile | me | pay | stream | other =>
      exact h.rest hi (by rw [hask]; exact Ask.noConfusion)

theorem Quiet.served (h : Quiet s) (hi : s.calls[i]? = some c)
    (hC : s.out = true → s.late c = true → Nobody c r) {token : Option String}
    (htok : c.carried = token) (he : s.served i c token r = some s') : Quiet s' := by
  unfold Terminal.served at he
  split at he
  · cases he
  · next hserves =>
      split at he
      · split at he
        · cases he
          exact h.phase i .reading fun _ _ => rfl
        · cases he
      · refine h.accepts hi hC (fun ho hl => ?_) he
        -- what was asked since the sign-out carries nothing
        have hnot (hcar : c.carried ≠ none ∨ c.ask = .restore) : False := by
          cases hl.symm.trans (h.late_of_carried ho (List.mem_of_getElem? hi) hcar)
        refine ⟨?_, fun hask => hnot (.inr hask)⟩
        refine Bool.eq_true_of_not_eq_false fun hask => hserves ⟨?_, hask⟩
        rw [← htok]
        exact Classical.not_not.1 fun hcar => hnot (.inl hcar)

theorem Quiet.waits (h : Quiet s) (i : ℕ) (had : Option String) :
    Quiet (s.waits i had) :=
  have hp := h.phase i .waiting fun _ _ => rfl
  ⟨hp.calls, fun ho => (hp.off ho).kept rfl rfl rfl id⟩

theorem Quiet.settles (h : Quiet s) (ok : Bool) (b : ℕ) : Quiet (s.settles ok b) where
  calls := by
    intro d hd
    obtain ⟨d', hd', rfl⟩ := List.mem_map.1 hd
    exact (h.calls d' hd').settle ok b
  off ho := (h.off ho).kept rfl rfl rfl <| .kept (s := s) rfl fun d hd hask => by
    refine ⟨d.settle ok b, List.mem_map_of_mem hd, ?_, ?_⟩
    · unfold Call.settle
      split
      · exact hask
      · exact hask
    · unfold Call.settle
      split <;> rfl

theorem Quiet.answer (h : Quiet s) (hi : s.calls[i]? = some c)
    (hC : s.out = true → s.late c = true → Nobody c r)
    (he : s.answer i c r = some s') :
    Quiet s' := by
  have hserved {token} (hp : c.phase = .sent token ∨ c.phase = .resent token)
      (hs : s.served i c token r = some s') : Quiet s' := by
    refine h.served hi hC ?_ hs
    obtain hp | hp := hp
    · rw [Call.carried, hp]
    · rw [Call.carried, hp]
  unfold Terminal.answer at he
  cases hphase : c.phase with
  | sent token =>
      rw [hphase] at he
      cases r with
      | refused =>
          cases he
          exact h.fails hi
      | unauthorized =>
          cases he
          split
          · exact h.fails hi
          · exact h.waits i token
      | session | person | done => exact hserved (.inl hphase) he
  | resent token =>
      rw [hphase] at he
      cases r with
      | refused =>
          cases he
          exact h.fails hi
      | unauthorized =>
          cases he
          split
          · exact quiet_sessionLost (h.mem_erase i)
          · exact h.fails hi
      | session | person | done => exact hserved (.inr hphase) he
  | reading =>
      rw [hphase] at he
      dsimp only at he
      split at he
      · cases he
        exact h.fails hi
      · cases he
  | waiting | settled =>
      rw [hphase] at he
      cases he

theorem Quiet.reply (h : Quiet s) (hC : Careful s (.reply i r))
    (he : s.reply i r = some s') : Quiet s' := by
  obtain ⟨c, hi, hc⟩ := Option.bind_eq_some_iff.1 he
  split at hc
  · split at hc
    · cases hc
      exact h.fails hi
    · cases hc
  · exact h.answer hi (fun ho => hC ho c hi) hc

theorem Quiet.resume (h : Quiet s) (he : s.resume i = some s') : Quiet s' := by
  obtain ⟨c, hi, hc⟩ := Option.bind_eq_some_iff.1 he
  cases hphase : c.phase with
  | settled ok b =>
      simp only [hphase] at hc
      cases ok with
      | true =>
          cases hc
          split
          · exact h.fails hi
          · exact h.phase i _ fun ho _ => (h.off ho).token
      | false =>
          cases hc
          exact quiet_sessionLost (h.mem_erase i)
  | sent | waiting | resent | reading =>
      simp only [hphase] at hc
      cases hc

theorem Quiet.turn (h : Quiet s) (he : s.turn = some s') : Quiet s' := by
  obtain ⟨r, -, hr⟩ := Option.bind_eq_some_iff.1 he
  split at hr
  · cases hr
  · cases hr
    split
    · exact h.settles true r.born
    · exact ⟨h.calls, fun ho => (h.off ho).kept rfl rfl rfl id⟩

theorem Quiet.refreshed (h : Quiet s) {token : Option String}
    (hC : Careful s (.refreshed token)) (he : s.refreshed token = some s') :
    Quiet s' := by
  obtain ⟨r, hr, hs⟩ := Option.bind_eq_some_iff.1 he
  split at hs
  · cases hs
  · cases hs
    cases token with
    | none => exact h.settles false r.born
    | some t =>
        have ho : s.out = false := hC
        have hw : Quiet { s with token := some t, channel := true } :=
          ⟨h.calls, fun ho' => by cases ho.symm.trans ho'⟩
        exact hw.settles true r.born

theorem Quiet.step (h : Quiet s) {e : Event} (hC : Careful s e)
    (he : s.step e = some s') : Quiet s' := by
  cases e with
  | signIn =>
      cases he
      exact h.signIn
  | asks a =>
      simp only [Terminal.step, Option.ite_none_right_eq_some] at he
      obtain ⟨hplain, hs⟩ := he
      cases hs
      refine h.call fun hask => ?_
      rw [hask] at hplain
      cases hplain
  | reread =>
      cases he
      exact h.call Ask.noConfusion
  | load =>
      cases he
      exact h.loadSnapshot hC
  | pay loc =>
      obtain ⟨b, -, hb⟩ := Option.bind_eq_some_iff.1 he
      rw [Option.ite_none_left_eq_some] at hb
      cases hb.2
      exact h.call Ask.noConfusion
  | till loc e =>
      obtain ⟨t, -, rfl⟩ := Option.map_eq_some_iff.1 he
      exact h.setTill loc t
  | connect =>
      simp only [Terminal.step, Option.ite_none_right_eq_some] at he
      obtain ⟨-, hs⟩ := he
      cases hs
      exact ⟨h.mem_asked (by decide), fun ho =>
        (h.off ho).kept rfl rfl rfl fun hp => hp.append rfl rfl⟩
  | reply i r => exact h.reply hC he
  | turn => exact h.turn he
  | refreshed token => exact h.refreshed hC he
  | resume i => exact h.resume he
  | broadcast token =>
      simp only [Terminal.step, Option.ite_none_right_eq_some] at he
      obtain ⟨-, hs⟩ := he
      cases hs
      refine ⟨h.calls, fun ho => (h.off ho).kept ?_ rfl rfl id⟩
      change s.token.map _ = s.token
      rw [(h.off ho).token]
      rfl

/-- The session and its open bills are as they were. While the tab is signed
out there are no open bills to keep. -/
structure Untouched (s s' : Terminal) : Prop where
  token : s'.token = s.token
  user : s'.user = s.user
  tills : s.out = false → ∀ loc, s'.tillAt loc = s.tillAt loc

theorem Untouched.of_eq (ht : s'.token = s.token) (hu : s'.user = s.user)
    (hl : s'.tills = s.tills) : Untouched s s' :=
  ⟨ht, hu, fun _ loc => by rw [Terminal.tillAt, hl]; rfl⟩

theorem Untouched.loadSnapshot (h : Untouched s s') :
    Untouched s s'.loadSnapshot := by
  unfold Terminal.loadSnapshot
  split
  · exact ⟨h.token, h.user, h.tills⟩
  · split
    · exact ⟨h.token, h.user, h.tills⟩
    · exact ⟨h.token, h.user, h.tills⟩

end Quiet

def meena : User := ⟨"u4", "Meena", "counter", false, ["bills"]⟩

/-- A pay and a snapshot are out as the operator signs out. The pay is answered
after. -/
def signsOut : List Event :=
  [.reply 0 .refused, .signIn, .reply 0 (.session "a1" meena false),
    .reply 0 (.person meena), .till "cafe" (.add "tea" 1), .pay "cafe", .load,
    .asks .logout, .reply 2 .done, .reply 0 .done]

/-- Enough of the condition, checked as the run goes. -/
def careful (s : Terminal) : Event → Bool
  | .reply i (.session ..) | .reply i (.person _) =>
    !s.out || (s.calls[i]?).all fun c => !s.late c
  | .refreshed _ | .load => !s.out
  | _ => true

theorem careful_sound (s : Terminal) (e : Event) (h : careful s e = true) :
    Careful s e := by
  have hout (h' : (!s.out) = true) : s.out = false := by
    rw [← Bool.not_true, ← h', Bool.not_not]
  have hnone {i : ℕ} {c : Call} (hi : s.calls[i]? = some c)
      (h' : (!s.out || (s.calls[i]?).all fun c => !s.late c) = true)
      (ho : s.out = true) : s.late c ≠ true := by
    rw [ho, Bool.not_true, Bool.false_or, hi, Option.all_some] at h'
    rwa [Bool.not_eq_true', ← Bool.not_eq_true] at h'
  cases e with
  | reply i r =>
      intro ho c hi hl
      cases r with
      | session | person => exact absurd hl (hnone hi h ho)
      | done | unauthorized | refused => trivial
  | refreshed token =>
      cases token with
      | none => trivial
      | some t => exact hout h
  | load =>
      intro ho
      cases (hout h).symm.trans ho
  | signIn | asks | reread | pay | till | connect | turn | resume | broadcast =>
      trivial

/-- Without the condition, the last operator's snapshot lands after the sign-out
and brings them back. -/
theorem left_over_snapshot_signs_in : ∃ s, terminal.Reach s ∧ s.out = true ∧
    s.user = some meena ∧ s.auth = .ready := by
  have hany : (terminal.run loaded (signsOut ++ [.reply 0 (.person meena)])).any
      (fun s => decide (s.out = true ∧ s.user = some meena ∧ s.auth = .ready)) =
        true := by decide +kernel
  obtain ⟨s, hrun, hs⟩ := (Option.any_eq_true _ _).1 hany
  exact ⟨s, Machine.reach_run (.init rfl) hrun, of_decide_eq_true hs⟩

end Rch.SignOut
