import Rch.Machine.Attempts

/-!
# The sign-in budget holds for attempts in flight together

Beside the map stands the list of attempts nobody has given back. While fewer ids
are about than the map has room for, nothing is ever evicted, and the two agree on
every stamp that still counts: a begin adds the stamp to both, a release takes it
from both, and what a sweep or a filter drops had stopped counting. So the budget
that `isLocked` read of the map is the budget of the attempts.

What the map holds is bounded in any run at all.
-/

namespace Rch

open Kit

namespace Attempts

variable {b : Budget} {m : Table String (List Instant)} {a a' : Attempts}
  {key : String} {now swept at_ : Instant}

/-! ## The window -/

theorem inWindow_mono {i j t : Instant} (h : i ≤ j)
    (hj : inWindow b j t = true) : inWindow b i t = true := by
  unfold inWindow at hj ⊢
  rw [decide_eq_true_eq] at hj ⊢
  exact lt_of_le_of_lt (sub_le_sub_right h t) hj

theorem filter_inWindow_le {i j : Instant} (h : i ≤ j) (l : List Instant) :
    (l.filter (inWindow b j)).length ≤ (l.filter (inWindow b i)).length :=
  (List.monotone_filter_right l fun _ ht => inWindow_mono h ht).length_le

/-! ## One operation -/

theorem stamps_set (l : List Instant) (k : String) :
    stamps (m.set key l) k = if k = key then l else stamps m k := by
  unfold stamps
  rw [Table.get?_set]
  split <;> rfl

theorem stamps_restrict (k : String) :
    stamps (m.restrict fun k => decide (k ≠ key)) k =
      if k = key then [] else stamps m k := by
  unfold stamps
  rw [Table.get?_restrict]
  by_cases hk : k = key
  · rw [if_neg (by simpa using hk), if_pos hk, Option.getD_none]
  · rw [if_pos (by simpa using hk), if_neg hk]

/-- A sweep drops no stamp that counts. -/
theorem count_stamps_sweep {i t : Instant} (h : swept ≤ i)
    (ht : inWindow b i t = true) (k : String) :
    (stamps (sweep b m swept) k).count t = (stamps m k).count t := by
  unfold stamps sweep
  rw [Table.get?_filter]
  cases m.get? k with
  | none => rfl
  | some l =>
      rw [Option.filter_some]
      split
      · rfl
      · next hquiet =>
          rw [Option.getD_none, Option.getD_some, List.count_nil, eq_comm,
            List.count_eq_zero]
          exact fun hmem => hquiet
            (List.any_eq_true.2 ⟨t, hmem, inWindow_mono h ht⟩)

/-- A sweep leaves no key with more stamps. -/
theorem stamps_sweep_sublist (k : String) :
    (stamps (sweep b m swept) k).Sublist (stamps m k) := by
  unfold stamps sweep
  rw [Table.get?_filter]
  cases m.get? k with
  | none => exact .refl _
  | some l =>
      rw [Option.filter_some]
      split
      · exact .refl _
      · exact List.nil_sublist _

/-- Where there is room nothing is evicted. -/
theorem evict_of_room (n : ℕ) (h : m.rows.length < b.cap) :
    evict b n m = some m := by
  cases n <;> rw [evict, if_neg (not_le.2 h)]

theorem evict_length {n : ℕ} {m' : Table String (List Instant)}
    (h : evict b n m = some m') : m'.rows.length < b.cap := by
  induction n generalizing m with
  | zero =>
      rw [evict] at h
      split at h
      · cases h
      · next hc =>
          cases h
          exact not_le.1 hc
  | succ n ih =>
      rw [evict] at h
      split at h
      · exact ih h
      · next hc =>
          cases h
          exact not_le.1 hc

/-- The loop ends, but for a cap of zero. -/
theorem evict_isSome (hcap : 0 < b.cap) {n : ℕ} (h : m.rows.length ≤ n) :
    (evict b n m).isSome = true := by
  induction n generalizing m with
  | zero =>
      rw [evict, if_neg (by omega)]
      rfl
  | succ n ih =>
      rw [evict]
      split
      · refine ih ?_
        have htail : m.dropOldest.rows.length = m.rows.length - 1 :=
          List.length_tail
        omega
      · rfl

theorem begin_some (h : a.begin_ b key now swept = some a') :
    ∃ m m', (m = a.m ∨ m = sweep b a.m swept) ∧
      evict b (m.restrict fun k => decide (k ≠ key)).rows.length
        (m.restrict fun k => decide (k ≠ key)) = some m' ∧
      a'.m = m'.set key ((stamps m key).filter (inWindow b now) ++ [now]) := by
  unfold begin_ at h
  obtain ⟨m', hm', rfl⟩ := Option.map_eq_some_iff.1 h
  refine ⟨_, m', ?_, hm', rfl⟩
  split
  · exact .inr rfl
  · exact .inl rfl

/-- A begin always returns. -/
theorem begin_isSome (hcap : 0 < b.cap) (a : Attempts) (key : String)
    (now swept : Instant) : (a.begin_ b key now swept).isSome = true := by
  unfold begin_
  rw [Option.isSome_map]
  exact evict_isSome hcap le_rfl

/-- A release gives back one stamp of its key, and touches no other key. -/
theorem stamps_release (k : String) :
    stamps (a.release key at_).m k =
      if k = key then (stamps a.m key).erase at_ else stamps a.m k := by
  unfold release
  split
  · next hnone =>
      split
      · next hk =>
          subst hk
          unfold stamps
          rw [hnone]
          rfl
      · rfl
  · next l hl =>
      have hstamps : stamps a.m key = l := by
        unfold stamps
        rw [hl, Option.getD_some]
      rw [hstamps]
      split
      · next hlast => rw [stamps_restrict, hlast]
      · unfold stamps
        rw [Table.get?_modify]
        split
        · next hk => rw [hk, hl, Option.map_some, Option.getD_some]
        · rfl

theorem release_other {k : String} (hk : k ≠ key) :
    (a.release key at_).m.get? k = a.m.get? k := by
  unfold release
  split
  · rfl
  · split
    · rw [Table.get?_restrict, if_pos (by simpa using hk)]
    · exact Table.get?_modify_ne _ _ hk

theorem release_length_le :
    (a.release key at_).m.rows.length ≤ a.m.rows.length := by
  unfold release
  split
  · exact le_rfl
  · split
    · exact List.length_filter_le _ _
    · unfold Table.modify Table.update
      rw [List.length_map]

end Attempts

/-! ## The invariant -/

open Attempts

variable {b : Budget} {keys : Finset String} {s s' : SignInGate}

/-- The map as the attempts in flight have left it. -/
structure InBudget (b : Budget) (keys : Finset String) (s : SignInGate) : Prop where
  known : ∀ key, (s.attempts.m.get? key).isSome → key ∈ keys
  /-- A stamp that counts is there once for each attempt that bears it. -/
  held : ∀ key t, inWindow b s.clock t = true →
    (stamps s.attempts.m key).count t = s.inFlight.count (key, t)
  budget : ∀ key,
    ((stamps s.attempts.m key).filter (inWindow b s.clock)).length ≤ b.max

theorem InBudget.later (h : InBudget b keys s) {now : Instant}
    (hnow : s.clock ≤ now) : InBudget b keys { s with clock := now } where
  known := h.known
  held := fun key t ht => h.held key t (inWindow_mono hnow ht)
  budget := fun key => (filter_inWindow_le hnow _).trans (h.budget key)

theorem InBudget.release (h : InBudget b keys s) (key : String) (at_ : Instant) :
    InBudget b keys
      ⟨s.attempts.release key at_, s.inFlight.erase (key, at_), s.clock⟩ where
  known := fun k hk => by
    by_cases hne : k = key
    · refine h.known k ?_
      cases hg : s.attempts.m.get? k with
      | some l => rfl
      | none =>
          subst hne
          unfold Attempts.release at hk
          rw [hg] at hk
          rw [hg] at hk
          cases hk
    · exact h.known k (release_other hne ▸ hk)
  held := fun k t ht => by
    dsimp only at ht ⊢
    rw [stamps_release, List.count_erase]
    split
    · next hk =>
        subst hk
        rw [List.count_erase, h.held k t ht]
        refine congrArg _ (if_congr ?_ rfl rfl)
        simp only [beq_iff_eq, Prod.mk.injEq, true_and]
    · next hk =>
        have hne : ((key, at_) == (k, t)) = false := by
          rw [beq_eq_false_iff_ne]
          exact fun heq => hk (congrArg Prod.fst heq).symm
        rw [h.held k t ht, hne]
        rfl
  budget := fun k => by
    dsimp only
    rw [stamps_release]
    split
    · next hk =>
        subst hk
        exact ((List.erase_sublist.filter _).length_le).trans (h.budget k)
    · exact h.budget k

theorem InBudget.begin_ (h : InBudget b keys s) (hroom : keys.card < b.cap)
    {key : String} {now swept : Instant} (hkey : key ∈ keys)
    (hfree : s.attempts.isLocked b key now = false) (hnow : s.clock ≤ now)
    (hswept : now ≤ swept) {a : Attempts}
    (hb : s.attempts.begin_ b key now swept = some a) :
    InBudget b keys ⟨a, s.inFlight ++ [(key, now)], swept⟩ := by
  obtain ⟨m, m', hm, hevict, hset⟩ := begin_some hb
  -- the swept map says of what counts what the map did
  have hcount (k : String) {t : Instant} (ht : inWindow b swept t = true) :
      (stamps m k).count t = (stamps s.attempts.m k).count t := by
    rcases hm with rfl | rfl
    · rfl
    · exact count_stamps_sweep le_rfl ht k
  have hsub (k : String) : (stamps m k).Sublist (stamps s.attempts.m k) := by
    rcases hm with rfl | rfl
    · exact .refl _
    · exact stamps_sweep_sublist k
  have hmknown (k : String) (hk : (m.get? k).isSome) : k ∈ keys := by
    rcases hm with rfl | rfl
    · exact h.known k hk
    · refine h.known k ?_
      unfold sweep at hk
      rw [Table.get?_filter] at hk
      cases hg : s.attempts.m.get? k with
      | some l => rfl
      | none =>
          rw [hg] at hk
          cases hk
  have hlen : (m.restrict fun k => decide (k ≠ key)).rows.length < b.cap :=
    lt_of_le_of_lt ((List.length_filter_le _ _).trans
      (Table.length_le_card hmknown)) hroom
  rw [evict_of_room _ hlen] at hevict
  cases hevict
  have hstamps (k : String) : stamps a.m k =
      if k = key then (stamps m key).filter (inWindow b now) ++ [now]
      else stamps m k := by
    rw [hset, stamps_set]
    split
    · rfl
    · next hk => rw [stamps_restrict, if_neg hk]
  refine ⟨fun k hk => ?_, fun k t ht => ?_, fun k => ?_⟩
  · dsimp only at hk
    rw [hset, Table.get?_set] at hk
    split at hk
    · next heq => exact heq ▸ hkey
    · next hne =>
        rw [Table.get?_restrict, if_pos (by simpa using hne)] at hk
        exact hmknown k hk
  · dsimp only at ht ⊢
    rw [hstamps, List.count_append]
    have hclock := h.held k t (inWindow_mono (hnow.trans hswept) ht)
    split
    · next hk =>
        subst hk
        rw [List.count_append, List.count_filter (inWindow_mono hswept ht),
          hcount k ht, hclock, List.count_singleton, List.count_singleton]
        refine congrArg _ (if_congr ?_ rfl rfl)
        simp only [beq_iff_eq, Prod.mk.injEq, true_and]
    · next hk =>
        rw [hcount k ht, hclock, List.count_singleton, if_neg, Nat.add_zero]
        rw [beq_iff_eq]
        exact fun heq => hk (congrArg Prod.fst heq).symm
  · dsimp only
    rw [hstamps]
    split
    · next hk =>
        refine (filter_inWindow_le hswept _).trans ?_
        have hlt : ((stamps m key).filter (inWindow b now)).length < b.max := by
          refine lt_of_le_of_lt ((hsub key).filter _).length_le ?_
          exact not_le.1 (of_decide_eq_false hfree)
        rw [List.filter_append, List.length_append, List.filter_filter]
        have hone := List.length_filter_le (inWindow b now) [now]
        rw [List.length_singleton] at hone
        have hsame := (stamps m key).filter_congr (p := fun t =>
          inWindow b now t && inWindow b now t) (q := inWindow b now)
            fun t _ => Bool.and_self _
        rw [hsame]
        omega
    · exact (((hsub k).filter _).length_le.trans
        ((filter_inWindow_le (hnow.trans hswept) _).trans (h.budget k)))

theorem inBudget_step (hroom : keys.card < b.cap) {e : AttemptCall}
    (h : InBudget b keys s) (hp : SignsIn b keys s e)
    (he : (signInGate b).step s e = some s') : InBudget b keys s' := by
  cases e with
  | isLocked key now =>
      obtain ⟨hnow, rfl⟩ : s.clock ≤ now ∧ { s with clock := now } = s' := by
        change (if s.clock ≤ now then some { s with clock := now } else none) =
          some s' at he
        split at he
        · next hnow => exact ⟨hnow, Option.some.inj he⟩
        · cases he
      exact h.later hnow
  | begin_ key now swept =>
      change (if s.clock ≤ now ∧ now ≤ swept then _ else none) = some s' at he
      split at he
      · next hclock =>
          obtain ⟨a, ha, rfl⟩ := Option.map_eq_some_iff.1 he
          exact h.begin_ hroom hp.1 hp.2 hclock.1 hclock.2 ha
      · cases he
  | release key at_ =>
      cases he
      exact h.release key at_

theorem inBudget_reach (hroom : keys.card < b.cap)
    (hr : (signInGate b).ReachVia (SignsIn b keys) s) : InBudget b keys s := by
  refine hr.invariant (fun s h₀ => ?_) fun s e s' _ hi hp he =>
    inBudget_step hroom hi hp he
  obtain ⟨ha, hf⟩ := h₀
  refine ⟨fun key hk => ?_, fun key t _ => ?_, fun key => ?_⟩
  · rw [ha] at hk
    cases hk
  · rw [ha, hf]
    rfl
  · rw [ha]
    exact Nat.zero_le _

/-! ## The budget -/

/-- The attempts on an id in flight that count at an instant. -/
def counting (b : Budget) (inFlight : List (String × Instant)) (key : String)
    (i : Instant) : List (String × Instant) :=
  inFlight.filter fun p => decide (p.1 = key) && inWindow b i p.2

theorem count_counting (l : List (String × Instant)) (key : String)
    (i t : Instant) :
    ((counting b l key i).map Prod.snd).count t =
      if inWindow b i t then l.count (key, t) else 0 := by
  induction l with
  | nil =>
      rw [List.count_nil, ite_self]
      rfl
  | cons p l ih =>
      obtain ⟨k, u⟩ := p
      have hcons : counting b ((k, u) :: l) key i =
          if decide (k = key) && inWindow b i u then
            (k, u) :: counting b l key i
          else counting b l key i := List.filter_cons
      rw [hcons, List.count_cons]
      by_cases hk : k = key
      · subst hk
        by_cases hu : u = t
        · subst hu
          cases hw : inWindow b i u with
          | true => simp [ih, hw]
          | false => simp [ih, hw]
        · have hne : ((k, u) == (k, t)) = false := by simpa using hu
          rw [hne]
          split
          · rw [List.map_cons, List.count_cons_of_ne hu, ih]
            rfl
          · exact ih
      · have hne : ((k, u) == (key, t)) = false := by simp [hk]
        rw [if_neg (by simp [hk]), hne]
        exact ih

/-- What counts of an id is what counts of its attempts in flight. -/
theorem InBudget.counting_le (h : InBudget b keys s) (key : String) {i : Instant}
    (hi : s.clock ≤ i) : (counting b s.inFlight key i).length ≤ b.max := by
  have hperm : ((counting b s.inFlight key i).map Prod.snd).Perm
      ((stamps s.attempts.m key).filter (inWindow b i)) := by
    rw [List.perm_iff_count]
    intro t
    rw [count_counting]
    split
    · next hw =>
        rw [List.count_filter hw, h.held key t (inWindow_mono hi hw)]
    · next hw =>
        rw [eq_comm, List.count_eq_zero]
        exact fun hmem => hw (List.mem_filter.1 hmem).2
  rw [← List.length_map (f := Prod.snd), hperm.length_eq]
  exact (filter_inWindow_le hi _).trans (h.budget key)

theorem length_le_cap (hr : (signInGate b).Reach s) :
    s.attempts.m.rows.length ≤ b.cap := by
  refine Machine.Reach.invariant
    (I := fun s : SignInGate => s.attempts.m.rows.length ≤ b.cap)
    (fun s h₀ => ?_) (fun s e s' _ hi he => ?_) hr
  · rw [h₀.1]
    exact Nat.zero_le _
  · cases e with
    | isLocked key now =>
        change (if s.clock ≤ now then some { s with clock := now } else none) =
          some s' at he
        split at he
        · cases he
          exact hi
        · cases he
    | begin_ key now swept =>
        change (if s.clock ≤ now ∧ now ≤ swept then _ else none) = some s' at he
        split at he
        · obtain ⟨a, ha, rfl⟩ := Option.map_eq_some_iff.1 he
          obtain ⟨m, m', -, hevict, hset⟩ := begin_some ha
          dsimp only
          rw [hset]
          exact (Table.length_set_le _ _ _).trans (evict_length hevict)
        · cases he
    | release key at_ =>
        cases he
        exact release_length_le.trans hi

/-- The sign-in budget under concurrency. The map never holds more than its cap of
ids, whatever is called. With fewer ids about than that, and each attempt begun only
where the budget has room and given back only by its own sign-in: an id never has
more attempts in flight begun within the window than the budget, from here until the
next call; and giving one back touches no other id, takes the stamp from its own
once, and does find it there as long as it counts. -/
theorem sign_in_budget (b : Budget) :
    (∀ s, (signInGate b).Reach s → s.attempts.m.rows.length ≤ b.cap) ∧
    ∀ keys : Finset String, keys.card < b.cap →
      ∀ s, (signInGate b).ReachVia (SignsIn b keys) s →
        (∀ key i, s.clock ≤ i →
          (counting b s.inFlight key i).length ≤ b.max) ∧
        ∀ key at_, (key, at_) ∈ s.inFlight →
          (∀ other, other ≠ key → (s.attempts.release key at_).m.get? other =
            s.attempts.m.get? other) ∧
          stamps (s.attempts.release key at_).m key =
            (stamps s.attempts.m key).erase at_ ∧
          (inWindow b s.clock at_ = true → at_ ∈ stamps s.attempts.m key) := by
  refine ⟨fun s hr => length_le_cap hr, fun keys hroom s hr => ?_⟩
  have h := inBudget_reach hroom hr
  refine ⟨fun key i hi => h.counting_le key hi, fun key at_ hmem =>
    ⟨fun other hne => release_other hne, ?_, fun hw => ?_⟩⟩
  · rw [stamps_release, if_pos rfl]
  · rw [← List.count_pos_iff, h.held key at_ hw, List.count_pos_iff]
    exact hmem

/-- Five attempts a minute; two on one id at once, the first of them given back. -/
def asha : Budget := ⟨5, 60000, 10000⟩

def ashaTwice : List AttemptCall :=
  [.isLocked "E1" 10, .begin_ "E1" 10 10, .isLocked "E1" 10, .begin_ "E1" 10 10,
    .release "E1" 10]

theorem sign_in_budget_twice : ∃ s : SignInGate,
    (signInGate asha).ReachVia (SignsIn asha {"E1"}) s ∧
      s.inFlight = [("E1", 10)] ∧
      s.attempts.m.rows.length ≤ 10000 ∧
      (counting asha s.inFlight "E1" 30000).length ≤ 5 := by
  have hany : ((signInGate asha).runVia
      (fun s e => decide (SignsIn asha {"E1"} s e)) ⟨⟨Table.empty, 0⟩, [], 0⟩
      ashaTwice).any (fun s => decide (s.inFlight = [("E1", 10)]) &&
        decide (s.clock ≤ 30000)) = true := by
    decide +kernel
  obtain ⟨s, hrun, hd⟩ := (Option.any_eq_true _ _).1 hany
  obtain ⟨hflight, hclock⟩ := Bool.and_eq_true_iff.1 hd
  have hr : (signInGate asha).ReachVia (SignsIn asha {"E1"}) s :=
    Machine.reachVia_runVia (fun _ _ h => of_decide_eq_true h)
      (.init ⟨rfl, rfl⟩) hrun
  obtain ⟨hcap, hbudget⟩ := sign_in_budget asha
  exact ⟨s, hr, of_decide_eq_true hflight, hcap s hr.reach,
    (hbudget {"E1"} (by decide) s hr).1 "E1" 30000 (of_decide_eq_true hclock)⟩

end Rch
