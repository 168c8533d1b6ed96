import Rch.Machine.AccessCache

/-!
# What the permission cache may say

A load belongs to the generation it started in, and is kept only while that
lasts. So what is kept started after every clear there has been, and a lookup
answered from it is too.
-/

namespace Rch

open Kit

namespace AccessCache

variable {α : Type} {ttl : ℤ}

/-- What is said of the cache: the answers it gives, and what it keeps. -/
structure Sound (ttl : ℤ) (c : AccessCache α) : Prop where
  /-- A lookup begun after a clear has its answer from a load that was too. -/
  fresh : ∀ a ∈ c.answers, ∀ t ∈ c.cleared, t < a.asked → t < a.loaded
  /-- A value served from the cache finished loading less than its time ago. -/
  young : ∀ a ∈ c.answers, ∀ now, a.stored = some now →
    ∃ f ∈ c.finished, f.userId = a.userId ∧ f.begun = a.loaded ∧
      f.value = a.value ∧ now - f.at_ < ttl
  /-- What is kept came back from a load that did not fail. -/
  kept : ∀ u e, c.entries u = some e →
    (∃ f ∈ c.finished, f.userId = u ∧ f.begun = e.loaded ∧
      f.value = e.value ∧ f.at_ = e.at_) ∧ e.loaded ∉ c.lost

/-- An entry, and the load it came from. -/
structure EntryOk (cleared lost : List ℕ) (finished : List (LoadedAccess α))
    (u : String) (e : AccessEntry α) : Prop where
  afterClears : ∀ t ∈ cleared, t < e.loaded
  loaded : ∃ f ∈ finished, f.userId = u ∧ f.begun = e.loaded ∧
    f.value = e.value ∧ f.at_ = e.at_
  notLost : e.loaded ∉ lost

/-- A load still out. -/
structure LoadOk (tick generation : ℕ) (cleared lost : List ℕ)
    (finished : List (LoadedAccess α)) (l : AccessLoad) : Prop where
  past : l.begun < tick
  started : l.started ≤ generation
  afterClears : l.started = generation → ∀ t ∈ cleared, t < l.begun
  notLost : l.begun ∉ lost
  notBack : ∀ f ∈ finished, f.begun ≠ l.begun

/-- What every step keeps. -/
structure Kept (ttl : ℤ) (c : AccessCache α) : Prop where
  fresh : ∀ a ∈ c.answers, ∀ t ∈ c.cleared, t < a.asked → t < a.loaded
  young : ∀ a ∈ c.answers, ∀ now, a.stored = some now →
    ∃ f ∈ c.finished, f.userId = a.userId ∧ f.begun = a.loaded ∧
      f.value = a.value ∧ now - f.at_ < ttl
  asked : ∀ a ∈ c.answers, a.asked < c.tick
  cleared : ∀ t ∈ c.cleared, t < c.tick
  lost : ∀ t ∈ c.lost, t < c.tick
  back : ∀ f ∈ c.finished, f.begun < c.tick ∧ f.begun ∉ c.lost
  entries : ∀ u e, c.entries u = some e →
    EntryOk c.cleared c.lost c.finished u e
  loads : ∀ i l, c.load i = some l →
    LoadOk c.tick c.generation c.cleared c.lost c.finished l
  apart : ∀ i j l l', c.load i = some l → c.load j = some l' →
    l.begun = l'.begun → i = j

theorem Kept.sound {c : AccessCache α} (h : Kept ttl c) : Sound ttl c :=
  ⟨h.fresh, h.young, fun u e he => ⟨(h.entries u e he).loaded,
    (h.entries u e he).notLost⟩⟩

section Steps

variable {c : AccessCache α} {i j : ℕ} {l l' : AccessLoad}

theorem load_set (c : AccessCache α) (i j : ℕ) :
    (c.loads.set i none)[j]?.join = if i = j then none else c.load j := by
  unfold load
  rw [List.getElem?_set]
  split
  · split <;> rfl
  · rfl

theorem load_append (h : (c.loads ++ [some l'])[j]?.join = some l) :
    c.load j = some l ∨ l = l' ∧ j = c.loads.length := by
  unfold load
  rw [List.getElem?_append] at h
  split at h
  · exact .inl h
  · next hj =>
      by_cases h₀ : j - c.loads.length = 0
      · rw [h₀] at h
        cases h
        exact .inr ⟨rfl, by omega⟩
      · rw [List.getElem?_eq_none (by simp; omega)] at h
        cases h

def ticked (c : AccessCache α) : AccessCache α := { c with tick := c.tick + 1 }

theorem Kept.ticked (h : Kept ttl c) : Kept ttl c.ticked where
  fresh := h.fresh
  young := h.young
  asked a ha := (h.asked a ha).trans (Nat.lt_succ_self _)
  cleared t ht := (h.cleared t ht).trans (Nat.lt_succ_self _)
  lost t ht := (h.lost t ht).trans (Nat.lt_succ_self _)
  back f hf := ⟨(h.back f hf).1.trans (Nat.lt_succ_self _), (h.back f hf).2⟩
  entries := h.entries
  loads i l hl := { h.loads i l hl with
    past := (h.loads i l hl).past.trans (Nat.lt_succ_self _) }
  apart := h.apart

theorem Kept.hit (h : Kept ttl c) {u : String} {now : Instant}
    {e : AccessEntry α} (he : c.hit ttl u now = some e) :
    Kept ttl (c.told ⟨u, c.tick, e.loaded, e.value, some now⟩).ticked := by
  obtain ⟨hentry, hyoung⟩ := Option.filter_eq_some_iff.1 he
  have hok := h.entries u e hentry
  obtain ⟨f, hf, hfu, hfl, hfv, hfat⟩ := hok.loaded
  have hyoung : now - f.at_ < ttl := hfat ▸ of_decide_eq_true hyoung
  refine { h.ticked with fresh := ?_, young := ?_, asked := ?_ }
  · rintro a ha t ht hlt
    rcases List.mem_cons.1 ha with rfl | ha
    · exact hok.afterClears t ht
    · exact h.fresh a ha t ht hlt
  · rintro a ha now' hnow
    rcases List.mem_cons.1 ha with rfl | ha
    · cases hnow
      exact ⟨f, hf, hfu, hfl, hfv, hyoung⟩
    · exact h.young a ha now' hnow
  · rintro a ha
    rcases List.mem_cons.1 ha with rfl | ha
    · exact Nat.lt_succ_self _
    · exact h.ticked.asked a ha

theorem Kept.starts (h : Kept ttl c) (u : String) :
    Kept ttl (AccessCache.ticked { c with
      loads := c.loads ++ [some ⟨u, c.generation, c.tick⟩] }) := by
  refine { h.ticked with loads := ?_, apart := ?_ }
  · intro i l hl
    rcases load_append hl with hl | ⟨rfl, -⟩
    · exact h.ticked.loads i l hl
    · exact ⟨Nat.lt_succ_self _, le_rfl, fun _ => h.cleared,
        fun ht => lt_irrefl _ (h.lost _ ht), fun f hf => (h.back f hf).1.ne⟩
  · intro i j l l' hl hl' heq
    rcases load_append hl with hl | ⟨rfl, hi⟩ <;>
      rcases load_append hl' with hl' | ⟨rfl, hj⟩
    · exact h.apart i j l l' hl hl' heq
    · exact absurd heq (h.loads i l hl).past.ne
    · exact absurd heq.symm (h.loads j l' hl').past.ne
    · exact hi.trans hj.symm

theorem Kept.other (h : Kept ttl c) (hl : c.load i = some l) {l' : AccessLoad}
    (hl' : (c.loads.set i none)[j]?.join = some l') :
    c.load j = some l' ∧ l'.begun ≠ l.begun := by
  rw [load_set] at hl'
  split at hl'
  · cases hl'
  · next hij => exact ⟨hl', fun heq => hij (h.apart i j l l' hl hl' heq.symm)⟩

theorem Kept.returns (h : Kept ttl c) (hl : c.load i = some l) (value : α)
    (now : Instant) : Kept ttl (c.return_ i l value now).ticked := by
  have hlo := h.loads i l hl
  -- Nothing but the entries depends on whether the value was stored.
  have hrest : Kept ttl (AccessCache.ticked { c with
      loads := c.loads.set i none
      finished := ⟨l.userId, l.begun, now, value⟩ :: c.finished
      answers := ⟨l.userId, l.begun, l.begun, value, none⟩ :: c.answers }) := by
    refine { h.ticked with
      fresh := ?_, young := ?_, asked := ?_, back := ?_, entries := ?_,
      loads := ?_, apart := ?_ }
    · rintro a ha t ht hlt
      rcases List.mem_cons.1 ha with rfl | ha
      · exact hlt
      · exact h.fresh a ha t ht hlt
    · rintro a ha now' hnow
      rcases List.mem_cons.1 ha with rfl | ha
      · cases hnow
      · obtain ⟨f, hf, hrest⟩ := h.young a ha now' hnow
        exact ⟨f, List.mem_cons_of_mem _ hf, hrest⟩
    · rintro a ha
      rcases List.mem_cons.1 ha with rfl | ha
      · exact h.ticked.loads i l hl |>.past
      · exact h.ticked.asked a ha
    · rintro f hf
      rcases List.mem_cons.1 hf with rfl | hf
      · exact ⟨(h.ticked.loads i l hl).past, hlo.notLost⟩
      · exact h.ticked.back f hf
    · intro u e he
      obtain ⟨hclears, ⟨f, hf, hrest⟩, hlost⟩ := h.entries u e he
      exact ⟨hclears, ⟨f, List.mem_cons_of_mem _ hf, hrest⟩, hlost⟩
    · intro j l' hl'
      obtain ⟨hl', hne⟩ := h.other hl hl'
      have hok := h.ticked.loads j l' hl'
      refine { hok with notBack := fun f hf => ?_ }
      rcases List.mem_cons.1 hf with rfl | hf
      · exact hne.symm
      · exact hok.notBack f hf
    · intro j k l' l'' hl' hl'' heq
      exact h.apart j k l' l'' (h.other hl hl').1 (h.other hl hl'').1 heq
  unfold return_ store
  split
  · next hgen =>
      refine { hrest with entries := fun u e he => ?_ }
      dsimp only [AccessCache.ticked] at he
      by_cases hu : u = l.userId
      · subst hu
        rw [Function.update_self] at he
        cases he
        exact ⟨hlo.afterClears hgen,
          ⟨_, List.mem_cons_self, rfl, rfl, rfl, rfl⟩, hlo.notLost⟩
      · rw [Function.update_of_ne hu] at he
        exact hrest.entries u e he
  · exact hrest

theorem Kept.loses (h : Kept ttl c) (hl : c.load i = some l) :
    Kept ttl (c.lose i l).ticked := by
  have hlo := h.loads i l hl
  refine { h.ticked with
    lost := ?_, back := ?_, entries := ?_, loads := ?_, apart := ?_ }
  · rintro t ht
    rcases List.mem_cons.1 ht with rfl | ht
    · exact (h.ticked.loads i l hl).past
    · exact h.ticked.lost t ht
  · intro f hf
    refine ⟨(h.ticked.back f hf).1, fun ht => ?_⟩
    rcases List.mem_cons.1 ht with ht | ht
    · exact hlo.notBack f hf ht
    · exact (h.back f hf).2 ht
  · intro u e he
    obtain ⟨hclears, ⟨f, hf, hfu, hfl, hrest⟩, hlost⟩ := h.entries u e he
    refine ⟨hclears, ⟨f, hf, hfu, hfl, hrest⟩, fun ht => ?_⟩
    rcases List.mem_cons.1 ht with ht | ht
    · exact hlo.notBack f hf (hfl.trans ht)
    · exact hlost ht
  · intro j l' hl'
    obtain ⟨hl', hne⟩ := h.other hl hl'
    have hok := h.ticked.loads j l' hl'
    refine { hok with notLost := fun ht => ?_ }
    rcases List.mem_cons.1 ht with ht | ht
    · exact hne ht
    · exact hok.notLost ht
  · intro j k l' l'' hl' hl'' heq
    exact h.apart j k l' l'' (h.other hl hl').1 (h.other hl hl'').1 heq

theorem Kept.clears (h : Kept ttl c) : Kept ttl c.clear.ticked := by
  refine { h.ticked with
    fresh := ?_, cleared := ?_, entries := ?_, loads := ?_ }
  · rintro a ha t ht hlt
    rcases List.mem_cons.1 ht with rfl | ht
    · exact absurd hlt (h.asked a ha).asymm
    · exact h.fresh a ha t ht hlt
  · rintro t ht
    rcases List.mem_cons.1 ht with rfl | ht
    · exact Nat.lt_succ_self _
    · exact h.ticked.cleared t ht
  · intro u e he
    cases he
  · intro j l' hl'
    have hok := h.ticked.loads j l' hl'
    -- It started in a generation that is over.
    exact { hok with
      started := hok.started.trans (Nat.le_succ _)
      afterClears := fun heq => absurd (heq ▸ hok.started)
        (Nat.not_succ_le_self _) }

theorem Kept.step {c' : AccessCache α} {e : Event α} (h : Kept ttl c)
    (hs : c.step ttl e = some c') : Kept ttl c' := by
  obtain ⟨d, hd, rfl⟩ := Option.map_eq_some_iff.1 hs
  cases e with
  | of_ u now =>
      cases hd
      unfold lookup
      split
      · next e he => exact h.hit he
      · exact h.starts u
  | loaded i value now =>
      obtain ⟨l, hl, rfl⟩ := Option.map_eq_some_iff.1 hd
      exact h.returns hl value now
  | failed i =>
      obtain ⟨l, hl, rfl⟩ := Option.map_eq_some_iff.1 hd
      exact h.loses hl
  | clear =>
      cases hd
      exact h.clears

end Steps

theorem kept_empty : Kept ttl (empty : AccessCache α) where
  fresh _ ha := nomatch ha
  young _ ha := nomatch ha
  asked _ ha := nomatch ha
  cleared _ ht := nomatch ht
  lost _ ht := nomatch ht
  back _ hf := nomatch hf
  entries _ _ he := nomatch he
  loads i l hl := by simp [load, empty] at hl
  apart i j l l' hl := by simp [load, empty] at hl

end AccessCache

/-- Whatever order lookups, loads, failures and clears come in, the cache says
what it should. -/
theorem access_is_current {α : Type} {ttl : ℤ} {c : AccessCache α}
    (h : (AccessCache.machine ttl).Reach c) : AccessCache.Sound ttl c := by
  have hkept : AccessCache.Kept ttl c := by
    refine h.invariant ?_ fun _ _ _ _ hk hs => hk.step hs
    rintro _ rfl
    exact AccessCache.kept_empty
  exact hkept.sound

/-- A role changes while a load of it is out: the load answers its own lookup
and no other. A minute after the next one the entry is too old. -/
def changedUnderWay : List (AccessCache.Event String) :=
  [.of_ "u1" 0, .clear, .loaded 0 "as it was" 5, .of_ "u1" 6,
    .loaded 1 "as it is" 7, .of_ "u1" 60006, .of_ "u1" 60007, .failed 2]

theorem access_is_current_changed : ∃ c,
    (AccessCache.machine ACCESS_TTL_MS).run .empty changedUnderWay = some c ∧
      AccessCache.Sound ACCESS_TTL_MS c ∧
      (c.cleared, c.lost) = ([1], [6]) ∧
      c.answers.map (fun a => (a.asked, a.value, a.stored)) =
        [(5, "as it is", some 60006), (3, "as it is", none),
          (0, "as it was", none)] := by
  have hany : ((AccessCache.machine ACCESS_TTL_MS).run .empty
      changedUnderWay).any (fun c => decide ((c.cleared, c.lost) = ([1], [6]) ∧
        c.answers.map (fun a => (a.asked, a.value, a.stored)) =
          [(5, "as it is", some 60006), (3, "as it is", none),
            (0, "as it was", none)])) = true := by
    decide +kernel
  obtain ⟨c, hrun, hd⟩ := (Option.any_eq_true _ _).1 hany
  obtain ⟨hnoted, hanswers⟩ := of_decide_eq_true hd
  have hinit : (AccessCache.machine ACCESS_TTL_MS).Reach
      (.empty : AccessCache String) := .init rfl
  exact ⟨c, hrun, access_is_current (Machine.reach_run hinit hrun), hnoted,
    hanswers⟩

end Rch
