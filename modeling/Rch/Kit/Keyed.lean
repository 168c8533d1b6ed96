import Mathlib.Algebra.BigOperators.Group.Finset.Piecewise
import Mathlib.Algebra.BigOperators.Group.List.Basic
import Mathlib.Algebra.Order.BigOperators.Group.List
import Mathlib.Data.List.Nodup
import Mathlib.Tactic.Abel

/-!
# Sums by key, and the fold that computes them

`sumOn l key k f` adds up a figure over the entries of `l` that carry the key
`k`: what is held on one shelf, what was paid on one bill. It is additive in
the list, so each operation that appends, maps or filters rows has a rule.

Code computes the same sums with a dictionary: walk the list, look the key up,
add, store. `accumulate` is that loop, over any way of adding. When adding is
an honest addition of some figure, the dictionary it leaves holds `sumOn` of
that figure at every key, and each key once.
-/

namespace Kit

variable {α κ : Type} {M : Type} [DecidableEq κ]

section Sum

variable [AddCommMonoid M]

/-- The sum of `f` over the entries under key `k`. -/
def sumOn (l : List α) (key : α → κ) (k : κ) (f : α → M) : M :=
  (l.map fun a => if key a = k then f a else 0).sum

@[simp] theorem sumOn_nil (key : α → κ) (k : κ) (f : α → M) :
    sumOn [] key k f = 0 := rfl

theorem sumOn_cons (a : α) (l : List α) (key : α → κ) (k : κ) (f : α → M) :
    sumOn (a :: l) key k f =
      (if key a = k then f a else 0) + sumOn l key k f := by
  simp only [sumOn, List.map_cons, List.sum_cons]

theorem sumOn_append (l l' : List α) (key : α → κ) (k : κ) (f : α → M) :
    sumOn (l ++ l') key k f = sumOn l key k f + sumOn l' key k f := by
  simp only [sumOn, List.map_append, List.sum_append]

theorem sumOn_map {β : Type} (l : List β) (g : β → α) (key : α → κ) (k : κ)
    (f : α → M) :
    sumOn (l.map g) key k f = sumOn l (fun b => key (g b)) k
      (fun b => f (g b)) := by
  simp only [sumOn, List.map_map, Function.comp_def]

theorem sumOn_congr {κ' : Type} [DecidableEq κ'] {l : List α} {key : α → κ}
    {key' : α → κ'} {k : κ} {k' : κ'} {f f' : α → M}
    (h : ∀ a ∈ l, (if key a = k then f a else 0) =
      if key' a = k' then f' a else 0) :
    sumOn l key k f = sumOn l key' k' f' := by
  unfold sumOn
  rw [List.map_congr_left h]

theorem sumOn_perm {l l' : List α} (h : l.Perm l') (key : α → κ) (k : κ)
    (f : α → M) : sumOn l key k f = sumOn l' key k f :=
  (h.map _).sum_eq

/-- Entries that contribute nothing may be dropped. -/
theorem sumOn_filter {l : List α} {p : α → Bool} {key : α → κ} {k : κ}
    {f : α → M} (h : ∀ a ∈ l, key a = k → p a = false → f a = 0) :
    sumOn (l.filter p) key k f = sumOn l key k f := by
  induction l with
  | nil => rfl
  | cons a l ih =>
      have ih' := ih fun b hb => h b (List.mem_cons_of_mem _ hb)
      rw [List.filter_cons, sumOn_cons]
      split
      · rw [sumOn_cons, ih']
      · next hp =>
          rw [ih']
          split
          · next hk =>
              rw [h a List.mem_cons_self hk (by simpa using hp), zero_add]
          · rw [zero_add]

/-- A sum over the rows that pass a test, as a sum over all of them. -/
theorem sumOn_filter_eq_sum (l : List α) (p : α → Bool) (key : α → κ) (k : κ)
    (f : α → M) :
    sumOn (l.filter p) key k f =
      (l.map fun a => if p a = true ∧ key a = k then f a else 0).sum := by
  induction l with
  | nil => rfl
  | cons a l ih =>
      rw [List.filter_cons, List.map_cons, List.sum_cons, ← ih]
      split
      · next hp => simp only [sumOn_cons, hp, true_and]
      · next hp => rw [if_neg (fun h => hp h.1), zero_add]

theorem sumOn_eq_zero {l : List α} {key : α → κ} {k : κ} {f : α → M}
    (h : ∀ a ∈ l, key a = k → f a = 0) : sumOn l key k f = 0 := by
  unfold sumOn
  apply List.sum_eq_zero
  intro x hx
  obtain ⟨a, ha, rfl⟩ := List.mem_map.1 hx
  split
  · next hk => exact h a ha hk
  · rfl

theorem sumOn_eq_sum_filter (l : List α) (key : α → κ) (k : κ) (f : α → M) :
    sumOn l key k f = ((l.filter fun a => decide (key a = k)).map f).sum := by
  induction l with
  | nil => rfl
  | cons a l ih =>
      rw [sumOn_cons, List.filter_cons, ih]
      by_cases h : key a = k
      · simp [h]
      · simp [h]

omit [DecidableEq κ] in
theorem sum_map_filter {l : List α} {p : α → Bool} {f : α → M}
    (h : ∀ a ∈ l, p a = false → f a = 0) :
    ((l.filter p).map f).sum = (l.map f).sum := by
  induction l with
  | nil => rfl
  | cons a l ih =>
      rw [List.forall_mem_cons] at h
      rw [List.filter_cons, List.map_cons, List.sum_cons, ← ih h.2]
      split
      · rw [List.map_cons, List.sum_cons]
      · next hp => rw [h.1 (by simpa using hp), zero_add]

/-- One entry under the key and none other: the sum is its figure. -/
theorem sumOn_eq_of_mem {l : List α} {key : α → κ} (hn : (l.map key).Nodup)
    {a : α} (ha : a ∈ l) (f : α → M) : sumOn l key (key a) f = f a := by
  induction l with
  | nil => cases ha
  | cons b l ih =>
      rw [List.map_cons, List.nodup_cons] at hn
      rw [sumOn_cons]
      cases ha with
      | head =>
          rw [if_pos rfl, sumOn_eq_zero, add_zero]
          intro c hc hk
          exact absurd (hk ▸ List.mem_map_of_mem hc) hn.1
      | tail _ hl =>
          have hne : key b ≠ key a := fun h =>
            hn.1 (h ▸ List.mem_map_of_mem hl)
          rw [if_neg hne, zero_add]
          exact ih hn.2 hl

theorem sum_sumOn {l : List α} {key : α → κ} {S : Finset κ} (f : α → M)
    (h : ∀ a ∈ l, key a ∈ S) :
    ∑ k ∈ S, sumOn l key k f = (l.map f).sum := by
  induction l with
  | nil => simp
  | cons a l ih =>
      have hl := ih fun b hb => h b (List.mem_cons_of_mem _ hb)
      have ha : ∑ k ∈ S, (if key a = k then f a else 0) = f a := by
        rw [Finset.sum_ite_eq, if_pos (h a List.mem_cons_self)]
      simp only [sumOn_cons, Finset.sum_add_distrib, ha, hl, List.map_cons,
        List.sum_cons]

theorem sum_map_sumOn {l : List α} {key : α → κ} {keys : List κ}
    (hn : keys.Nodup) (f : α → M) (h : ∀ a ∈ l, key a ∈ keys) :
    (keys.map fun k => sumOn l key k f).sum = (l.map f).sum := by
  rw [← List.sum_toFinset _ hn]
  exact sum_sumOn f fun a ha => List.mem_toFinset.2 (h a ha)

end Sum

section Order

variable [AddCommGroup M] [LinearOrder M] [IsOrderedAddMonoid M]

theorem sumOn_nonneg {l : List α} {key : α → κ} {k : κ} {f : α → M}
    (h : ∀ a ∈ l, key a = k → 0 ≤ f a) : 0 ≤ sumOn l key k f := by
  unfold sumOn
  apply List.sum_nonneg
  intro x hx
  obtain ⟨a, ha, rfl⟩ := List.mem_map.1 hx
  split
  · next hk => exact h a ha hk
  · exact le_refl 0

omit [LinearOrder M] [IsOrderedAddMonoid M] in
theorem sumOn_neg (l : List α) (key : α → κ) (k : κ) (f : α → M) :
    sumOn l key k (fun a => -f a) = -sumOn l key k f := by
  induction l with
  | nil => simp
  | cons a l ih =>
      rw [sumOn_cons, sumOn_cons, ih]
      split <;> abel

end Order

/-! ## The dictionary -/

section Accumulate

/-- The entry under a key, or `z`. -/
def entryOr (m : List (κ × M)) (k : κ) (z : M) : M := (m.lookup k).getD z

/-- Store a new entry under a key, computed from the old one, or from `z`. -/
def upsert (m : List (κ × M)) (k : κ) (f : M → M) (z : M) : List (κ × M) :=
  match m with
  | [] => [(k, f z)]
  | (k', x) :: m =>
      if k' = k then (k', f x) :: m else (k', x) :: upsert m k f z

/-- Walk the list, adding each element onto its key's entry. -/
def accumulate (key : α → κ) (add : M → α → M) (z : M) (l : List α) :
    List (κ × M) :=
  l.foldl (fun m a => upsert m (key a) (fun x => add x a) z) []

theorem entryOr_cons (k' : κ) (x : M) (m : List (κ × M)) (k : κ) (z : M) :
    entryOr ((k', x) :: m) k z = if k' = k then x else entryOr m k z := by
  unfold entryOr
  rw [List.lookup_cons]
  by_cases h : k' = k
  · simp [h]
  · rw [beq_eq_false_iff_ne.2 (Ne.symm h), if_neg h]

theorem entryOr_upsert (m : List (κ × M)) (k : κ) (f : M → M) (z : M)
    (k' : κ) :
    entryOr (upsert m k f z) k' z =
      if k = k' then f (entryOr m k z) else entryOr m k' z := by
  induction m with
  | nil =>
      rw [upsert, entryOr_cons]
      rfl
  | cons p m ih =>
      obtain ⟨k₀, x⟩ := p
      rw [upsert]
      by_cases h : k₀ = k
      · rw [if_pos h, entryOr_cons, entryOr_cons, entryOr_cons, h, if_pos rfl]
        split <;> rfl
      · rw [if_neg h, entryOr_cons, entryOr_cons, entryOr_cons, ih,
          if_neg h]
        by_cases h₀ : k₀ = k'
        · have : k ≠ k' := fun hk => h (h₀.trans hk.symm)
          rw [if_pos h₀, if_pos h₀, if_neg this]
        · rw [if_neg h₀, if_neg h₀]

theorem upsert_congr {m : List (κ × M)} {k : κ} {f f' : M → M} {z : M}
    (h : f (entryOr m k z) = f' (entryOr m k z)) :
    upsert m k f z = upsert m k f' z := by
  induction m with
  | nil =>
      change f z = f' z at h
      rw [upsert, upsert, h]
  | cons p m ih =>
      obtain ⟨k₀, x⟩ := p
      rw [entryOr_cons] at h
      rw [upsert, upsert]
      by_cases hk : k₀ = k
      · rw [if_pos hk] at h
        rw [if_pos hk, if_pos hk, h]
      · rw [if_neg hk] at h
        rw [if_neg hk, if_neg hk, ih h]

theorem upsert_split (m : List (κ × M)) (k : κ) (f : M → M) (z : M) :
    (∃ as x bs, m = as ++ (k, x) :: bs ∧
      upsert m k f z = as ++ (k, f x) :: bs) ∨
    upsert m k f z = m ++ [(k, f z)] := by
  induction m with
  | nil => exact .inr rfl
  | cons p m ih =>
      obtain ⟨k₀, x⟩ := p
      rw [upsert]
      by_cases h : k₀ = k
      · subst h
        rw [if_pos rfl]
        exact .inl ⟨[], x, m, rfl, rfl⟩
      · rw [if_neg h]
        rcases ih with ⟨as, y, bs, rfl, hu⟩ | hu
        · exact .inl ⟨(k₀, x) :: as, y, bs, rfl, by rw [hu, List.cons_append]⟩
        · exact .inr (by rw [hu, List.cons_append])

theorem mem_keys_upsert {m : List (κ × M)} {k k' : κ} {f : M → M} {z : M} :
    k' ∈ (upsert m k f z).map Prod.fst ↔ k' = k ∨ k' ∈ m.map Prod.fst := by
  induction m with
  | nil => simp [upsert]
  | cons p m ih =>
      obtain ⟨k₀, x⟩ := p
      rw [upsert]
      split
      · next h =>
          subst h
          simp
      · rw [List.map_cons, List.mem_cons, ih, List.map_cons, List.mem_cons]
        exact or_left_comm

theorem nodup_upsert {m : List (κ × M)} {k : κ} {f : M → M} {z : M}
    (h : (m.map Prod.fst).Nodup) :
    ((upsert m k f z).map Prod.fst).Nodup := by
  induction m with
  | nil => simp [upsert]
  | cons p m ih =>
      obtain ⟨k₀, x⟩ := p
      rw [List.map_cons, List.nodup_cons] at h
      rw [upsert]
      split
      · exact List.nodup_cons.2 h
      · next hne =>
          rw [List.map_cons, List.nodup_cons]
          refine ⟨?_, ih h.2⟩
          intro hm
          rcases mem_keys_upsert.1 hm with rfl | hm
          · exact hne rfl
          · exact h.1 hm

theorem nodup_accumulate (key : α → κ) (add : M → α → M) (z : M)
    (l : List α) : ((accumulate key add z l).map Prod.fst).Nodup := by
  unfold accumulate
  suffices h : ∀ m : List (κ × M), (m.map Prod.fst).Nodup →
      ((l.foldl (fun m a => upsert m (key a) (fun x => add x a) z) m).map
        Prod.fst).Nodup from h [] List.nodup_nil
  induction l with
  | nil => exact fun m h => h
  | cons a l ih => exact fun m h => ih _ (nodup_upsert h)

theorem mem_keys_accumulate {key : α → κ} {add : M → α → M} {z : M}
    {l : List α} {k : κ} :
    k ∈ (accumulate key add z l).map Prod.fst ↔ ∃ a ∈ l, key a = k := by
  unfold accumulate
  suffices h : ∀ m : List (κ × M),
      k ∈ (l.foldl (fun m a => upsert m (key a) (fun x => add x a) z) m).map
        Prod.fst ↔ k ∈ m.map Prod.fst ∨ ∃ a ∈ l, key a = k by
    rw [h []]
    simp
  induction l with
  | nil => simp
  | cons a l ih =>
      intro m
      rw [List.foldl_cons, ih, mem_keys_upsert]
      simp only [List.mem_cons, exists_eq_or_imp]
      constructor
      · rintro ((rfl | h) | h)
        · exact .inr (.inl rfl)
        · exact .inl h
        · exact .inr (.inr h)
      · rintro (h | rfl | h)
        · exact .inl (.inr h)
        · exact .inl (.inl rfl)
        · exact .inr h

variable [AddCommMonoid M]

/-- A loop onto a dictionary adds to each entry the sum over its key. -/
theorem entryOr_foldl_upsert {key : α → κ} {add : M → α → M} {g : α → M}
    (hadd : ∀ x a, add x a = x + g a) (l : List α) (m : List (κ × M)) (k : κ) :
    entryOr (l.foldl (fun m a => upsert m (key a) (fun x => add x a) 0) m) k 0 =
      entryOr m k 0 + sumOn l key k g := by
  induction l generalizing m with
  | nil => rw [sumOn_nil, add_zero]; rfl
  | cons a l ih =>
      rw [List.foldl_cons, ih, entryOr_upsert, sumOn_cons]
      split
      · next h => rw [hadd, h, add_assoc]
      · rw [zero_add]

theorem entryOr_accumulate {key : α → κ} {add : M → α → M} {g : α → M}
    (hadd : ∀ x a, add x a = x + g a) (l : List α) (k : κ) :
    entryOr (accumulate key add 0 l) k 0 = sumOn l key k g := by
  rw [accumulate, entryOr_foldl_upsert hadd]
  exact zero_add _

/-- Two ways of adding that agree on the sums met along the list leave one
dictionary. -/
theorem accumulate_congr {key : α → κ} {add add' : M → α → M} {g : α → M}
    (hadd : ∀ x a, add' x a = x + g a) {l : List α}
    (h : ∀ i (hi : i < l.length),
      add (sumOn (l.take i) key (key l[i]) g) l[i] =
        add' (sumOn (l.take i) key (key l[i]) g) l[i]) :
    accumulate key add 0 l = accumulate key add' 0 l := by
  induction l using List.reverseRecOn with
  | nil => rfl
  | append_singleton l a ih =>
      have hlast := h l.length (by simp)
      rw [List.take_left, List.getElem_concat_length rfl] at hlast
      have hinit : accumulate key add 0 l = accumulate key add' 0 l := by
        refine ih fun i hi => ?_
        have hi' := h i (by rw [List.length_append]; omega)
        rwa [List.take_append_of_le_length hi.le,
          List.getElem_append_left hi] at hi'
      have hsnoc (add : M → α → M) : accumulate key add 0 (l ++ [a]) =
          upsert (accumulate key add 0 l) (key a) (fun x => add x a) 0 := by
        rw [accumulate, List.foldl_append]
        rfl
      rw [hsnoc, hsnoc, hinit]
      refine upsert_congr ?_
      rw [entryOr_accumulate hadd]
      exact hlast

theorem sumOn_entries {m : List (κ × M)} (hn : (m.map Prod.fst).Nodup)
    (k : κ) : sumOn m Prod.fst k Prod.snd = entryOr m k 0 := by
  induction m with
  | nil => rfl
  | cons p m ih =>
      obtain ⟨k₀, x⟩ := p
      rw [List.map_cons, List.nodup_cons] at hn
      rw [sumOn_cons, entryOr_cons]
      by_cases h : k₀ = k
      · rw [if_pos h, if_pos h, sumOn_eq_zero, add_zero]
        rintro q hq rfl
        exact absurd (h ▸ List.mem_map.2 ⟨q, hq, rfl⟩) hn.1
      · rw [if_neg h, if_neg h, zero_add, ih hn.2]

theorem sumOn_accumulate {key : α → κ} {add : M → α → M} {g : α → M}
    (hadd : ∀ x a, add x a = x + g a) (l : List α) (k : κ) :
    sumOn (accumulate key add 0 l) Prod.fst k Prod.snd = sumOn l key k g := by
  rw [sumOn_entries (nodup_accumulate key add 0 l), entryOr_accumulate hadd]

theorem mem_accumulate {key : α → κ} {add : M → α → M} {g : α → M}
    (hadd : ∀ x a, add x a = x + g a) {l : List α} {k : κ} {x : M}
    (h : (k, x) ∈ accumulate key add 0 l) : x = sumOn l key k g := by
  rw [← sumOn_accumulate hadd]
  exact (sumOn_eq_of_mem (nodup_accumulate key add 0 l) h Prod.snd).symm

end Accumulate

/-! ## A dictionary built from entries -/

section Entries

/-- The value under a key of a dictionary built from these entries, where a
later entry overwrites an earlier one. -/
def fromEntries (l : List (κ × α)) (k : κ) : Option α :=
  l.foldl (fun found p => if p.1 = k then some p.2 else found) none

theorem fromEntries_append (l : List (κ × α)) (p : κ × α) (k : κ) :
    fromEntries (l ++ [p]) k =
      if p.1 = k then some p.2 else fromEntries l k := by
  simp only [fromEntries, List.foldl_append, List.foldl_cons, List.foldl_nil]

theorem mem_of_fromEntries {l : List (κ × α)} {k : κ} {x : α}
    (h : fromEntries l k = some x) : (k, x) ∈ l := by
  induction l using List.reverseRecOn with
  | nil => cases h
  | append_singleton l p ih =>
      rw [fromEntries_append] at h
      split at h
      · next hk =>
          cases h
          exact List.mem_append_right _ (hk ▸ List.mem_singleton_self p)
      · exact List.mem_append_left _ (ih h)

theorem fromEntries_eq_none {l : List (κ × α)} {k : κ} :
    fromEntries l k = none ↔ k ∉ l.map Prod.fst := by
  induction l using List.reverseRecOn with
  | nil => simp [fromEntries]
  | append_singleton l p ih =>
      rw [fromEntries_append, List.map_append, List.mem_append, not_or,
        List.map_singleton, List.mem_singleton, eq_comm]
      split
      · next hk => simp [hk]
      · next hk => rw [eq_comm, ih, and_iff_left (Ne.symm hk)]

end Entries

/-! ## A list without its repeats -/

theorem nodup_eraseDups [DecidableEq α] (l : List α) : l.eraseDups.Nodup := by
  induction h : l.length using Nat.strong_induction_on generalizing l with
  | _ n ih =>
      cases l with
      | nil => exact List.nodup_nil
      | cons a l =>
          rw [List.eraseDups_cons, List.nodup_cons, List.mem_eraseDups]
          refine ⟨fun ha => ?_, ih _ ?_ _ rfl⟩
          · simp at ha
          · rw [← h, List.length_cons]
            exact Nat.lt_succ_of_le (List.length_filter_le _ l)

/-! ## Rows grouped by a key -/

section Groups

/-- The rows under each key, a key once. -/
def groups (key : α → κ) (l : List α) : List (κ × List α) :=
  (l.map key).dedup.map fun k => (k, l.filter fun a => decide (key a = k))

theorem mem_groups {key : α → κ} {l : List α} {k : κ} {g : List α} :
    (k, g) ∈ groups key l ↔
      (∃ a ∈ l, key a = k) ∧ g = l.filter fun a => decide (key a = k) := by
  simp only [groups, List.mem_map, List.mem_dedup, Prod.mk.injEq]
  constructor
  · rintro ⟨_, hk, rfl, rfl⟩
    exact ⟨hk, rfl⟩
  · rintro ⟨hk, rfl⟩
    exact ⟨k, hk, rfl, rfl⟩

theorem sum_of_mem_groups [AddCommMonoid M] {key : α → κ} {l : List α} {k : κ}
    {g : List α} (h : (k, g) ∈ groups key l) (f : α → M) :
    (g.map f).sum = sumOn l key k f := by
  rw [sumOn_eq_sum_filter, (mem_groups.1 h).2]

/-- A dictionary of groups answers a key with its group's figure. -/
theorem fromEntries_groups {β : Type} (key : α → κ) (l : List α)
    (f : κ × List α → β) (k : κ) :
    fromEntries ((groups key l).map fun g => (g.1, f g)) k =
      if k ∈ l.map key then
        some (f (k, l.filter fun a => decide (key a = k)))
      else none := by
  cases h : fromEntries ((groups key l).map fun g => (g.1, f g)) k with
  | some x =>
      obtain ⟨⟨k', g⟩, hg, heq⟩ := List.mem_map.1 (mem_of_fromEntries h)
      obtain ⟨rfl, rfl⟩ := Prod.mk.inj heq
      obtain ⟨⟨a, ha, rfl⟩, rfl⟩ := mem_groups.1 hg
      rw [if_pos (List.mem_map_of_mem ha)]
  | none =>
      rw [fromEntries_eq_none, List.map_map] at h
      rw [if_neg fun hk => h ?_]
      obtain ⟨a, ha, rfl⟩ := List.mem_map.1 hk
      exact List.mem_map.2 ⟨_, mem_groups.2 ⟨⟨a, ha, rfl⟩, rfl⟩, rfl⟩

end Groups

end Kit
