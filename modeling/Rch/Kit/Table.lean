import Mathlib.Algebra.BigOperators.Group.List.Basic
import Mathlib.Data.Finset.Card
import Mathlib.Data.List.Nodup
import Mathlib.Logic.Function.Basic
import Mathlib.Tactic.Abel

/-!
# Tables with a primary key

A table is the list of its rows, each under its key, and no key twice. The
order is the order of insertion, so a reader that sorts does so explicitly.
Uniqueness is a field of the structure: an insert that would break it has no
result, which is how a database refuses it, and an update rewrites rows in
place without touching their keys.

The sums matter more than the lookups. A total over a table moves by exactly
the inserted row's share, or by the difference an update makes at its key, and
a report that is a fold over rows is reasoned about through those two rules.
-/

namespace Kit

/-- Rows under distinct keys, in the order they were inserted. -/
structure Table (κ ρ : Type*) where
  rows : List (κ × ρ)
  keys_nodup : (rows.map Prod.fst).Nodup

namespace Table

variable {κ ρ : Type*}

/-- The table with no rows. -/
def empty : Table κ ρ := ⟨[], List.nodup_nil⟩

instance : Inhabited (Table κ ρ) := ⟨empty⟩

theorem ext {t u : Table κ ρ} (h : t.rows = u.rows) : t = u := by
  cases t
  cases u
  cases h
  rfl

theorem mem_keys {l : List (κ × ρ)} {k : κ} {r : ρ} (h : (k, r) ∈ l) :
    k ∈ l.map Prod.fst := List.mem_map.2 ⟨_, h, rfl⟩

def update (t : Table κ ρ) (f : κ → ρ → ρ) : Table κ ρ where
  rows := t.rows.map fun p => (p.1, f p.1 p.2)
  keys_nodup := by
    rw [List.map_map]
    exact t.keys_nodup

section Lookup

variable [DecidableEq κ]

def get? (t : Table κ ρ) (k : κ) : Option ρ := t.rows.lookup k

def modify (t : Table κ ρ) (k : κ) (f : ρ → ρ) : Table κ ρ :=
  t.update fun k' r => if k' = k then f r else r

/-- A new row at the end, refused when the key is taken. -/
def insert? (t : Table κ ρ) (k : κ) (r : ρ) : Option (Table κ ρ) :=
  if h : k ∈ t.rows.map Prod.fst then none
  else some ⟨t.rows ++ [(k, r)], by
    rw [List.map_append, List.nodup_append_comm]
    exact List.nodup_cons.2 ⟨h, t.keys_nodup⟩⟩

theorem lookup_eq_none {l : List (κ × ρ)} {k : κ} :
    l.lookup k = none ↔ k ∉ l.map Prod.fst := by
  induction l with
  | nil => simp
  | cons p l ih =>
      rw [List.lookup_cons, List.map_cons, List.mem_cons, not_or]
      by_cases hk : k = p.1
      · simp [hk]
      · rw [beq_eq_false_iff_ne.2 hk]
        exact ih.trans (and_iff_right hk).symm

theorem lookup_mem {l : List (κ × ρ)} {k : κ} {r : ρ}
    (h : l.lookup k = some r) : (k, r) ∈ l := by
  induction l with
  | nil => cases h
  | cons p l ih =>
      rw [List.lookup_cons] at h
      by_cases hk : k = p.1
      · simp only [hk, beq_self_eq_true] at h
        cases h
        rw [hk]
        exact List.mem_cons_self
      · simp only [beq_eq_false_iff_ne.2 hk] at h
        exact List.mem_cons_of_mem _ (ih h)

theorem mem_lookup {l : List (κ × ρ)} (hn : (l.map Prod.fst).Nodup)
    {k : κ} {r : ρ} (h : (k, r) ∈ l) : l.lookup k = some r := by
  induction l with
  | nil => cases h
  | cons p l ih =>
      rw [List.map_cons, List.nodup_cons] at hn
      rw [List.lookup_cons]
      cases h with
      | head => simp
      | tail _ hl =>
          have hk : k ≠ p.1 := by
            rintro rfl
            exact hn.1 (mem_keys hl)
          rw [beq_eq_false_iff_ne.2 hk]
          exact ih hn.2 hl

theorem get?_eq_some {t : Table κ ρ} {k : κ} {r : ρ} :
    t.get? k = some r ↔ (k, r) ∈ t.rows :=
  ⟨lookup_mem, mem_lookup t.keys_nodup⟩

theorem get?_eq_none {t : Table κ ρ} {k : κ} :
    t.get? k = none ↔ k ∉ t.rows.map Prod.fst := lookup_eq_none

@[simp] theorem get?_empty (k : κ) : (empty : Table κ ρ).get? k = none := rfl

@[simp] theorem get?_update (t : Table κ ρ) (f : κ → ρ → ρ) (k : κ) :
    (t.update f).get? k = (t.get? k).map (f k) := by
  change (t.rows.map fun p => (p.1, f p.1 p.2)).lookup k =
    (t.rows.lookup k).map (f k)
  induction t.rows with
  | nil => rfl
  | cons p l ih =>
      rw [List.map_cons, List.lookup_cons, List.lookup_cons]
      by_cases hk : k = p.1
      · simp only [hk, beq_self_eq_true, Option.map_some]
      · rw [beq_eq_false_iff_ne.2 hk]
        exact ih

theorem get?_modify (t : Table κ ρ) (k : κ) (f : ρ → ρ) (k' : κ) :
    (t.modify k f).get? k' =
      if k' = k then (t.get? k').map f else t.get? k' := by
  rw [modify, get?_update]
  by_cases hk : k' = k
  · simp [hk]
  · simp [hk]

@[simp] theorem get?_modify_self (t : Table κ ρ) (k : κ) (f : ρ → ρ) :
    (t.modify k f).get? k = (t.get? k).map f := by
  rw [get?_modify, if_pos rfl]

@[simp] theorem get?_modify_ne (t : Table κ ρ) {k k' : κ} (f : ρ → ρ)
    (h : k' ≠ k) : (t.modify k f).get? k' = t.get? k' := by
  rw [get?_modify, if_neg h]

theorem get?_modify_of_get? {t : Table κ ρ} {k : κ} {r : ρ}
    (h : t.get? k = some r) (f : ρ → ρ) (k' : κ) :
    (t.modify k f).get? k' = if k' = k then some (f r) else t.get? k' := by
  rw [get?_modify]
  split
  · next hk => rw [hk, h, Option.map_some]
  · rfl

/-- A rewrite removes no row. -/
@[simp] theorem isSome_modify (t : Table κ ρ) (k : κ) (f : ρ → ρ) (k' : κ) :
    ((t.modify k f).get? k').isSome = (t.get? k').isSome := by
  rw [get?_modify]
  split
  · next h => rw [Option.isSome_map, h]
  · rfl

/-- Only what a rewrite does to the row under the key matters. -/
theorem modify_congr {t : Table κ ρ} {k : κ} {r : ρ} (h : t.get? k = some r)
    {f g : ρ → ρ} (hfg : f r = g r) : t.modify k f = t.modify k g := by
  apply ext
  apply List.map_congr_left
  intro p hp
  by_cases hk : p.1 = k
  · have hg : t.get? p.1 = some p.2 := get?_eq_some.2 hp
    have hr : p.2 = r := by
      rw [← hk, hg] at h
      exact Option.some.inj h
    simp only [hk, hr, hfg]
  · simp only [hk, if_false]

/-- Where there is no row there is nothing to rewrite. -/
theorem modify_of_free {t : Table κ ρ} {k : κ} (h : t.get? k = none)
    (f : ρ → ρ) : t.modify k f = t := by
  apply ext
  refine (List.map_congr_left fun p hp => ?_).trans (List.map_id _)
  have hk : p.1 ≠ k := by
    rintro rfl
    exact get?_eq_none.1 h (List.mem_map_of_mem hp)
  simp only [if_neg hk, id]

@[simp] theorem modify_self (t : Table κ ρ) (k : κ) :
    t.modify k (fun r => r) = t := by
  apply ext
  refine (List.map_congr_left fun p _ => ?_).trans (List.map_id _)
  simp only [ite_self, id]

theorem modify_modify (t : Table κ ρ) (k : κ) (f g : ρ → ρ) :
    (t.modify k f).modify k g = t.modify k fun r => g (f r) := by
  apply ext
  change (t.rows.map _).map _ = t.rows.map _
  rw [List.map_map]
  apply List.map_congr_left
  intro p _
  by_cases hk : p.1 = k
  · simp only [Function.comp, if_pos hk]
  · simp only [Function.comp, if_neg hk]

/-- What an accepted insert did: the key was free and the row went last. -/
theorem insert?_eq_some {t t' : Table κ ρ} {k : κ} {r : ρ}
    (h : t.insert? k r = some t') :
    t.get? k = none ∧ t'.rows = t.rows ++ [(k, r)] := by
  unfold insert? at h
  split at h
  · cases h
  · next hk =>
      cases h
      exact ⟨get?_eq_none.2 hk, rfl⟩

theorem insert?_of_taken {t : Table κ ρ} {k : κ} {r' : ρ}
    (h : t.get? k = some r') (r : ρ) : t.insert? k r = none :=
  dif_pos (List.mem_map.2 ⟨_, get?_eq_some.1 h, rfl⟩)

theorem insert?_of_free {t : Table κ ρ} {k : κ} (h : t.get? k = none) (r : ρ) :
    ∃ t', t.insert? k r = some t' := by
  unfold insert?
  rw [dif_neg (get?_eq_none.1 h)]
  exact ⟨_, rfl⟩

theorem get?_insert {t t' : Table κ ρ} {k : κ} {r : ρ}
    (h : t.insert? k r = some t') (k' : κ) :
    t'.get? k' = if k' = k then some r else t.get? k' := by
  obtain ⟨hfree, hrows⟩ := insert?_eq_some h
  by_cases hk : k' = k
  · rw [if_pos hk, hk, get?_eq_some, hrows]
    exact List.mem_append_right _ List.mem_cons_self
  · rw [if_neg hk]
    cases hg : t.get? k' with
    | some r' =>
        rw [get?_eq_some, hrows]
        exact List.mem_append_left _ (get?_eq_some.1 hg)
    | none =>
        rw [get?_eq_none] at hg ⊢
        rw [hrows]
        simpa [hk] using hg

/-- An insert that leaves the table alone where it is refused, under a key that
is free. -/
theorem get?_insert_of_free {t : Table κ ρ} {k : κ} (h : t.get? k = none)
    (r : ρ) (k' : κ) : ((t.insert? k r).getD t).get? k' =
      if k' = k then some r else t.get? k' := by
  obtain ⟨t', ht'⟩ := insert?_of_free h r
  rw [ht']
  exact get?_insert ht' k'

theorem mem_insert {t t' : Table κ ρ} {k : κ} {r : ρ}
    (h : t.insert? k r = some t') {k' : κ} {r' : ρ} :
    (k', r') ∈ t'.rows ↔ (k', r') ∈ t.rows ∨ (k' = k ∧ r' = r) := by
  rw [(insert?_eq_some h).2, List.mem_append, List.mem_singleton,
    Prod.mk.injEq]

/-- Rows that fail a test before and after a rewrite are no news to those that
pass it. -/
theorem filter_modify {t : Table κ ρ} {k : κ} {f : ρ → ρ} {q : ρ → Bool}
    (h : ∀ r, t.get? k = some r → q r = false ∧ q (f r) = false) :
    ((t.modify k f).rows.map Prod.snd).filter q =
      (t.rows.map Prod.snd).filter q := by
  have hrows : ∀ p ∈ t.rows, p.1 = k → q p.2 = false ∧ q (f p.2) = false :=
    fun p hp hk => h p.2 (get?_eq_some.2 (hk ▸ hp))
  unfold modify update
  dsimp only
  revert hrows
  induction t.rows with
  | nil => exact fun _ => rfl
  | cons p l ih =>
      intro hrows
      rw [List.forall_mem_cons] at hrows
      simp only [List.map_cons, List.filter_cons, ih hrows.2]
      split
      · next hk =>
          obtain ⟨hold, hnew⟩ := hrows.1 hk
          simp only [hold, hnew, Bool.false_eq_true, if_false]
      · rfl

/-- Each of these rows in turn, a refused one left out. -/
def insertAll (t : Table κ ρ) (l : List (κ × ρ)) : Table κ ρ :=
  l.foldl (fun t r => (t.insert? r.1 r.2).getD t) t

theorem insertAll_append (t : Table κ ρ) (l l' : List (κ × ρ)) :
    t.insertAll (l ++ l') = (t.insertAll l).insertAll l' := List.foldl_append

/-- Rows under keys that are free and all different are all there. -/
theorem get?_insertAll {t : Table κ ρ} {l : List (κ × ρ)}
    (hn : (l.map Prod.fst).Nodup) (hfree : ∀ r ∈ l, t.get? r.1 = none) (k : κ) :
    (t.insertAll l).get? k = (l.lookup k).or (t.get? k) := by
  induction l generalizing t with
  | nil => rfl
  | cons r l ih =>
      rw [List.map_cons, List.nodup_cons] at hn
      rw [List.forall_mem_cons] at hfree
      have hstep := get?_insert_of_free hfree.1 r.2
      have hrest : ∀ r' ∈ l, ((t.insert? r.1 r.2).getD t).get? r'.1 = none := by
        intro r' hr'
        have hne : r'.1 ≠ r.1 := fun h => hn.1 (h ▸ List.mem_map_of_mem hr')
        rw [hstep, if_neg hne]
        exact hfree.2 r' hr'
      change (((t.insert? r.1 r.2).getD t).insertAll l).get? k = _
      rw [ih hn.2 hrest, hstep, List.lookup_cons]
      by_cases hk : k = r.1
      · subst hk
        have hnone : l.lookup r.1 = none := by
          rw [lookup_eq_none]
          exact hn.1
        rw [hnone, if_pos rfl, beq_self_eq_true]
        rfl
      · rw [if_neg hk, beq_eq_false_iff_ne.2 hk]

def restrict (t : Table κ ρ) (p : κ → Bool) : Table κ ρ where
  rows := t.rows.filter fun r => p r.1
  keys_nodup :=
    List.Nodup.sublist (List.Sublist.map _ List.filter_sublist) t.keys_nodup

@[simp] theorem get?_restrict (t : Table κ ρ) (p : κ → Bool) (k : κ) :
    (t.restrict p).get? k = if p k then t.get? k else none := by
  by_cases hk : p k = true
  · rw [if_pos hk]
    cases hg : t.get? k with
    | some r =>
        rw [get?_eq_some] at hg ⊢
        exact List.mem_filter.2 ⟨hg, hk⟩
    | none =>
        rw [get?_eq_none] at hg ⊢
        exact fun h => hg (List.Sublist.mem h
          (List.Sublist.map _ List.filter_sublist))
  · rw [if_neg hk, get?_eq_none]
    intro h
    obtain ⟨r, hr, rfl⟩ := List.mem_map.1 h
    exact hk (List.mem_filter.1 hr).2

def filter (t : Table κ ρ) (p : κ → ρ → Bool) : Table κ ρ where
  rows := t.rows.filter fun r => p r.1 r.2
  keys_nodup :=
    List.Nodup.sublist (List.Sublist.map _ List.filter_sublist) t.keys_nodup

theorem get?_filter (t : Table κ ρ) (p : κ → ρ → Bool) (k : κ) :
    (t.filter p).get? k = (t.get? k).filter (p k) := by
  refine Option.ext fun r => ?_
  rw [Option.filter_eq_some_iff, get?_eq_some, get?_eq_some]
  exact List.mem_filter

/-- The row under a key, in place where there is one and at the end where there
is none. -/
def set (t : Table κ ρ) (k : κ) (r : ρ) : Table κ ρ :=
  (t.insert? k r).getD (t.modify k fun _ => r)

theorem get?_set (t : Table κ ρ) (k : κ) (r : ρ) (k' : κ) :
    (t.set k r).get? k' = if k' = k then some r else t.get? k' := by
  unfold set
  cases h : t.get? k with
  | none =>
      obtain ⟨t', ht⟩ := insert?_of_free h r
      rw [ht, Option.getD_some, get?_insert ht]
  | some r₀ =>
      rw [insert?_of_taken h, Option.getD_none, get?_modify]
      split
      · next hk => rw [hk, h, Option.map_some]
      · rfl

theorem length_set_le (t : Table κ ρ) (k : κ) (r : ρ) :
    (t.set k r).rows.length ≤ t.rows.length + 1 := by
  unfold set
  cases h : t.insert? k r with
  | none =>
      rw [Option.getD_none]
      unfold modify update
      rw [List.length_map]
      exact Nat.le_succ _
  | some t' =>
      rw [Option.getD_some, (insert?_eq_some h).2, List.length_append,
        List.length_singleton]

/-- The table without its oldest row. -/
def dropOldest (t : Table κ ρ) : Table κ ρ where
  rows := t.rows.tail
  keys_nodup := by
    rw [List.map_tail]
    exact t.keys_nodup.tail

/-- A table with its keys among finitely many has no more rows than those. -/
theorem length_le_card {t : Table κ ρ} {keys : Finset κ}
    (h : ∀ k, (t.get? k).isSome → k ∈ keys) : t.rows.length ≤ keys.card := by
  rw [← List.length_map (f := Prod.fst), ← List.toFinset_card_of_nodup t.keys_nodup]
  refine Finset.card_le_card fun k hk => h k ?_
  rw [List.mem_toFinset] at hk
  cases hg : t.get? k with
  | some r => rfl
  | none => exact absurd hk (get?_eq_none.1 hg)

/-! ## A property of every row -/

/-- Every row of the table is as `P` says. -/
def All (t : Table κ ρ) (P : κ → ρ → Prop) : Prop :=
  ∀ k r, t.get? k = some r → P k r

theorem all_empty (P : κ → ρ → Prop) : (empty : Table κ ρ).All P :=
  fun k r h => by simp at h

theorem All.insert {t t' : Table κ ρ} {P : κ → ρ → Prop} {k : κ} {r : ρ}
    (h : t.All P) (hi : t.insert? k r = some t') (hr : P k r) : t'.All P := by
  intro k' r' hk'
  rw [get?_insert hi] at hk'
  split at hk'
  · next hk =>
      cases hk'
      exact hk ▸ hr
  · exact h k' r' hk'

/-- A rewrite has to be looked at where it writes. -/
theorem All.modify {t : Table κ ρ} {P : κ → ρ → Prop} {k : κ} {f : ρ → ρ}
    (h : t.All P) (hf : ∀ r, t.get? k = some r → P k r → P k (f r)) :
    (t.modify k f).All P := by
  intro k' r' hk'
  by_cases hk : k' = k
  · subst hk
    rw [get?_modify_self, Option.map_eq_some_iff] at hk'
    obtain ⟨r, hr, rfl⟩ := hk'
    exact hf r hr (h k' r hr)
  · rw [get?_modify_ne _ _ hk] at hk'
    exact h k' r' hk'

end Lookup

/-! ## One part of every row -/

section View

variable {σ : Type*}

def view (t : Table κ ρ) (f : ρ → σ) : List (κ × σ) :=
  t.rows.map fun p => (p.1, f p.2)

theorem view_update {t : Table κ ρ} {u : κ → ρ → ρ} {f : ρ → σ}
    (h : ∀ k r, f (u k r) = f r) : (t.update u).view f = t.view f := by
  unfold view update
  rw [List.map_map]
  apply List.map_congr_left
  intro p _
  simp only [Function.comp_apply, h]

theorem view_modify [DecidableEq κ] {t : Table κ ρ} {k : κ} {u : ρ → ρ}
    {f : ρ → σ} (h : ∀ r, f (u r) = f r) :
    (t.modify k u).view f = t.view f := by
  apply view_update
  intro k' r
  split
  · exact h r
  · rfl

/-- A rewrite has to be looked at where it writes. -/
theorem view_modify_of_get? [DecidableEq κ] {t : Table κ ρ} {k : κ} {r : ρ}
    (hr : t.get? k = some r) {u : ρ → ρ} {f : ρ → σ} (h : f (u r) = f r) :
    (t.modify k u).view f = t.view f := by
  unfold view modify update
  rw [List.map_map]
  apply List.map_congr_left
  intro p hp
  by_cases hk : p.1 = k
  · have hg : t.get? p.1 = some p.2 := get?_eq_some.2 hp
    rw [hk, hr] at hg
    cases hg
    simp only [Function.comp_apply, hk, if_true, h]
  · simp only [Function.comp_apply, hk, if_false]

theorem lookup_view [DecidableEq κ] (t : Table κ ρ) (f : ρ → σ) (k : κ) :
    (t.view f).lookup k = (t.get? k).map f := by
  unfold view get?
  induction t.rows with
  | nil => rfl
  | cons p l ih =>
      rw [List.map_cons, List.lookup_cons, List.lookup_cons]
      by_cases hk : k = p.1
      · simp only [hk, beq_self_eq_true, Option.map_some]
      · rw [beq_eq_false_iff_ne.2 hk]
        exact ih

def mapRows (t : Table κ ρ) (f : ρ → σ) : Table κ σ where
  rows := t.view f
  keys_nodup := by
    unfold view
    rw [List.map_map]
    exact t.keys_nodup

theorem get?_mapRows [DecidableEq κ] (t : Table κ ρ) (f : ρ → σ) (k : κ) :
    (t.mapRows f).get? k = (t.get? k).map f := lookup_view t f k

theorem mapRows_modify [DecidableEq κ] (t : Table κ ρ) {f : ρ → σ} {g : ρ → ρ}
    {u : σ → σ} (h : ∀ r, f (g r) = u (f r)) (k : κ) :
    (t.modify k g).mapRows f = (t.mapRows f).modify k u := by
  refine ext ?_
  unfold modify update mapRows view
  dsimp only
  rw [List.map_map, List.map_map]
  refine List.map_congr_left fun p _ => Prod.ext rfl ?_
  dsimp only [Function.comp_apply]
  rw [apply_ite f, h]

theorem view_insert [DecidableEq κ] {t t' : Table κ ρ} {k : κ} {r : ρ}
    (h : t.insert? k r = some t') (f : ρ → σ) :
    t'.view f = t.view f ++ [(k, f r)] := by
  unfold view
  rw [(insert?_eq_some h).2, List.map_append]
  rfl

theorem mem_view {t : Table κ ρ} {f : ρ → σ} {k : κ} {x : σ} :
    (k, x) ∈ t.view f ↔ ∃ r, (k, r) ∈ t.rows ∧ f r = x := by
  simp [view]

end View

/-! ## A table as a function -/

section Look

variable {σ : Type*} [DecidableEq κ]

def look (t : Table κ ρ) (f : ρ → σ) (k : κ) : Option σ := (t.get? k).map f

theorem look_empty (f : ρ → σ) (k : κ) :
    (empty : Table κ ρ).look f k = none := rfl

theorem look_of_get? {t : Table κ ρ} {k : κ} {r : ρ} (h : t.get? k = some r)
    (f : ρ → σ) : t.look f k = some (f r) := by
  rw [look, h, Option.map_some]

theorem look_eq_none {t : Table κ ρ} {k : κ} {f : ρ → σ} :
    t.look f k = none ↔ t.get? k = none := Option.map_eq_none_iff

theorem look_eq_some {t : Table κ ρ} {k : κ} {f : ρ → σ} {x : σ} :
    t.look f k = some x ↔ ∃ r, t.get? k = some r ∧ f r = x :=
  Option.map_eq_some_iff

theorem look_of_view {t t' : Table κ ρ} {f : ρ → σ}
    (h : t'.view f = t.view f) : t'.look f = t.look f := by
  funext k
  rw [look, look, ← lookup_view, ← lookup_view, h]

theorem look_insert {t t' : Table κ ρ} {k : κ} {r : ρ}
    (h : t.insert? k r = some t') (f : ρ → σ) :
    t'.look f = Function.update (t.look f) k (some (f r)) := by
  funext k'
  rw [look, get?_insert h]
  by_cases hk : k' = k
  · subst hk
    rw [if_pos rfl, Function.update_self, Option.map_some]
  · rw [if_neg hk, Function.update_of_ne hk, look]

theorem look_modify {t : Table κ ρ} {k : κ} {r : ρ} (h : t.get? k = some r)
    (u : ρ → ρ) (f : ρ → σ) :
    (t.modify k u).look f = Function.update (t.look f) k (some (f (u r))) := by
  funext k'
  rw [look]
  by_cases hk : k' = k
  · subst hk
    rw [get?_modify_self, h, Function.update_self, Option.map_some,
      Option.map_some]
  · rw [get?_modify_ne _ _ hk, Function.update_of_ne hk, look]

end Look

/-! ## The keys -/

def keys (t : Table κ ρ) : List κ := t.rows.map Prod.fst

@[simp] theorem keys_update (t : Table κ ρ) (f : κ → ρ → ρ) :
    (t.update f).keys = t.keys := by
  unfold keys update
  rw [List.map_map]
  rfl

@[simp] theorem keys_modify [DecidableEq κ] (t : Table κ ρ) (k : κ)
    (f : ρ → ρ) : (t.modify k f).keys = t.keys := keys_update t _

theorem keys_insert [DecidableEq κ] {t t' : Table κ ρ} {k : κ} {r : ρ}
    (h : t.insert? k r = some t') : t'.keys = t.keys ++ [k] := by
  unfold keys
  rw [(insert?_eq_some h).2, List.map_append]
  rfl

theorem mem_keys_of_get? [DecidableEq κ] {t : Table κ ρ} {k : κ} {r : ρ}
    (h : t.get? k = some r) : k ∈ t.keys := mem_keys (get?_eq_some.1 h)

/-! ## Totals -/

section Total

variable {M : Type*} [AddCommMonoid M]

def total (t : Table κ ρ) (f : κ → ρ → M) : M :=
  (t.rows.map fun p => f p.1 p.2).sum

theorem total_congr {t : Table κ ρ} {f g : κ → ρ → M}
    (h : ∀ k r, (k, r) ∈ t.rows → f k r = g k r) : t.total f = t.total g := by
  unfold total
  rw [List.map_congr_left fun p hp => h p.1 p.2 hp]

theorem total_add (t : Table κ ρ) (f g : κ → ρ → M) :
    t.total (fun k r => f k r + g k r) = t.total f + t.total g := by
  unfold total
  exact List.sum_map_add

theorem total_zero (t : Table κ ρ) : t.total (fun _ _ => (0 : M)) = 0 := by
  unfold total
  simp

theorem total_update (t : Table κ ρ) (u : κ → ρ → ρ) (f : κ → ρ → M) :
    (t.update u).total f = t.total fun k r => f k (u k r) := by
  unfold total update
  rw [List.map_map]
  rfl

theorem total_eq_zero {t : Table κ ρ} {f : κ → ρ → M}
    (h : ∀ k r, (k, r) ∈ t.rows → f k r = 0) : t.total f = 0 := by
  rw [total_congr h, total_zero]

theorem total_neg {G : Type*} [AddCommGroup G] (t : Table κ ρ)
    (f : κ → ρ → G) : t.total (fun k r => -f k r) = -t.total f := by
  rw [eq_neg_iff_add_eq_zero, ← total_add]
  exact total_eq_zero fun k r _ => neg_add_cancel (f k r)

theorem total_filter (t : Table κ ρ) (p : ρ → Bool) (f : κ → ρ → M) :
    ((t.rows.filter fun x => p x.2).map fun x => f x.1 x.2).sum =
      t.total fun k r => if p r then f k r else 0 := by
  unfold total
  induction t.rows with
  | nil => rfl
  | cons x l ih =>
      rw [List.filter_cons, List.map_cons, List.sum_cons, ← ih]
      by_cases hp : p x.2 = true
      · simp only [hp, if_true, List.map_cons, List.sum_cons]
      · simp only [hp, zero_add, Bool.false_eq_true, if_false]

variable [DecidableEq κ]

/-- Tables that agree on the rows that pass a test have one total over
them. -/
theorem total_filter_agree {t t' : Table κ ρ} {p : ρ → Bool}
    (h : ∀ k r, p r = true → (t.get? k = some r ↔ t'.get? k = some r))
    (f : κ → ρ → M) :
    (t.total fun k r => if p r then f k r else 0) =
      t'.total fun k r => if p r then f k r else 0 := by
  rw [← total_filter, ← total_filter]
  refine List.Perm.sum_eq (List.Perm.map _ ?_)
  refine (List.perm_ext_iff_of_nodup (t.keys_nodup.of_map.filter _)
    (t'.keys_nodup.of_map.filter _)).2 ?_
  rintro ⟨k, r⟩
  simp only [List.mem_filter]
  constructor
  · rintro ⟨hmem, hp⟩
    exact ⟨get?_eq_some.1 ((h k r hp).1 (get?_eq_some.2 hmem)), hp⟩
  · rintro ⟨hmem, hp⟩
    exact ⟨get?_eq_some.1 ((h k r hp).2 (get?_eq_some.2 hmem)), hp⟩

theorem total_insert {t t' : Table κ ρ} {k : κ} {r : ρ}
    (h : t.insert? k r = some t') (f : κ → ρ → M) :
    t'.total f = t.total f + f k r := by
  unfold total
  rw [(insert?_eq_some h).2, List.map_append, List.sum_append]
  simp

/-- A figure that is zero off one key sums to its value at that key. -/
theorem total_single {t : Table κ ρ} {k : κ} {r : ρ} (hk : t.get? k = some r)
    {f : κ → ρ → M} (hf : ∀ k' r', k' ≠ k → f k' r' = 0) :
    t.total f = f k r := by
  have hmem := get?_eq_some.1 hk
  have hn := t.keys_nodup
  unfold total
  clear hk
  revert hmem hn
  induction t.rows with
  | nil => intro hmem; cases hmem
  | cons p l ih =>
      intro hmem hn
      rw [List.map_cons, List.nodup_cons] at hn
      rw [List.map_cons, List.sum_cons]
      cases hmem with
      | head =>
          have hrest : (l.map fun q => f q.1 q.2).sum = 0 := by
            apply List.sum_eq_zero
            intro x hx
            obtain ⟨q, hq, rfl⟩ := List.mem_map.1 hx
            apply hf
            rintro rfl
            exact hn.1 (mem_keys hq)
          rw [hrest, add_zero]
      | tail _ hl =>
          have hne : p.1 ≠ k := by
            rintro rfl
            exact hn.1 (mem_keys hl)
          rw [hf _ _ hne, zero_add]
          exact ih hl hn.2

/-- Two figures that agree off one key: trade the one's value there for the
other's. -/
theorem total_off {t : Table κ ρ} {k : κ} {r : ρ} (hk : t.get? k = some r)
    {f g : κ → ρ → M} (hfg : ∀ k' r', k' ≠ k → f k' r' = g k' r') :
    t.total f + g k r = t.total g + f k r := by
  have hat : ∀ c : M, t.total (fun k' _ => if k' = k then c else 0) = c := by
    intro c
    rw [total_single hk fun k' r' h => if_neg h, if_pos rfl]
  rw [← hat (g k r), ← total_add, ← hat (f k r), ← total_add]
  apply total_congr
  intro k' r' hmem
  by_cases h : k' = k
  · subst h
    have hr : r' = r := Option.some.inj ((get?_eq_some.2 hmem).symm.trans hk)
    subst hr
    rw [if_pos rfl, if_pos rfl, add_comm]
  · rw [if_neg h, if_neg h, hfg k' r' h]

/-- A total after rewriting one row: trade the old figure for the new one. -/
theorem total_modify {t : Table κ ρ} {k : κ} {r : ρ} (hk : t.get? k = some r)
    (g : ρ → ρ) (f : κ → ρ → M) :
    (t.modify k g).total f + f k r = t.total f + f k (g r) := by
  rw [modify, total_update]
  have hnew : t.total (fun k' r' => if k' = k then f k (g r) else 0)
      = f k (g r) := by
    rw [total_single hk fun k' r' h => if_neg h, if_pos rfl]
  have hold : t.total (fun k' r' => if k' = k then f k r else 0) = f k r := by
    rw [total_single hk fun k' r' h => if_neg h, if_pos rfl]
  calc t.total (fun k' r' => f k' (if k' = k then g r' else r')) + f k r
      = t.total (fun k' r' => f k' (if k' = k then g r' else r')
          + if k' = k then f k r else 0) := by rw [total_add, hold]
    _ = t.total (fun k' r' => f k' r'
          + if k' = k then f k (g r) else 0) := by
        apply total_congr
        intro k' r' hmem
        by_cases h : k' = k
        · subst h
          have : r' = r := by
            have := hk.symm.trans (get?_eq_some.2 hmem)
            exact (Option.some.inj this).symm
          subst this
          simp [add_comm]
        · simp [h]
    _ = t.total f + f k (g r) := by rw [total_add, hnew]

end Total

end Table

end Kit
