import Mathlib.Algebra.BigOperators.Group.Finset.Basic
import Mathlib.Algebra.Order.BigOperators.Group.Finset
import Mathlib.Algebra.Order.Group.Defs
import Mathlib.Logic.Relation
import Mathlib.Tactic.Abel

/-!
# Shelves and promises

A store keeps a quantity of each thing, and promises parts of it to whoever
will come for them. What is promised and not yet collected is held back: it is
still on the shelf, and nobody else may have it.

Four things can happen. Stock moves, and where a movement takes some it leaves
enough for what is held. A promise is made, out of what is free. A promise is
collected, and its share leaves the shelf with it. A promise is withdrawn, and
nothing moves. `Safe` says every promise can still be kept, and no sequence of
the four ever breaks it.
-/

namespace Kit

/-- What stands on each of the shelves `κ`, and the share of it each of the
promises `ι` in force has. -/
structure Shelf (κ ι M : Type*) where
  onHand : κ → M
  promises : Finset ι
  share : ι → κ → M

namespace Shelf

variable {κ ι M : Type*} [AddCommGroup M]

/-- What is promised of a shelf, over every promise in force. -/
def held (s : Shelf κ ι M) (k : κ) : M := ∑ i ∈ s.promises, s.share i k

def free (s : Shelf κ ι M) (k : κ) : M := s.onHand k - s.held k

/-- Move stock: `d` of it onto each shelf, or off it where `d` is negative. -/
def post (s : Shelf κ ι M) (d : κ → M) : Shelf κ ι M :=
  { s with onHand := fun k => s.onHand k + d k }

section Operations

variable [DecidableEq ι]

def promise (s : Shelf κ ι M) (i : ι) (d : κ → M) : Shelf κ ι M :=
  { s with
    promises := insert i s.promises
    share := Function.update s.share i d }

def collect (s : Shelf κ ι M) (i : ι) : Shelf κ ι M :=
  { s with
    onHand := fun k => s.onHand k - s.share i k
    promises := s.promises.erase i }

def withdraw (s : Shelf κ ι M) (i : ι) : Shelf κ ι M :=
  { s with promises := s.promises.erase i }

omit [AddCommGroup M] in
theorem share_promise_self (s : Shelf κ ι M) (i : ι) (d : κ → M) :
    (s.promise i d).share i = d := by
  simp [promise]

omit [AddCommGroup M] in
theorem share_promise_ne (s : Shelf κ ι M) {i j : ι} (h : j ≠ i)
    (d : κ → M) : (s.promise i d).share j = s.share j := by
  simp [promise, h]

theorem held_promise {s : Shelf κ ι M} {i : ι} (hi : i ∉ s.promises)
    (d : κ → M) (k : κ) : (s.promise i d).held k = s.held k + d k := by
  have hrest : ∑ j ∈ s.promises, (s.promise i d).share j k = s.held k := by
    apply Finset.sum_congr rfl
    intro j hj
    rw [share_promise_ne]
    rintro rfl
    exact hi hj
  calc (s.promise i d).held k
      = (s.promise i d).share i k
          + ∑ j ∈ s.promises, (s.promise i d).share j k :=
        Finset.sum_insert hi
    _ = s.held k + d k := by rw [hrest, share_promise_self, add_comm]

theorem held_collect {s : Shelf κ ι M} {i : ι} (hi : i ∈ s.promises) (k : κ) :
    (s.collect i).held k = s.held k - s.share i k :=
  Finset.sum_erase_eq_sub hi

end Operations

/-! ## The promises stay kept -/

variable [LinearOrder M]

/-- No share is less than nothing, and every shelf covers what it promised. -/
structure Safe (s : Shelf κ ι M) : Prop where
  share_nonneg : ∀ i ∈ s.promises, ∀ k, 0 ≤ s.share i k
  held_le : ∀ k, s.held k ≤ s.onHand k

/-- What may happen next. -/
inductive Step [DecidableEq ι] (s : Shelf κ ι M) : Shelf κ ι M → Prop
  | post {d : κ → M} (h : ∀ k, 0 ≤ d k ∨ 0 ≤ (s.post d).free k) :
      Step s (s.post d)
  | promise {i : ι} {d : κ → M} (hi : i ∉ s.promises) (hd : ∀ k, 0 ≤ d k)
      (h : ∀ k, d k = 0 ∨ d k ≤ s.free k) : Step s (s.promise i d)
  | collect {i : ι} (hi : i ∈ s.promises) : Step s (s.collect i)
  | withdraw {i : ι} : Step s (s.withdraw i)

variable [IsOrderedAddMonoid M]

theorem held_nonneg {s : Shelf κ ι M} (h : s.Safe) (k : κ) : 0 ≤ s.held k :=
  Finset.sum_nonneg fun i hi => h.share_nonneg i hi k

/-- A safe shelf is never below nothing. -/
theorem Safe.onHand_nonneg {s : Shelf κ ι M} (h : s.Safe) (k : κ) :
    0 ≤ s.onHand k := (held_nonneg h k).trans (h.held_le k)

variable [DecidableEq ι]

theorem held_withdraw_le {s : Shelf κ ι M} (h : s.Safe) (i : ι) (k : κ) :
    (s.withdraw i).held k ≤ s.held k :=
  Finset.sum_le_sum_of_subset_of_nonneg (Finset.erase_subset i s.promises)
    fun j hj _ => h.share_nonneg j hj k

/-- Whatever happens, every promise can still be kept. -/
theorem Step.safe {s s' : Shelf κ ι M} (hs : Step s s') (h : s.Safe) :
    s'.Safe := by
  cases hs with
  | post hd =>
      refine ⟨h.share_nonneg, fun k => ?_⟩
      rcases hd k with hk | hk
      · exact (h.held_le k).trans (le_add_of_nonneg_right hk)
      · exact sub_nonneg.1 hk
  | @promise i d hi hd hc =>
      constructor
      · intro j hj k
        by_cases hji : j = i
        · subst hji
          rw [share_promise_self]
          exact hd k
        · rw [share_promise_ne s hji]
          exact h.share_nonneg j ((Finset.mem_insert.1 hj).resolve_left hji) k
      · intro k
        rw [held_promise hi]
        rcases hc k with hk | hk
        · rw [hk, add_zero]
          exact h.held_le k
        · rw [add_comm]
          exact le_sub_iff_add_le.1 hk
  | @collect i hi =>
      refine ⟨fun j hj => h.share_nonneg j (Finset.mem_of_mem_erase hj),
        fun k => ?_⟩
      rw [held_collect hi]
      exact sub_le_sub_right (h.held_le k) _
  | @withdraw i =>
      exact ⟨fun j hj => h.share_nonneg j (Finset.mem_of_mem_erase hj),
        fun k => (held_withdraw_le h i k).trans (h.held_le k)⟩

theorem Safe.run {s s' : Shelf κ ι M} (h : s.Safe)
    (hs : Relation.ReflTransGen Step s s') : s'.Safe := by
  induction hs with
  | refl => exact h
  | tail _ hstep ih => exact hstep.safe ih

end Shelf

end Kit
