import Mathlib.Algebra.Order.Group.MinMax
import Mathlib.Algebra.Order.BigOperators.Group.List
import Mathlib.Tactic.Abel

/-!
# Pouring an amount over a list

An amount is poured over a list of capacities in order: each takes what it
holds, or what is left of the amount, and passes the rest on. The shares are
what the capacities took. Poured from the front or emptied from the back, the
two meet at one point: `pour_reverse` says that pouring what is missing over
the reversed list takes exactly what the front pouring left.
-/

namespace Kit

variable {α : Type*} [AddCommGroup α] [LinearOrder α]

def pour : α → List α → List α
  | _, [] => []
  | x, c :: cs => min x c :: pour (x - min x c) cs

def spill : α → List α → α
  | x, [] => x
  | x, c :: cs => spill (x - min x c) cs

@[simp] theorem length_pour (x : α) (cs : List α) :
    (pour x cs).length = cs.length := by
  induction cs generalizing x with
  | nil => rfl
  | cons c cs ih => rw [pour, List.length_cons, List.length_cons, ih]

theorem pour_append (x : α) (as bs : List α) :
    pour x (as ++ bs) = pour x as ++ pour (spill x as) bs := by
  induction as generalizing x with
  | nil => rfl
  | cons a as ih =>
      rw [List.cons_append, pour, pour, ih, List.cons_append, spill]

/-- Nothing is lost: the shares and the spill are the amount. -/
theorem sum_pour (x : α) (cs : List α) :
    (pour x cs).sum + spill x cs = x := by
  induction cs generalizing x with
  | nil => exact zero_add x
  | cons c cs ih =>
      rw [pour, spill, List.sum_cons, add_assoc, ih]
      exact add_sub_cancel _ _

theorem pour_zero {cs : List α} (hcs : ∀ c ∈ cs, 0 ≤ c) :
    pour 0 cs = List.replicate cs.length 0 := by
  induction cs with
  | nil => rfl
  | cons c cs ih =>
      rw [List.forall_mem_cons] at hcs
      rw [pour, min_eq_left hcs.1, sub_zero, ih hcs.2]
      rfl

theorem spill_zero {cs : List α} (hcs : ∀ c ∈ cs, 0 ≤ c) :
    spill 0 cs = 0 := by
  induction cs with
  | nil => rfl
  | cons c cs ih =>
      rw [List.forall_mem_cons] at hcs
      rw [spill, min_eq_left hcs.1, sub_zero, ih hcs.2]

variable [IsOrderedAddMonoid α]

theorem pour_full {x : α} {cs : List α} (hcs : ∀ c ∈ cs, 0 ≤ c)
    (h : cs.sum ≤ x) : pour x cs = cs ∧ spill x cs = x - cs.sum := by
  induction cs generalizing x with
  | nil => exact ⟨rfl, (sub_zero x).symm⟩
  | cons c cs ih =>
      rw [List.forall_mem_cons] at hcs
      rw [List.sum_cons] at h
      have hc : min x c = c := by
        apply min_eq_right
        exact (le_add_of_nonneg_right (List.sum_nonneg hcs.2)).trans h
      obtain ⟨hp, hs⟩ := ih hcs.2 (le_sub_iff_add_le'.2 h)
      refine ⟨?_, ?_⟩
      · rw [pour, hc, hp]
      · rw [spill, hc, hs, List.sum_cons, sub_sub]

theorem spill_eq_zero {x : α} {cs : List α} (hcs : ∀ c ∈ cs, 0 ≤ c)
    (h₀ : 0 ≤ x) (h : x ≤ cs.sum) : spill x cs = 0 := by
  induction cs generalizing x with
  | nil => exact le_antisymm h h₀
  | cons c cs ih =>
      rw [List.forall_mem_cons] at hcs
      rw [List.sum_cons] at h
      rw [spill]
      rcases le_total x c with hxc | hcx
      · rw [min_eq_left hxc, sub_self, spill_zero hcs.2]
      · rw [min_eq_right hcx]
        exact ih hcs.2 (sub_nonneg.2 hcx) (sub_le_iff_le_add'.2 h)

theorem sum_pour_of_le {x : α} {cs : List α} (hcs : ∀ c ∈ cs, 0 ≤ c)
    (h₀ : 0 ≤ x) (h : x ≤ cs.sum) : (pour x cs).sum = x := by
  have := sum_pour x cs
  rwa [spill_eq_zero hcs h₀ h, add_zero] at this

/-- A share is no less than nothing and no more than its capacity. -/
theorem pour_bounds {x : α} {cs : List α} (h₀ : 0 ≤ x)
    (hcs : ∀ c ∈ cs, 0 ≤ c) {i : ℕ} {c s : α} (hc : cs[i]? = some c)
    (hs : (pour x cs)[i]? = some s) : 0 ≤ s ∧ s ≤ c := by
  induction cs generalizing x i with
  | nil => cases hc
  | cons a cs ih =>
      rw [List.forall_mem_cons] at hcs
      rw [pour] at hs
      cases i with
      | zero =>
          rw [List.getElem?_cons_zero, Option.some.injEq] at hc hs
          subst hc hs
          exact ⟨le_min h₀ hcs.1, min_le_right ..⟩
      | succ i =>
          rw [List.getElem?_cons_succ] at hc hs
          exact ih (sub_nonneg.2 (min_le_left ..)) hcs.2 hc hs

/-- Where the amount stops: all before it is full, and nothing after it is
touched. -/
theorem pour_split {x : α} {cs : List α} (hcs : ∀ c ∈ cs, 0 ≤ c) (h₀ : 0 < x)
    (h : x ≤ cs.sum) :
    ∃ as c bs t, cs = as ++ c :: bs ∧ 0 < t ∧ t ≤ c ∧
      pour x cs = as ++ t :: List.replicate bs.length 0 := by
  induction cs generalizing x with
  | nil => exact absurd h₀ (not_lt.2 h)
  | cons c cs ih =>
      rw [List.forall_mem_cons] at hcs
      rw [List.sum_cons] at h
      rw [pour]
      rcases le_or_gt x c with hxc | hcx
      · refine ⟨[], c, cs, x, rfl, h₀, hxc, ?_⟩
        rw [min_eq_left hxc, sub_self, pour_zero hcs.2]
        rfl
      · obtain ⟨as, d, bs, t, rfl, ht, htd, hp⟩ :=
          ih hcs.2 (sub_pos.2 hcx) (sub_le_iff_le_add'.2 h)
        refine ⟨c :: as, d, bs, t, rfl, ht, htd, ?_⟩
        rw [min_eq_right hcx.le, hp]
        rfl

/-- Emptied from the back by what a front pouring is short of, a list gives up
exactly what the front pouring did not reach. -/
theorem pour_reverse {x : α} {cs : List α} (hcs : ∀ c ∈ cs, 0 ≤ c)
    (h₀ : 0 ≤ x) (h : x ≤ cs.sum) :
    List.zipWith (· + ·) (pour x cs)
      (pour (cs.sum - x) cs.reverse).reverse = cs := by
  induction cs generalizing x with
  | nil => rfl
  | cons c cs ih =>
      have hall := hcs
      rw [List.forall_mem_cons] at hcs
      have hrev : ∀ a ∈ cs.reverse, 0 ≤ a := by
        intro a ha
        exact hcs.2 a (List.mem_reverse.1 ha)
      rw [List.sum_cons] at h ⊢
      rw [List.reverse_cons, pour_append, List.reverse_append]
      change List.zipWith (· + ·) (min x c :: pour (x - min x c) cs)
        (min (spill (c + cs.sum - x) cs.reverse) c ::
          (pour (c + cs.sum - x) cs.reverse).reverse) = c :: cs
      rw [List.zipWith_cons_cons]
      rcases le_total x c with hxc | hcx
      · -- the amount stops here: what is missing fills all that follows
        have hfull : cs.reverse.sum ≤ c + cs.sum - x := by
          rw [List.sum_reverse, add_sub_right_comm]
          exact le_add_of_nonneg_left (sub_nonneg.2 hxc)
        obtain ⟨hp, hs⟩ := pour_full hrev hfull
        have hleft : c + cs.sum - x - cs.sum = c - x := by abel
        rw [hp, hs, List.sum_reverse, hleft, List.reverse_reverse,
          min_eq_left hxc, sub_self, pour_zero hcs.2,
          min_eq_left (sub_le_self c h₀), add_sub_cancel]
        congr 1
        apply List.ext_getElem?
        intro i
        rw [List.getElem?_zipWith]
        cases hi : cs[i]? with
        | none => simp
        | some a =>
            have hlt : i < cs.length := (List.getElem?_eq_some_iff.1 hi).1
            simp [hlt]
      · -- the amount passes: what is missing is missing from what follows
        have hmiss : c + cs.sum - x = cs.sum - (x - c) := by abel
        have hin : 0 ≤ x - c := sub_nonneg.2 hcx
        have hle : x - c ≤ cs.sum := sub_le_iff_le_add'.2 h
        rw [hmiss, min_eq_right hcx, ih hcs.2 hin hle]
        rw [spill_eq_zero hrev (sub_nonneg.2 hle)]
        · rw [min_eq_left hcs.1, add_zero]
        · rw [List.sum_reverse]
          exact sub_le_self _ hin

/-- Poured in two goes, the second over what the first left room for. -/
theorem pour_pour {x y : α} {cs : List α} (hcs : ∀ c ∈ cs, 0 ≤ c)
    (hx : 0 ≤ x) (hy : 0 ≤ y) :
    pour (x + y) cs = List.zipWith (· + ·) (pour x cs)
      (pour y (List.zipWith (· - ·) cs (pour x cs))) := by
  induction cs generalizing x y with
  | nil => rfl
  | cons c cs ih =>
      rw [List.forall_mem_cons] at hcs
      rw [pour, pour, List.zipWith_cons_cons, pour, List.zipWith_cons_cons]
      rcases le_total x c with hxc | hcx
      · rw [min_eq_left hxc, sub_self, pour_zero hcs.2]
        have hroom : List.zipWith (· - ·) cs (List.replicate cs.length 0) = cs := by
          apply List.ext_getElem
          · simp
          · intro i h₁ h₂
            simp
        rw [hroom]
        have hmin : min (x + y) c = x + min y (c - x) := by
          rw [← min_add_add_left, add_sub_cancel]
        rw [hmin]
        congr 1
        have hrest : x + y - (x + min y (c - x)) = y - min y (c - x) := by abel
        rw [hrest]
        apply List.ext_getElem
        · simp
        · intro i h₁ h₂
          simp
      · rw [min_eq_right hcx, sub_self, min_eq_right hy, sub_zero, add_zero,
          min_eq_right (hcx.trans (le_add_of_nonneg_right hy)), add_sub_right_comm]
        congr 1
        exact ih hcs.2 (sub_nonneg.2 hcx) hy

end Kit
