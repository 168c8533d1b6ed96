import Rch.Domain.Claims

/-!
# What releasing a claim gives back

The walk takes whole sources off the end until what is asked runs out inside
one of them. So what it released and what it left are the original cut at one
place, and the cut for `a + b` is the cut for `b` of what the cut for `a` left:
both are `pour_pour` over the reversed sources, sources of nothing dropped on
the way without the pouring noticing.
-/

namespace Rch

open Kit

variable {src : List ClaimSrc}

/-! ## Claims, key by key -/

theorem claimed_append (xs ys : List ClaimSrc) (k : String × ℕ) :
    claimed (xs ++ ys) k = claimed xs k + claimed ys k := sumOn_append ..

theorem claimed_cons (x : ClaimSrc) (xs : List ClaimSrc) (k : String × ℕ) :
    claimed (x :: xs) k = (if x.key = k then x.qty else 0) + claimed xs k :=
  sumOn_cons ..

theorem claimed_reverse (xs : List ClaimSrc) (k : String × ℕ) :
    claimed xs.reverse k = claimed xs k := sumOn_perm xs.reverse_perm ..

theorem claimed_cut (x : ClaimSrc) {q : Qty} (hq : 0 ≤ q) (k : String × ℕ) :
    claimed (x.cut q) k = if x.key = k then q else 0 := by
  unfold ClaimSrc.cut
  split
  · rw [claimed_cons]
    exact add_zero _
  · next hle =>
      rw [le_antisymm (not_lt.1 hle) hq]
      exact (ite_self _).symm

theorem sum_qty_nonneg (hsrc : ∀ x ∈ src, 0 < x.qty) :
    ∀ q ∈ src.map ClaimSrc.qty, 0 ≤ q := by
  intro q hq
  obtain ⟨x, hx, rfl⟩ := List.mem_map.1 hq
  exact (hsrc x hx).le

/-! ## One cut -/

/-- Claims given back off the end of a line's sources: every source after one
whole, part or all of that one, and none before it. -/
structure GivenOff (src : List ClaimSrc) (give : Qty)
    (released left : List ClaimSrc) : Prop where
  /-- what was asked is what was released -/
  total : claimTotal released = give
  /-- source by source the two add up to the original, the last one first -/
  split : (give = 0 ∧ released = [] ∧ left = src) ∨
    ∃ before x after took, src = before ++ x :: after ∧
      0 < took ∧ took ≤ x.qty ∧
      released = after.reverse ++ [{ x with qty := took }] ∧
      left = before ++ x.cut (x.qty - took)

/-- Nothing is lost on the way, whichever requisition line is asked. -/
theorem GivenOff.conserved {give : Qty} {released left : List ClaimSrc}
    (h : GivenOff src give released left) (k : String × ℕ) :
    claimed released k + claimed left k = claimed src k := by
  rcases h.split with ⟨-, rfl, rfl⟩ |
    ⟨before, x, after, took, rfl, -, hle, rfl, rfl⟩
  · exact zero_add _
  · rw [claimed_append, claimed_append, claimed_append, claimed_cons,
      claimed_cons, claimed_reverse, claimed_cut x (sub_nonneg.2 hle)]
    have hkey : ({ x with qty := took } : ClaimSrc).key = x.key := rfl
    have hnil : claimed [] k = 0 := rfl
    rw [hkey, hnil, add_zero]
    split
    · abel
    · abel

theorem GivenOff.left_pos {give : Qty} {released left : List ClaimSrc}
    (h : GivenOff src give released left) (hsrc : ∀ x ∈ src, 0 < x.qty) :
    ∀ x ∈ left, 0 < x.qty := by
  rcases h.split with ⟨-, -, rfl⟩ |
    ⟨before, x, after, took, rfl, -, -, -, rfl⟩
  · exact hsrc
  · intro y hy
    rcases List.mem_append.1 hy with hy | hy
    · exact hsrc y (List.mem_append_left _ hy)
    · unfold ClaimSrc.cut at hy
      split at hy
      · next hpos =>
          rw [List.mem_singleton.1 hy]
          exact hpos
      · cases hy

theorem claimTotal_cut (x : ClaimSrc) {q : Qty} (hq : 0 ≤ q) :
    claimTotal (x.cut q) = q := by
  unfold ClaimSrc.cut
  split
  · exact add_zero q
  · next hle => exact le_antisymm hq (not_lt.1 hle)

theorem GivenOff.left_total {give : Qty} {released left : List ClaimSrc}
    (h : GivenOff src give released left) :
    give + claimTotal left = claimTotal src := by
  rw [← h.total]
  rcases h.split with ⟨-, rfl, rfl⟩ |
    ⟨before, x, after, took, rfl, -, hle, rfl, rfl⟩
  · exact zero_add _
  · have hcut := claimTotal_cut x (sub_nonneg.2 hle)
    unfold claimTotal at hcut ⊢
    simp only [List.map_append, List.map_cons, List.sum_append, List.sum_cons,
      List.map_reverse, List.sum_reverse, hcut, List.map_nil, List.sum_nil]
    abel

/-- Nothing asked, nothing taken. -/
theorem givenBack_zero (hsrc : ∀ x ∈ src, 0 < x.qty) :
    givenBack src 0 = List.replicate src.length 0 := by
  have hrev : ∀ q ∈ src.reverse.map ClaimSrc.qty, 0 ≤ q :=
    sum_qty_nonneg fun x hx => hsrc x (List.mem_reverse.1 hx)
  rw [givenBack, pour_zero hrev]
  simp

/-- Where the walk stops: all after one source, took of that one, nothing
before it. -/
theorem givenBack_split {give : Qty} (hsrc : ∀ x ∈ src, 0 < x.qty)
    (h₀ : 0 < give) (hle : give ≤ claimTotal src) :
    ∃ before x after took, src = before ++ x :: after ∧ 0 < took ∧
      took ≤ x.qty ∧ claimTotal after + took = give ∧
      givenBack src give =
        List.replicate before.length 0 ++ took :: after.map ClaimSrc.qty := by
  have hrev : ∀ q ∈ src.reverse.map ClaimSrc.qty, 0 ≤ q :=
    sum_qty_nonneg fun x hx => hsrc x (List.mem_reverse.1 hx)
  have hsum : give ≤ (src.reverse.map ClaimSrc.qty).sum := by
    rw [List.map_reverse, List.sum_reverse]
    exact hle
  have hall := sum_pour_of_le hrev h₀.le hsum
  obtain ⟨as, c, bs, took, heq, htook, hlec, hpour⟩ :=
    pour_split hrev h₀ hsum
  obtain ⟨after, rest, hsplit, rfl, hrest⟩ := List.map_eq_append_iff.1 heq
  obtain ⟨x, before, rfl, rfl, rfl⟩ := List.map_eq_cons_iff.1 hrest
  refine ⟨before.reverse, x, after.reverse, took, ?_, htook, hlec, ?_, ?_⟩
  · rw [← src.reverse_reverse, hsplit]
    simp
  · rw [← hall, hpour]
    simp [claimTotal]
  · rw [givenBack, hpour]
    simp

theorem zipWith_sub_replicate (qs : List Qty) {n : ℕ} (hn : qs.length = n) :
    List.zipWith (· - ·) qs (List.replicate n 0) = qs := by
  apply List.ext_getElem
  · simp [hn]
  · intro i h₁ h₂
    simp

theorem zipWith_sub_self (qs : List Qty) :
    List.zipWith (· - ·) qs qs = List.replicate qs.length 0 := by
  apply List.ext_getElem
  · simp
  · intro i h₁ h₂
    simp

theorem releaseClaim_givenOff (hsrc : ∀ x ∈ src, 0 < x.qty) {give : ℚ}
    (h₀ : 0 ≤ give) (hle : give ≤ claimTotal src) :
    GivenOff src (round3 give) (releaseClaim src give).1
      (releaseClaim src give).2 := by
  have hgive : 0 ≤ round3 give := Decimal.round_nonneg h₀
  rw [releaseClaim_eq src h₀]
  rcases hgive.eq_or_lt with hzero | hpos
  · rw [← hzero, givenBack_zero hsrc, cutTo_zero,
      zipWith_sub_replicate _ (by simp), cutTo_self hsrc]
    exact ⟨rfl, .inl ⟨rfl, rfl, rfl⟩⟩
  · obtain ⟨before, x, after, took, rfl, htook, hlex, htot, hback⟩ :=
      givenBack_split hsrc hpos (round3_le_of_le hle)
    have hbefore : ∀ y ∈ before, 0 < y.qty := fun y hy =>
      hsrc y (List.mem_append_left _ hy)
    have hafter : ∀ y ∈ after, 0 < y.qty := fun y hy =>
      hsrc y (List.mem_append_right _ (List.mem_cons_of_mem _ hy))
    have hcut : x.cut took = [{ x with qty := took }] := if_pos htook
    have hrel : cutTo (before ++ x :: after)
        (givenBack (before ++ x :: after) (round3 give)) =
        { x with qty := took } :: after := by
      rw [hback, cutTo_append (by simp), cutTo_zero, cutTo_cons, hcut,
        cutTo_self hafter]
      rfl
    refine ⟨?_, .inr ⟨before, x, after, took, rfl, htook, hlex, ?_, ?_⟩⟩
    · rw [hrel, ← htot]
      simp [claimTotal]
    · rw [hrel, List.reverse_cons]
    · dsimp only
      rw [hback, List.map_append, List.zipWith_append (by simp),
        zipWith_sub_replicate _ (by simp), List.map_cons,
        List.zipWith_cons_cons, zipWith_sub_self, cutTo_append (by simp),
        cutTo_self hbefore, cutTo_cons, cutTo_zero, List.append_nil]

/-! ## Two cuts in a row -/

/-- A pouring does not notice the sources that were dropped at nothing. -/
theorem cutTo_cutTo {xs : List ClaimSrc} {qs : List Qty}
    (hlen : xs.length = qs.length) (hq : ∀ q ∈ qs, 0 ≤ q) {give : Qty}
    (h₀ : 0 ≤ give) :
    cutTo (cutTo xs qs) (List.zipWith (· - ·)
        ((cutTo xs qs).map ClaimSrc.qty)
        (pour give ((cutTo xs qs).map ClaimSrc.qty))) =
      cutTo xs (List.zipWith (· - ·) qs (pour give qs)) := by
  induction xs generalizing qs give with
  | nil => rfl
  | cons x xs ih =>
      cases qs with
      | nil => cases hlen
      | cons q qs =>
          rw [List.forall_mem_cons] at hq
          have hrest : 0 ≤ give - min give q := sub_nonneg.2 (min_le_left ..)
          have ih' := ih (Nat.succ.inj hlen) hq.2 hrest
          rw [cutTo_cons, pour, List.zipWith_cons_cons, cutTo_cons, ← ih']
          rcases hq.1.eq_or_lt with rfl | hpos
          · have hnone : x.cut 0 = [] := if_neg (lt_irrefl _)
            rw [min_eq_right h₀, sub_zero, sub_zero, hnone]
            rfl
          · have hone : x.cut q = [{ x with qty := q }] := if_pos hpos
            rw [hone]
            rfl

theorem releaseClaim_left_nonneg (hsrc : ∀ x ∈ src, 0 < x.qty) {give : Qty}
    (h₀ : 0 ≤ give) :
    ∀ q ∈ List.zipWith (· - ·) (src.reverse.map ClaimSrc.qty)
      (pour give (src.reverse.map ClaimSrc.qty)), 0 ≤ q := by
  have hrev : ∀ q ∈ src.reverse.map ClaimSrc.qty, 0 ≤ q :=
    sum_qty_nonneg fun x hx => hsrc x (List.mem_reverse.1 hx)
  intro q hq
  obtain ⟨i, hi⟩ := List.getElem?_of_mem hq
  rw [List.getElem?_zipWith_eq_some] at hi
  obtain ⟨c, s, hc, hs, rfl⟩ := hi
  exact sub_nonneg.2 (pour_bounds h₀ hrev hc hs).2

theorem releaseClaim_left (src : List ClaimSrc) {give : Qty} (h₀ : 0 ≤ give) :
    (releaseClaim src give).2.reverse =
      cutTo src.reverse (List.zipWith (· - ·) (src.reverse.map ClaimSrc.qty)
        (pour give (src.reverse.map ClaimSrc.qty))) := by
  rw [releaseClaim_eq src (Decimal.toRat_nonneg.2 h₀), round3_qty,
    ← cutTo_reverse (by simp)]
  congr 1
  rw [List.reverse_zipWith (by simp), givenBack, List.reverse_reverse,
    ← List.map_reverse]

theorem releaseClaim_add_left (hsrc : ∀ x ∈ src, 0 < x.qty) {a b : Qty}
    (ha : 0 ≤ a) (hb : 0 ≤ b) :
    (releaseClaim (releaseClaim src a).2 b).2 =
      (releaseClaim src (a + b : Qty)).2 := by
  have hrev : ∀ q ∈ src.reverse.map ClaimSrc.qty, 0 ≤ q :=
    sum_qty_nonneg fun x hx => hsrc x (List.mem_reverse.1 hx)
  apply List.reverse_injective
  rw [releaseClaim_left _ hb, releaseClaim_left _ ha,
    releaseClaim_left _ (add_nonneg ha hb),
    cutTo_cutTo (by simp) (releaseClaim_left_nonneg hsrc ha) hb,
    pour_pour hrev ha hb]
  congr 1
  apply List.ext_getElem
  · simp
  · intro i h₁ h₂
    simp only [List.getElem_zipWith]
    abel

/-- The release for a whole quantity: `releaseClaim_givenOff` without its
rounding. -/
theorem releaseClaim_qty (hsrc : ∀ x ∈ src, 0 < x.qty) {give : Qty}
    (h₀ : 0 ≤ give) (hle : give ≤ claimTotal src) :
    GivenOff src give (releaseClaim src give).1 (releaseClaim src give).2 := by
  have h := releaseClaim_givenOff hsrc (Decimal.toRat_nonneg.2 h₀)
    (Decimal.toRat_le.2 hle)
  rwa [round3_qty] at h

/-- One requisition line gets back the same by either road: both roads leave
the same sources, and nothing is lost on either. -/
theorem releaseClaim_add_released (hsrc : ∀ x ∈ src, 0 < x.qty) {a b : Qty}
    (ha : 0 ≤ a) (hb : 0 ≤ b) (hle : a + b ≤ claimTotal src)
    (k : String × ℕ) :
    claimed (releaseClaim src a).1 k +
        claimed (releaseClaim (releaseClaim src a).2 b).1 k =
      claimed (releaseClaim src (a + b : Qty)).1 k := by
  have hfirst := releaseClaim_qty hsrc ha ((le_add_of_nonneg_right hb).trans hle)
  have hroom : b ≤ claimTotal (releaseClaim src a).2 := by
    rw [← hfirst.left_total] at hle
    exact le_of_add_le_add_left hle
  have hsecond := releaseClaim_qty (hfirst.left_pos hsrc) hb hroom
  have hboth := releaseClaim_qty hsrc (add_nonneg ha hb) hle
  have h₁ := hfirst.conserved k
  have h₂ := hsecond.conserved k
  have h₃ := hboth.conserved k
  rw [releaseClaim_add_left hsrc ha hb] at h₂
  rw [← h₁, ← h₂, ← add_assoc] at h₃
  exact (add_right_cancel h₃).symm

/-! ## One entry a requisition line -/

section Fold

variable (localeCompare : String → String → Ordering)

theorem foldClaims_keys_perm :
    ((foldClaims localeCompare src).map ClaimSrc.key).Perm
      ((accumulate ClaimSrc.key (fun q x => q + x.qty) 0 src).map
        Prod.fst) := by
  unfold foldClaims
  refine ((List.mergeSort_perm ..).map ClaimSrc.key).trans ?_
  rw [List.map_map]
  exact .refl _

theorem foldClaims_keys_nodup :
    ((foldClaims localeCompare src).map ClaimSrc.key).Nodup :=
  (foldClaims_keys_perm localeCompare).nodup_iff.2 (nodup_accumulate ..)

theorem mem_foldClaims_keys {k : String × ℕ} :
    k ∈ (foldClaims localeCompare src).map ClaimSrc.key ↔
      ∃ x ∈ src, x.key = k := by
  rw [(foldClaims_keys_perm localeCompare).mem_iff]
  exact mem_keys_accumulate

/-- Folding changes no total. -/
theorem claimed_foldClaims (k : String × ℕ) :
    claimed (foldClaims localeCompare src) k = claimed src k := by
  unfold claimed
  rw [← sumOn_accumulate (fun _ _ => rfl) src k]
  unfold foldClaims
  rw [sumOn_perm (List.mergeSort_perm ..), sumOn_map]
  rfl

theorem foldClaims_qty {x : ClaimSrc}
    (h : x ∈ foldClaims localeCompare src) : x.qty = claimed src x.key := by
  rw [← claimed_foldClaims localeCompare]
  exact (sumOn_eq_of_mem (foldClaims_keys_nodup localeCompare) h _).symm

variable [Std.TransCmp localeCompare]

instance claimOrder_trans : Std.TransCmp (claimOrder localeCompare) :=
  have : Std.TransCmp fun a b : ClaimSrc => localeCompare a.prq b.prq :=
    { eq_swap := Std.OrientedCmp.eq_swap
      isLE_trans := Std.TransCmp.isLE_trans }
  have : Std.TransCmp fun a b : ClaimSrc => compare a.line b.line :=
    { eq_swap := Std.OrientedCmp.eq_swap
      isLE_trans := Std.TransCmp.isLE_trans }
  inferInstanceAs (Std.TransCmp (compareLex _ _))

/-- Whatever collation names are compared in, the entries ascend in it. -/
theorem foldClaims_ascending :
    (foldClaims localeCompare src).Pairwise fun a b =>
      (claimOrder localeCompare a b).isLE := by
  apply List.pairwise_mergeSort
  · intro a b c hab hbc
    exact Std.TransCmp.isLE_trans hab hbc
  · intro a b
    have hswap : claimOrder localeCompare b a =
        (claimOrder localeCompare a b).swap := Std.OrientedCmp.eq_swap
    rw [hswap]
    cases claimOrder localeCompare a b <;> rfl

end Fold

/-! ## The three together -/

/-- A release is one cut of the sources, two releases are the release of their
sum, and a fold has one entry a requisition line, in order. -/
theorem releases_conserve (localeCompare : String → String → Ordering)
    [Std.TransCmp localeCompare] {src : List ClaimSrc}
    (hsrc : ∀ x ∈ src, 0 < x.qty) :
    (∀ give : ℚ, 0 ≤ give → give ≤ claimTotal src →
      GivenOff src (round3 give) (releaseClaim src give).1
        (releaseClaim src give).2) ∧
    (∀ a b : Qty, 0 ≤ a → 0 ≤ b → a + b ≤ claimTotal src →
      (releaseClaim (releaseClaim src a).2 b).2 =
          (releaseClaim src (a + b : Qty)).2 ∧
        ∀ k, claimed (releaseClaim src a).1 k +
            claimed (releaseClaim (releaseClaim src a).2 b).1 k =
          claimed (releaseClaim src (a + b : Qty)).1 k) ∧
    ∀ released : List ClaimSrc,
      ((foldClaims localeCompare released).map ClaimSrc.key).Nodup ∧
      (∀ k, k ∈ (foldClaims localeCompare released).map ClaimSrc.key ↔
        ∃ x ∈ released, x.key = k) ∧
      (∀ x ∈ foldClaims localeCompare released,
        x.qty = claimed released x.key) ∧
      (foldClaims localeCompare released).Pairwise fun a b =>
        (claimOrder localeCompare a b).isLE := by
  refine ⟨?_, ?_, ?_⟩
  · intro give h₀ hle
    exact releaseClaim_givenOff hsrc h₀ hle
  · intro a b ha hb hle
    exact ⟨releaseClaim_add_left hsrc ha hb,
      releaseClaim_add_released hsrc ha hb hle⟩
  · intro released
    refine ⟨foldClaims_keys_nodup localeCompare, ?_, ?_,
      foldClaims_ascending localeCompare⟩
    · intro k
      exact mem_foldClaims_keys localeCompare
    · intro x hx
      exact foldClaims_qty localeCompare hx

/-- Ninety-five off a line of twenty-five and eighty: the last source whole and
fifteen of the first, whether in one go or in two. -/
theorem releases_conserve_two_sources :
    let src : List ClaimSrc :=
      [⟨"PRQ-2026-011", 0, ⟨25000⟩⟩, ⟨"PRQ-2026-012", 0, ⟨80000⟩⟩]
    GivenOff src ⟨95000⟩ (releaseClaim src (⟨95000⟩ : Qty)).1
        (releaseClaim src (⟨95000⟩ : Qty)).2 ∧
      (releaseClaim (releaseClaim src (⟨60000⟩ : Qty)).2 (⟨35000⟩ : Qty)).2 =
        (releaseClaim src (⟨95000⟩ : Qty)).2 ∧
      (releaseClaim src (⟨95000⟩ : Qty)).2 =
        [⟨"PRQ-2026-011", 0, ⟨10000⟩⟩] := by
  intro src
  have hall := @releases_conserve compare _ src (by decide)
  have h := hall.1 (⟨95000⟩ : Qty) (Decimal.toRat_nonneg.2 (by decide))
    (Decimal.toRat_le.2 (by decide))
  rw [round3_qty] at h
  refine ⟨h, ?_, by decide +kernel⟩
  exact (hall.2.1 ⟨60000⟩ ⟨35000⟩ (by decide) (by decide) (by decide)).1

end Rch
