import Rch.Domain.Receipt
import Rch.Kit.Keyed
import Rch.Kit.Waterfall

/-!
# A purchase-order line's claim on the requisitions that funded it

A line of an order draws on requisition lines, in the order the buyer picked
them. A receipt fills those sources from the front; a cut, a cancellation and
a short close give them back from the end. Both are the one pouring of an
amount over a list, so what was filled and what is given back meet at the same
source: `releaseClaim_eq` and `apportion_eq` say which pouring each of the two
loops is.
-/

namespace Rch

open Kit

/-- A claim against one line of a requisition. -/
structure ClaimSrc where
  prq : String
  line : ℕ
  qty : Qty
deriving DecidableEq

def ClaimSrc.key (x : ClaimSrc) : String × ℕ := (x.prq, x.line)

/-- A claim cut to a quantity, dropped where the quantity is nothing. -/
def ClaimSrc.cut (x : ClaimSrc) (qty : Qty) : List ClaimSrc :=
  if 0 < qty then [{ x with qty }] else []

/-- What a list of claims comes to on one requisition line. -/
def claimed (src : List ClaimSrc) (k : String × ℕ) : Qty :=
  sumOn src ClaimSrc.key k ClaimSrc.qty

def claimTotal (src : List ClaimSrc) : Qty := (src.map ClaimSrc.qty).sum

/-! ## Giving back, last source first -/

/-- Where the walk over the reversed sources stands. -/
structure Releasing where
  owed : Qty
  released : List ClaimSrc
  left : List ClaimSrc

/-- One source of the walk: take what is still owed, keep the rest. -/
def releaseStep (r : Releasing) (x : ClaimSrc) : Releasing :=
  let take := min r.owed x.qty
  { owed := r.owed - take
    released := r.released ++ x.cut take
    left := x.cut (x.qty - take) ++ r.left }

/-- Give `give` back off a line's sources, last source first: what was
released, in the order of the walk, and what is left, in the line's own. -/
def releaseClaim (src : List ClaimSrc) (give : ℚ) :
    List ClaimSrc × List ClaimSrc :=
  let r := src.reverse.foldl releaseStep ⟨round3 (max 0 give), [], []⟩
  (r.released, r.left)

/-- The order a writer takes its row locks in: by requisition, as names are
compared, then by line. -/
def claimOrder (localeCompare : String → String → Ordering) :
    ClaimSrc → ClaimSrc → Ordering :=
  compareLex (fun a b => localeCompare a.prq b.prq)
    fun a b => compare a.line b.line

/-- Every delta against one requisition line added up, one entry a line, in
ascending order. -/
def foldClaims (localeCompare : String → String → Ordering)
    (src : List ClaimSrc) : List ClaimSrc :=
  let by_ := accumulate ClaimSrc.key (fun q x => q + x.qty) 0 src
  (by_.map fun e => (⟨e.1.1, e.1.2, e.2⟩ : ClaimSrc)).mergeSort fun a b =>
    (claimOrder localeCompare a b).isLE

/-- A line of an order as a short close reads it. -/
structure ShortLine where
  qty : Qty
  recv : Qty
  rejected : Qty
  src : List ClaimSrc

/-- What a line never took in. -/
def ShortLine.shortfall (l : ShortLine) : Qty :=
  max 0 (l.qty - netReceived l.recv l.rejected)

/-- What never arrived, line by line, released last source first. -/
def shortfallClaims (lines : List ShortLine) : List ClaimSrc :=
  lines.flatMap fun l => (releaseClaim l.src l.shortfall).1

/-! ## Filling, first source first -/

def apportion (recv : Qty) : List Qty → List Qty
  | [] => []
  | qty :: src =>
    let take := min (max recv 0) qty
    take :: apportion (recv - take) src

/-! ## The two loops are one pouring -/

def cutTo (src : List ClaimSrc) (qtys : List Qty) : List ClaimSrc :=
  (List.zipWith ClaimSrc.cut src qtys).flatten

@[simp] theorem netReceived_qty (recv rejected : Qty) :
    netReceived recv rejected = recv - rejected := round3_sub recv rejected

theorem ClaimSrc.reverse_cut (x : ClaimSrc) (q : Qty) :
    (x.cut q).reverse = x.cut q := by
  unfold ClaimSrc.cut
  split <;> rfl

theorem cutTo_cons (x : ClaimSrc) (src : List ClaimSrc) (q : Qty)
    (qtys : List Qty) :
    cutTo (x :: src) (q :: qtys) = x.cut q ++ cutTo src qtys := rfl

theorem cutTo_append {src src' : List ClaimSrc} {qtys qtys' : List Qty}
    (h : src.length = qtys.length) :
    cutTo (src ++ src') (qtys ++ qtys') =
      cutTo src qtys ++ cutTo src' qtys' := by
  unfold cutTo
  rw [List.zipWith_append h, List.flatten_append]

theorem cutTo_reverse {src : List ClaimSrc} {qtys : List Qty}
    (h : src.length = qtys.length) :
    cutTo src.reverse qtys.reverse = (cutTo src qtys).reverse := by
  induction src generalizing qtys with
  | nil => rfl
  | cons x src ih =>
      cases qtys with
      | nil => cases h
      | cons q qtys =>
          have hlen : src.length = qtys.length := Nat.succ.inj h
          have hone : cutTo [x] [q] = x.cut q := List.append_nil _
          rw [List.reverse_cons, List.reverse_cons, cutTo_append (by simpa),
            ih hlen, hone, cutTo_cons, List.reverse_append, x.reverse_cut]

theorem cutTo_self {src : List ClaimSrc} (hsrc : ∀ x ∈ src, 0 < x.qty) :
    cutTo src (src.map ClaimSrc.qty) = src := by
  induction src with
  | nil => rfl
  | cons x src ih =>
      rw [List.forall_mem_cons] at hsrc
      rw [List.map_cons, cutTo_cons, ih hsrc.2, ClaimSrc.cut, if_pos hsrc.1]
      rfl

theorem cutTo_zero (src : List ClaimSrc) (n : ℕ) :
    cutTo src (List.replicate n 0) = [] := by
  induction src generalizing n with
  | nil => rfl
  | cons x src ih =>
      cases n with
      | zero => rfl
      | succ n =>
          rw [List.replicate_succ, cutTo_cons, ih, ClaimSrc.cut,
            if_neg (lt_irrefl _)]
          rfl

theorem claimed_cutTo {src : List ClaimSrc} {qtys : List Qty}
    (h : src.length = qtys.length) (hq : ∀ q ∈ qtys, 0 ≤ q)
    (k : String × ℕ) :
    claimed (cutTo src qtys) k =
      sumOn (src.zip qtys) (fun p => p.1.key) k Prod.snd := by
  induction src generalizing qtys with
  | nil => rfl
  | cons x src ih =>
      cases qtys with
      | nil => cases h
      | cons q qtys =>
          rw [List.forall_mem_cons] at hq
          have ih' := ih (Nat.succ.inj h) hq.2
          rw [cutTo_cons, List.zip_cons_cons, sumOn_cons, ← ih']
          unfold claimed
          rw [sumOn_append]
          congr 1
          unfold ClaimSrc.cut
          split
          · rw [sumOn_cons, sumOn_nil, add_zero]
            rfl
          · next hle =>
              have hz : q = 0 := le_antisymm (not_lt.1 hle) hq.1
              rw [sumOn_nil, hz]
              exact (ite_self _).symm

theorem foldl_releaseStep (xs : List ClaimSrc) (r : Releasing) :
    xs.foldl releaseStep r =
      { owed := spill r.owed (xs.map ClaimSrc.qty)
        released := r.released ++
          cutTo xs (pour r.owed (xs.map ClaimSrc.qty))
        left := (cutTo xs (List.zipWith (· - ·) (xs.map ClaimSrc.qty)
          (pour r.owed (xs.map ClaimSrc.qty)))).reverse ++ r.left } := by
  induction xs generalizing r with
  | nil => simp [spill, cutTo]
  | cons x xs ih =>
      rw [List.foldl_cons, ih]
      simp only [releaseStep, List.map_cons, spill, pour, cutTo_cons,
        List.zipWith_cons_cons, List.reverse_append, ClaimSrc.reverse_cut,
        List.append_assoc]

/-- What each source gives back, in the line's order. -/
def givenBack (src : List ClaimSrc) (give : Qty) : List Qty :=
  (pour give (src.reverse.map ClaimSrc.qty)).reverse

@[simp] theorem length_givenBack (src : List ClaimSrc) (give : Qty) :
    (givenBack src give).length = src.length := by
  simp [givenBack]

theorem releaseClaim_eq (src : List ClaimSrc) {give : ℚ} (h : 0 ≤ give) :
    releaseClaim src give =
      ((cutTo src (givenBack src (round3 give))).reverse,
        cutTo src (List.zipWith (· - ·) (src.map ClaimSrc.qty)
          (givenBack src (round3 give)))) := by
  unfold releaseClaim
  rw [max_eq_right h, foldl_releaseStep]
  dsimp only
  rw [List.nil_append, List.append_nil]
  congr 1
  · rw [← cutTo_reverse (by simp), givenBack, List.reverse_reverse]
  · rw [← cutTo_reverse (by simp), List.reverse_reverse]
    congr 1
    rw [List.reverse_zipWith (by simp), ← List.map_reverse,
      List.reverse_reverse]
    rfl

theorem apportion_eq {recv : Qty} {src : List Qty} (h : 0 ≤ recv) :
    apportion recv src = pour recv src := by
  induction src generalizing recv with
  | nil => rfl
  | cons q src ih =>
      rw [apportion, pour, max_eq_left h, ih (sub_nonneg.2 (min_le_left ..))]

end Rch
