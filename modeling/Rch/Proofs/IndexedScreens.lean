import Mathlib.Algebra.BigOperators.Group.List.Basic
import Rch.Screen.Selectors

/-!
# The indexed screens and the plain ones

An index walks every document once and adds it onto a dictionary, document by
document. What it holds of an item afterwards is what the documents come to on
that item, which is what filtering them for it adds up.

The walk behind a requisition's lines puts every share on the line its claim
names, so nothing is dropped and the lines add up to the whole.
-/

namespace Rch

open Kit

/-! ## A dictionary of documents -/

section Tally

variable {α δ : Type} (it : α → ItemKey) (f : α → Qty)

theorem entryOr_tallyOne (out : List (ItemKey × Qty)) (lines : List α)
    (k : ItemKey) :
    entryOr (tallyOne it f out lines) k 0 =
      entryOr out k 0 + sumOn lines it k f := by
  unfold tallyOne
  rw [entryOr_foldl_upsert (g := Prod.snd) (fun _ _ => rfl),
    sumOn_accumulate (g := f) (fun _ _ => rfl)]

/-- The documents that count, one after the other. -/
theorem entryOr_tally (counts : δ → Prop) [DecidablePred counts]
    (lines : δ → List α) (docs : List δ) (out : List (ItemKey × Qty))
    (k : ItemKey) :
    entryOr (docs.foldl (fun out d =>
        if counts d then tallyOne it f out (lines d) else out) out) k 0 =
      entryOr out k 0 +
        ((docs.filter fun d => decide (counts d)).map fun d =>
          (((lines d).filter fun l => decide (it l = k)).map f).sum).sum := by
  induction docs generalizing out with
  | nil => rw [List.foldl_nil, List.filter_nil, List.map_nil, List.sum_nil, add_zero]
  | cons d docs ih =>
      rw [List.foldl_cons, ih]
      by_cases hd : counts d
      · rw [if_pos hd, entryOr_tallyOne, sumOn_eq_sum_filter,
          List.filter_cons_of_pos (p := fun d => decide (counts d))
            (decide_eq_true hd), List.map_cons, List.sum_cons, add_assoc]
      · rw [if_neg hd, List.filter_cons_of_neg (by simpa using hd)]

end Tally

@[simp] theorem entryOr_nil (k : ItemKey) :
    entryOr ([] : List (ItemKey × Qty)) k 0 = 0 := rfl

theorem entryOr_of_not_mem {m : List (ItemKey × Qty)} {k : ItemKey}
    (h : k ∉ m.map Prod.fst) : entryOr m k 0 = 0 := by
  induction m with
  | nil => rfl
  | cons e m ih =>
      rw [List.map_cons, List.mem_cons, not_or] at h
      rw [show e = (e.1, e.2) from rfl, entryOr_cons, if_neg (Ne.symm h.1), ih h.2]

theorem entryOr_map_keys (keys : List ItemKey) (g : ItemKey → Qty) (k : ItemKey) :
    entryOr (keys.map fun it => (it, g it)) k 0 = if k ∈ keys then g k else 0 := by
  induction keys with
  | nil => rfl
  | cons it keys ih =>
      rw [List.map_cons, entryOr_cons, ih]
      by_cases hk : it = k
      · rw [if_pos hk, hk, if_pos List.mem_cons_self]
      · rw [if_neg hk]
        exact if_congr (by rw [List.mem_cons, or_iff_right (Ne.symm hk)]) rfl rfl

/-- Every item's figure on the index is the figure for that item. -/
theorem onOrderIndex_eq (s : OnTheWay) (it : ItemKey) :
    entryOr (onOrderIndex s) it 0 = onOrder s it := by
  have hpending : entryOr (accumulate PoolLine.it (fun t l => t + l.pending) 0
      (procurementList s.prq)) it 0 =
      (((procurementList s.prq).filter fun l => decide (l.it = it)).map
        PoolLine.pending).sum := by
    rw [entryOr_accumulate (g := PoolLine.pending) (fun _ _ => rfl),
      sumOn_eq_sum_filter]
  have hundelivered := entryOr_tally OrderLine.it OrderLine.owed
    (fun o : ScreenOrder => o.st ∈ PoStatus.CLAIMED) ScreenOrder.lines s.po [] it
  rw [entryOr_nil, zero_add] at hundelivered
  unfold onOrderIndex onOrder
  dsimp only
  rw [entryOr_map_keys]
  split
  · rw [hpending, hundelivered]
  · next hkey =>
      -- an item neither walk met is on no line
      rw [List.mem_eraseDups, List.mem_append, not_or] at hkey
      rw [← hpending, ← hundelivered, entryOr_of_not_mem hkey.1,
        entryOr_of_not_mem hkey.2, round3_qty, add_zero]

theorem inTransitIndex_eq (s : OnTheWay) (it : ItemKey) :
    entryOr (inTransitIndex s) it 0 = inTransit s it := by
  have h := entryOr_tally Line.it Line.qty
    (fun t : ScreenTicket => t.st = .collected) ScreenTicket.lines s.tkt [] it
  rw [entryOr_nil, zero_add] at h
  exact h

/-! ## Shares and lines -/

theorem getElem?_foldl_add {α : Type} {step : List Qty → α → List Qty} {i : ℕ}
    {g : α → Qty} (hstep : ∀ out a, (step out a)[i]? = out[i]?.map (· + g a))
    (l : List α) (out : List Qty) :
    (l.foldl step out)[i]? = out[i]?.map (· + (l.map g).sum) := by
  induction l generalizing out with
  | nil =>
      rw [List.foldl_nil, List.map_nil, List.sum_nil]
      simp only [add_zero, Option.map_id']
  | cons a l ih =>
      rw [List.foldl_cons, ih, hstep, Option.map_map, List.map_cons, List.sum_cons]
      congr 1
      funext q
      exact add_assoc ..

theorem getElem?_perLine (lines : List RequisitionLine) (po : List PurchaseOrder)
    (prqId : String) (i : ℕ) :
    (perLine lines po prqId)[i]? = lines[i]?.map fun _ =>
      gotBy po fun x => decide (x.prq = prqId ∧ x.line = i) := by
  have hshare (out : List Qty) (x : ClaimSrc × Qty) :
      (if x.1.prq ≠ prqId ∨ out[x.1.line]? = none then out
        else out.modify x.1.line fun t => t + x.2)[i]? =
      out[i]?.map (· + if decide (x.1.prq = prqId ∧ x.1.line = i) = true
        then x.2 else 0) := by
    by_cases hprq : x.1.prq = prqId
    · by_cases hline : x.1.line = i
      · rw [if_pos (decide_eq_true ⟨hprq, hline⟩), hline]
        cases hi : out[i]? with
        | none => rw [if_pos (.inr rfl), hi]; rfl
        | some q =>
            have hout : ¬ (x.1.prq ≠ prqId ∨ some q = none) := by
              rintro (h | h)
              · exact h hprq
              · cases h
            rw [if_neg hout, List.getElem?_modify, hi]
            simp only [if_pos]
            rfl
      · have hzero : (if decide (x.1.prq = prqId ∧ x.1.line = i) = true
            then x.2 else 0) = 0 := if_neg (by simp [hline])
        rw [hzero]
        simp only [add_zero, Option.map_id']
        split
        · rfl
        · rw [List.getElem?_modify]
          simp only [if_neg hline]
          cases out[i]? with
          | none => rfl
          | some q => rfl
    · have hzero : (if decide (x.1.prq = prqId ∧ x.1.line = i) = true
          then x.2 else 0) = 0 := if_neg (by simp [hprq])
      rw [if_pos (.inl hprq), hzero]
      simp only [add_zero, Option.map_id']
  unfold perLine
  rw [getElem?_foldl_add (g := fun o => (o.lines.map fun l => l.gotBy fun x =>
    decide (x.prq = prqId ∧ x.line = i)).sum), List.getElem?_map, Option.map_map]
  · congr 1
    funext l
    exact zero_add _
  · intro out o
    refine getElem?_foldl_add (fun out l => ?_) o.lines out
    exact getElem?_foldl_add hshare (l.src.zip l.got) out

/-- Shares told apart by a test add up to the shares that pass either. -/
theorem gotBy_add (po : List PurchaseOrder) {p q r : ClaimSrc → Bool}
    (h : ∀ x, r x = (p x || q x)) (hdisj : ∀ x, p x = true → q x = false) :
    gotBy po r = gotBy po p + gotBy po q := by
  have hx (x : ClaimSrc × Qty) : (if r x.1 then x.2 else 0) =
      (if p x.1 then x.2 else 0) + if q x.1 then x.2 else 0 := by
    rw [h]
    cases hp : p x.1 with
    | true => simp [hdisj _ hp]
    | false => simp
  unfold gotBy ShortLine.gotBy
  simp only [hx, List.sum_map_add]

theorem gotBy_congr {po : List PurchaseOrder} {p q : ClaimSrc → Bool}
    (h : ∀ o ∈ po, ∀ l ∈ o.lines, ∀ x ∈ l.src, p x = q x) :
    gotBy po p = gotBy po q := by
  unfold gotBy ShortLine.gotBy
  refine congrArg List.sum (List.map_congr_left fun o ho => ?_)
  refine congrArg List.sum (List.map_congr_left fun l hl => ?_)
  refine congrArg List.sum (List.map_congr_left fun x hx => ?_)
  rw [h o (List.mem_of_mem_filter ho) l hl x.1 (List.of_mem_zip hx).1]

/-- The first `n` lines' shares are the shares of claims on them. -/
theorem sum_gotBy_lines (po : List PurchaseOrder) (prqId : String) (n : ℕ) :
    ((List.range n).map fun i =>
        gotBy po fun x => decide (x.prq = prqId ∧ x.line = i)).sum =
      gotBy po fun x => decide (x.prq = prqId ∧ x.line < n) := by
  induction n with
  | zero =>
      rw [List.range_zero, List.map_nil, List.sum_nil]
      unfold gotBy ShortLine.gotBy
      simp
  | succ n ih =>
      rw [List.range_succ, List.map_append, List.sum_append, ih, List.map_singleton,
        List.sum_singleton]
      refine (gotBy_add po (fun x => ?_) fun x hx => ?_).symm
      · rw [← Bool.decide_or]
        exact decide_eq_decide.2 (by rw [← and_or_left, ← Nat.lt_succ_iff_lt_or_eq])
      · have hlt := (of_decide_eq_true hx).2
        exact decide_eq_false fun h => by omega

def ClaimsNameLines (s : OnTheWay) : Prop :=
  ∀ o ∈ s.po, ∀ l ∈ o.lines, ∀ x ∈ l.src, ∃ p,
    s.prq.find? (fun p => decide (p.id = x.prq)) = some p ∧
      x.line < p.lines.length

def OnTheWay.progress (s : OnTheWay) (prqId : String) : PrqProgress :=
  prqProgress s.prq (s.po.map ScreenOrder.progress) prqId

theorem progress_perLine {prq : List Requisition} {prqId : String}
    {p : Requisition} (hp : prq.find? (fun p => decide (p.id = prqId)) = some p)
    (po : List PurchaseOrder) :
    (prqProgress prq po prqId).lines.map PrqProgressLine.received =
      perLine p.lines po prqId := by
  refine List.ext_getElem? fun i => ?_
  rw [getElem?_perLine]
  unfold prqProgress
  rw [hp]
  dsimp only
  rw [List.getElem?_map, List.getElem?_mapIdx, Option.map_map]
  rfl

/-- Each index agrees with its plain figure at every item, and what a
requisition received is what its lines received, line by line what the walk over the
orders keeps. -/
theorem indexes_agree {s : OnTheWay} (hsrc : ClaimsNameLines s) :
    (∀ it, entryOr (onOrderIndex s) it 0 = onOrder s it) ∧
      (∀ it, entryOr (inTransitIndex s) it 0 = inTransit s it) ∧
      (∀ prqId, (s.progress prqId).received =
        ((s.progress prqId).lines.map PrqProgressLine.received).sum) ∧
      ∀ prqId p, s.prq.find? (fun p => decide (p.id = prqId)) = some p →
        (s.progress prqId).lines.map PrqProgressLine.received =
          perLine p.lines (s.po.map ScreenOrder.progress) prqId := by
  refine ⟨onOrderIndex_eq s, inTransitIndex_eq s, fun prqId => ?_,
    fun prqId p hp => progress_perLine hp _⟩
  unfold OnTheWay.progress prqProgress
  cases hp : s.prq.find? fun p => decide (p.id = prqId) with
  | none => rfl
  | some p =>
      dsimp only
      have hlines : (p.lines.mapIdx fun i l =>
          (⟨l.it, l.appr, l.ordered, gotBy (s.po.map ScreenOrder.progress) fun x =>
            decide (x.prq = prqId ∧ x.line = i)⟩ : PrqProgressLine)).map
            PrqProgressLine.received =
          (List.range p.lines.length).map fun i =>
            gotBy (s.po.map ScreenOrder.progress) fun x =>
              decide (x.prq = prqId ∧ x.line = i) := by
        refine List.ext_getElem (by simp) fun i h₁ h₂ => ?_
        simp only [List.getElem_map, List.getElem_mapIdx, List.getElem_range]
      rw [hlines, sum_gotBy_lines]
      refine gotBy_congr fun o ho l hl x hx => decide_eq_decide.2 ?_
      obtain ⟨o', ho', rfl⟩ := List.mem_map.1 ho
      obtain ⟨l', hl', rfl⟩ := List.mem_map.1 hl
      refine ⟨fun hid => ⟨hid, ?_⟩, And.left⟩
      obtain ⟨p', hp', hline⟩ := hsrc o' ho' l' hl' x hx
      rw [hid, hp] at hp'
      rw [Option.some.inj hp']
      exact hline

/-- Ten of milk approved, six of them on an order that took four. -/
def milkOnTheWay : OnTheWay where
  prq := [⟨"PRQ-1970-016", .approved,
    [⟨"milk", ⟨10000⟩, ⟨10000⟩, ⟨6000⟩, none⟩]⟩]
  po := [⟨.partiallyReceived,
    [⟨⟨⟨6000⟩, ⟨4000⟩, 0, [⟨"PRQ-1970-016", 0, ⟨6000⟩⟩]⟩, "milk"⟩]⟩]
  tkt := [⟨.collected, [⟨"milk", ⟨2000⟩⟩]⟩]

theorem milkOnTheWay_named : ClaimsNameLines milkOnTheWay := by
  unfold ClaimsNameLines milkOnTheWay
  simp

theorem indexes_agree_milk :
    entryOr (onOrderIndex milkOnTheWay) "milk" 0 = ⟨6000⟩ ∧
      ((milkOnTheWay.progress "PRQ-1970-016").lines.map
        PrqProgressLine.received).sum = ⟨4000⟩ := by
  refine ⟨?_, ?_⟩
  · rw [(indexes_agree milkOnTheWay_named).1]
    decide +kernel
  · rw [← (indexes_agree milkOnTheWay_named).2.2.1]
    decide +kernel

end Rch
