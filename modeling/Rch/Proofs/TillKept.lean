import Rch.Screen.Till

/-!
# Nothing rung up is lost

The ids and the numbers of a till's bills stay apart, and one of them is on
screen, whatever the operator does and in whatever order pays are answered. What
was rung up on a bill stands in its lines for as long as the bill is on the
till.

A bill leaves the till in two ways. Discarded, what was rung up on it goes with
it. Accepted, its lines are gone as they are by then, and what was sold is what
the pay carried. So all depends on whether a line has grown past its pay in the
meantime.
-/

namespace Rch.Tills

open Kit

/-! ## The till's form -/

/-- A till is never empty, its bills are apart, and one of them is on screen. -/
structure WellFormed (t : Till) : Prop where
  nonempty : t.bills ≠ []
  ids : (t.bills.map OpenBill.id).Nodup
  numbers : (t.bills.map OpenBill.n).Nodup
  within : ∀ b ∈ t.bills, 1 ≤ b.n ∧ b.n ≤ MAX_OPEN_BILLS
  active : t.active ∈ t.bills.map OpenBill.id

theorem WellFormed.single (id : ℕ) : WellFormed ⟨[blankBill id 1], id⟩ where
  nonempty := List.cons_ne_nil _ _
  ids := List.nodup_singleton _
  numbers := List.nodup_singleton _
  within b hb := by
    obtain rfl := List.mem_singleton.1 hb
    exact ⟨Nat.le_refl 1, (by decide : 1 ≤ MAX_OPEN_BILLS)⟩
  active := List.mem_singleton_self _

theorem editActive_map {β : Type} (g : OpenBill → β) {f : OpenBill → OpenBill}
    (hf : ∀ b, g (f b) = g b) (t : Till) :
    (editActive f t).bills.map g = t.bills.map g := by
  unfold editActive
  rw [List.map_map]
  refine List.map_congr_left fun b _ => ?_
  change g (if b.id = t.active then f b else b) = g b
  split
  · exact hf b
  · rfl

/-- An edit of the bill on screen that leaves its id and its number. -/
theorem WellFormed.edit {t : Till} (h : WellFormed t) {f : OpenBill → OpenBill}
    (hid : ∀ b, (f b).id = b.id) (hn : ∀ b, (f b).n = b.n) :
    WellFormed (editActive f t) where
  nonempty hnil := by
    have := congrArg (List.map OpenBill.id) hnil
    rw [editActive_map OpenBill.id hid] at this
    exact h.nonempty (List.map_eq_nil_iff.1 this)
  ids := by
    rw [editActive_map OpenBill.id hid]
    exact h.ids
  numbers := by
    rw [editActive_map OpenBill.n hn]
    exact h.numbers
  within b hb := by
    obtain ⟨b₀, hb₀, rfl⟩ := List.mem_map.1 hb
    split
    · rw [hn]
      exact h.within b₀ hb₀
    · exact h.within b₀ hb₀
  active := by
    rw [editActive_map OpenBill.id hid]
    exact h.active

theorem WellFormed.switch {t : Till} (h : WellFormed t) (id : ℕ) :
    WellFormed (switchBill id t) := by
  unfold switchBill
  split
  · next hmem =>
      obtain ⟨b, hb, hid⟩ := List.any_eq_true.1 hmem
      exact ⟨h.nonempty, h.ids, h.numbers, h.within,
        List.mem_map.2 ⟨b, hb, of_decide_eq_true hid⟩⟩
  · exact h

/-- Of more tries than there are numbers in use one is free, and not far up. -/
theorem lowestFree_spec (used : List ℕ) : ∀ tries n : ℕ,
    (used.filter fun k => decide (n ≤ k)).length ≤ tries →
    lowestFree used tries n ∉ used ∧ n ≤ lowestFree used tries n ∧
      lowestFree used tries n ≤ n + tries := by
  intro tries
  induction tries with
  | zero =>
      intro n h
      refine ⟨fun hn => ?_, Nat.le_refl n, Nat.le_refl n⟩
      have hmem : n ∈ used.filter fun k => decide (n ≤ k) :=
        List.mem_filter.2 ⟨hn, decide_eq_true (Nat.le_refl n)⟩
      rw [List.length_eq_zero_iff.1 (Nat.le_zero.1 h)] at hmem
      exact List.not_mem_nil hmem
  | succ tries ih =>
      intro n h
      rw [lowestFree]
      split
      · next hn =>
          have hfewer : (used.filter fun k => decide (n + 1 ≤ k)).length <
              (used.filter fun k => decide (n ≤ k)).length := by
            have hsub : (used.filter fun k => decide (n + 1 ≤ k)) =
                (used.filter fun k => decide (n ≤ k)).filter
                  fun k => decide (n + 1 ≤ k) := by
              rw [List.filter_filter]
              refine List.filter_congr fun k _ => ?_
              rw [Bool.eq_iff_iff, Bool.and_eq_true, decide_eq_true_eq,
                decide_eq_true_eq]
              omega
            rw [hsub]
            refine List.length_filter_lt_length_iff_exists.2 ⟨n, ?_, by simp⟩
            exact List.mem_filter.2 ⟨hn, decide_eq_true (Nat.le_refl n)⟩
          obtain ⟨hfree, hlow, hhigh⟩ := ih (n + 1) (by omega)
          exact ⟨hfree, by omega, by omega⟩
      · next hn => exact ⟨hn, Nat.le_refl n, by omega⟩

theorem WellFormed.newBill {s : Counter} (h : WellFormed (tillOf s))
    (hseq : ∀ b ∈ (tillOf s).bills, b.id ≤ s.seq) :
    WellFormed (tillOf (newBill s)) := by
  unfold Tills.newBill
  dsimp only
  split
  · exact h
  · next hroom =>
      have hroom : (tillOf s).bills.length < MAX_OPEN_BILLS := Nat.not_le.1 hroom
      obtain ⟨hfree, hlow, hhigh⟩ := lowestFree_spec
        ((tillOf s).bills.map OpenBill.n) _ 1 (List.length_filter_le ..)
      rw [List.length_map] at hfree hlow hhigh
      rw [List.length_map]
      generalize lowestFree _ _ _ = n at hfree hlow hhigh
      refine ⟨by simp [tillOf], ?_, ?_, fun b hb => ?_, by simp [tillOf]⟩
      · simp only [tillOf, Option.getD_some, List.map_append, List.map_cons,
          List.map_nil]
        refine List.Nodup.append h.ids (List.nodup_singleton _) ?_
        rw [List.disjoint_singleton]
        intro hmem
        obtain ⟨b, hb, hid⟩ := List.mem_map.1 hmem
        have hle := hseq b hb
        have hid : b.id = s.seq + 1 := hid
        omega
      · simp only [tillOf, Option.getD_some, List.map_append, List.map_cons,
          List.map_nil]
        refine List.Nodup.append h.numbers (List.nodup_singleton _) ?_
        rw [List.disjoint_singleton]
        exact hfree
      · simp only [tillOf, Option.getD_some, List.mem_append,
          List.mem_singleton] at hb
        rcases hb with hb | rfl
        · exact h.within b hb
        · exact ⟨hlow, by change n ≤ MAX_OPEN_BILLS; omega⟩

/-- What a till is without one of its bills. -/
theorem withoutBill_cases (t : Till) (seq id : ℕ) :
    (withoutBill t seq id = (t, seq) ∧ ∀ b ∈ t.bills, b.id ≠ id) ∨
    (withoutBill t seq id = (⟨[blankBill (seq + 1) 1], seq + 1⟩, seq + 1) ∧
      ∀ b ∈ t.bills, b.id = id) ∨
    ∃ active, withoutBill t seq id =
        (⟨t.bills.filter fun b => decide (b.id ≠ id), active⟩, seq) ∧
      (t.bills.filter fun b => decide (b.id ≠ id)) ≠ [] ∧
      (active ∈ (t.bills.filter fun b => decide (b.id ≠ id)).map OpenBill.id ∨
        (active = t.active ∧ t.active ≠ id)) := by
  unfold withoutBill
  cases hat : t.bills.findIdx? fun b => decide (b.id = id) with
  | none =>
      rw [List.findIdx?_eq_none_iff] at hat
      exact .inl ⟨rfl, fun b hb => of_decide_eq_false (hat b hb)⟩
  | some at_ =>
      dsimp only
      split
      · next hnil =>
          refine .inr (.inl ⟨rfl, fun b hb => ?_⟩)
          by_contra hid
          have hmem : b ∈ t.bills.filter fun b => decide (b.id ≠ id) :=
            List.mem_filter.2 ⟨hb, decide_eq_true hid⟩
          rw [hnil] at hmem
          exact List.not_mem_nil hmem
      · next hne =>
          refine .inr (.inr ⟨_, rfl, hne, ?_⟩)
          split
          · next hactive =>
              -- The bills before the one that goes are all still there.
              obtain ⟨hlt, -, hbefore⟩ := List.findIdx?_eq_some_iff_getElem.1 hat
              have hlong : at_ ≤
                  (t.bills.filter fun b => decide (b.id ≠ id)).length := by
                have hkept : (t.bills.take at_).filter
                    (fun b => decide (b.id ≠ id)) = t.bills.take at_ := by
                  refine List.filter_eq_self.2 fun b hb => ?_
                  obtain ⟨j, hj, rfl⟩ := List.mem_take_iff_getElem.1 hb
                  have hj' : j < at_ := (Nat.lt_min.1 hj).1
                  have := hbefore j hj'
                  simpa using this
                calc at_ = (t.bills.take at_).length := by
                      rw [List.length_take, Nat.min_eq_left (Nat.le_of_lt hlt)]
                  _ = ((t.bills.take at_).filter
                        fun b => decide (b.id ≠ id)).length := by rw [hkept]
                  _ ≤ _ := List.Sublist.length_le
                      (List.Sublist.filter _ (List.take_sublist ..))
              have hpos : 0 < (t.bills.filter
                  fun b => decide (b.id ≠ id)).length :=
                List.length_pos_iff.2 hne
              have hindex : at_ - 1 < (t.bills.filter
                  fun b => decide (b.id ≠ id)).length := by omega
              rw [List.getElem?_eq_getElem hindex]
              exact .inl (List.mem_map_of_mem (List.getElem_mem hindex))
          · next hactive => exact .inr ⟨rfl, hactive⟩

theorem WellFormed.without {t : Till} (h : WellFormed t) (seq id : ℕ) :
    WellFormed (withoutBill t seq id).1 := by
  rcases withoutBill_cases t seq id with
    ⟨hw, -⟩ | ⟨hw, -⟩ | ⟨active, hw, hne, hactive⟩
  · rw [hw]
    exact h
  · rw [hw]
    exact .single _
  · rw [hw]
    have hsub := List.filter_sublist (p := fun b : OpenBill => decide (b.id ≠ id))
      (l := t.bills)
    refine ⟨hne, h.ids.sublist (hsub.map _), h.numbers.sublist (hsub.map _),
      fun b hb => h.within b (hsub.subset hb), ?_⟩
    rcases hactive with hactive | ⟨rfl, hid⟩
    · exact hactive
    · obtain ⟨b, hb, hbid⟩ := List.mem_map.1 h.active
      refine List.mem_map.2 ⟨b, List.mem_filter.2 ⟨hb, ?_⟩, hbid⟩
      rw [hbid]
      exact decide_eq_true hid

/-! ## What stands on a bill -/

/-- Adding to a line, and taking from it no more than it has. -/
theorem amount_add (it : String) (d : ℚ) (b : OpenBill) (it' : String) :
    (b.add it d).lines.amount it' =
      if it' = it then max 0 (b.lines.amount it' + d) else b.lines.amount it' := by
  unfold OpenBill.add
  dsimp only
  by_cases hit : it' = it
  · subst hit
    rw [if_pos rfl]
    split
    · next hq =>
        rw [max_eq_left hq, Lines.amount, Table.get?_restrict,
          if_neg (by simp)]
        rfl
    · next hq =>
        rw [max_eq_right (le_of_lt (not_le.1 hq)), Lines.amount, Table.get?_set,
          if_pos rfl]
        rfl
  · rw [if_neg hit]
    split
    · rw [Lines.amount, Table.get?_restrict, if_pos (decide_eq_true hit)]
      rfl
    · rw [Lines.amount, Table.get?_set, if_neg hit]
      rfl

/-- What holds of a till in every run: the bills keep what was rung up on them,
nothing has been rung up on a number not given out, and no bill that was sold
is still there. -/
structure Kept (s : Counter) : Prop where
  form : WellFormed (tillOf s)
  issued : ∀ b ∈ (tillOf s).bills, b.id ≤ s.seq
  seq : 1 ≤ s.seq
  rung : ∀ b ∈ (tillOf s).bills, ∀ it, s.rung b.id it = b.lines.amount it
  unissued : ∀ id, s.seq < id → ∀ it, s.rung id it = 0
  nonneg : ∀ id it, 0 ≤ s.rung id it
  calls : ∀ p ∈ s.paying ++ s.accepted, p.bill ≤ s.seq ∧ ∀ it, 0 ≤ p.amount it
  gone : ∀ p ∈ s.accepted, ∀ b ∈ (tillOf s).bills, b.id ≠ p.bill

theorem Kept.init {s : Counter} (h : counterTill.init s) : Kept s := by
  obtain ⟨htill, hseq, hpaying, haccepted, hrung⟩ := h
  have hfresh : tillOf s = freshTill := by rw [tillOf, htill]; rfl
  have hone : ∀ b ∈ freshTill.bills, b = blankBill 1 1 := fun b hb =>
    List.mem_singleton.1 hb
  constructor
  · rw [hfresh]
    exact .single 1
  · intro b hb
    rw [hfresh] at hb
    rw [hone b hb]
    exact hseq
  · exact hseq
  · intro b hb it
    rw [hfresh] at hb
    rw [hone b hb, hrung]
    rfl
  · intro id _ it
    rw [hrung]
  · intro id it
    rw [hrung]
  · rw [hpaying, haccepted]
    exact List.forall_mem_nil _
  · rw [haccepted]
    exact List.forall_mem_nil _

theorem mem_editActive {f : OpenBill → OpenBill} {t : Till} {b : OpenBill}
    (hb : b ∈ (editActive f t).bills) :
    ∃ b₀ ∈ t.bills, b = if b₀.id = t.active then f b₀ else b₀ := by
  obtain ⟨b₀, hb₀, h⟩ := List.mem_map.1 hb
  exact ⟨b₀, hb₀, h.symm⟩

theorem Kept.edit {s : Counter} (h : Kept s) {f : OpenBill → OpenBill}
    {g : String → ℚ → ℚ} (hid : ∀ b, (f b).id = b.id)
    (hn : ∀ b, (f b).n = b.n)
    (hlines : ∀ b it, (f b).lines.amount it = g it (b.lines.amount it))
    (hg : ∀ it q, 0 ≤ q → 0 ≤ g it q) :
    Kept (({ s with till := some (editActive f (tillOf s)) } : Counter).note
      (tillOf s).active g) := by
  have htill : tillOf (({ s with till := some (editActive f (tillOf s)) } :
      Counter).note (tillOf s).active g) = editActive f (tillOf s) := rfl
  constructor
  · exact h.form.edit hid hn
  · intro b hb
    obtain ⟨b₀, hb₀, rfl⟩ := mem_editActive hb
    split
    · rw [hid]
      exact h.issued b₀ hb₀
    · exact h.issued b₀ hb₀
  · exact h.seq
  · intro b hb it
    obtain ⟨b₀, hb₀, rfl⟩ := mem_editActive hb
    have hrung := h.rung b₀ hb₀ it
    unfold Counter.note
    dsimp only
    split
    · next hactive =>
        rw [hid, if_pos hactive, hrung, hlines]
    · exact hrung
  · intro id hlt it
    obtain ⟨b, hb, hactive⟩ := List.mem_map.1 h.form.active
    have hle := h.issued b hb
    have hne : ¬id = (tillOf s).active := by
      rintro rfl
      have hlt : s.seq < (tillOf s).active := hlt
      omega
    unfold Counter.note
    dsimp only
    rw [if_neg hne]
    exact h.unissued id hlt it
  · intro id it
    unfold Counter.note
    dsimp only
    split
    · exact hg it _ (h.nonneg id it)
    · exact h.nonneg id it
  · exact h.calls
  · intro p hp b hb
    obtain ⟨b₀, hb₀, rfl⟩ := mem_editActive hb
    split
    · rw [hid]
      exact h.gone p hp b₀ hb₀
    · exact h.gone p hp b₀ hb₀

theorem Kept.add {s : Counter} (h : Kept s) (it : String) (d : ℚ) :
    Kept (({ s with till := some (editActive (.add it d) (tillOf s)) } :
      Counter).note (tillOf s).active
        fun it' q => if it' = it then max 0 (q + d) else q) := by
  refine h.edit (fun _ => rfl) (fun _ => rfl) (amount_add it d) ?_
  intro it' q hq
  split
  · exact le_max_left ..
  · exact hq

theorem Kept.clear {s : Counter} (h : Kept s) :
    Kept (({ s with till := some (editActive .clear (tillOf s)) } :
      Counter).note (tillOf s).active fun _ _ => 0) :=
  h.edit (fun _ => rfl) (fun _ => rfl) (fun _ _ => rfl) fun _ _ _ => le_refl 0

theorem note_self (s : Counter) (id : ℕ) : s.note id (fun _ q => q) = s := by
  unfold Counter.note
  congr 1
  funext id' it
  exact ite_self _

theorem Kept.fill {s : Counter} (h : Kept s) (form : BillForm) :
    Kept { s with till := some (editActive (.fill form) (tillOf s)) } := by
  have hkept := h.edit (f := .fill form) (g := fun _ q => q) (fun _ => rfl)
    (fun _ => rfl) (fun _ _ => rfl) fun _ _ hq => hq
  rwa [note_self] at hkept

/-- The till rewritten, with bills it had or one nobody has touched. -/
theorem Kept.rewrite {s : Counter} (h : Kept s) {t : Till} {seq : ℕ}
    (hform : WellFormed t) (hseq : s.seq ≤ seq)
    (hbills : ∀ b ∈ t.bills, b ∈ (tillOf s).bills ∨
      (s.seq < b.id ∧ b.id ≤ seq ∧ ∀ it, b.lines.amount it = 0)) :
    Kept { s with till := some t, seq := seq } := by
  constructor
  · exact hform
  · intro b hb
    rcases hbills b hb with hb | ⟨-, hle, -⟩
    · exact Nat.le_trans (h.issued b hb) hseq
    · exact hle
  · exact Nat.le_trans h.seq hseq
  · intro b hb it
    rcases hbills b hb with hb | ⟨hnew, -, hblank⟩
    · exact h.rung b hb it
    · rw [hblank]
      exact h.unissued b.id hnew it
  · intro id hlt it
    exact h.unissued id (Nat.lt_of_le_of_lt hseq hlt) it
  · exact h.nonneg
  · intro p hp
    exact ⟨Nat.le_trans (h.calls p hp).1 hseq, (h.calls p hp).2⟩
  · intro p hp b hb
    rcases hbills b hb with hb | ⟨hnew, -, -⟩
    · exact h.gone p hp b hb
    · have := (h.calls p (List.mem_append_right _ hp)).1
      omega

theorem Kept.elsewhere {s : Counter} (h : Kept s) :
    Kept { s with seq := s.seq + 1 } := by
  have hkept := h.rewrite (t := tillOf s) h.form (Nat.le_succ s.seq)
    fun b hb => .inl hb
  exact ⟨hkept.form, hkept.issued, hkept.seq, hkept.rung, hkept.unissued,
    hkept.nonneg, hkept.calls, hkept.gone⟩

theorem Kept.switch {s : Counter} (h : Kept s) (id : ℕ) :
    Kept { s with till := some (switchBill id (tillOf s)) } := by
  refine h.rewrite (h.form.switch id) (Nat.le_refl s.seq) fun b hb => .inl ?_
  unfold switchBill at hb
  split at hb
  · exact hb
  · exact hb

theorem Kept.newBill {s : Counter} (h : Kept s) : Kept (Tills.newBill s) := by
  have hform := h.form.newBill h.issued
  unfold Tills.newBill at hform ⊢
  dsimp only at hform ⊢
  split
  · exact h
  · next hroom =>
      rw [if_neg hroom] at hform
      refine h.rewrite hform (Nat.le_succ _) fun b hb => ?_
      rcases List.mem_append.1 hb with hb | hb
      · exact .inl hb
      · obtain rfl := List.mem_singleton.1 hb
        exact .inr ⟨Nat.lt_succ_self _, Nat.le_refl _, fun _ => rfl⟩

/-- The bills after one has gone: those with another id, or a blank one. -/
theorem mem_drop {s : Counter} {id : ℕ} {b : OpenBill}
    (hb : b ∈ (tillOf (s.drop id)).bills) :
    (b ∈ (tillOf s).bills ∧ b.id ≠ id) ∨
      (b = blankBill (s.seq + 1) 1 ∧ (s.drop id).seq = s.seq + 1) := by
  unfold Counter.drop at hb ⊢
  dsimp only at hb ⊢
  rcases withoutBill_cases (tillOf s) s.seq id with
    ⟨hw, hother⟩ | ⟨hw, -⟩ | ⟨active, hw, -, -⟩
  · rw [hw] at hb
    exact .inl ⟨hb, hother b hb⟩
  · rw [hw] at hb ⊢
    exact .inr ⟨List.mem_singleton.1 hb, rfl⟩
  · rw [hw] at hb
    obtain ⟨hb, hid⟩ := List.mem_filter.1 hb
    exact .inl ⟨hb, of_decide_eq_true hid⟩

theorem le_seq_drop (s : Counter) (id : ℕ) : s.seq ≤ (s.drop id).seq := by
  unfold Counter.drop
  dsimp only
  rcases withoutBill_cases (tillOf s) s.seq id with
    ⟨hw, -⟩ | ⟨hw, -⟩ | ⟨active, hw, -, -⟩
  · rw [hw]
  · rw [hw]
    exact Nat.le_succ _
  · rw [hw]

theorem Kept.drop {s : Counter} (h : Kept s) (id : ℕ) : Kept (s.drop id) := by
  refine h.rewrite (h.form.without s.seq id) (le_seq_drop s id) fun b hb => ?_
  rcases mem_drop hb with ⟨hb, -⟩ | ⟨rfl, hseq⟩
  · exact .inl hb
  · exact .inr ⟨Nat.lt_succ_self _, Nat.le_of_eq hseq.symm, fun _ => rfl⟩

/-- A bill that is gone is written down to nothing. -/
theorem Kept.writeDown {s : Counter} (h : Kept s) {id : ℕ}
    (hid : ∀ b ∈ (tillOf s).bills, b.id ≠ id) :
    Kept (s.note id fun _ _ => 0) := by
  refine ⟨h.form, h.issued, h.seq, fun b hb it => ?_, fun id' hlt it => ?_,
    fun id' it => ?_, h.calls, h.gone⟩
  · unfold Counter.note
    dsimp only
    rw [if_neg (hid b hb)]
    exact h.rung b hb it
  · unfold Counter.note
    dsimp only
    split
    · rfl
    · exact h.unissued id' hlt it
  · unfold Counter.note
    dsimp only
    split
    · exact le_refl 0
    · exact h.nonneg id' it

theorem Kept.discard {s : Counter} (h : Kept s) {id : ℕ}
    (hon : (tillOf s).bills.any (fun b => decide (b.id = id)) = true) :
    Kept ((s.drop id).note id fun _ _ => 0) := by
  refine (h.drop id).writeDown fun b hb => ?_
  rcases mem_drop hb with ⟨-, hne⟩ | ⟨rfl, -⟩
  · exact hne
  · obtain ⟨b, hb, hid⟩ := List.any_eq_true.1 hon
    have hle := h.issued b hb
    have hid : b.id = id := of_decide_eq_true hid
    change s.seq + 1 ≠ id
    omega

theorem Kept.pay {s : Counter} (h : Kept s) {b : OpenBill}
    (hb : b ∈ (tillOf s).bills) {p : PayCall} (hbill : p.bill = b.id)
    (hlines : p.lines = b.lines.rows) :
    Kept { s with paying := s.paying ++ [p] } := by
  refine ⟨h.form, h.issued, h.seq, h.rung, h.unissued, h.nonneg,
    fun q hq => ?_, h.gone⟩
  have hq : q ∈ s.paying ++ s.accepted ∨ q = p := by
    simp only [List.mem_append, List.mem_singleton] at hq ⊢
    tauto
  rcases hq with hq | rfl
  · exact h.calls q hq
  · refine ⟨hbill ▸ h.issued b hb, fun it => ?_⟩
    have hamount : q.amount it = b.lines.amount it := by
      rw [PayCall.amount, hlines]
      rfl
    rw [hamount, ← h.rung b hb it]
    exact h.nonneg b.id it

/-- An answered pay is no longer in flight. -/
theorem Kept.answered {s : Counter} (h : Kept s) (i : ℕ) :
    Kept { s with paying := s.paying.eraseIdx i } := by
  refine ⟨h.form, h.issued, h.seq, h.rung, h.unissued, h.nonneg,
    fun p hp => h.calls p ?_, h.gone⟩
  rcases List.mem_append.1 hp with hp | hp
  · exact List.mem_append_left _ (List.mem_of_mem_eraseIdx hp)
  · exact List.mem_append_right _ hp

theorem Kept.accept {s : Counter} (h : Kept s) {i : ℕ} {p : PayCall}
    (hp : s.paying[i]? = some p) :
    Kept { s.drop p.bill with
      paying := s.paying.eraseIdx i, accepted := s.accepted ++ [p] } := by
  have hdrop := (h.drop p.bill).answered i
  have hcall := h.calls p (List.mem_append_left _ (List.mem_of_getElem? hp))
  refine ⟨hdrop.form, hdrop.issued, hdrop.seq, hdrop.rung, hdrop.unissued,
    hdrop.nonneg, fun q hq => ?_, fun q hq b hb => ?_⟩
  · rcases List.mem_append.1 hq with hq | hq
    · exact hdrop.calls q (List.mem_append_left _ hq)
    · rcases List.mem_append.1 hq with hq | hq
      · exact hdrop.calls q (List.mem_append_right _ hq)
      · obtain rfl := List.mem_singleton.1 hq
        exact ⟨Nat.le_trans hcall.1 (le_seq_drop s _), hcall.2⟩
  · rcases List.mem_append.1 hq with hq | hq
    · exact hdrop.gone q hq b hb
    · obtain rfl := List.mem_singleton.1 hq
      rcases mem_drop hb with ⟨-, hne⟩ | ⟨rfl, -⟩
      · exact hne
      · have := hcall.1
        change s.seq + 1 ≠ q.bill
        omega

theorem mem_activeBill {t : Till} {b : OpenBill} (h : activeBill t = some b) :
    b ∈ t.bills := by
  unfold activeBill at h
  cases hfind : t.bills.find? fun b => decide (b.id = t.active) with
  | some b' =>
      rw [hfind, Option.some_or] at h
      cases h
      exact List.mem_of_find?_eq_some hfind
  | none =>
      rw [hfind, Option.none_or] at h
      exact List.mem_of_head? h

theorem Kept.step {s s' : Counter} {e : Counter.Event} (h : Kept s)
    (he : s.step e = some s') : Kept s' := by
  cases e with
  | add it d => cases he; exact h.add it d
  | clear => cases he; exact h.clear
  | newBill => cases he; exact h.newBill
  | switchBill id => cases he; exact h.switch id
  | discardBill id =>
      cases he
      split
      · next hon => exact h.discard hon
      · exact h.drop id
  | setBill form => cases he; exact h.fill form
  | pay tender payer custName custPhone =>
      obtain ⟨b, hb, he⟩ := Option.bind_eq_some_iff.1 he
      split at he
      · cases he
      · cases he
        exact h.pay (mem_activeBill hb) rfl rfl
  | accepted i =>
      obtain ⟨p, hp, he⟩ := Option.map_eq_some_iff.1 he
      subst he
      exact h.accept hp
  | refused i =>
      obtain ⟨p, hp, he⟩ := Option.map_eq_some_iff.1 he
      subst he
      exact h.answered i
  | elsewhere =>
      cases he
      exact h.elsewhere

theorem kept_reach {s : Counter} (hr : counterTill.Reach s) : Kept s :=
  Machine.Reach.invariant (fun _ h => .init h) (fun _ _ _ _ h he => h.step he) hr

/-! ## Nothing is lost -/

/-- What a bill has of an item, while it is on the till. -/
def onTill (s : Counter) (id : ℕ) (it : String) : ℚ :=
  ((tillOf s).bills.find? fun b => decide (b.id = id)).elim 0
    fun b => b.lines.amount it

/-- What the accepted pays on a bill carried of an item. -/
def sold (s : Counter) (id : ℕ) (it : String) : ℚ :=
  ((s.accepted.filter fun p => decide (p.bill = id)).map
    fun p => p.amount it).sum

/-- What was rung up on a bill was sold or is still there. -/
def NothingLost (s : Counter) : Prop :=
  ∀ id it, s.rung id it ≤ sold s id it + onTill s id it

/-- No pay is accepted whose bill has a line above what the pay carried. -/
def Unswollen (s : Counter) : Counter.Event → Prop
  | .accepted i => ∀ p, s.paying[i]? = some p →
      ∀ b ∈ (tillOf s).bills, b.id = p.bill →
        ∀ it, b.lines.amount it ≤ p.amount it
  | _ => True

theorem onTill_of_mem {s : Counter} (h : Kept s) {b : OpenBill}
    (hb : b ∈ (tillOf s).bills) (it : String) :
    onTill s b.id it = b.lines.amount it := by
  have hfind : (tillOf s).bills.find? (fun b' => decide (b'.id = b.id)) =
      some b := by
    cases hf : (tillOf s).bills.find? fun b' => decide (b'.id = b.id) with
    | none =>
        have := List.find?_eq_none.1 hf b hb
        simp at this
    | some b' =>
        have hid : b'.id = b.id := by simpa using List.find?_some hf
        rw [List.inj_on_of_nodup_map h.form.ids (List.mem_of_find?_eq_some hf)
          hb hid]
  rw [onTill, hfind]
  rfl

theorem onTill_of_gone {s : Counter} {id : ℕ}
    (h : ∀ b ∈ (tillOf s).bills, b.id ≠ id) (it : String) :
    onTill s id it = 0 := by
  have hfind : (tillOf s).bills.find? (fun b => decide (b.id = id)) = none := by
    rw [List.find?_eq_none]
    intro b hb
    simpa using h b hb
  rw [onTill, hfind]
  rfl

theorem sold_nonneg {s : Counter} (h : Kept s) (id : ℕ) (it : String) :
    0 ≤ sold s id it := by
  refine List.sum_nonneg fun q hq => ?_
  obtain ⟨p, hp, rfl⟩ := List.mem_map.1 hq
  have hp := List.mem_append_right s.paying (List.mem_filter.1 hp).1
  exact (h.calls p hp).2 it

/-- The bills that are gone were sold at what was rung up on them. -/
def Covered (s : Counter) : Prop :=
  ∀ id, (∀ b ∈ (tillOf s).bills, b.id ≠ id) →
    ∀ it, s.rung id it ≤ sold s id it

theorem nothingLost_iff {s : Counter} (h : Kept s) :
    NothingLost s ↔ Covered s := by
  constructor
  · intro hlost id hgone it
    have hle := hlost id it
    rwa [onTill_of_gone hgone, add_zero] at hle
  · intro hcov id it
    by_cases hon : ∃ b ∈ (tillOf s).bills, b.id = id
    · obtain ⟨b, hb, rfl⟩ := hon
      rw [h.rung b hb, onTill_of_mem h hb]
      exact le_add_of_nonneg_left (sold_nonneg h b.id it)
    · have hgone : ∀ b ∈ (tillOf s).bills, b.id ≠ id := fun b hb hid =>
        hon ⟨b, hb, hid⟩
      rw [onTill_of_gone hgone, add_zero]
      exact hcov id hgone it

theorem Covered.edit {s : Counter} (hk : Kept s) (h : Covered s)
    {f : OpenBill → OpenBill} {g : String → ℚ → ℚ} (hid : ∀ b, (f b).id = b.id) :
    Covered (({ s with till := some (editActive f (tillOf s)) } : Counter).note
      (tillOf s).active g) := by
  intro id hgone it
  have hids : id ∉ (tillOf s).bills.map OpenBill.id := by
    rw [← editActive_map OpenBill.id hid]
    intro hmem
    obtain ⟨b, hb, hbid⟩ := List.mem_map.1 hmem
    exact hgone b hb hbid
  have hne : ¬id = (tillOf s).active := by
    rintro rfl
    exact hids hk.form.active
  unfold Counter.note
  dsimp only
  rw [if_neg hne]
  exact h id (fun b hb hbid => hids (List.mem_map.2 ⟨b, hb, hbid⟩)) it

theorem sold_accept (s : Counter) (p : PayCall) (id : ℕ) (it : String) :
    (((s.accepted ++ [p]).filter fun p => decide (p.bill = id)).map
      fun p => p.amount it).sum =
      sold s id it + if p.bill = id then p.amount it else 0 := by
  rw [List.filter_append, List.map_append, List.sum_append, sold]
  by_cases hp : p.bill = id
  · simp [hp]
  · simp [hp]

/-- A bill that is not on the till after one has gone was not before, or is the
one that went. -/
theorem gone_of_drop {s : Counter} {id id' : ℕ}
    (h : ∀ b ∈ (tillOf (s.drop id)).bills, b.id ≠ id') (hne : id' ≠ id) :
    ∀ b ∈ (tillOf s).bills, b.id ≠ id' := by
  intro b hb hid
  subst hid
  refine h b ?_ rfl
  change b ∈ (withoutBill (tillOf s) s.seq id).1.bills
  rcases withoutBill_cases (tillOf s) s.seq id with
    ⟨hw, -⟩ | ⟨hw, hall⟩ | ⟨active, hw, -, -⟩
  · rw [hw]
    exact hb
  · exact absurd (hall b hb) hne
  · rw [hw]
    exact List.mem_filter.2 ⟨hb, decide_eq_true hne⟩

theorem Covered.discard {s : Counter} (hk : Kept s) (h : Covered s) {id : ℕ} :
    Covered ((s.drop id).note id fun _ _ => 0) := by
  intro id' hgone it
  unfold Counter.note
  dsimp only
  split
  · exact sold_nonneg hk id' it
  · next hne => exact h id' (gone_of_drop hgone hne) it

theorem Covered.drop {s : Counter} (h : Covered s) {id : ℕ}
    (hoff : ¬(tillOf s).bills.any (fun b => decide (b.id = id)) = true) :
    Covered (s.drop id) := by
  intro id' hgone it
  by_cases hne : id' = id
  · subst hne
    refine h id' (fun b hb hid => hoff ?_) it
    exact List.any_eq_true.2 ⟨b, hb, decide_eq_true hid⟩
  · exact h id' (gone_of_drop hgone hne) it

/-- A bill that was paid is covered by its pay, where none of its lines has
grown past it. -/
theorem Covered.accept {s : Counter} (hk : Kept s) (h : Covered s) {i : ℕ}
    {p : PayCall} (hp : s.paying[i]? = some p)
    (hsmall : ∀ b ∈ (tillOf s).bills, b.id = p.bill →
      ∀ it, b.lines.amount it ≤ p.amount it) :
    Covered { s.drop p.bill with
      paying := s.paying.eraseIdx i, accepted := s.accepted ++ [p] } := by
  have hcall := hk.calls p (List.mem_append_left _ (List.mem_of_getElem? hp))
  intro id hgone it
  change s.rung id it ≤ _
  rw [sold]
  rw [sold_accept]
  by_cases hid : p.bill = id
  · subst hid
    rw [if_pos rfl]
    by_cases hon : ∃ b ∈ (tillOf s).bills, b.id = p.bill
    · obtain ⟨b, hb, hbid⟩ := hon
      rw [← hbid, hk.rung b hb]
      refine le_trans (hsmall b hb hbid it) (le_add_of_nonneg_left ?_)
      exact sold_nonneg hk _ it
    · have hle := h p.bill (fun b hb hbid => hon ⟨b, hb, hbid⟩) it
      exact le_add_of_le_of_nonneg hle (hcall.2 it)
  · rw [if_neg hid, add_zero]
    exact h id (gone_of_drop hgone (Ne.symm hid)) it

theorem Covered.step {s s' : Counter} {e : Counter.Event} (hk : Kept s)
    (h : Covered s) (hC : Unswollen s e) (he : s.step e = some s') :
    Covered s' := by
  cases e with
  | add it d => cases he; exact h.edit hk fun _ => rfl
  | clear => cases he; exact h.edit hk fun _ => rfl
  | newBill =>
      cases he
      intro id hgone it
      unfold Tills.newBill at hgone ⊢
      dsimp only at hgone ⊢
      split at hgone
      · next hfull =>
          rw [if_pos hfull]
          exact h id hgone it
      · next hroom =>
          rw [if_neg hroom]
          exact h id (fun b hb => hgone b (List.mem_append_left _ hb)) it
  | switchBill id =>
      cases he
      intro id' hgone it
      refine h id' (fun b hb => hgone b ?_) it
      change b ∈ (switchBill id (tillOf s)).bills
      unfold switchBill
      split
      · exact hb
      · exact hb
  | discardBill id =>
      cases he
      split
      · exact h.discard hk
      · next hoff => exact h.drop hoff
  | setBill form =>
      cases he
      have hcov := Covered.edit hk h (f := .fill form) (g := fun _ q => q)
        fun _ => rfl
      rwa [note_self] at hcov
  | pay tender payer custName custPhone =>
      obtain ⟨b, hb, he⟩ := Option.bind_eq_some_iff.1 he
      split at he
      · cases he
      · cases he
        exact h
  | accepted i =>
      obtain ⟨p, hp, he⟩ := Option.map_eq_some_iff.1 he
      subst he
      exact h.accept hk hp (hC p hp)
  | refused i =>
      obtain ⟨p, hp, he⟩ := Option.map_eq_some_iff.1 he
      subst he
      exact h
  | elsewhere =>
      cases he
      exact h

theorem covered_reach {s : Counter} (hr : counterTill.ReachVia Unswollen s) :
    Covered s := by
  refine hr.invariant ?_ fun s e s' hreach h hC he =>
    h.step (kept_reach hreach.reach) hC he
  intro s hinit id _ it
  obtain ⟨-, -, -, haccepted, hrung⟩ := hinit
  rw [hrung, sold, haccepted]
  exact le_refl 0

theorem lost_of_swollen {s s' : Counter} {i : ℕ} (hk : Kept s)
    (he : s.step (.accepted i) = some s') (hC : ¬Unswollen s (.accepted i)) :
    ¬NothingLost s' := by
  obtain ⟨p, hp, he⟩ := Option.map_eq_some_iff.1 he
  intro hlost
  apply hC
  intro p' hp' b hb hbid it
  rw [hp] at hp'
  cases hp'
  have hk' := hk.accept hp
  rw [he] at hk'
  have hgone : ∀ b ∈ (tillOf s').bills, b.id ≠ p.bill := by
    refine hk'.gone p ?_
    rw [← he]
    exact List.mem_append_right _ (List.mem_singleton_self p)
  have hle := hlost p.bill it
  have hsold : sold s p.bill it = 0 := by
    have hnone : (s.accepted.filter fun q => decide (q.bill = p.bill)) = [] := by
      rw [List.filter_eq_nil_iff]
      intro q hq hbill
      exact hk.gone q hq b hb (hbid.trans (of_decide_eq_true hbill).symm)
    rw [sold, hnone]
    rfl
  have hrung : s'.rung p.bill it = b.lines.amount it := by
    rw [← he, ← hk.rung b hb it, hbid]
    rfl
  have hsold' : sold s' p.bill it = p.amount it := by
    rw [← he, sold]
    exact (sold_accept s p p.bill it).trans (by rw [hsold, if_pos rfl, zero_add])
  rwa [onTill_of_gone hgone, add_zero, hrung, hsold'] at hle

/-! ## Every run of a till -/

/-- In every run the till keeps its form, an accepted pay takes its own bill
and no other, and a refused one takes nothing. Nothing rung up is lost as long
as no pay is accepted on a bill that has outgrown it, and there it is. -/
theorem nothing_lost {s : Counter} (hr : counterTill.Reach s) :
    WellFormed (tillOf s) ∧
    (∀ s' i p, s.paying[i]? = some p → s.step (.accepted i) = some s' →
      (tillOf s').bills =
          ((tillOf s).bills.filter fun b => decide (b.id ≠ p.bill)) ∨
        ((∀ b ∈ (tillOf s).bills, b.id = p.bill) ∧
          ∃ id, (tillOf s').bills = [blankBill id 1])) ∧
    (∀ s' i, s.step (.refused i) = some s' → tillOf s' = tillOf s) ∧
    (counterTill.ReachVia Unswollen s → NothingLost s) ∧
    (∀ s' i, s.step (.accepted i) = some s' → ¬Unswollen s (.accepted i) →
      ¬NothingLost s') := by
  refine ⟨(kept_reach hr).form, fun s' i p hp he => ?_, fun s' i he => ?_,
    fun hvia => ?_, fun s' i he hC => ?_⟩
  · obtain ⟨p', hp', he⟩ := Option.map_eq_some_iff.1 he
    rw [hp] at hp'
    cases hp'
    have hbills : (tillOf s').bills =
        (withoutBill (tillOf s) s.seq p.bill).1.bills := by
      rw [← he]
      rfl
    rw [hbills]
    rcases withoutBill_cases (tillOf s) s.seq p.bill with
      ⟨hw, hother⟩ | ⟨hw, hall⟩ | ⟨active, hw, -, -⟩
    · rw [hw]
      refine .inl (List.filter_eq_self.2 fun b hb => ?_).symm
      exact decide_eq_true (hother b hb)
    · rw [hw]
      exact .inr ⟨hall, _, rfl⟩
    · rw [hw]
      exact .inl rfl
  · obtain ⟨p, -, he⟩ := Option.map_eq_some_iff.1 he
    rw [← he]
    rfl
  · exact (nothingLost_iff (kept_reach hr)).2 (covered_reach hvia)
  · exact lost_of_swollen (kept_reach hr) he hC

def openCounter : Counter := ⟨none, 1, [], fun _ _ => 0, []⟩

theorem openCounter_init : counterTill.init openCounter :=
  ⟨rfl, Nat.le_refl 1, rfl, rfl, rfl⟩

/-- A second juice rung up while the first one's pay is in flight. -/
def lateJuice : List Counter.Event :=
  [.add "juice" 1, .pay .cash none "" "", .add "juice" 1, .accepted 0]

theorem late_juice_lost :
    ∃ s, counterTill.Reach s ∧ s.rung 1 "juice" = 2 ∧ sold s 1 "juice" = 1 ∧
      ¬NothingLost s := by
  have hany : (counterTill.run openCounter lateJuice).any (fun s =>
      decide (s.rung 1 "juice" = 2 ∧ sold s 1 "juice" = 1 ∧
        onTill s 1 "juice" = 0)) = true := by decide +kernel
  obtain ⟨s, hrun, hs⟩ := (Option.any_eq_true _ _).1 hany
  obtain ⟨hrung, hsold, hon⟩ := of_decide_eq_true hs
  refine ⟨s, Machine.reach_run (.init openCounter_init) hrun, hrung, hsold,
    fun hlost => ?_⟩
  have hle := hlost 1 "juice"
  rw [hrung, hsold, hon] at hle
  exact absurd hle (by norm_num)

/-! Two bills side by side: one is paid while the other is rung up, and the
other is refused. -/

def sideBySide : List Counter.Event :=
  [.add "juice" 2, .newBill, .add "capp" 3, .pay .cash none "" "",
    .switchBill 1, .pay .cash none "" "", .switchBill 2]

/-- The bills being paid stand as their pays carry them. -/
def unchanged (s : Counter) : Counter.Event → Bool
  | .accepted i => (s.paying[i]?).all fun p =>
      (tillOf s).bills.all fun b =>
        decide (b.id ≠ p.bill) || decide (b.lines.rows = p.lines)
  | _ => true

theorem unchanged_sound (s : Counter) (e : Counter.Event)
    (h : unchanged s e = true) : Unswollen s e := by
  cases e with
  | accepted i =>
      intro p hp b hb hbid it
      rw [unchanged, hp, Option.all_some, List.all_eq_true] at h
      have hrow := h b hb
      rw [Bool.or_eq_true, decide_eq_true_eq, decide_eq_true_eq] at hrow
      rcases hrow with hne | hrow
      · exact absurd hbid hne
      · rw [PayCall.amount, ← hrow]
        exact le_refl _
  | add | clear | newBill | switchBill | discardBill | setBill | pay | refused
  | elsewhere => trivial

theorem nothing_lost_juice :
    (∃ s s' s'', counterTill.ReachVia Unswollen s ∧
      s.step (.accepted 1) = some s' ∧ s'.step (.refused 0) = some s'' ∧
      WellFormed (tillOf s'') ∧ tillOf s'' = tillOf s' ∧ NothingLost s' ∧
      s'.rung 1 "juice" = 2 ∧ onTill s' 1 "juice" = 0) ∧
    ∃ s s', counterTill.Reach s ∧ s.step (.accepted 0) = some s' ∧
      ¬NothingLost s' := by
  constructor
  · have hany : (counterTill.runVia unchanged openCounter sideBySide).any
        (fun s => unchanged s (.accepted 1) && (s.step (.accepted 1)).any fun s' =>
          (s'.step (.refused 0)).isSome && decide (s'.rung 1 "juice" = 2 ∧
            onTill s' 1 "juice" = 0)) = true := by decide +kernel
    obtain ⟨s, hrun, hs⟩ := (Option.any_eq_true _ _).1 hany
    obtain ⟨hsame, hs⟩ := (Bool.and_eq_true _ _).mp hs
    obtain ⟨s', hs', hafter⟩ := (Option.any_eq_true _ _).1 hs
    obtain ⟨hsome, hjuice⟩ := (Bool.and_eq_true _ _).mp hafter
    obtain ⟨s'', hs''⟩ := Option.isSome_iff_exists.1 hsome
    have hr : counterTill.ReachVia Unswollen s :=
      Machine.reachVia_runVia unchanged_sound (.init openCounter_init) hrun
    have hr' : counterTill.ReachVia Unswollen s' :=
      hr.step (unchanged_sound s _ hsame) hs'
    obtain ⟨-, -, hrefused, hkept, -⟩ := nothing_lost hr'.reach
    have hr'' : counterTill.Reach s'' :=
      Machine.Reach.step (e := .refused 0) hr'.reach hs''
    exact ⟨s, s', s'', hr, hs', hs'', (nothing_lost hr'').1,
      hrefused s'' 0 hs'', hkept hr', of_decide_eq_true hjuice⟩
  · have hany : (counterTill.run openCounter (lateJuice.take 3)).any (fun s =>
        (s.step (.accepted 0)).isSome && (s.paying[0]?).any fun p =>
          (tillOf s).bills.any fun b => decide (b.id = p.bill ∧
            p.amount "juice" < b.lines.amount "juice")) = true := by
      decide +kernel
    obtain ⟨s, hrun, hs⟩ := (Option.any_eq_true _ _).1 hany
    obtain ⟨hsome, hs⟩ := (Bool.and_eq_true _ _).mp hs
    obtain ⟨s', hs'⟩ := Option.isSome_iff_exists.1 hsome
    obtain ⟨p, hp, hs⟩ := (Option.any_eq_true _ _).1 hs
    obtain ⟨b, hb, hmore⟩ := List.any_eq_true.1 hs
    obtain ⟨hbid, hmore⟩ := of_decide_eq_true hmore
    have hr : counterTill.Reach s :=
      Machine.reach_run (.init openCounter_init) hrun
    obtain ⟨-, -, -, -, hlost⟩ := nothing_lost hr
    refine ⟨s, s', hr, hs', hlost s' 0 hs' fun hC => ?_⟩
    exact absurd (hC p hp b hb hbid "juice") (not_le.2 hmore)

end Rch.Tills
