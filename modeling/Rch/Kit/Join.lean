import Rch.Kit.Keyed
import Rch.Kit.Table

/-!
# Left joins, and sums grouped by a foreign key

A left join keeps every row of its left side: beside each row it matches on
the right, or beside nothing. What a report sums over a chain of joins is
decided here, by where a condition stands. In the `on` clause it only decides
what a row is paired with; it never takes the row away.

The other way to sum over rows that refer to a table is to group them by the
row they refer to and add up the groups. Both ways round are one sum over the
referring rows.
-/

namespace Kit

variable {α β : Type}

/-- Every row of `l` beside each row of `r` it matches, or beside nothing. -/
def leftJoin (l : List α) (r : List β) (on : α → β → Bool) :
    List (α × Option β) :=
  l.flatMap fun a =>
    match r.filter (on a) with
    | [] => [(a, none)]
    | bs => bs.map fun b => (a, some b)

/-- Joined to a table that matches each row at most once, the left side comes
through row for row, whatever the condition. -/
theorem leftJoin_map_fst {l : List α} {r : List β} {on : α → β → Bool}
    (h : ∀ a ∈ l, (r.filter (on a)).length ≤ 1) :
    (leftJoin l r on).map Prod.fst = l := by
  induction l with
  | nil => rfl
  | cons a l ih =>
      have hl := ih fun b hb => h b (List.mem_cons_of_mem _ hb)
      have ha := h a List.mem_cons_self
      unfold leftJoin at hl ⊢
      rw [List.flatMap_cons, List.map_append, hl]
      match hf : r.filter (on a), ha with
      | [], _ => rfl
      | [b], _ => rfl

/-- So a figure read off the left side is summed over the left side alone. -/
theorem leftJoin_map_left {γ : Type} {l : List α} {r : List β}
    {on : α → β → Bool} (h : ∀ a ∈ l, (r.filter (on a)).length ≤ 1)
    (g : α → γ) : ((leftJoin l r on).map fun j => g j.1) = l.map g := by
  rw [← congrArg (List.map g) (leftJoin_map_fst h), List.map_map]
  rfl

theorem Table.filter_key_length_le {κ ρ : Type} [DecidableEq κ]
    (t : Table κ ρ) (k : κ) (p : ρ → Bool) :
    (t.rows.filter fun x => decide (x.1 = k) && p x.2).length ≤ 1 := by
  have hsub : ((t.rows.filter fun x => decide (x.1 = k) && p x.2).map
      Prod.fst).Nodup := t.keys_nodup.sublist (List.filter_sublist.map _)
  have hall : ∀ x ∈ (t.rows.filter fun x => decide (x.1 = k) && p x.2).map
      Prod.fst, x = k := by
    intro x hx
    obtain ⟨y, hy, rfl⟩ := List.mem_map.1 hx
    simp only [List.mem_filter, Bool.and_eq_true, decide_eq_true_eq] at hy
    exact hy.2.1
  rw [← List.length_map Prod.fst]
  generalize (t.rows.filter fun x => decide (x.1 = k) && p x.2).map
    Prod.fst = l at hsub hall
  match l, hsub, hall with
  | [], _, _ => exact Nat.zero_le 1
  | [_], _, _ => exact Nat.le_refl 1
  | a :: b :: _, hsub, hall =>
      rw [List.nodup_cons] at hsub
      have hab : a = b := (hall a (by simp)).trans (hall b (by simp)).symm
      exact absurd (hab ▸ List.mem_cons_self) hsub.1

/-- Sums grouped by a foreign key, over the rows it may refer to: an entry
counts where the row it refers to is one of those asked for. -/
theorem Table.total_sumOn {κ ρ M : Type} [DecidableEq κ] [AddCommMonoid M]
    (t : Table κ ρ) (l : List α) (key : α → κ) (p : ρ → Bool) (f : α → M) :
    (t.total fun k r => if p r then sumOn l key k f else 0) =
      (l.map fun a => if (t.get? (key a)).any p then f a else 0).sum := by
  induction l with
  | nil => exact total_eq_zero fun k r _ => ite_self _
  | cons a l ih =>
      have hsplit : ∀ k r, (k, r) ∈ t.rows →
          (if p r then sumOn (a :: l) key k f else 0) =
            (if p r then if key a = k then f a else 0 else 0) +
              (if p r then sumOn l key k f else 0) := by
        intro k r _
        split
        · exact sumOn_cons ..
        · exact (add_zero 0).symm
      rw [total_congr hsplit, total_add, ih, List.map_cons, List.sum_cons]
      congr 1
      cases hr : t.get? (key a) with
      | none =>
          apply total_eq_zero
          intro k r hmem
          split
          · refine if_neg fun hk => get?_eq_none.1 hr ?_
            rw [hk]
            exact mem_keys hmem
          · rfl
      | some r =>
          rw [total_single hr]
          · simp
          · intro k r' hk
            split
            · exact if_neg hk.symm
            · rfl

end Kit
