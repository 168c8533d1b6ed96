import Mathlib.Logic.Relation
import Mathlib.Order.Basic
import Rch.Kit.Transactions

/-!
# Who waits for whom

A transaction waits for another while its next statement asks for a lock that
the other keeps out. Where that goes round in a circle nobody in it moves again,
and the database ends one of them.

The rule is the one lock orders are made for: give everything that is waited for
a place, and let whoever is waited for and waits itself wait for a later place.
-/

namespace Kit

/-- Nothing leads back to itself. -/
def Acyclic {α : Type} (r : α → α → Prop) : Prop := ∀ a, ¬Relation.TransGen r a a

/-- Along a chain the places only go up. The last in it need not have one, so
the two steps are looked at together. -/
theorem acyclic_of_rank {α β : Type} [Preorder β] {r : α → α → Prop}
    (rank : α → β) (h : ∀ a b c, r a b → r b c → rank a < rank b) :
    Acyclic r := by
  have hup {a b c : α} (hab : Relation.TransGen r a b) (hbc : r b c) :
      rank a < rank b := by
    induction hab generalizing c with
    | single hab => exact h _ _ _ hab hbc
    | tail _ hmb ih => exact (ih hmb).trans (h _ _ _ hmb hbc)
  intro a ha
  obtain ⟨b, hab, -⟩ := Relation.TransGen.head'_iff.1 ha
  exact lt_irrefl _ (hup ha hab)

/-! ## Taking several in order -/

/-- What is left comes in order, and after all that was taken. -/
def InOrder {α : Type} (r : α → α → Prop) (got todo : List α) : Prop :=
  (∀ a ∈ got, ∀ b ∈ todo, r a b) ∧ todo.Pairwise r

theorem InOrder.start {α : Type} {r : α → α → Prop} {todo : List α}
    (h : todo.Pairwise r) : InOrder r [] todo :=
  ⟨fun _ ha => (nomatch ha), h⟩

theorem InOrder.next {α : Type} {r : α → α → Prop} {a : α} {got todo : List α}
    (h : InOrder r got (a :: todo)) : InOrder r (a :: got) todo := by
  obtain ⟨ha, hrest⟩ := List.pairwise_cons.1 h.2
  refine ⟨fun b hb c hc => ?_, hrest⟩
  rcases List.mem_cons.1 hb with rfl | hb
  · exact ha c hc
  · exact h.1 b hb c (List.mem_cons_of_mem _ hc)

/-! ## The wait-for graph -/

namespace World

variable {σ κ ι τ : Type} [DecidableEq κ]

/-- The next statement of one is kept out by what the other holds. -/
def waits (d : Database σ κ ι τ) (w : World σ κ τ) (i j : ℕ) : Prop :=
  i ≠ j ∧ ∃ x y c s, w.tx i = some x ∧ w.tx j = some y ∧
    d.stmt c x.at_ (x.write w.committed) = some s ∧
    clash s.locks y.held = true

def waitsBy (d : Database σ κ ι τ) (c : ι) (w : World σ κ τ) (i j : ℕ) : Bool :=
  decide (i ≠ j) && (w.tx i).any fun x => (w.tx j).any fun y =>
    (d.stmt c x.at_ (x.write w.committed)).any fun s => clash s.locks y.held

theorem waits_of_waitsBy {d : Database σ κ ι τ} {c : ι} {w : World σ κ τ}
    {i j : ℕ} (h : w.waitsBy d c i j = true) : w.waits d i j := by
  obtain ⟨hij, h⟩ := Bool.and_eq_true_iff.1 h
  obtain ⟨x, hx, h⟩ := (Option.any_eq_true _ _).1 h
  obtain ⟨y, hy, h⟩ := (Option.any_eq_true _ _).1 h
  obtain ⟨s, hs, h⟩ := (Option.any_eq_true _ _).1 h
  exact ⟨of_decide_eq_true hij, x, y, c, s, hx, hy, hs, h⟩

end World

theorem mem_of_clash {κ : Type} [DecidableEq κ] {l l' : List (Lock κ)}
    (h : clash l l' = true) :
    ∃ a ∈ l, ∃ b ∈ l', a.on = b.on ∧ a.mode.conflicts b.mode = true := by
  obtain ⟨a, ha, h⟩ := List.any_eq_true.1 h
  obtain ⟨b, hb, h⟩ := List.any_eq_true.1 h
  obtain ⟨hon, hmode⟩ := Bool.and_eq_true_iff.1 h
  exact ⟨a, ha, b, hb, of_decide_eq_true hon, hmode⟩

end Kit
