import Mathlib.Data.List.Nodup
import Rch.Kit.Machine

/-!
# What a run gives out

Some steps of a machine hand something out. Over a run these make a list, and a
thing that is spent by being handed out, and never handed out once spent, is on
that list at most once.
-/

namespace Kit.Machine

variable {σ ε α : Type*} {m : Machine σ ε} {P : σ → ε → Prop}

/-- What the steps of a run hand out, in order; a run ends at its first refusal. -/
def outputs (m : Machine σ ε) (out : σ → ε → Option α) : σ → List ε → List α
  | _, [] => []
  | s, e :: es =>
    (m.step s e).elim [] fun s' => (out s e).toList ++ m.outputs out s' es

/-- Spent when handed out, handed out only unspent, and spent for good. -/
structure Spends (m : Machine σ ε) (P : σ → ε → Prop) (out : σ → ε → Option α)
    (Spent : σ → α → Prop) : Prop where
  fresh : ∀ s e s' a, m.ReachVia P s → P s e → m.step s e = some s' →
    out s e = some a → ¬ Spent s a
  spends : ∀ s e s' a, m.ReachVia P s → P s e → m.step s e = some s' →
    out s e = some a → Spent s' a
  stays : ∀ s e s' a, m.ReachVia P s → P s e → m.step s e = some s' →
    Spent s a → Spent s' a

variable {out : σ → ε → Option α} {Spent : σ → α → Prop}

theorem Spends.not_spent (h : m.Spends P out Spent) {s : σ} {es : List ε}
    (hs : m.ReachVia P s) (hp : ∀ e ∈ es, ∀ s, P s e) {a : α}
    (ha : a ∈ m.outputs out s es) : ¬ Spent s a := by
  induction es generalizing s with
  | nil => cases ha
  | cons e es ih =>
      rw [List.forall_mem_cons] at hp
      rw [outputs] at ha
      cases he : m.step s e with
      | none =>
          rw [he] at ha
          cases ha
      | some s' =>
          rw [he, Option.elim_some, List.mem_append] at ha
          rcases ha with ha | ha
          · exact h.fresh s e s' a hs (hp.1 s) he (Option.mem_toList.1 ha)
          · exact fun hspent => ih (hs.step (hp.1 s) he) hp.2 ha
              (h.stays s e s' a hs (hp.1 s) he hspent)

/-- So nothing is handed out twice. -/
theorem Spends.nodup (h : m.Spends P out Spent) {s : σ} {es : List ε}
    (hs : m.ReachVia P s) (hp : ∀ e ∈ es, ∀ s, P s e) :
    (m.outputs out s es).Nodup := by
  induction es generalizing s with
  | nil => exact List.nodup_nil
  | cons e es ih =>
      rw [List.forall_mem_cons] at hp
      rw [outputs]
      cases he : m.step s e with
      | none => exact List.nodup_nil
      | some s' =>
          have hs' := hs.step (hp.1 s) he
          rw [Option.elim_some, List.nodup_append]
          refine ⟨?_, ih hs' hp.2, fun a ha b hb hab => ?_⟩
          · cases out s e with
            | none => exact List.nodup_nil
            | some a => exact List.nodup_singleton a
          · subst hab
            exact h.not_spent hs' hp.2 hb
              (h.spends s e s' a hs (hp.1 s) he (Option.mem_toList.1 ha))

end Kit.Machine
