import Mathlib.Data.List.Chain
import Mathlib.Data.List.Sort

/-!
# A trail of changes

Each change of a value is written down with the value before it and the value
after. The trail leads to a value when every change starts where the one before
it ended, none of them stands still, and the last one ends there.

A trail that is read back in the order of its stamps is the trail that was
written, where each change was stamped no earlier than those before it.
-/

namespace Kit

section LeadsTo

variable {γ α : Type*} (old new : γ → α)

structure LeadsTo (l : List γ) (now : α) : Prop where
  linked : l.IsChain fun a b => old b = new a
  moves : ∀ c ∈ l, old c ≠ new c
  ends : ∀ c, l.getLast? = some c → new c = now

variable {old new} {l : List γ} {now : α}

theorem leadsTo_nil (now : α) : LeadsTo old new [] now where
  linked := .nil
  moves := nofun
  ends := nofun

/-- One more change, from where the trail ended. -/
theorem LeadsTo.append (h : LeadsTo old new l now) {c : γ} (hold : old c = now)
    (hmoves : old c ≠ new c) : LeadsTo old new (l ++ [c]) (new c) where
  linked := by
    refine List.isChain_append.2 ⟨h.linked, .singleton c, ?_⟩
    intro a ha b hb
    cases Option.mem_some_iff.1 hb
    exact hold.trans (h.ends a ha).symm
  moves := by
    intro c' hc'
    rcases List.mem_append.1 hc' with hc' | hc'
    · exact h.moves c' hc'
    · exact List.mem_singleton.1 hc' ▸ hmoves
  ends := by
    intro c' hc'
    rw [List.getLast?_append, List.getLast?_singleton, Option.some_or] at hc'
    exact Option.some.inj hc' ▸ rfl

end LeadsTo

section Stamps

variable {γ : Type*} (stamp : γ → ℕ)

/-- Oldest first, and those of one moment as they were written. -/
def byStamp (l : List γ) : List γ :=
  l.insertionSort fun a b => stamp a ≤ stamp b

/-- Each was stamped no earlier than the ones before it. -/
def InStampOrder (l : List γ) : Prop := l.Pairwise fun a b => stamp a ≤ stamp b

variable {stamp} {l : List γ}

theorem byStamp_eq (h : InStampOrder stamp l) : byStamp stamp l = l :=
  h.insertionSort_eq

theorem InStampOrder.append (h : InStampOrder stamp l) {c : γ}
    (hc : ∀ a ∈ l, stamp a ≤ stamp c) : InStampOrder stamp (l ++ [c]) := by
  refine List.pairwise_append.2 ⟨h, List.pairwise_singleton _ c, ?_⟩
  intro a ha b hb
  exact List.mem_singleton.1 hb ▸ hc a ha

end Stamps

end Kit
