import Mathlib.Logic.Function.Basic
import Mathlib.Tactic.Common

/-!
# One live voucher for a document

A document stands idle or is out on a voucher, and it may name the voucher it
is out on. A voucher is written for one document and is live until it is
withdrawn. `OneLive` is the agreement of the two sides: a document that is out
has exactly one live voucher, an idle one has none, and no voucher is for a
document that does not exist.

The two sides are functions of their keys, so that any pair of tables can be
seen this way, and a step is an update of one or both.
-/

namespace Kit

/-- Whether a document is out. -/
inductive Outing (τ : Type*)
  | idle
  | out
  /-- It names its voucher. -/
  | outOn (v : τ)

/-- A voucher: what it is for, and whether it is live. -/
structure Voucher (κ : Type*) where
  for_ : κ
  live : Bool

section OneLive

variable {κ τ : Type*}

def LiveFor (vouchers : τ → Option (Voucher κ)) (k : κ) (v : τ) : Prop :=
  vouchers v = some ⟨k, true⟩

/-- What a document's being out or idle says of its vouchers. -/
def Outing.Tells (vouchers : τ → Option (Voucher κ)) (k : κ) :
    Outing τ → Prop
  | .idle => ∀ v, ¬ LiveFor vouchers k v
  | .out => ∃ v, ∀ u, LiveFor vouchers k u ↔ u = v
  | .outOn v => ∀ u, LiveFor vouchers k u ↔ u = v

structure OneLive (docs : κ → Option (Outing τ))
    (vouchers : τ → Option (Voucher κ)) : Prop where
  known : ∀ v x, vouchers v = some x → (docs x.for_).isSome = true
  tells : ∀ k s, docs k = some s → s.Tells vouchers k

variable {docs : κ → Option (Outing τ)} {vouchers : τ → Option (Voucher κ)}

theorem OneLive.none_live (h : OneLive docs vouchers) {k : κ}
    (hk : docs k = none) (v : τ) : ¬ LiveFor vouchers k v := by
  intro hv
  have hknown := h.known v ⟨k, true⟩ hv
  rw [hk] at hknown
  cases hknown

theorem Outing.Tells.unique {s : Outing τ} {k : κ} {v : τ}
    (h : s.Tells vouchers k) (hv : LiveFor vouchers k v) (u : τ) :
    LiveFor vouchers k u ↔ u = v := by
  cases s with
  | idle => exact absurd hv (h v)
  | out =>
      obtain ⟨w, hw⟩ := h
      rw [hw u, (hw v).1 hv]
  | outOn w => rw [h u, (h v).1 hv]

/-- Only what is live for the document matters to what its outing says. -/
theorem Outing.Tells.congr {s : Outing τ} {k : κ}
    {vouchers' : τ → Option (Voucher κ)} (h : s.Tells vouchers k)
    (hl : ∀ v, LiveFor vouchers' k v ↔ LiveFor vouchers k v) :
    s.Tells vouchers' k := by
  cases s with
  | idle => exact fun v hv => h v ((hl v).1 hv)
  | out =>
      obtain ⟨v, hv⟩ := h
      exact ⟨v, fun u => (hl u).trans (hv u)⟩
  | outOn v => exact fun u => (hl u).trans (h u)

/-! ## The steps -/

/-- A voucher for one document is not live for another. -/
theorem liveFor_update_ne [DecidableEq τ] {k k' : κ} (hk : k' ≠ k) (v : τ) (b : Bool)
    (hold : vouchers v = none ∨ ∃ b', vouchers v = some ⟨k, b'⟩) (u : τ) :
    LiveFor (Function.update vouchers v (some ⟨k, b⟩)) k' u ↔
      LiveFor vouchers k' u := by
  unfold LiveFor
  by_cases hu : u = v
  · subst hu
    rw [Function.update_self, Option.some.injEq, Voucher.mk.injEq]
    refine ⟨fun h => absurd h.1.symm hk, fun h => ?_⟩
    rcases hold with hnone | ⟨b', hsome⟩
    · rw [hnone] at h
      cases h
    · rw [hsome] at h
      cases h
      exact absurd rfl hk
  · rw [Function.update_of_ne hu]

theorem OneLive.raised [DecidableEq κ] (h : OneLive docs vouchers) {k : κ}
    (hk : docs k = none) :
    OneLive (Function.update docs k (some .idle)) vouchers where
  known v x hv := by
    by_cases hx : x.for_ = k
    · rw [hx, Function.update_self]
      rfl
    · rw [Function.update_of_ne hx]
      exact h.known v x hv
  tells k' s hs := by
    by_cases hk' : k' = k
    · subst hk'
      rw [Function.update_self] at hs
      cases hs
      exact h.none_live hk
    · rw [Function.update_of_ne hk'] at hs
      exact h.tells k' s hs

variable [DecidableEq κ] [DecidableEq τ]

/-- A document somebody writes, and a voucher for it: nothing becomes unknown. -/
theorem OneLive.known_update (h : OneLive docs vouchers) (k : κ)
    (s : Outing τ) (v : τ) (b : Bool) (u : τ) (x : Voucher κ)
    (hu : Function.update vouchers v (some ⟨k, b⟩) u = some x) :
    (Function.update docs k (some s) x.for_).isSome = true := by
  by_cases hx : x.for_ = k
  · rw [hx, Function.update_self]
    rfl
  · rw [Function.update_of_ne hx]
    refine h.known u x ?_
    by_cases huv : u = v
    · subst huv
      rw [Function.update_self] at hu
      cases hu
      exact absurd rfl hx
    · rwa [Function.update_of_ne huv] at hu

theorem OneLive.issued (h : OneLive docs vouchers) {k : κ} {v : τ}
    (hk : docs k = some .idle) (hv : vouchers v = none) {s : Outing τ}
    (hs : s = .out ∨ s = .outOn v) :
    OneLive (Function.update docs k (some s))
      (Function.update vouchers v (some ⟨k, true⟩)) := by
  have honly : ∀ u, LiveFor (Function.update vouchers v (some ⟨k, true⟩)) k u ↔
      u = v := by
    intro u
    unfold LiveFor
    by_cases hu : u = v
    · subst hu
      rw [Function.update_self]
      exact ⟨fun _ => rfl, fun _ => rfl⟩
    · rw [Function.update_of_ne hu]
      exact ⟨fun hl => absurd hl (h.tells k .idle hk u), fun hl => absurd hl hu⟩
  refine ⟨h.known_update k _ v _, fun k' s' hs' => ?_⟩
  by_cases hk' : k' = k
  · subst hk'
    rw [Function.update_self] at hs'
    cases hs'
    rcases hs with rfl | rfl
    · exact ⟨v, honly⟩
    · exact honly
  · rw [Function.update_of_ne hk'] at hs'
    exact (h.tells k' s' hs').congr (liveFor_update_ne hk' v true (.inl hv))

/-- The live voucher of a document withdrawn, and the document idle again. -/
theorem OneLive.withdrawn (h : OneLive docs vouchers) {k : κ} {v : τ}
    (hv : LiveFor vouchers k v) :
    OneLive (Function.update docs k (some .idle))
      (Function.update vouchers v (some ⟨k, false⟩)) := by
  obtain ⟨s, hs⟩ := Option.isSome_iff_exists.1 (h.known v _ hv)
  refine ⟨h.known_update k _ v _, fun k' s' hs' => ?_⟩
  by_cases hk' : k' = k
  · subst hk'
    rw [Function.update_self] at hs'
    cases hs'
    intro u hu
    by_cases huv : u = v
    · subst huv
      rw [LiveFor, Function.update_self] at hu
      cases hu
    · -- It was the only live one.
      rw [LiveFor, Function.update_of_ne huv] at hu
      exact huv (((h.tells k' s hs).unique hv u).1 hu)
  · rw [Function.update_of_ne hk'] at hs'
    exact (h.tells k' s' hs').congr
      (liveFor_update_ne hk' v false (.inr ⟨true, hv⟩))

end OneLive

end Kit
