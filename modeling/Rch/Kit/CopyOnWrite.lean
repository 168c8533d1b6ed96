import Mathlib.Logic.Function.Basic
import Mathlib.Tactic.Common

/-!
# Sheets that owners may share

Each owner is on a sheet or on none, and reads its own entries off the sheet it
is on. Two owners on one sheet see the same entries, so an entry may be written
for one of them only once it is alone on its sheet. To be alone it is put on a
fresh copy; that moves nobody's entries. An entry written on the sheet of an
owner that is alone is seen by that owner and by no other.
-/

namespace Kit

structure Sheets (ω σ ι π : Type*) where
  on : ω → Option σ
  entry : σ → ι → Option π

namespace Sheets

variable {ω σ ι π : Type*} (s : Sheets ω σ ι π)

def view (w : ω) (i : ι) : Option π := (s.on w).bind fun x => s.entry x i

/-- Nobody is on the sheet and nothing is written on it. -/
structure Fresh (y : σ) : Prop where
  nobody : ∀ w, s.on w ≠ some y
  blank : ∀ i, s.entry y i = none

/-- The owner has the sheet to itself. -/
structure Alone (w : ω) (x : σ) : Prop where
  on : s.on w = some x
  only : ∀ v, s.on v = some x → v = w

section Steps

variable [DecidableEq ω] [DecidableEq σ]

/-- The owner is put on `y`, which has what it read so far. -/
def fork (w : ω) (y : σ) : Sheets ω σ ι π where
  on := Function.update s.on w (some y)
  entry := Function.update s.entry y (s.view w)

def write [DecidableEq ι] (x : σ) (i : ι) (p : π) : Sheets ω σ ι π where
  on := s.on
  entry := Function.update s.entry x (Function.update (s.entry x) i (some p))

variable {s} {w : ω} {x y : σ}

theorem on_fork_ne {v : ω} (h : v ≠ w) : (s.fork w y).on v = s.on v :=
  Function.update_of_ne h ..

theorem on_fork_self : (s.fork w y).on w = some y := Function.update_self ..

/-- A fork moves nobody's entries. -/
theorem view_fork (hy : s.Fresh y) : (s.fork w y).view = s.view := by
  funext v i
  by_cases hv : v = w
  · subst hv
    unfold view
    rw [on_fork_self, Option.bind_some]
    exact congrFun (Function.update_self y _ s.entry) i
  · unfold view
    rw [on_fork_ne hv]
    cases hx : s.on v with
    | none => rfl
    | some x =>
        have hne : x ≠ y := by
          rintro rfl
          exact hy.nobody v hx
        exact congrFun (Function.update_of_ne hne _ s.entry) i

theorem alone_fork (hy : s.Fresh y) : (s.fork w y).Alone w y where
  on := on_fork_self
  only v hv := by
    by_contra hne
    rw [on_fork_ne hne] at hv
    exact hy.nobody v hv

/-- Who is alone stays so when another is put on a fresh sheet. -/
theorem Alone.fork {v : ω} (h : s.Alone v x) (hv : v ≠ w) (hy : s.Fresh y) :
    (s.fork w y).Alone v x where
  on := (on_fork_ne hv).trans h.on
  only u hu := by
    by_cases hw : u = w
    · subst hw
      rw [on_fork_self] at hu
      cases hu
      exact absurd h.on (hy.nobody v)
    · rw [on_fork_ne hw] at hu
      exact h.only u hu

/-- What is written for an owner that is alone is seen by it and nobody else. -/
theorem view_write [DecidableEq ι] (h : s.Alone w x) (i : ι) (p : π) (v : ω) (j : ι) :
    (s.write x i p).view v j = if v = w ∧ j = i then some p else s.view v j := by
  unfold view
  change (s.on v).bind (fun x' => (s.write x i p).entry x' j) = _
  cases hv : s.on v with
  | none =>
      rw [if_neg]
      · rfl
      · rintro ⟨rfl, -⟩
        rw [h.on] at hv
        cases hv
  | some x' =>
      rw [Option.bind_some, Option.bind_some]
      unfold write
      dsimp only
      by_cases hx : x' = x
      · subst hx
        have hvw : v = w := h.only v hv
        rw [Function.update_self]
        by_cases hj : j = i
        · subst hj
          rw [Function.update_self, if_pos ⟨hvw, rfl⟩]
        · rw [Function.update_of_ne hj, if_neg fun hand => hj hand.2]
      · rw [Function.update_of_ne hx, if_neg]
        rintro ⟨rfl, -⟩
        rw [h.on] at hv
        cases hv
        exact hx rfl

end Steps

end Sheets

end Kit
