import Mathlib.Data.List.Forall2

/-!
# What a reader is not told

A cut takes a reader's view of a value. It is blind to a relation when values
that stand in it are cut to the same view, and it is settled when a view cut
again is that view. A record is cut field by field, so the cuts of its fields
are all there is to check: a field kept, a field shut, rows picked out, rows
rewritten one by one.
-/

namespace Kit

structure Cut {α : Type*} (f : α → α) (same : α → α → Prop) : Prop where
  blind : ∀ a b, same a b → f a = f b
  settled : ∀ a, f (f a) = f a

/-- The rows `p` picks are the same; of the others nothing is said. -/
def SameRows {α : Type*} (p : α → Bool) (l l' : List α) : Prop :=
  l.filter p = l'.filter p

namespace Cut

variable {α : Type*} {f g : α → α} {same same' : α → α → Prop}

theorem whole : Cut (fun a : α => a) Eq :=
  ⟨fun _ _ h => h, fun _ => rfl⟩

theorem shut (a : α) : Cut (fun _ => a) (fun _ _ => True) :=
  ⟨fun _ _ _ => rfl, fun _ => rfl⟩

theorem mono (h : Cut f same) (hsub : ∀ a b, same' a b → same a b) :
    Cut f same' :=
  ⟨fun a b hab => h.blind a b (hsub a b hab), h.settled⟩

/-- A cut made for some readers only. -/
theorem exempt (open_ : Bool) (h : Cut f same) :
    Cut (fun a => if open_ then a else f a)
      (fun a b => if open_ then a = b else same a b) := by
  cases open_ with
  | true => exact ⟨fun _ _ h => h, fun _ => rfl⟩
  | false => exact ⟨fun a b hab => h.blind a b hab, fun a => h.settled a⟩

theorem rows (p : α → Bool) : Cut (List.filter p) (SameRows p) :=
  ⟨fun _ _ h => h, fun l => by simp only [List.filter_filter, Bool.and_self]⟩

theorem each (h : ∀ a, g (g a) = g a) :
    Cut (List.map g) (List.Forall₂ fun a b => g a = g b) where
  blind _ _ hab := by
    induction hab with
    | nil => rfl
    | cons hhead _ ih => rw [List.map_cons, List.map_cons, hhead, ih]
  settled l := by
    rw [List.map_map]
    exact List.map_congr_left fun a _ => h a

theorem rows_of {p q : α → Bool} (h : ∀ a, p a = true → q a = true) :
    Cut (List.filter p) (SameRows q) where
  blind l l' hl := by
    have hthrough (l : List α) : l.filter p = (l.filter q).filter p := by
      rw [List.filter_filter]
      refine List.filter_congr fun a _ => ?_
      cases hp : p a with
      | false => rfl
      | true => rw [h a hp, Bool.and_self]
    rw [hthrough l, hthrough l', hl]
  settled := (rows p).settled

theorem rows_kept {p : α → Bool} (hp : ∀ a, p (g a) = p a) (l : List α) :
    ((l.filter p).map g).filter p = (l.filter p).map g := by
  rw [List.filter_eq_self]
  intro a ha
  obtain ⟨b, hb, rfl⟩ := List.mem_map.1 ha
  rw [hp]
  exact (List.mem_filter.1 hb).2

/-- One cut after another, when the second leaves what the first would keep. -/
theorem andThen (hf : Cut f same) (hg : Cut g same')
    (hkeep : ∀ a, f (g (f a)) = g (f a)) :
    Cut (fun a => g (f a)) (fun a b => same a b ∨ same' (f a) (f b)) where
  blind a b h := by
    obtain h | h := h
    · rw [hf.blind a b h]
    · exact hg.blind _ _ h
  settled a := by rw [hkeep, hg.settled]

end Cut

end Kit
