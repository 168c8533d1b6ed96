import Mathlib.Tactic.Common

/-!
# Outcomes of a refusable computation

A service that may refuse is a computation in `Except`. What an accepted call
did is read off its steps one at a time: a bind that ended well had a first
half that ended well, a guard that let the call through held, a lookup that
did not refuse found something. These are the rules that peel those steps.
-/

namespace Kit

variable {ε α β : Type}

theorem bind_ok {x : Except ε α} {f : α → Except ε β} {b : β} :
    (x >>= f) = .ok b ↔ ∃ a, x = .ok a ∧ f a = .ok b := by
  cases x with
  | error e => simp [bind, Except.bind]
  | ok a => simp [bind, Except.bind]

theorem bind_error {x : Except ε α} {f : α → Except ε β} {e : ε} :
    (x >>= f) = .error e ↔
      x = .error e ∨ ∃ a, x = .ok a ∧ f a = .error e := by
  cases x with
  | error e' => simp [bind, Except.bind]
  | ok a => simp [bind, Except.bind]

theorem pure_error {a : α} {e : ε} :
    (pure a : Except ε α) = .error e ↔ False := by
  simp [pure, Except.pure]

theorem pure_ok {a b : α} : (pure a : Except ε α) = .ok b ↔ a = b := by
  simp [pure, Except.pure]

theorem map_ok {x : Except ε α} {f : α → β} {b : β} :
    (f <$> x) = .ok b ↔ ∃ a, x = .ok a ∧ f a = b := by
  cases x with
  | error e => simp [Functor.map, Except.map]
  | ok a => simp [Functor.map, Except.map]

theorem toOption_eq_some {x : Except ε α} {a : α} :
    x.toOption = some a ↔ x = .ok a := by
  cases x <;> simp [Except.toOption]

/-- Refuse with `e` unless `c` holds. -/
def guardOr (c : Prop) [Decidable c] (e : ε) : Except ε Unit :=
  if c then .ok () else .error e

theorem guardOr_ok {c : Prop} {_ : Decidable c} {e : ε} {u : Unit} :
    guardOr c e = .ok u ↔ c := by
  unfold guardOr
  split <;> simp_all

theorem guardOr_error {c : Prop} {_ : Decidable c} {e e' : ε} :
    guardOr c e = .error e' ↔ ¬c ∧ e = e' := by
  unfold guardOr
  split <;> simp_all

/-- The value of a lookup, refusing with `e` when there is none. -/
def someOr (o : Option α) (e : ε) : Except ε α :=
  match o with
  | some a => .ok a
  | none => .error e

theorem someOr_ok {o : Option α} {e : ε} {a : α} :
    someOr o e = .ok a ↔ o = some a := by
  cases o <;> simp [someOr]

theorem someOr_error {o : Option α} {e e' : ε} :
    someOr o e = .error e' ↔ o = none ∧ e = e' := by
  cases o <;> simp [someOr]

/-- Run a check on each entry in order, stopping at the first refusal. -/
def checkEach : List α → (α → Except ε Unit) → Except ε Unit
  | [], _ => .ok ()
  | a :: l, check => check a >>= fun _ => checkEach l check

theorem checkEach_ok {l : List α} {check : α → Except ε Unit} {u : Unit} :
    checkEach l check = .ok u ↔ ∀ a ∈ l, check a = .ok () := by
  induction l with
  | nil => simp [checkEach]
  | cons a l ih =>
      rw [checkEach, bind_ok, List.forall_mem_cons]
      constructor
      · rintro ⟨⟨⟩, ha, hl⟩
        exact ⟨ha, ih.1 hl⟩
      · rintro ⟨ha, hl⟩
        exact ⟨(), ha, ih.2 hl⟩

theorem checkEach_error {l : List α} {check : α → Except ε Unit} {e : ε}
    (h : checkEach l check = .error e) : ∃ a ∈ l, check a = .error e := by
  induction l with
  | nil => cases h
  | cons a l ih =>
      rw [checkEach, bind_error] at h
      rcases h with h | ⟨_, -, h⟩
      · exact ⟨a, List.mem_cons_self, h⟩
      · obtain ⟨b, hb, h⟩ := ih h
        exact ⟨b, List.mem_cons_of_mem _ hb, h⟩

end Kit
