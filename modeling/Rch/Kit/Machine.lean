import Mathlib.Tactic.Common

/-!
# Machines and their runs

A machine is a set of initial states and a partial step: an event either takes
the state on or is refused, and a refused event leaves no trace. Everything
said about a machine is said about its runs, so the rules here turn facts about
one step into facts about every state a run can end in.

`ReachVia` restricts the runs to those whose every step meets a condition on
the state it leaves and the event it takes. It is how a result that needs such
a condition is stated: nothing is assumed about the states, only about the
steps. `Reach` is the same with no condition.
-/

namespace Kit

/-- Initial states and a partial step. -/
structure Machine (σ ε : Type*) where
  init : σ → Prop
  step : σ → ε → Option σ

namespace Machine

variable {σ ε : Type*} {m : Machine σ ε} {P Q : σ → ε → Prop}

/-- Replay a list of events, stopping at the first refusal. -/
def run (m : Machine σ ε) : σ → List ε → Option σ
  | s, [] => some s
  | s, e :: es => (m.step s e).bind fun s' => m.run s' es

theorem run_append (s : σ) (es es' : List ε) :
    m.run s (es ++ es') = (m.run s es).bind fun s' => m.run s' es' := by
  induction es generalizing s with
  | nil => rfl
  | cons e es ih =>
      rw [List.cons_append, run, run, Option.bind_assoc]
      exact Option.bind_congr fun s' _ => ih s'

/-- The states some run reaches, each of whose steps meets `P`. -/
inductive ReachVia (m : Machine σ ε) (P : σ → ε → Prop) : σ → Prop
  | init {s : σ} (h : m.init s) : ReachVia m P s
  | step {s s' : σ} {e : ε} (hs : ReachVia m P s) (hp : P s e)
      (he : m.step s e = some s') : ReachVia m P s'

def Reach (m : Machine σ ε) : σ → Prop := m.ReachVia fun _ _ => True

theorem Reach.init {s : σ} (h : m.init s) : m.Reach s := ReachVia.init h

theorem Reach.step {s s' : σ} {e : ε} (hs : m.Reach s)
    (he : m.step s e = some s') : m.Reach s' := ReachVia.step hs trivial he

theorem ReachVia.mono (h : ∀ s e, P s e → Q s e) {s : σ}
    (hs : m.ReachVia P s) : m.ReachVia Q s := by
  induction hs with
  | init h₀ => exact .init h₀
  | step _ hp he ih => exact .step ih (h _ _ hp) he

theorem ReachVia.reach {s : σ} (hs : m.ReachVia P s) : m.Reach s :=
  hs.mono fun _ _ _ => trivial

/-- A property that holds at the start and survives every step allowed
from a state a run reaches holds wherever those runs end. -/
theorem ReachVia.invariant {I : σ → Prop} (h₀ : ∀ s, m.init s → I s)
    (hstep : ∀ s e s', m.ReachVia P s → I s → P s e →
      m.step s e = some s' → I s') {s : σ} (hs : m.ReachVia P s) : I s := by
  induction hs with
  | init h => exact h₀ _ h
  | step hr hp he ih => exact hstep _ _ _ hr ih hp he

theorem Reach.invariant {I : σ → Prop} (h₀ : ∀ s, m.init s → I s)
    (hstep : ∀ s e s', m.Reach s → I s → m.step s e = some s' → I s')
    {s : σ} (hs : m.Reach s) : I s :=
  ReachVia.invariant h₀ (fun s e s' hr hi _ he => hstep s e s' hr hi he) hs

theorem reachVia_run {s s' : σ} {es : List ε} (hs : m.ReachVia P s)
    (hp : ∀ e ∈ es, ∀ s, P s e) (h : m.run s es = some s') :
    m.ReachVia P s' := by
  induction es generalizing s with
  | nil =>
      cases h
      exact hs
  | cons e es ih =>
      rw [run, Option.bind_eq_some_iff] at h
      obtain ⟨s₁, he, h₁⟩ := h
      rw [List.forall_mem_cons] at hp
      exact ih (hs.step (hp.1 s) he) hp.2 h₁

/-- Replay a list of events, checking each before it is taken. -/
def runVia (m : Machine σ ε) (p : σ → ε → Bool) : σ → List ε → Option σ
  | s, [] => some s
  | s, e :: es =>
    if p s e then (m.step s e).bind fun s' => m.runVia p s' es else none

/-- A replay whose every check passed is a run that meets the condition. -/
theorem reachVia_runVia {p : σ → ε → Bool} (hp : ∀ s e, p s e = true → P s e)
    {s s' : σ} {es : List ε} (hs : m.ReachVia P s)
    (h : m.runVia p s es = some s') : m.ReachVia P s' := by
  induction es generalizing s with
  | nil =>
      cases h
      exact hs
  | cons e es ih =>
      rw [runVia] at h
      split at h
      · next hpe =>
          obtain ⟨s₁, he, h₁⟩ := Option.bind_eq_some_iff.1 h
          exact ih (hs.step (hp s e hpe) he) h₁
      · cases h

theorem reach_run {s s' : σ} {es : List ε} (hs : m.Reach s)
    (h : m.run s es = some s') : m.Reach s' :=
  reachVia_run hs (fun _ _ _ => trivial) h

/-- The machine as it goes on from one state: its runs are what may follow. -/
def startingAt (m : Machine σ ε) (s : σ) : Machine σ ε where
  init := (· = s)
  step := m.step

/-! ## One machine inside another -/

/-- Every step of `m`, seen through `f`, is a run of `n`: whatever holds of
the states `n` reaches holds of the view of the states `m` reaches. -/
theorem Reach.view {τ δ : Type*} {n : Machine τ δ} {f : σ → τ}
    (h₀ : ∀ s, m.init s → n.Reach (f s))
    (hstep : ∀ s e s', m.step s e = some s' → n.Reach (f s) → n.Reach (f s'))
    {s : σ} (hs : m.Reach s) : n.Reach (f s) :=
  hs.invariant h₀ fun s e s' _ hi he => hstep s e s' he hi

end Machine

end Kit
