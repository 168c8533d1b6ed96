import Mathlib.Data.List.Basic
import Rch.Kit.Machine

/-!
# Transactions that read what is committed

A transaction runs statement by statement. Each statement sees what is
committed at that instant with the transaction's own writes on top, takes its
locks, and is refused while another transaction holds one that conflicts. The
locks are held to the end. The writes are kept to the end too, and applied to
whatever is committed by then; a transaction that ends any other way leaves
nothing.

The rule is an invariant of the committed state together with a fact about each
open transaction. A transaction keeps its own fact statement by statement. What
another one commits must not disturb it, and there the locks pay: two open
transactions never hold locks that conflict.
-/

namespace Kit

/-! ## Locks on a row -/

/-- The four strengths a row is locked at. A reference to a row takes the
first, and a deletion the last. -/
inductive RowLock
  | keyShare | share | noKeyUpdate | update
deriving DecidableEq

/-- Whether one transaction's lock keeps another's out. -/
def RowLock.conflicts : RowLock → RowLock → Bool
  | .keyShare, .update => true
  | .keyShare, _ => false
  | .share, .noKeyUpdate | .share, .update => true
  | .share, _ => false
  | .noKeyUpdate, .keyShare => false
  | .noKeyUpdate, _ => true
  | .update, _ => true

theorem RowLock.conflicts_comm (a b : RowLock) :
    a.conflicts b = b.conflicts a := by
  cases a <;> cases b <;> rfl

/-- A lock at some strength, on whatever can be locked. -/
structure Lock (κ : Type) where
  on : κ
  mode : RowLock
deriving DecidableEq

section Clash

variable {κ : Type} [DecidableEq κ]

def Lock.conflicts (a b : Lock κ) : Bool :=
  decide (a.on = b.on) && a.mode.conflicts b.mode

/-- Some lock of one list keeps out some lock of the other. -/
def clash (l l' : List (Lock κ)) : Bool :=
  l.any fun a => l'.any fun b => a.conflicts b

theorem clash_comm (l l' : List (Lock κ)) : clash l l' = clash l' l := by
  rw [Bool.eq_iff_iff]
  simp only [clash, List.any_eq_true, Lock.conflicts, Bool.and_eq_true,
    decide_eq_true_eq]
  constructor
  · rintro ⟨a, ha, b, hb, hon, hmode⟩
    exact ⟨b, hb, a, ha, hon.symm, RowLock.conflicts_comm .. ▸ hmode⟩
  · rintro ⟨b, hb, a, ha, hon, hmode⟩
    exact ⟨a, ha, b, hb, hon.symm, RowLock.conflicts_comm .. ▸ hmode⟩

theorem clash_append_left (l₁ l₂ l' : List (Lock κ)) :
    clash (l₁ ++ l₂) l' = (clash l₁ l' || clash l₂ l') := List.any_append

/-- Two locks of one thing that keep each other out make a clash. -/
theorem clash_of_mem {l l' : List (Lock κ)} {k : κ} {a b : RowLock}
    (ha : ⟨k, a⟩ ∈ l) (hb : ⟨k, b⟩ ∈ l') (h : a.conflicts b = true) :
    clash l l' = true := by
  refine List.any_eq_true.2 ⟨_, ha, List.any_eq_true.2 ⟨_, hb, ?_⟩⟩
  simp [Lock.conflicts, h]

end Clash

/-! ## The database and its runs -/

/-- A statement about to run: its locks, its writes, and where it leaves the
transaction. -/
structure Stmt (σ κ τ : Type) where
  locks : List (Lock κ)
  write : σ → σ
  next : τ

/-- A statement that reads, and locks nothing. -/
def Stmt.read {σ κ τ : Type} (next : τ) : Stmt σ κ τ := ⟨[], id, next⟩

/-- A statement that locks one thing and writes nothing. -/
def Stmt.lock {σ κ τ : Type} (on : κ) (mode : RowLock) (next : τ) :
    Stmt σ κ τ := ⟨[⟨on, mode⟩], id, next⟩

/-- An open transaction. -/
structure Tx (σ κ τ : Type) where
  at_ : τ
  held : List (Lock κ)
  write : σ → σ

/-- A transaction with no statement behind it. -/
def Tx.fresh {σ κ τ : Type} (t : τ) : Tx σ κ τ := ⟨t, [], id⟩

/-- The transaction after a statement. -/
def Tx.after {σ κ τ : Type} (x : Tx σ κ τ) (s : Stmt σ κ τ) : Tx σ κ τ :=
  ⟨s.next, s.locks ++ x.held, s.write ∘ x.write⟩

/-- What runs against a database: the places a transaction may start at, its
next statement on what it sees, and the places it may commit at. The choice
stands for what no row decides: a clock, a draw. -/
structure Database (σ κ ι τ : Type) where
  init : σ → Prop
  starts : τ → Bool
  stmt : ι → τ → σ → Option (Stmt σ κ τ)
  done : τ → Bool

structure World (σ κ τ : Type) where
  committed : σ
  /-- Every transaction begun so far, the ended ones gone from their places. -/
  txs : List (Option (Tx σ κ τ))

inductive TxEvent (ι τ : Type)
  | begin_ (t : τ)
  | run (i : ℕ) (c : ι)
  | commit (i : ℕ)
  | abort (i : ℕ)

section World

variable {σ κ τ : Type}

def World.tx (w : World σ κ τ) (i : ℕ) : Option (Tx σ κ τ) := w.txs[i]?.join

/-- Another transaction in this place, or none. -/
def World.put (w : World σ κ τ) (i : ℕ) (x : Option (Tx σ κ τ)) : World σ κ τ :=
  { w with txs := w.txs.set i x }

/-- No other open transaction keeps these locks out. -/
def World.free [DecidableEq κ] (w : World σ κ τ) (i : ℕ) (l : List (Lock κ)) :
    Bool :=
  (List.range w.txs.length).all fun j =>
    decide (j = i) || (w.tx j).all fun y => !clash l y.held

theorem World.lt_of_tx {w : World σ κ τ} {i : ℕ} {x : Tx σ κ τ}
    (h : w.tx i = some x) : i < w.txs.length := by
  unfold World.tx at h
  by_contra hi
  rw [List.getElem?_eq_none (Nat.not_lt.1 hi)] at h
  cases h

theorem World.tx_put {w : World σ κ τ} {i : ℕ} {x : Tx σ κ τ}
    (h : w.tx i = some x) (y : Option (Tx σ κ τ)) (j : ℕ) :
    (w.put i y).tx j = if i = j then y else w.tx j := by
  unfold World.tx World.put
  rw [List.getElem?_set]
  split
  · next hij =>
      subst hij
      rw [if_pos (World.lt_of_tx h), Option.join_some]
  · rfl

/-- Once a transaction is gone, the others are where they were. -/
theorem World.tx_of_put_none {w : World σ κ τ} {i j : ℕ} {x y : Tx σ κ τ}
    (h : w.tx i = some x) (hy : (w.put i none).tx j = some y) :
    w.tx j = some y := by
  rw [World.tx_put h] at hy
  split at hy
  · cases hy
  · exact hy

theorem World.tx_append (w : World σ κ τ) (y : Tx σ κ τ) (j : ℕ) :
    World.tx { w with txs := w.txs ++ [some y] } j =
      if j = w.txs.length then some y else w.tx j := by
  unfold World.tx
  dsimp only
  rw [List.getElem?_append]
  split
  · next hj => rw [if_neg (Nat.ne_of_lt hj)]
  · next hj =>
      split
      · next heq =>
          rw [heq, Nat.sub_self]
          rfl
      · next hne =>
          rw [List.getElem?_eq_none (by simp; omega),
            List.getElem?_eq_none (by omega)]

theorem World.tx_begin {w : World σ κ τ} {t : τ} {i : ℕ} {x : Tx σ κ τ}
    (h : World.tx { w with txs := w.txs ++ [some (.fresh t)] } i = some x) :
    w.tx i = some x ∨ x = .fresh t := by
  rw [World.tx_append] at h
  split at h
  · exact .inr (Option.some.inj h).symm
  · exact .inl h

theorem World.free_iff [DecidableEq κ] {w : World σ κ τ} {i : ℕ}
    {l : List (Lock κ)} :
    w.free i l = true ↔
      ∀ j y, w.tx j = some y → j ≠ i → clash l y.held = false := by
  simp only [World.free, List.all_eq_true, List.mem_range, Bool.or_eq_true,
    decide_eq_true_eq]
  constructor
  · intro h j y hy hij
    rcases h j (World.lt_of_tx hy) with hj | hall
    · exact absurd hj hij
    · rw [hy] at hall
      simpa using hall
  · intro h j _
    by_cases hij : j = i
    · exact .inl hij
    · refine .inr ?_
      cases hy : w.tx j with
      | none => rfl
      | some y => simpa using h j y hy hij

/-- Where one stands is nothing to what it is free of. -/
theorem World.free_put [DecidableEq κ] {w : World σ κ τ} {i : ℕ}
    {x : Tx σ κ τ} (h : w.tx i = some x) (y : Option (Tx σ κ τ))
    (l : List (Lock κ)) : (w.put i y).free i l = w.free i l := by
  rw [Bool.eq_iff_iff, World.free_iff, World.free_iff]
  constructor
  · intro hfree j z hz hji
    refine hfree j z ?_ hji
    rw [World.tx_put h, if_neg (Ne.symm hji), hz]
  · intro hfree j z hz hji
    rw [World.tx_put h, if_neg (Ne.symm hji)] at hz
    exact hfree j z hz hji

theorem World.free_append [DecidableEq κ] (w : World σ κ τ) (y : Tx σ κ τ)
    (l : List (Lock κ)) :
    World.free { w with txs := w.txs ++ [some y] } w.txs.length l =
      w.free w.txs.length l := by
  rw [Bool.eq_iff_iff, World.free_iff, World.free_iff]
  constructor
  · intro hfree j z hz hj
    refine hfree j z ?_ hj
    rw [World.tx_append, if_neg hj, hz]
  · intro hfree j z hz hj
    rw [World.tx_append, if_neg hj] at hz
    exact hfree j z hz hj

/-- What is free of the strongest lock of a row is free of any other. -/
theorem World.free_of_update [DecidableEq κ] {w : World σ κ τ} {i : ℕ} {k : κ}
    (h : w.free i [⟨k, .update⟩] = true) (mode : RowLock) :
    w.free i [⟨k, mode⟩] = true := by
  rw [World.free_iff] at h ⊢
  intro j y hy hji
  rw [Bool.eq_false_iff]
  intro hclash
  obtain ⟨a, ha, hb⟩ := List.any_eq_true.1 hclash
  obtain ⟨b, hb, hconf⟩ := List.any_eq_true.1 hb
  rw [List.mem_singleton.1 ha, Lock.conflicts, Bool.and_eq_true,
    decide_eq_true_eq] at hconf
  obtain ⟨rfl, -⟩ := hconf
  have hall : RowLock.update.conflicts b.mode = true := by
    cases b.mode <;> rfl
  have hupdate : clash [⟨b.on, .update⟩] y.held = true :=
    clash_of_mem List.mem_cons_self hb hall
  rw [h j y hy hji] at hupdate
  cases hupdate

theorem World.free_nil [DecidableEq κ] (w : World σ κ τ) (i : ℕ) :
    w.free i [] = true := World.free_iff.2 fun _ _ _ _ => rfl

end World

namespace Database

variable {σ κ ι τ : Type} [DecidableEq κ]

def step (d : Database σ κ ι τ) (w : World σ κ τ) :
    TxEvent ι τ → Option (World σ κ τ)
  | .begin_ t =>
    if d.starts t then some { w with txs := w.txs ++ [some (.fresh t)] }
    else none
  | .run i c =>
    (w.tx i).bind fun x =>
      (d.stmt c x.at_ (x.write w.committed)).bind fun s =>
        if w.free i s.locks then some (w.put i (x.after s)) else none
  | .commit i =>
    (w.tx i).bind fun x =>
      if d.done x.at_ then
        some { w.put i none with committed := x.write w.committed }
      else none
  | .abort i => (w.tx i).map fun _ => w.put i none

def machine (d : Database σ κ ι τ) : Machine (World σ κ τ) (TxEvent ι τ) where
  init w := d.init w.committed ∧ w.txs = []
  step := d.step

theorem step_begin {d : Database σ κ ι τ} {w w' : World σ κ τ} {t : τ}
    (h : d.step w (.begin_ t) = some w') :
    d.starts t = true ∧ w' = { w with txs := w.txs ++ [some (.fresh t)] } := by
  simp only [step] at h
  split at h
  · next ht =>
      cases h
      exact ⟨ht, rfl⟩
  · cases h

theorem step_run {d : Database σ κ ι τ} {w w' : World σ κ τ} {i : ℕ} {c : ι}
    (h : d.step w (.run i c) = some w') :
    ∃ x s, w.tx i = some x ∧
      d.stmt c x.at_ (x.write w.committed) = some s ∧
      w.free i s.locks = true ∧ w' = w.put i (x.after s) := by
  simp only [step, Option.bind_eq_some_iff] at h
  obtain ⟨x, hx, s, hs, h⟩ := h
  split at h
  · next hfree =>
      cases h
      exact ⟨x, s, hx, hs, hfree, rfl⟩
  · cases h

theorem step_run_of {d : Database σ κ ι τ} {w : World σ κ τ} {i : ℕ} {c : ι}
    {x : Tx σ κ τ} {s : Stmt σ κ τ} (hx : w.tx i = some x)
    (hs : d.stmt c x.at_ (x.write w.committed) = some s)
    (hfree : w.free i s.locks = true) :
    d.step w (.run i c) = some (w.put i (x.after s)) := by
  simp only [step, hx, Option.bind_some, hs, hfree, if_true]

theorem step_commit {d : Database σ κ ι τ} {w w' : World σ κ τ} {i : ℕ}
    (h : d.step w (.commit i) = some w') :
    ∃ x, w.tx i = some x ∧ d.done x.at_ = true ∧
      w' = { w.put i none with committed := x.write w.committed } := by
  simp only [step, Option.bind_eq_some_iff] at h
  obtain ⟨x, hx, h⟩ := h
  split at h
  · next hdone =>
      cases h
      exact ⟨x, hx, hdone, rfl⟩
  · cases h

theorem step_commit_of {d : Database σ κ ι τ} {w : World σ κ τ} {i : ℕ}
    {x : Tx σ κ τ} (hx : w.tx i = some x) (hd : d.done x.at_ = true) :
    d.step w (.commit i) =
      some { w.put i none with committed := x.write w.committed } := by
  simp only [step, hx, Option.bind_some, hd, if_true]

theorem step_abort {d : Database σ κ ι τ} {w w' : World σ κ τ} {i : ℕ}
    (h : d.step w (.abort i) = some w') :
    ∃ x, w.tx i = some x ∧ w' = w.put i none := by
  obtain ⟨x, hx, h⟩ := Option.map_eq_some_iff.1 h
  exact ⟨x, hx, h.symm⟩

/-! ## The rule -/

/-- What a proof supplies. `C` is the condition the runs it is about meet at
every step. -/
structure Kept (d : Database σ κ ι τ) (C : World σ κ τ → TxEvent ι τ → Prop)
    (Inv : σ → Prop) (Ok : σ → Tx σ κ τ → Prop) : Prop where
  init : ∀ s, d.init s → Inv s
  begins : ∀ s t, Inv s → d.starts t = true → Ok s (.fresh t)
  runs : ∀ (w : World σ κ τ) i x c st, C w (.run i c) → w.tx i = some x →
    Inv w.committed → Ok w.committed x →
    d.stmt c x.at_ (x.write w.committed) = some st → Ok w.committed (x.after st)
  commits : ∀ (w : World σ κ τ) i x, C w (.commit i) → w.tx i = some x →
    Inv w.committed → Ok w.committed x → d.done x.at_ = true →
    Inv (x.write w.committed)
  /-- One commits and the other does not notice. -/
  stable : ∀ (w : World σ κ τ) i j x y, C w (.commit i) → i ≠ j →
    w.tx i = some x → w.tx j = some y → Inv w.committed →
    Ok w.committed x → Ok w.committed y → d.done x.at_ = true →
    clash x.held y.held = false → Ok (x.write w.committed) y

/-- What holds of a world. -/
structure Safe (Inv : σ → Prop) (Ok : σ → Tx σ κ τ → Prop) (w : World σ κ τ) :
    Prop where
  inv : Inv w.committed
  ok : ∀ i x, w.tx i = some x → Ok w.committed x
  apart : ∀ i j x y, i ≠ j → w.tx i = some x → w.tx j = some y →
    clash x.held y.held = false

variable {d : Database σ κ ι τ} {C : World σ κ τ → TxEvent ι τ → Prop}
variable {Inv : σ → Prop} {Ok : σ → Tx σ κ τ → Prop} {w w' : World σ κ τ}

theorem Safe.begins (hk : d.Kept C Inv Ok) (h : Safe Inv Ok w) {t : τ}
    (ht : d.starts t = true) :
    Safe Inv Ok { w with txs := w.txs ++ [some (.fresh t)] } := by
  refine ⟨h.inv, fun i x hx => ?_, fun i j x y hij hx hy => ?_⟩
  · rcases World.tx_begin hx with hx | rfl
    · exact h.ok i x hx
    · exact hk.begins _ t h.inv ht
  · rcases World.tx_begin hx with hx | rfl
    · rcases World.tx_begin hy with hy | rfl
      · exact h.apart i j x y hij hx hy
      · rw [clash_comm]
        rfl
    · rfl

theorem Safe.runs (hk : d.Kept C Inv Ok) (h : Safe Inv Ok w) {i : ℕ}
    {x : Tx σ κ τ} {c : ι} {s : Stmt σ κ τ} (hC : C w (.run i c))
    (hx : w.tx i = some x)
    (hs : d.stmt c x.at_ (x.write w.committed) = some s)
    (hfree : w.free i s.locks = true) :
    Safe Inv Ok (w.put i (x.after s)) := by
  rw [World.free_iff] at hfree
  -- The locks just taken were free of every other transaction's.
  have hnew : ∀ j y, j ≠ i → w.tx j = some y →
      clash (x.after s).held y.held = false := by
    intro j y hji hy
    change clash (s.locks ++ x.held) y.held = false
    rw [clash_append_left, hfree j y hy hji,
      h.apart i j x y (Ne.symm hji) hx hy]
    rfl
  refine ⟨h.inv, fun j y hy => ?_, fun j k y z hjk hy hz => ?_⟩
  · rw [World.tx_put hx] at hy
    split at hy
    · cases hy
      exact hk.runs w i x c s hC hx h.inv (h.ok i x hx) hs
    · exact h.ok j y hy
  · rw [World.tx_put hx] at hy hz
    split at hy
    · next hij =>
        cases hy
        rw [if_neg (fun hik => hjk (hij.symm.trans hik))] at hz
        exact hnew k z (fun hki => hjk (hij.symm.trans hki.symm)) hz
    · next hij =>
        split at hz
        · cases hz
          rw [clash_comm]
          exact hnew j y (Ne.symm hij) hy
        · exact h.apart j k y z hjk hy hz

theorem Safe.gone (h : Safe Inv Ok w) {i : ℕ} {x : Tx σ κ τ}
    (hx : w.tx i = some x) {s : σ} (hs : Inv s)
    (hok : ∀ j y, j ≠ i → w.tx j = some y → Ok s y) :
    Safe Inv Ok { w.put i none with committed := s } := by
  have htx : ∀ j y, World.tx { w.put i none with committed := s } j = some y →
      j ≠ i ∧ w.tx j = some y := by
    intro j y hy
    have hput : (w.put i none).tx j = some y := hy
    rw [World.tx_put hx] at hput
    split at hput
    · cases hput
    · next hij => exact ⟨Ne.symm hij, hput⟩
  refine ⟨hs, fun j y hy => ?_, fun j k y z hjk hy hz => ?_⟩
  · exact hok j y (htx j y hy).1 (htx j y hy).2
  · exact h.apart j k y z hjk (htx j y hy).2 (htx k z hz).2

/-- No transaction is open at the start. -/
theorem Safe.idle {s : σ} (hs : Inv s) : Safe Inv Ok (⟨s, []⟩ : World σ κ τ) := by
  refine ⟨hs, fun i x hx => ?_, fun i j x y _ hx => ?_⟩ <;> cases hx

theorem Safe.step (hk : d.Kept C Inv Ok) (h : Safe Inv Ok w)
    {e : TxEvent ι τ} (hC : C w e) (he : d.step w e = some w') :
    Safe Inv Ok w' := by
  cases e with
  | begin_ t =>
      obtain ⟨ht, rfl⟩ := step_begin he
      exact h.begins hk ht
  | run i c =>
      obtain ⟨x, s, hx, hs, hfree, rfl⟩ := step_run he
      exact h.runs hk hC hx hs hfree
  | commit i =>
      obtain ⟨x, hx, hdone, rfl⟩ := step_commit he
      refine h.gone hx
        (hk.commits w i x hC hx h.inv (h.ok i x hx) hdone) ?_
      intro j y hji hy
      exact hk.stable w i j x y hC (Ne.symm hji) hx hy h.inv (h.ok i x hx)
        (h.ok j y hy) hdone (h.apart i j x y (Ne.symm hji) hx hy)
  | abort i =>
      obtain ⟨x, hx, rfl⟩ := step_abort (d := d) he
      exact h.gone hx h.inv fun j y _ hy => h.ok j y hy

/-- Whatever the order of the statements, the committed state keeps its
invariant and every open transaction its own fact. -/
theorem Kept.safe (hk : d.Kept C Inv Ok) (hr : d.machine.ReachVia C w) :
    Safe Inv Ok w := by
  refine hr.invariant ?_ fun w e w' _ h hC he => h.step hk hC he
  rintro ⟨s, txs⟩ ⟨hs, rfl⟩
  exact .idle (hk.init s hs)

end Database

end Kit
