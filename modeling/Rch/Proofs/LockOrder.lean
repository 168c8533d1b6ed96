import Mathlib.Data.Prod.Lex
import Rch.Machine.PriceWrites

/-!
# The order the price lists and outlets are locked in

Everybody takes outlets before lists and either before a number, several of a
kind in one order, and a sale goes on from its outlet to rows of its own. So a
transaction waits for something later than whatever it holds, and no circle of
waiting closes.

One statement stands apart. A switch of an outlet's list takes the outlet shared
and asks for it again, to write it, once it holds the list. It may then wait for
a sale at that outlet, which waits for nothing of anybody's here. It may also
wait for another switch of the same outlet, which has come as far and asks for
the same.
-/

namespace Rch

open Kit

/-! ## What is held, and what is asked for -/

def outletLocks (rows : OutletRows) : List (Lock PriceKey) :=
  rows.map fun r => ⟨.outlet r.1, .update⟩

def listLocks (heads : List String) : List (Lock PriceKey) :=
  heads.map fun l => ⟨.list l, .update⟩

def SwitchAt.locks (loc : LocKey) (listId : String) :
    SwitchAt → List (Lock PriceKey)
  | .begun => []
  | .held => [⟨.outlet loc, .share⟩]
  | .listed => [⟨.list listId, .update⟩, ⟨.outlet loc, .share⟩]
  | .done => [⟨.outlet loc, .noKeyUpdate⟩, ⟨.list listId, .update⟩,
    ⟨.outlet loc, .share⟩]

def SaveAt.locks : SaveAt → List (Lock PriceKey)
  | .outlets rows _ => outletLocks rows
  | .lists rows heads _ _ | .locked rows heads _ _ _ =>
    listLocks heads ++ outletLocks rows
  | .forks rows heads _ drew _ =>
    (if drew then [listSeries] else []) ++ listLocks heads ++ outletLocks rows

/-- The locks a transaction holds, the last one first. -/
def PriceTx.locks : PriceTx → List (Lock PriceKey)
  | .activate loc listId p => p.locks loc listId
  | .save _ p => p.locks
  | .create _ _ .done => [listSeries]
  | .create _ _ _ => []
  | .remove _ .begun => []
  | .remove id _ => [⟨.list id, .update⟩]
  | .rewrite _ _ .begun => []
  | .rewrite key _ _ => [⟨.outlet key, .update⟩]
  | .sale _ got _ => got

/-- The lock its next statement takes, if that takes one. -/
def PriceTx.asks : PriceTx → Option (Lock PriceKey)
  | .activate loc _ .begun => some ⟨.outlet loc, .share⟩
  | .activate _ listId .held => some ⟨.list listId, .update⟩
  | .activate loc _ .listed => some ⟨.outlet loc, .noKeyUpdate⟩
  | .activate _ _ .done => none
  | .save _ (.outlets _ (loc :: _)) => some ⟨.outlet loc, .update⟩
  | .save _ (.lists _ _ _ (l :: _)) => some ⟨.list l, .update⟩
  | .save _ (.forks _ _ _ false _) => some listSeries
  | .save _ _ => none
  | .create _ _ .checked => some listSeries
  | .create _ _ _ => none
  | .remove id .begun => some ⟨.list id, .update⟩
  | .remove _ _ => none
  | .rewrite key _ .begun => some ⟨.outlet key, .update⟩
  | .rewrite _ _ _ => none
  | .sale _ _ todo => todo.head?

/-- What a statement locks is what the transaction asked for, and it comes on
top of what it held. -/
theorem stmt_locks {s : PriceStore} {t : PriceTx} {st : PriceStmt}
    (h : priceStmt s t = some st) :
    st.next.locks = st.locks ++ t.locks ∧ ∀ l ∈ st.locks, t.asks = some l := by
  have hone {l l' : Lock PriceKey} (hl : l' ∈ [l]) : some l = some l' :=
    congrArg some (List.mem_singleton.1 hl).symm
  cases t with
  | activate loc listId p =>
      cases p with
      | begun =>
          obtain ⟨-, h⟩ := Option.ite_none_right_eq_some.1 h
          cases h
          exact ⟨rfl, fun _ hl => hone hl⟩
      | held =>
          obtain ⟨-, h⟩ := Option.ite_none_right_eq_some.1 h
          cases h
          exact ⟨rfl, fun _ hl => hone hl⟩
      | listed =>
          cases h
          exact ⟨rfl, fun _ hl => hone hl⟩
      | done => cases h
  | save changes p =>
      cases p with
      | outlets rows todo =>
          cases todo with
          | nil =>
              obtain ⟨-, h⟩ := Option.ite_none_right_eq_some.1 h
              cases h
              exact ⟨rfl, fun _ hl => nomatch hl⟩
          | cons loc todo =>
              obtain ⟨row, -, h⟩ := Option.map_eq_some_iff.1 h
              cases h
              exact ⟨rfl, fun _ hl => hone hl⟩
      | lists rows heads sharers todo =>
          cases todo with
          | nil =>
              cases h
              exact ⟨rfl, fun _ hl => nomatch hl⟩
          | cons l todo =>
              cases h
              exact ⟨rfl, fun _ hl => hone hl⟩
      | locked rows heads sharers l todo =>
          cases h
          exact ⟨rfl, fun _ hl => nomatch hl⟩
      | forks rows heads sharers drew todo =>
          obtain ⟨f, -, h⟩ := Option.map_eq_some_iff.1 h
          cases h
          cases drew with
          | false => exact ⟨rfl, fun _ hl => hone hl⟩
          | true => exact ⟨rfl, fun _ hl => nomatch hl⟩
  | create name cloneFrom p =>
      cases p with
      | begun =>
          obtain ⟨-, h⟩ := Option.ite_none_right_eq_some.1 h
          cases h
          exact ⟨rfl, fun _ hl => nomatch hl⟩
      | checked =>
          cases h
          exact ⟨rfl, fun _ hl => hone hl⟩
      | done => cases h
  | remove id p =>
      cases p with
      | begun =>
          obtain ⟨-, h⟩ := Option.ite_none_right_eq_some.1 h
          cases h
          exact ⟨rfl, fun _ hl => hone hl⟩
      | held =>
          obtain ⟨-, h⟩ := Option.ite_none_right_eq_some.1 h
          cases h
          exact ⟨rfl, fun _ hl => nomatch hl⟩
      | done => cases h
  | rewrite key change p =>
      cases p with
      | begun =>
          obtain ⟨-, h⟩ := Option.ite_none_right_eq_some.1 h
          cases h
          exact ⟨rfl, fun _ hl => hone hl⟩
      | held =>
          obtain ⟨-, h⟩ := Option.ite_none_right_eq_some.1 h
          cases h
          exact ⟨rfl, fun _ hl => nomatch hl⟩
      | done => cases h
  | sale a got todo =>
      cases todo with
      | nil => cases h
      | cons l todo =>
          obtain ⟨-, h⟩ := Option.ite_none_left_eq_some.1 h
          cases h
          exact ⟨rfl, fun _ hl => hone hl⟩

/-! ## The order -/

/-- Where a row comes in the order. -/
def PriceKey.place : PriceKey → ℕ ×ₗ String
  | .order id => toLex (0, id)
  | .outlet key => toLex (1, key)
  | .list id => toLex (2, id)
  | .session _ => toLex (4, "")
  | .payer _ _ => toLex (5, "")
  | .shelf _ it => toLex (6, it)
  | .series _ => toLex (7, "")

/-- The place of what a transaction asks for. A switch that asks for its outlet
again comes after every list. -/
def PriceTx.rank : PriceTx → ℕ ×ₗ String
  | .activate _ _ .listed => toLex (3, "")
  | t => (t.asks.map fun l => l.on.place).getD (toLex (0, ""))

theorem sortedOnce_lt (l : List String) : (sortedOnce l).Pairwise (· < ·) := by
  have hle : (sortedOnce l).Pairwise (· ≤ ·) := List.pairwise_insertionSort _ _
  have hne : (sortedOnce l).Pairwise (· ≠ ·) :=
    (List.perm_insertionSort _ _).nodup_iff.2 (List.nodup_dedup l)
  exact (hle.and hne).imp fun h => lt_of_le_of_ne h.1 h.2

def placedBefore (a b : Lock PriceKey) : Prop := a.on.place < b.on.place

theorem place_lt {m n : ℕ} {a b : String} (h : m < n) :
    (toLex (m, a) : ℕ ×ₗ String) < toLex (n, b) :=
  Prod.Lex.toLex_lt_toLex.2 (.inl h)

theorem place_lt_same {n : ℕ} {a b : String} (h : a < b) :
    (toLex (n, a) : ℕ ×ₗ String) < toLex (n, b) :=
  Prod.Lex.toLex_lt_toLex.2 (.inr ⟨rfl, h⟩)

theorem saleLocks_ordered (a : SaleLocks) :
    (saleLocks a).Pairwise placedBefore := by
  have hshelves : ((sortedOnce a.items).map fun it =>
      (⟨.shelf a.loc it, .update⟩ : Lock PriceKey)).Pairwise placedBefore :=
    List.pairwise_map.2 ((sortedOnce_lt a.items).imp place_lt_same)
  have hdocs : (saleDocs a).Pairwise placedBefore := by
    unfold saleDocs
    cases a.order <;> cases a.payer <;>
      simp [placedBefore, PriceKey.place, Prod.Lex.toLex_lt_toLex]
  have hbelow {n : ℕ} (hn : 5 < n) (b : String) :
      ∀ l ∈ saleDocs a, l.on.place < toLex (n, b) := by
    intro l hl
    simp only [saleDocs, List.mem_append, List.mem_cons, List.mem_map,
      List.not_mem_nil, or_false] at hl
    rcases hl with (⟨_, -, rfl⟩ | rfl | rfl) | ⟨_, -, rfl⟩ <;>
      exact place_lt (by omega)
  refine List.pairwise_append.2 ⟨List.pairwise_append.2 ⟨hdocs, hshelves, ?_⟩,
    List.pairwise_singleton _ _, ?_⟩
  · intro l hl l' hl'
    obtain ⟨it, -, rfl⟩ := List.mem_map.1 hl'
    exact hbelow (by decide) it l hl
  · intro l hl l' hl'
    cases List.mem_singleton.1 hl'
    rcases List.mem_append.1 hl with hl | hl
    · exact hbelow (by decide) "" l hl
    · obtain ⟨it, -, rfl⟩ := List.mem_map.1 hl
      exact place_lt (by decide)

/-- Where a transaction takes several of a kind, it takes them in order. -/
def PriceTx.Ordered : PriceTx → Prop
  | .save _ (.outlets rows todo) => InOrder (· < ·) (rows.map Prod.fst) todo
  | .save _ (.lists _ heads _ todo) | .save _ (.locked _ heads _ _ todo) =>
    InOrder (· < ·) heads todo
  | .sale a got todo => InOrder placedBefore got todo ∧
    ∀ l, l ∈ got ∨ l ∈ todo → l ∈ saleLocks a
  | _ => True

theorem starts_ordered {t : PriceTx} (h : t.starts = true) :
    t.Ordered ∧ t.locks = [] := by
  cases t with
  | activate loc listId p => cases p <;> first | exact ⟨trivial, rfl⟩ | cases h
  | save changes p =>
      cases p with
      | outlets rows todo =>
          cases rows with
          | nil =>
              rw [of_decide_eq_true h]
              exact ⟨.start (sortedOnce_lt _), rfl⟩
          | cons r rows => cases h
      | _ => cases h
  | create name cloneFrom p => cases p <;> first | exact ⟨trivial, rfl⟩ | cases h
  | remove id p => cases p <;> first | exact ⟨trivial, rfl⟩ | cases h
  | rewrite key change p => cases p <;> first | exact ⟨trivial, rfl⟩ | cases h
  | sale a got todo =>
      cases got with
      | nil =>
          rw [of_decide_eq_true h]
          refine ⟨⟨.start (saleLocks_ordered a), fun l hl => ?_⟩, rfl⟩
          simpa using hl
      | cons l got => cases h

theorem stmt_ordered {s : PriceStore} {t : PriceTx} {st : PriceStmt}
    (ht : t.Ordered) (h : priceStmt s t = some st) : st.next.Ordered := by
  cases t with
  | activate loc listId p =>
      cases p with
      | begun | held =>
          obtain ⟨-, h⟩ := Option.ite_none_right_eq_some.1 h
          cases h
          trivial
      | listed =>
          cases h
          trivial
      | done => cases h
  | save changes p =>
      cases p with
      | outlets rows todo =>
          cases todo with
          | nil =>
              obtain ⟨-, h⟩ := Option.ite_none_right_eq_some.1 h
              cases h
              exact .start (sortedOnce_lt _)
          | cons loc todo =>
              obtain ⟨row, -, h⟩ := Option.map_eq_some_iff.1 h
              cases h
              exact InOrder.next ht
      | lists rows heads sharers todo =>
          cases todo with
          | nil =>
              cases h
              trivial
          | cons l todo =>
              cases h
              exact InOrder.next ht
      | locked rows heads sharers l todo =>
          cases h
          exact ht
      | forks rows heads sharers drew todo =>
          obtain ⟨f, -, h⟩ := Option.map_eq_some_iff.1 h
          cases h
          trivial
  | create name cloneFrom p =>
      cases p with
      | begun =>
          obtain ⟨-, h⟩ := Option.ite_none_right_eq_some.1 h
          cases h
          trivial
      | checked =>
          cases h
          trivial
      | done => cases h
  | remove id p =>
      cases p with
      | begun | held =>
          obtain ⟨-, h⟩ := Option.ite_none_right_eq_some.1 h
          cases h
          trivial
      | done => cases h
  | rewrite key change p =>
      cases p with
      | begun | held =>
          obtain ⟨-, h⟩ := Option.ite_none_right_eq_some.1 h
          cases h
          trivial
      | done => cases h
  | sale a got todo =>
      cases todo with
      | nil => cases h
      | cons l todo =>
          obtain ⟨-, h⟩ := Option.ite_none_left_eq_some.1 h
          cases h
          refine ⟨ht.1.next, fun l' hl' => ht.2 l' ?_⟩
          simp only [List.mem_cons] at hl' ⊢
          tauto

/-- What a transaction holds comes before what it asks for. -/
theorem held_before {t : PriceTx} {a b : Lock PriceKey} (ht : t.Ordered)
    (hasks : t.asks = some b) (ha : a ∈ t.locks) : a.on.place < t.rank := by
  cases t with
  | activate loc listId p =>
      cases p with
      | begun => cases ha
      | held =>
          cases List.mem_singleton.1 ha
          exact place_lt (by decide)
      | listed =>
          simp only [PriceTx.locks, SwitchAt.locks, List.mem_cons,
            List.not_mem_nil, or_false] at ha
          rcases ha with rfl | rfl <;> exact place_lt (by decide)
      | done => cases hasks
  | save changes p =>
      cases p with
      | outlets rows todo =>
          cases todo with
          | nil => cases hasks
          | cons loc todo =>
              obtain ⟨r, hr, rfl⟩ := List.mem_map.1 ha
              exact place_lt_same (ht.1 _ (List.mem_map_of_mem hr) _
                List.mem_cons_self)
      | lists rows heads sharers todo =>
          cases todo with
          | nil => cases hasks
          | cons l todo =>
              rcases List.mem_append.1 ha with ha | ha
              · obtain ⟨l', hl', rfl⟩ := List.mem_map.1 ha
                exact place_lt_same (ht.1 _ hl' _ List.mem_cons_self)
              · obtain ⟨r, -, rfl⟩ := List.mem_map.1 ha
                exact place_lt (by decide)
      | locked rows heads sharers l todo => cases hasks
      | forks rows heads sharers drew todo =>
          cases drew with
          | true => cases hasks
          | false =>
              rcases List.mem_append.1 ha with ha | ha
              · obtain ⟨l, -, rfl⟩ := List.mem_map.1 ha
                exact place_lt (by decide)
              · obtain ⟨r, -, rfl⟩ := List.mem_map.1 ha
                exact place_lt (by decide)
  | create name cloneFrom p =>
      cases p with
      | begun | done => cases hasks
      | checked => cases ha
  | remove id p =>
      cases p with
      | begun => cases ha
      | held | done => cases hasks
  | rewrite key change p =>
      cases p with
      | begun => cases ha
      | held | done => cases hasks
  | sale s got todo =>
      cases todo with
      | nil => cases hasks
      | cons l todo => exact ht.1.1 a ha l List.mem_cons_self

/-! ## The one statement out of order -/

/-- A switch that has its outlet shared and has yet to write it. -/
def PriceTx.midwayOn (loc : LocKey) : PriceTx → Bool
  | .activate l _ .held | .activate l _ .listed => decide (l = loc)
  | _ => false

/-- A switch takes its outlet while no other switch of that outlet is between
taking it and writing it. -/
def SwitchesAlone (w : World PriceStore PriceKey PriceTx) :
    TxEvent Unit PriceTx → Prop
  | .run i _ => ∀ x loc listId, w.tx i = some x →
      x.at_ = .activate loc listId .begun →
      ∀ j y, w.tx j = some y → y.at_.midwayOn loc = false
  | _ => True

def OneMidway (w : World PriceStore PriceKey PriceTx) : Prop :=
  ∀ i j x y loc, w.tx i = some x → w.tx j = some y →
    x.at_.midwayOn loc = true → y.at_.midwayOn loc = true → i = j

/-- Where a statement leaves a switch midway, it was so before or has just begun. -/
theorem midway_of_stmt {s : PriceStore} {t : PriceTx}
    {st : PriceStmt} {loc : LocKey} (h : priceStmt s t = some st)
    (hmid : st.next.midwayOn loc = true) :
    t.midwayOn loc = true ∨ ∃ listId, t = .activate loc listId .begun := by
  cases t with
  | activate l listId p =>
      cases p with
      | begun =>
          obtain ⟨-, h⟩ := Option.ite_none_right_eq_some.1 h
          cases h
          cases of_decide_eq_true hmid
          exact .inr ⟨listId, rfl⟩
      | held =>
          obtain ⟨-, h⟩ := Option.ite_none_right_eq_some.1 h
          cases h
          exact .inl hmid
      | listed =>
          cases h
          cases hmid
      | done => cases h
  | save changes p =>
      cases p with
      | outlets rows todo =>
          cases todo with
          | nil =>
              obtain ⟨-, h⟩ := Option.ite_none_right_eq_some.1 h
              cases h
              cases hmid
          | cons loc todo =>
              obtain ⟨row, -, h⟩ := Option.map_eq_some_iff.1 h
              cases h
              cases hmid
      | lists rows heads sharers todo =>
          cases todo <;> cases h <;> cases hmid
      | locked rows heads sharers l todo =>
          cases h
          cases hmid
      | forks rows heads sharers drew todo =>
          obtain ⟨f, -, h⟩ := Option.map_eq_some_iff.1 h
          cases h
          cases hmid
  | create name cloneFrom p =>
      cases p with
      | begun =>
          obtain ⟨-, h⟩ := Option.ite_none_right_eq_some.1 h
          cases h
          cases hmid
      | checked =>
          cases h
          cases hmid
      | done => cases h
  | remove id p =>
      cases p with
      | begun | held =>
          obtain ⟨-, h⟩ := Option.ite_none_right_eq_some.1 h
          cases h
          cases hmid
      | done => cases h
  | rewrite key change p =>
      cases p with
      | begun | held =>
          obtain ⟨-, h⟩ := Option.ite_none_right_eq_some.1 h
          cases h
          cases hmid
      | done => cases h
  | sale a got todo =>
      cases todo with
      | nil => cases h
      | cons l todo =>
          obtain ⟨-, h⟩ := Option.ite_none_left_eq_some.1 h
          cases h
          cases hmid

theorem not_midway_of_starts {t : PriceTx} (h : t.starts = true)
    (loc : LocKey) : t.midwayOn loc = false := by
  cases t with
  | activate l listId p => cases p <;> first | rfl | cases h
  | _ => rfl

theorem OneMidway.step {w w' : World PriceStore PriceKey PriceTx}
    {e : TxEvent Unit PriceTx} (h : OneMidway w) (halone : SwitchesAlone w e)
    (hs : priceWrites.step w e = some w') : OneMidway w' := by
  cases e with
  | begin_ t =>
      obtain ⟨ht, rfl⟩ := Database.step_begin hs
      intro i j x y loc hx hy hmx hmy
      rcases World.tx_begin hx with hx | rfl
      · rcases World.tx_begin hy with hy | rfl
        · exact h i j x y loc hx hy hmx hmy
        · exact absurd hmy (by simp [Tx.fresh, not_midway_of_starts ht])
      · exact absurd hmx (by simp [Tx.fresh, not_midway_of_starts ht])
  | run i c =>
      obtain ⟨x, st, hx, hst, -, rfl⟩ := Database.step_run hs
      -- Another one midway on the outlet this one is now midway on.
      have hother {j : ℕ} {y : Tx PriceStore PriceKey PriceTx} {loc : LocKey}
          (hy : w.tx j = some y) (hm : st.next.midwayOn loc = true)
          (hmy : y.at_.midwayOn loc = true) : i = j := by
        rcases midway_of_stmt hst hm with hmx | ⟨listId, hat⟩
        · exact h i j x y loc hx hy hmx hmy
        · rw [halone x loc listId hx hat j y hy] at hmy
          cases hmy
      intro j k y z loc hy hz hmy hmz
      rw [World.tx_put hx] at hy hz
      split at hy
      · next hij =>
          cases hy
          split at hz
          · next hik => exact hij.symm.trans hik
          · exact hij.symm.trans (hother hz hmy hmz)
      · split at hz
        · next hik =>
            cases hz
            exact (hik.symm.trans (hother hy hmz hmy)).symm
        · exact h j k y z loc hy hz hmy hmz
  | commit i =>
      obtain ⟨x, hx, -, rfl⟩ := Database.step_commit hs
      intro j k y z loc hy hz
      have hy := World.tx_of_put_none hx hy
      have hz := World.tx_of_put_none hx hz
      exact h j k y z loc hy hz
  | abort i =>
      obtain ⟨x, hx, rfl⟩ := Database.step_abort (d := priceWrites) hs
      intro j k y z loc hy hz
      have hy := World.tx_of_put_none hx hy
      have hz := World.tx_of_put_none hx hz
      exact h j k y z loc hy hz

/-! ## No circle -/

/-- What is known of an open transaction. -/
structure LocksKnown (x : Tx PriceStore PriceKey PriceTx) : Prop where
  held : x.held = x.at_.locks
  ordered : x.at_.Ordered

theorem priceWrites_kept : priceWrites.Kept SwitchesAlone (fun _ => True)
    fun _ x => LocksKnown x where
  init _ _ := trivial
  begins _ _ _ ht := ⟨(starts_ordered ht).2.symm, (starts_ordered ht).1⟩
  runs _ _ x _ _ _ _ _ hx hst :=
    ⟨by rw [Tx.after, hx.held, (stmt_locks hst).1], stmt_ordered hx.ordered hst⟩
  commits _ _ _ _ _ _ _ _ := trivial
  stable _ _ _ _ _ _ _ _ _ _ _ hy _ _ := hy

/-- The row a transaction asks for has the rank of what it asks, except for the
switch that asks again. -/
theorem rank_of_asks {t : PriceTx} {a : Lock PriceKey} (h : t.asks = some a)
    (hnot : ∀ loc listId, t ≠ .activate loc listId .listed) :
    t.rank = a.on.place := by
  cases t with
  | activate loc listId p =>
      cases p with
      | listed => exact absurd rfl (hnot loc listId)
      | _ =>
          rw [PriceTx.rank, h]
          · rfl
          · simp
  | _ =>
      rw [PriceTx.rank, h]
      · rfl
      · simp

/-- A save locks nothing shared. -/
theorem SaveAt.not_shared (p : SaveAt) :
    ∀ a ∈ p.locks, a.mode ≠ .share := by
  have houtlets (rows : OutletRows) : ∀ a ∈ outletLocks rows, a.mode ≠ .share := by
    rintro _ ha
    obtain ⟨r, -, rfl⟩ := List.mem_map.1 ha
    exact fun h => nomatch h
  have hlists (heads : List String) : ∀ a ∈ listLocks heads, a.mode ≠ .share := by
    rintro _ ha
    obtain ⟨l, -, rfl⟩ := List.mem_map.1 ha
    exact fun h => nomatch h
  intro a ha
  cases p with
  | outlets rows todo => exact houtlets rows a ha
  | lists rows heads sharers todo | locked rows heads sharers l todo =>
      rcases List.mem_append.1 ha with ha | ha
      · exact hlists heads a ha
      · exact houtlets rows a ha
  | forks rows heads sharers drew todo =>
      rcases List.mem_append.1 ha with ha | ha
      · rcases List.mem_append.1 ha with ha | ha
        · cases drew with
          | true =>
              cases List.mem_singleton.1 ha
              decide
          | false => cases ha
        · exact hlists heads a ha
      · exact houtlets rows a ha

/-- The only outlet of a sale is its own. -/
theorem shared_outlet {a : SaleLocks} {loc : LocKey}
    (h : ⟨.outlet loc, .share⟩ ∈ saleLocks a) : loc = a.loc := by
  simpa [saleLocks, saleDocs] using h

/-- What a sale takes after its outlet comes after every list too. -/
theorem after_outlet {a : SaleLocks} {b : Lock PriceKey} (h : b ∈ saleLocks a)
    (hlt : (PriceKey.outlet a.loc).place < b.on.place) :
    (toLex (3, "") : ℕ ×ₗ String) < b.on.place := by
  simp only [saleLocks, saleDocs, List.mem_append, List.mem_cons, List.mem_map,
    List.not_mem_nil, or_false] at h
  rcases h with (((⟨id, -, rfl⟩ | rfl | rfl) | ⟨p, -, rfl⟩) | ⟨it, -, rfl⟩) | rfl
  · exact absurd hlt (lt_asymm (place_lt (by decide)))
  · exact absurd hlt (lt_irrefl _)
  all_goals exact place_lt (by decide)

/-- Whoever holds an outlet shared and asks for more asks for what comes after
every list, but for a switch midway. -/
theorem rank_of_shared {t : PriceTx} {loc : LocKey} {b : Lock PriceKey}
    (ht : t.Ordered) (hmid : t.midwayOn loc = false) (hasks : t.asks = some b)
    (hheld : ⟨.outlet loc, .share⟩ ∈ t.locks) :
    (toLex (3, "") : ℕ ×ₗ String) < t.rank := by
  cases t with
  | activate l listId p =>
      cases p with
      | begun => cases hheld
      | held =>
          cases List.mem_singleton.1 hheld
          exact absurd hmid (by simp [PriceTx.midwayOn])
      | listed =>
          have hl : l = loc := by
            simpa [PriceTx.locks, SwitchAt.locks, eq_comm] using hheld
          exact absurd hmid (by simp [PriceTx.midwayOn, hl])
      | done => cases hasks
  | save changes p =>
      exact absurd rfl (SaveAt.not_shared p _ hheld)
  | create name cloneFrom p =>
      cases p <;> simp [PriceTx.locks, listSeries] at hheld
  | remove id p => cases p <;> simp [PriceTx.locks] at hheld
  | rewrite key change p => cases p <;> simp [PriceTx.locks] at hheld
  | sale a got todo =>
      cases todo with
      | nil => cases hasks
      | cons l todo =>
          cases hasks
          have hlt := ht.1.1 _ hheld b List.mem_cons_self
          have hloc := shared_outlet (ht.2 _ (.inl hheld))
          have hb := ht.2 b (.inr List.mem_cons_self)
          exact after_outlet hb (hloc ▸ hlt)

section Chain

variable {w : World PriceStore PriceKey PriceTx} {i j k : ℕ}

theorem asks_of_waits (h : w.waits priceWrites i j) :
    i ≠ j ∧ ∃ x y a b, w.tx i = some x ∧ w.tx j = some y ∧
      x.at_.asks = some a ∧ b ∈ y.held ∧ a.on = b.on ∧
      a.mode.conflicts b.mode = true := by
  obtain ⟨hij, x, y, c, st, hx, hy, hst, hclash⟩ := h
  obtain ⟨a, ha, b, hb, hon, hmode⟩ := mem_of_clash hclash
  exact ⟨hij, x, y, a, b, hx, hy, (stmt_locks hst).2 a ha, hb, hon, hmode⟩

def rankOf (w : World PriceStore PriceKey PriceTx) (i : ℕ) : ℕ ×ₗ String :=
  ((w.tx i).map fun x => x.at_.rank).getD (toLex (0, ""))

theorem rank_lt_of_waits
    (hsafe : Database.Safe (fun _ => True) (fun _ x => LocksKnown x) w)
    (hmid : OneMidway w) (hij : w.waits priceWrites i j)
    (hjk : w.waits priceWrites j k) : rankOf w i < rankOf w j := by
  obtain ⟨hne, x, y, a, b, hx, hy, hasks, hheld, hon, hmode⟩ :=
    asks_of_waits hij
  obtain ⟨-, y', z, a', b', hy', -, hasks', -⟩ := asks_of_waits hjk
  cases hy.symm.trans hy'
  have hxk := hsafe.ok i x hx
  have hyk := hsafe.ok j y hy
  rw [rankOf, rankOf, hx, hy, Option.map_some, Option.map_some,
    Option.getD_some, Option.getD_some]
  by_cases hup : ∃ loc listId, x.at_ = .activate loc listId .listed
  · obtain ⟨loc, listId, hat⟩ := hup
    -- The outlet is held shared by this one already, so shared by the other.
    have hshared : ⟨.outlet loc, .share⟩ ∈ x.held := by
      rw [hxk.held, hat]
      exact List.mem_cons_of_mem _ List.mem_cons_self
    rw [hat] at hasks
    cases hasks
    have hb : b.mode = .share := by
      have hapart := hsafe.apart i j x y hne hx hy
      obtain ⟨on, mode⟩ := b
      cases hon
      cases mode with
      | share => rfl
      | keyShare => cases hmode
      | noKeyUpdate | update =>
          rw [clash_of_mem hshared hheld rfl] at hapart
          cases hapart
    have hy_mid : y.at_.midwayOn loc = false := by
      refine Bool.eq_false_iff.2 fun hm => hne (hmid i j x y loc hx hy ?_ hm)
      rw [hat]
      exact decide_eq_true rfl
    have hb' : b = ⟨.outlet loc, .share⟩ := by
      obtain ⟨on, mode⟩ := b
      cases hon
      cases hb
      rfl
    rw [hat]
    rw [hyk.held, hb'] at hheld
    exact rank_of_shared hyk.ordered hy_mid hasks' hheld
  · rw [rank_of_asks hasks fun loc listId h => hup ⟨loc, listId, h⟩, hon]
    exact held_before hyk.ordered hasks' (hyk.held ▸ hheld)

end Chain

/-- Whatever the transactions are and in whatever order their statements come,
nobody waits in a circle, as long as no switch of an outlet's list takes the
outlet while another switch of it has taken and not yet written it. -/
theorem price_writes_deadlock_free {w : World PriceStore PriceKey PriceTx}
    (h : priceWrites.machine.ReachVia SwitchesAlone w) :
    Acyclic (w.waits priceWrites) := by
  have hsafe := priceWrites_kept.safe h
  have hmid : OneMidway w := by
    refine h.invariant (I := OneMidway) ?_ fun _ _ _ _ hm halone hs =>
      hm.step halone hs
    rintro ⟨s, txs⟩ ⟨-, rfl⟩ i j x y loc hx
    cases hx
  exact acyclic_of_rank (rankOf w) fun i j k hij hjk =>
    rank_lt_of_waits hsafe hmid hij hjk

/-! ## Two switches of one outlet -/

def oneCounter : PriceStore where
  outlets := ⟨[("cafe", ⟨"Café", .Outlet, some "PL-001", true⟩)], by decide⟩
  lists := ⟨[("PL-001", "Old"), ("PL-002", "New"), ("PL-003", "Newer")],
    by decide⟩
  nextList := 4

/-- Each takes the outlet shared and the list it is for, and then asks for the
outlet the other one has. -/
def crossedSwitches : List (TxEvent Unit PriceTx) :=
  [.begin_ (.activate "cafe" "PL-002" .begun),
    .begin_ (.activate "cafe" "PL-003" .begun),
    .run 0 (), .run 1 (), .run 0 (), .run 1 ()]

theorem price_writes_deadlock_free_crossed : ∃ w,
    priceWrites.machine.run ⟨oneCounter, []⟩ crossedSwitches = some w ∧
      priceWrites.machine.Reach w ∧ ¬Acyclic (w.waits priceWrites) := by
  have hany : (priceWrites.machine.run ⟨oneCounter, []⟩ crossedSwitches).any
      (fun w => w.waitsBy priceWrites () 0 1 && w.waitsBy priceWrites () 1 0) =
        true := by
    decide +kernel
  obtain ⟨w, hrun, hd⟩ := (Option.any_eq_true _ _).1 hany
  obtain ⟨h₀, h₁⟩ := Bool.and_eq_true_iff.1 hd
  have hinit : priceWrites.machine.Reach ⟨oneCounter, []⟩ :=
    .init ⟨trivial, rfl⟩
  refine ⟨w, hrun, Machine.reach_run hinit hrun, fun hw => hw 0 ?_⟩
  exact .tail (.single (World.waits_of_waitsBy h₀)) (World.waits_of_waitsBy h₁)

def switchesAlone (w : World PriceStore PriceKey PriceTx) :
    TxEvent Unit PriceTx → Bool
  | .run i _ => (w.tx i).all fun x =>
    match x.at_ with
    | .activate loc _ .begun => (List.range w.txs.length).all fun j =>
      (w.tx j).all fun y => !y.at_.midwayOn loc
    | _ => true
  | _ => true

theorem switchesAlone_sound (w : World PriceStore PriceKey PriceTx)
    (e : TxEvent Unit PriceTx) (h : switchesAlone w e = true) :
    SwitchesAlone w e := by
  cases e with
  | run i c =>
      intro x loc listId hx hat j y hy
      rw [switchesAlone, hx, Option.all_some, hat] at h
      have hj := List.all_eq_true.1 h j (List.mem_range.2 (World.lt_of_tx hy))
      rw [hy, Option.all_some] at hj
      simpa using hj
  | _ => trivial

def switchBesideSale : List (TxEvent Unit PriceTx) :=
  let a : SaleLocks := ⟨none, "cafe", false, none, ["tea"]⟩
  [.begin_ (.activate "cafe" "PL-002" .begun),
    .begin_ (.sale a [] (saleLocks a)),
    .begin_ (.rewrite "cafe" .close .begun),
    .run 0 (), .run 1 (), .run 0 ()]

theorem price_writes_deadlock_free_beside : ∃ w,
    priceWrites.machine.runVia switchesAlone ⟨oneCounter, []⟩
        switchBesideSale = some w ∧
      Acyclic (w.waits priceWrites) ∧
      w.waits priceWrites 0 1 ∧ w.waits priceWrites 2 0 ∧
      w.waits priceWrites 2 1 := by
  have hany : (priceWrites.machine.runVia switchesAlone ⟨oneCounter, []⟩
      switchBesideSale).any (fun w => w.waitsBy priceWrites () 0 1 &&
        (w.waitsBy priceWrites () 2 0 && w.waitsBy priceWrites () 2 1)) =
          true := by
    decide +kernel
  obtain ⟨w, hrun, hd⟩ := (Option.any_eq_true _ _).1 hany
  obtain ⟨h₀, hd⟩ := Bool.and_eq_true_iff.1 hd
  obtain ⟨h₁, h₂⟩ := Bool.and_eq_true_iff.1 hd
  have hinit : priceWrites.machine.ReachVia SwitchesAlone ⟨oneCounter, []⟩ :=
    .init ⟨trivial, rfl⟩
  have hreach := Machine.reachVia_runVia switchesAlone_sound hinit hrun
  exact ⟨w, hrun, price_writes_deadlock_free hreach,
    World.waits_of_waitsBy h₀, World.waits_of_waitsBy h₁,
    World.waits_of_waitsBy h₂⟩

end Rch
