import Mathlib.Data.List.Nodup
import Mathlib.Logic.Function.Basic
import Mathlib.Logic.Relation
import Mathlib.Tactic.Common

/-!
# Money taken against orders, and given back

Payments are made for orders, by somebody the seller does not control: any
number of them, each for one order and one amount, known to the seller when it
pleases. A payment that has been taken is answered once. The first one an order
is settled by is billed, or handed back whole because the order could not be
filled; any other is handed back as one too many. A bill may be voided later,
and what it took is handed back with it.

`Sound` is what makes the answers add up: an order's own payment is on its bill
or among what is to be handed back, and no payment is handed back twice. No
order of events breaks it, and nothing that has been answered is forgotten.
-/

namespace Kit

/-- What became of an order. -/
inductive Standing (π β : Type)
  | unsettled
  | billed (p : π) (b : β)
  | refused (p : π)
deriving DecidableEq

/-- A bill, the order it was raised for if any, and whether it still stands. -/
structure Raised (ω μ : Type) where
  order : Option ω
  total : μ
  voided : Bool

/-- Money to be handed back. -/
structure Refund (ω π μ : Type) where
  order : ω
  payment : π
  amount : μ

/-- The books of a seller who is paid in advance. -/
structure Takings (ω π β μ : Type) where
  /-- What each payment was made for, and how much it is. -/
  madeFor : π → Option (ω × μ)
  /-- The payments whose money has been taken. -/
  taken : π → Bool
  orders : ω → Option (Standing π β)
  bills : β → Option (Raised ω μ)
  refunds : List (Refund ω π μ)

namespace Takings

variable {ω π β μ : Type}

/-- What may happen next. -/
inductive Step [DecidableEq ω] [DecidableEq β] (s : Takings ω π β μ) :
    Takings ω π β μ → Prop
  /-- More comes to be known of the payments. -/
  | learn {f : π → Option (ω × μ)} {g : π → Bool}
      (hf : ∀ p y, s.madeFor p = some y → f p = some y)
      (hg : ∀ p, s.taken p = true → g p = true) :
      Step s { s with madeFor := f, taken := g }
  /-- An order is placed. -/
  | place {x : ω} (hx : s.orders x = none) :
      Step s { s with orders := Function.update s.orders x (some .unsettled) }
  /-- A bill is raised that no order is behind. -/
  | sell {b : β} {m : μ} (hb : s.bills b = none) :
      Step s { s with
        bills := Function.update s.bills b (some ⟨none, m, false⟩) }
  /-- An order is settled by a payment, and billed. -/
  | bill {x : ω} {p : π} {b : β} {m : μ} (hp : s.madeFor p = some (x, m))
      (ht : s.taken p = true) (hx : s.orders x = some .unsettled)
      (hb : s.bills b = none) :
      Step s { s with
        orders := Function.update s.orders x (some (.billed p b))
        bills := Function.update s.bills b (some ⟨some x, m, false⟩) }
  /-- An order is settled by a payment, and cannot be filled. -/
  | refuse {x : ω} {p : π} {m : μ} (hp : s.madeFor p = some (x, m))
      (ht : s.taken p = true) (hx : s.orders x = some .unsettled) :
      Step s { s with
        orders := Function.update s.orders x (some (.refused p))
        refunds := s.refunds ++ [⟨x, p, m⟩] }
  /-- A payment too many. -/
  | duplicate {x : ω} {p : π} {m : μ} {o : Standing π β}
      (hp : s.madeFor p = some (x, m)) (ht : s.taken p = true)
      (hx : s.orders x = some o) (hset : o ≠ .unsettled)
      (hown : ∀ b, o ≠ .billed p b)
      (hnew : ∀ r ∈ s.refunds, r.order = x → r.payment ≠ p) :
      Step s { s with refunds := s.refunds ++ [⟨x, p, m⟩] }
  /-- A bill is voided that no order is behind, or none is found for. -/
  | strike {b : β} {t : Raised ω μ} (hb : s.bills b = some t) :
      Step s { s with
        bills := Function.update s.bills b (some { t with voided := true }) }
  /-- A bill is voided, and its order's money is to be handed back. -/
  | void {x : ω} {p : π} {b c : β} {m : μ}
      (hb : s.bills b = some ⟨some x, m, false⟩)
      (hx : s.orders x = some (.billed p c)) :
      Step s { s with
        bills := Function.update s.bills b (some ⟨some x, m, true⟩)
        refunds := s.refunds ++ [⟨x, p, m⟩] }

/-- Every payment that counts is accounted for once. -/
structure Sound (s : Takings ω π β μ) : Prop where
  /-- A billed order's bill is its own and for what was paid, and the payment
  goes back only once the bill is voided. -/
  billed : ∀ x p b, s.orders x = some (.billed p b) → s.taken p = true ∧
    ∃ m v, s.madeFor p = some (x, m) ∧ s.bills b = some ⟨some x, m, v⟩ ∧
      ∀ r ∈ s.refunds, r.payment = p → v = true
  /-- A refused order's payment goes back. -/
  refused : ∀ x p, s.orders x = some (.refused p) → s.taken p = true ∧
    ∃ r ∈ s.refunds, r.payment = p
  /-- An order's bill is the one the order knows of. -/
  bills : ∀ b x m v, s.bills b = some ⟨some x, m, v⟩ →
    ∃ p, s.orders x = some (.billed p b)
  /-- What goes back is a payment of a settled order, whole. -/
  refunds : ∀ r ∈ s.refunds, s.madeFor r.payment = some (r.order, r.amount) ∧
    ∃ o, s.orders r.order = some o ∧ o ≠ .unsettled
  once : (s.refunds.map Refund.payment).Nodup

theorem Sound.one_bill {s : Takings ω π β μ} (h : s.Sound) {b b' : β} {x : ω}
    {m m' : μ} {v v' : Bool} (hb : s.bills b = some ⟨some x, m, v⟩)
    (hb' : s.bills b' = some ⟨some x, m', v'⟩) : b = b' := by
  obtain ⟨p, hx⟩ := h.bills b x m v hb
  obtain ⟨p', hx'⟩ := h.bills b' x m' v' hb'
  cases hx.symm.trans hx'
  rfl

/-- A payment has been answered: an order was billed for it, or it goes
back. -/
def Answered (s : Takings ω π β μ) (x : ω) (p : π) : Prop :=
  (∃ b, s.orders x = some (.billed p b)) ∨ ∃ r ∈ s.refunds, r.payment = p

/-! ## One step -/

section Steps

variable {s s' : Takings ω π β μ}

theorem Step.madeFor [DecidableEq ω] [DecidableEq β] (hs : Step s s') {p : π}
    {y : ω × μ}
    (h : s.madeFor p = some y) : s'.madeFor p = some y := by
  cases hs with
  | learn hf _ => exact hf p y h
  | place _ => exact h
  | sell _ => exact h
  | bill _ _ _ _ => exact h
  | refuse _ _ _ => exact h
  | duplicate _ _ _ _ _ _ => exact h
  | strike _ => exact h
  | void _ _ => exact h

/-- An order once settled keeps the payment and the bill it was settled by. -/
theorem Step.orders [DecidableEq ω] [DecidableEq β] (hs : Step s s') {x : ω}
    {o : Standing π β}
    (h : s.orders x = some o) (ho : o ≠ .unsettled) :
    s'.orders x = some o := by
  have hkeep {y : ω} {o' : Option (Standing π β)} (hy : x ≠ y) :
      Function.update s.orders y o' x = some o := by
    rw [Function.update_of_ne hy]
    exact h
  cases hs with
  | learn _ _ => exact h
  | @place y hy =>
      refine hkeep ?_
      rintro rfl
      rw [hy] at h
      cases h
  | sell _ => exact h
  | @bill y _ _ _ _ _ hy _ =>
      refine hkeep ?_
      rintro rfl
      rw [hy] at h
      cases h
      exact ho rfl
  | @refuse y _ _ _ _ hy =>
      refine hkeep ?_
      rintro rfl
      rw [hy] at h
      cases h
      exact ho rfl
  | duplicate _ _ _ _ _ _ => exact h
  | strike _ => exact h
  | void _ _ => exact h

theorem Step.refunds [DecidableEq ω] [DecidableEq β] (hs : Step s s') {r :
    Refund ω π μ}
    (h : r ∈ s.refunds) : r ∈ s'.refunds := by
  cases hs with
  | learn _ _ => exact h
  | place _ => exact h
  | sell _ => exact h
  | bill _ _ _ _ => exact h
  | refuse _ _ _ => exact List.mem_append_left _ h
  | duplicate _ _ _ _ _ _ => exact List.mem_append_left _ h
  | strike _ => exact h
  | void _ _ => exact List.mem_append_left _ h

theorem Step.answered [DecidableEq ω] [DecidableEq β] (hs : Step s s') {x : ω}
    {p : π}
    (h : s.Answered x p) : s'.Answered x p := by
  rcases h with ⟨b, hb⟩ | ⟨r, hr, hp⟩
  · exact .inl ⟨b, hs.orders hb nofun⟩
  · exact .inr ⟨r, hs.refunds hr, hp⟩

/-! ## The books stay sound -/

theorem Sound.refund_eq (h : s.Sound) {r : Refund ω π μ} {x : ω} {m : μ}
    (hr : r ∈ s.refunds) (hp : s.madeFor r.payment = some (x, m)) :
    r.order = x ∧ r.amount = m := by
  have heq := (h.refunds r hr).1
  rw [hp] at heq
  cases heq
  exact ⟨rfl, rfl⟩

/-- While an order is unsettled, nothing goes back for a payment made for
it. -/
theorem Sound.no_refund (h : s.Sound) {x : ω} {p : π} {m : μ}
    (hp : s.madeFor p = some (x, m)) (hx : s.orders x = some .unsettled) :
    ∀ r ∈ s.refunds, r.payment ≠ p := by
  rintro r hr rfl
  obtain ⟨hmade, o, ho, hset⟩ := h.refunds r hr
  rw [(h.refund_eq hr hp).1, hx] at ho
  cases ho
  exact hset rfl

/-- One more refund, of a payment none goes back for yet. -/
theorem Sound.nodup_append (h : s.Sound) {r : Refund ω π μ}
    (hnew : ∀ q ∈ s.refunds, q.payment ≠ r.payment) :
    ((s.refunds ++ [r]).map Refund.payment).Nodup := by
  rw [List.map_append, List.nodup_append_comm]
  refine List.nodup_cons.2 ⟨?_, h.once⟩
  intro hmem
  obtain ⟨q, hq, heq⟩ := List.mem_map.1 hmem
  exact hnew q hq heq

theorem Sound.learn (h : s.Sound) {f : π → Option (ω × μ)} {g : π → Bool}
    (hf : ∀ p y, s.madeFor p = some y → f p = some y)
    (hg : ∀ p, s.taken p = true → g p = true) :
    Sound { s with madeFor := f, taken := g } where
  billed x p b hx := by
    obtain ⟨ht, m, v, hp, hb, hr⟩ := h.billed x p b hx
    exact ⟨hg p ht, m, v, hf p _ hp, hb, hr⟩
  refused x p hx := by
    obtain ⟨ht, hr⟩ := h.refused x p hx
    exact ⟨hg p ht, hr⟩
  bills := h.bills
  refunds r hr := by
    obtain ⟨hp, ho⟩ := h.refunds r hr
    exact ⟨hf _ _ hp, ho⟩
  once := h.once

theorem Sound.place [DecidableEq ω] (h : s.Sound) {x : ω} (hx :
    s.orders x = none) :
    Sound { s with
      orders := Function.update s.orders x (some .unsettled) } := by
  have hkeep {y : ω} {o : Standing π β} (hy : s.orders y = some o) :
      Function.update s.orders x (some .unsettled) y = some o := by
    have hne : y ≠ x := by
      rintro rfl
      rw [hx] at hy
      cases hy
    rw [Function.update_of_ne hne]
    exact hy
  have hback {y : ω} {o : Standing π β} (ho : o ≠ .unsettled)
      (hy : Function.update s.orders x (some .unsettled) y = some o) :
      s.orders y = some o := by
    by_cases hyx : y = x
    · subst hyx
      rw [Function.update_self] at hy
      cases hy
      exact absurd rfl ho
    · rwa [Function.update_of_ne hyx] at hy
  exact {
    billed := fun y p b hy => h.billed y p b (hback nofun hy)
    refused := fun y p hy => h.refused y p (hback nofun hy)
    bills := fun b y m v hb => by
      obtain ⟨p, hy⟩ := h.bills b y m v hb
      exact ⟨p, hkeep hy⟩
    refunds := fun r hr => by
      obtain ⟨hp, o, ho, hset⟩ := h.refunds r hr
      exact ⟨hp, o, hkeep ho, hset⟩
    once := h.once }

theorem Sound.sell [DecidableEq β] (h : s.Sound) {b : β} {m : μ} (hb :
    s.bills b = none) :
    Sound { s with
      bills := Function.update s.bills b (some ⟨none, m, false⟩) } where
  billed x p c hx := by
    obtain ⟨ht, n, v, hp, hc, hr⟩ := h.billed x p c hx
    have hne : c ≠ b := by
      rintro rfl
      rw [hb] at hc
      cases hc
    refine ⟨ht, n, v, hp, ?_, hr⟩
    dsimp only
    rw [Function.update_of_ne hne]
    exact hc
  refused := h.refused
  bills c x n v hc := by
    by_cases hcb : c = b
    · subst hcb
      dsimp only at hc
      rw [Function.update_self] at hc
      cases hc
    · dsimp only at hc
      rw [Function.update_of_ne hcb] at hc
      exact h.bills c x n v hc
  refunds := h.refunds
  once := h.once

theorem Sound.bill [DecidableEq ω] [DecidableEq β] (h : s.Sound) {x : ω} {p :
    π} {b : β} {m : μ}
    (hp : s.madeFor p = some (x, m)) (ht : s.taken p = true)
    (hx : s.orders x = some .unsettled) (hb : s.bills b = none) :
    Sound { s with
      orders := Function.update s.orders x (some (.billed p b))
      bills := Function.update s.bills b (some ⟨some x, m, false⟩) } where
  billed y q c hy := by
    by_cases hyx : y = x
    · subst hyx
      dsimp only at hy
      rw [Function.update_self] at hy
      cases hy
      refine ⟨ht, m, false, hp, Function.update_self .., ?_⟩
      exact fun r hr hrp => absurd hrp (h.no_refund hp hx r hr)
    · dsimp only at hy
      rw [Function.update_of_ne hyx] at hy
      obtain ⟨htq, n, v, hq, hc, hr⟩ := h.billed y q c hy
      have hne : c ≠ b := by
        rintro rfl
        rw [hb] at hc
        cases hc
      refine ⟨htq, n, v, hq, ?_, hr⟩
      dsimp only
      rw [Function.update_of_ne hne]
      exact hc
  refused y q hy := by
    by_cases hyx : y = x
    · subst hyx
      dsimp only at hy
      rw [Function.update_self] at hy
      cases hy
    · dsimp only at hy
      rw [Function.update_of_ne hyx] at hy
      exact h.refused y q hy
  bills c y n v hc := by
    by_cases hcb : c = b
    · subst hcb
      dsimp only at hc
      rw [Function.update_self] at hc
      cases hc
      exact ⟨p, Function.update_self ..⟩
    · dsimp only at hc
      rw [Function.update_of_ne hcb] at hc
      obtain ⟨q, hy⟩ := h.bills c y n v hc
      have hne : y ≠ x := by
        rintro rfl
        rw [hx] at hy
        cases hy
      refine ⟨q, ?_⟩
      dsimp only
      rw [Function.update_of_ne hne]
      exact hy
  refunds r hr := by
    obtain ⟨hmade, o, ho, hset⟩ := h.refunds r hr
    have hne : r.order ≠ x := by
      intro heq
      rw [heq, hx] at ho
      cases ho
      exact hset rfl
    refine ⟨hmade, o, ?_, hset⟩
    dsimp only
    rw [Function.update_of_ne hne]
    exact ho
  once := h.once

theorem Sound.refuse [DecidableEq ω] (h : s.Sound) {x : ω} {p : π} {m : μ}
    (hp : s.madeFor p = some (x, m)) (ht : s.taken p = true)
    (hx : s.orders x = some .unsettled) :
    Sound { s with
      orders := Function.update s.orders x (some (.refused p))
      refunds := s.refunds ++ [⟨x, p, m⟩] } where
  billed y q c hy := by
    by_cases hyx : y = x
    · subst hyx
      dsimp only at hy
      rw [Function.update_self] at hy
      cases hy
    · dsimp only at hy
      rw [Function.update_of_ne hyx] at hy
      obtain ⟨htq, n, v, hq, hc, hr⟩ := h.billed y q c hy
      refine ⟨htq, n, v, hq, hc, ?_⟩
      intro r hmem hrq
      rcases List.mem_append.1 hmem with hmem | hmem
      · exact hr r hmem hrq
      · cases List.mem_singleton.1 hmem
        subst hrq
        cases hp.symm.trans hq
        exact absurd rfl hyx
  refused y q hy := by
    by_cases hyx : y = x
    · subst hyx
      dsimp only at hy
      rw [Function.update_self] at hy
      cases hy
      exact ⟨ht, _, List.mem_append_right _ List.mem_cons_self, rfl⟩
    · dsimp only at hy
      rw [Function.update_of_ne hyx] at hy
      obtain ⟨htq, r, hr, hrq⟩ := h.refused y q hy
      exact ⟨htq, r, List.mem_append_left _ hr, hrq⟩
  bills c y n v hc := by
    obtain ⟨q, hy⟩ := h.bills c y n v hc
    have hne : y ≠ x := by
      rintro rfl
      rw [hx] at hy
      cases hy
    refine ⟨q, ?_⟩
    dsimp only
    rw [Function.update_of_ne hne]
    exact hy
  refunds r hr := by
    rcases List.mem_append.1 hr with hr | hr
    · obtain ⟨hmade, o, ho, hset⟩ := h.refunds r hr
      have hne : r.order ≠ x := by
        intro heq
        rw [heq, hx] at ho
        cases ho
        exact hset rfl
      refine ⟨hmade, o, ?_, hset⟩
      dsimp only
      rw [Function.update_of_ne hne]
      exact ho
    · cases List.mem_singleton.1 hr
      exact ⟨hp, _, Function.update_self .., nofun⟩
  once := h.nodup_append (h.no_refund hp hx)

theorem Sound.duplicate (h : s.Sound) {x : ω} {p : π} {m : μ}
    {o : Standing π β} (hp : s.madeFor p = some (x, m))
    (hx : s.orders x = some o) (hset : o ≠ .unsettled)
    (hown : ∀ b, o ≠ .billed p b)
    (hnew : ∀ r ∈ s.refunds, r.order = x → r.payment ≠ p) :
    Sound { s with refunds := s.refunds ++ [⟨x, p, m⟩] } where
  billed y q c hy := by
    obtain ⟨htq, n, v, hq, hc, hr⟩ := h.billed y q c hy
    refine ⟨htq, n, v, hq, hc, ?_⟩
    intro r hmem hrq
    rcases List.mem_append.1 hmem with hmem | hmem
    · exact hr r hmem hrq
    · cases List.mem_singleton.1 hmem
      subst hrq
      cases hp.symm.trans hq
      cases hx.symm.trans hy
      exact absurd rfl (hown c)
  refused y q hy := by
    obtain ⟨htq, r, hr, hrq⟩ := h.refused y q hy
    exact ⟨htq, r, List.mem_append_left _ hr, hrq⟩
  bills := h.bills
  refunds r hr := by
    rcases List.mem_append.1 hr with hr | hr
    · exact h.refunds r hr
    · cases List.mem_singleton.1 hr
      exact ⟨hp, o, hx, hset⟩
  once := by
    apply h.nodup_append
    rintro r hr rfl
    exact hnew r hr (h.refund_eq hr hp).1 rfl

theorem Sound.strike [DecidableEq β] (h : s.Sound) {b : β} {t : Raised ω μ}
    (hb : s.bills b = some t) :
    Sound { s with
      bills := Function.update s.bills b
        (some { t with voided := true }) } where
  billed y q c hy := by
    obtain ⟨htq, n, v, hq, hc, hr⟩ := h.billed y q c hy
    by_cases hcb : c = b
    · subst hcb
      cases hb.symm.trans hc
      exact ⟨htq, n, true, hq, Function.update_self .., fun _ _ _ => rfl⟩
    · refine ⟨htq, n, v, hq, ?_, hr⟩
      dsimp only
      rw [Function.update_of_ne hcb]
      exact hc
  refused := h.refused
  bills c y n v hc := by
    by_cases hcb : c = b
    · subst hcb
      dsimp only at hc
      rw [Function.update_self] at hc
      obtain ⟨o, k, w⟩ := t
      cases hc
      exact h.bills c y k w hb
    · dsimp only at hc
      rw [Function.update_of_ne hcb] at hc
      exact h.bills c y n v hc
  refunds := h.refunds
  once := h.once

theorem Sound.void [DecidableEq β] (h : s.Sound) {x : ω} {p : π} {b c : β}
    {m : μ}
    (hb : s.bills b = some ⟨some x, m, false⟩)
    (hx : s.orders x = some (.billed p c)) :
    Sound { s with
      bills := Function.update s.bills b (some ⟨some x, m, true⟩)
      refunds := s.refunds ++ [⟨x, p, m⟩] } := by
  -- the bill is the order's own, so what it comes to is what was paid
  obtain ⟨p', hx'⟩ := h.bills b x m false hb
  cases hx.symm.trans hx'
  obtain ⟨-, m', v, hp, hb', hstands⟩ := h.billed x p b hx
  cases hb.symm.trans hb'
  have hstruck := h.strike hb
  exact {
    billed := fun y q c hy => by
      obtain ⟨htq, n, v, hq, hc, hr⟩ := hstruck.billed y q c hy
      refine ⟨htq, n, v, hq, hc, ?_⟩
      intro r hmem hrq
      rcases List.mem_append.1 hmem with hmem | hmem
      · exact hr r hmem hrq
      · cases List.mem_singleton.1 hmem
        subst hrq
        cases hp.symm.trans hq
        cases hx.symm.trans hy
        dsimp only at hc
        rw [Function.update_self] at hc
        cases hc
        rfl
    refused := fun y q hy => by
      obtain ⟨htq, r, hr, hrq⟩ := h.refused y q hy
      exact ⟨htq, r, List.mem_append_left _ hr, hrq⟩
    bills := hstruck.bills
    refunds := fun r hr => by
      rcases List.mem_append.1 hr with hr | hr
      · exact h.refunds r hr
      · cases List.mem_singleton.1 hr
        exact ⟨hp, _, hx, nofun⟩
    once := by
      apply h.nodup_append
      exact fun r hr hrp => absurd (hstands r hr hrp) Bool.false_ne_true }

/-- No event breaks the books. -/
theorem Step.sound [DecidableEq ω] [DecidableEq β] (hs : Step s s') (h :
    s.Sound) : s'.Sound := by
  cases hs with
  | learn hf hg => exact h.learn hf hg
  | place hx => exact h.place hx
  | sell hb => exact h.sell hb
  | bill hp ht hx hb => exact h.bill hp ht hx hb
  | refuse hp ht hx => exact h.refuse hp ht hx
  | duplicate hp _ hx hset hown hnew => exact h.duplicate hp hx hset hown hnew
  | strike hb => exact h.strike hb
  | void hb hx => exact h.void hb hx

end Steps

/-! ## What the books say -/

/-- An answered payment, read off sound books: the one its order was billed
for, or the one refund of it, whole. -/
theorem Sound.accounted {s : Takings ω π β μ} (h : s.Sound) {x : ω} {p : π}
    {m : μ} (hp : s.madeFor p = some (x, m)) (ha : s.Answered x p) :
    (∃ b v, s.orders x = some (.billed p b) ∧
      s.bills b = some ⟨some x, m, v⟩) ∨
    ∃ r ∈ s.refunds, r.order = x ∧ r.payment = p ∧ r.amount = m := by
  rcases ha with ⟨b, hx⟩ | ⟨r, hr, rfl⟩
  · obtain ⟨-, m', v, hp', hb, -⟩ := h.billed x p b hx
    cases hp.symm.trans hp'
    exact .inl ⟨b, v, hx, hb⟩
  · obtain ⟨hx, hm⟩ := h.refund_eq hr hp
    exact .inr ⟨r, hr, hx, rfl, hm⟩

end Takings

end Kit
