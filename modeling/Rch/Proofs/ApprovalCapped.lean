import Rch.Domain.Approval

/-!
# What an approval promises

Three caps and a clamp: each line gets the least of what was asked, typed and
free, and nothing where that is less than nothing. On three-decimal quantities
the rounding does nothing, so every verdict (short, trimmed, the status) is
read off that one figure.
-/

namespace Rch

open Kit

variable {lines : List RequestLine} {appr : List Qty}
  {freeFor : ItemKey → Qty}

def promised (l : RequestLine) (typed : Qty) (freeFor : ItemKey → Qty) : Qty :=
  max 0 (min (min l.qty typed) (freeFor l.it))

theorem promised_eq (l : RequestLine) (typed : Qty)
    (freeFor : ItemKey → Qty) :
    max 0 (round3 (min (min (l.qty : ℚ) typed) (freeFor l.it))) =
      promised l typed freeFor := by
  have hmono : Monotone (Decimal.toRat : Qty → ℚ) := fun _ _ h =>
    Decimal.toRat_le.2 h
  rw [← hmono.map_min, ← hmono.map_min, round3_qty]
  rfl

theorem typed_at {i : ℕ} {a : Qty} (h : appr[i]? = some a) :
    ((appr.map Decimal.toRat)[i]?).getD 0 = (a : ℚ) := by
  rw [List.getElem?_map, h]
  rfl

theorem planApproval_getElem (freeFor : ItemKey → Qty) {i : ℕ}
    {l : RequestLine} {a : Qty} (hl : lines[i]? = some l) (ha : appr[i]? = some a) :
    (planApproval lines (appr.map Decimal.toRat) freeFor).lines[i]? =
      some ⟨l.it, l.qty, promised l a freeFor,
        some (l.qty - promised l a freeFor)⟩ := by
  unfold planApproval
  dsimp only
  rw [List.getElem?_mapIdx, hl, Option.map_some, typed_at ha, promised_eq]

theorem planApproval_length :
    (planApproval lines (appr.map Decimal.toRat) freeFor).lines.length =
      lines.length := List.length_mapIdx

theorem mem_planApproval {out : RequestLine}
    (hlen : appr.length = lines.length)
    (h : out ∈ (planApproval lines (appr.map Decimal.toRat) freeFor).lines) :
    ∃ l ∈ lines, ∃ a, out = ⟨l.it, l.qty, promised l a freeFor,
      some (l.qty - promised l a freeFor)⟩ := by
  obtain ⟨i, hi⟩ := List.getElem?_of_mem h
  have hlt : i < lines.length := by
    have := (List.getElem?_eq_some_iff.1 hi).1
    rwa [planApproval_length] at this
  have hlt' : i < appr.length := hlen ▸ hlt
  have hout := planApproval_getElem freeFor
    (List.getElem?_eq_getElem hlt) (List.getElem?_eq_getElem hlt')
  rw [hi] at hout
  exact ⟨_, List.getElem_mem hlt, _, Option.some.inj hout⟩

theorem promised_nonneg (l : RequestLine) (a : Qty) (freeFor : ItemKey → Qty) :
    0 ≤ promised l a freeFor := le_max_left ..

theorem promised_le {l : RequestLine} (hl : 0 < l.qty) (a : Qty)
    (freeFor : ItemKey → Qty) : promised l a freeFor ≤ l.qty :=
  max_le hl.le ((min_le_left _ _).trans (min_le_left _ _))

/-- The cover cut a line that the manager would have given more of. -/
theorem promised_lt_iff (l : RequestLine) (a : Qty) (freeFor : ItemKey → Qty) :
    promised l a freeFor < min l.qty a ↔
      0 < min l.qty a ∧ freeFor l.it < min l.qty a := by
  unfold promised
  rw [max_lt_iff, min_lt_iff]
  constructor
  · rintro ⟨hpos, hlt | hlt⟩
    · exact absurd hlt (lt_irrefl _)
    · exact ⟨hpos, hlt⟩
  · rintro ⟨hpos, hlt⟩
    exact ⟨hpos, .inr hlt⟩

theorem planApproval_trimmed (hlen : appr.length = lines.length) :
    (planApproval lines (appr.map Decimal.toRat) freeFor).trimmed = true ↔
      ∃ (i : ℕ) (l : RequestLine) (a : Qty), lines[i]? = some l ∧
        appr[i]? = some a ∧ promised l a freeFor < min l.qty a := by
  have hmono : Monotone (Decimal.toRat : Qty → ℚ) := fun _ _ h =>
    Decimal.toRat_le.2 h
  have hcut {i : ℕ} {l : RequestLine} {a : Qty} (ha : appr[i]? = some a) :
      (promised l a freeFor : ℚ) <
          min (l.qty : ℚ) (((appr.map Decimal.toRat)[i]?).getD 0) ↔
        promised l a freeFor < min l.qty a := by
    rw [typed_at ha, ← hmono.map_min, Decimal.toRat_lt]
  change ((planApproval lines (appr.map Decimal.toRat) freeFor).lines.mapIdx
    fun i l => decide ((l.appr : ℚ) < min (l.qty : ℚ)
      (((appr.map Decimal.toRat)[i]?).getD 0))).any id = true ↔ _
  rw [List.any_eq_true]
  constructor
  · rintro ⟨b, hb, hid⟩
    obtain ⟨i, hi⟩ := List.getElem?_of_mem hb
    rw [List.getElem?_mapIdx] at hi
    obtain ⟨out, hout, rfl⟩ := Option.map_eq_some_iff.1 hi
    have hlt : i < lines.length := by
      have := (List.getElem?_eq_some_iff.1 hout).1
      rwa [planApproval_length] at this
    have hl := List.getElem?_eq_getElem hlt
    have ha := List.getElem?_eq_getElem (hlen ▸ hlt : i < appr.length)
    rw [planApproval_getElem freeFor hl ha] at hout
    obtain rfl := Option.some.inj hout
    exact ⟨i, _, _, hl, ha, (hcut ha).1 (of_decide_eq_true hid)⟩
  · rintro ⟨i, l, a, hl, ha, hlt⟩
    refine ⟨true, ?_, rfl⟩
    apply List.mem_of_getElem? (i := i)
    rw [List.getElem?_mapIdx, planApproval_getElem freeFor hl ha, Option.map_some]
    congr 1
    exact decide_eq_true ((hcut ha).2 hlt)

/-! ## The status -/

theorem planApproval_total_eq_zero (freeFor : ItemKey → Qty)
    (hlen : appr.length = lines.length) :
    ((planApproval lines (appr.map Decimal.toRat) freeFor).lines.map
        RequestLine.appr).sum = 0 ↔
      ∀ out ∈ (planApproval lines (appr.map Decimal.toRat) freeFor).lines,
        out.appr = 0 := by
  have hnonneg : ∀ q ∈ (planApproval lines (appr.map Decimal.toRat)
      freeFor).lines.map RequestLine.appr, 0 ≤ q := by
    intro q hq
    obtain ⟨out, hout, rfl⟩ := List.mem_map.1 hq
    obtain ⟨l, -, a, rfl⟩ := mem_planApproval hlen hout
    exact promised_nonneg l a freeFor
  constructor
  · intro hsum out hout
    exact List.all_zero_of_le_zero_le_of_sum_eq_zero hnonneg hsum
      (List.mem_map_of_mem hout)
  · intro hzero
    apply List.sum_eq_zero
    intro q hq
    obtain ⟨out, hout, rfl⟩ := List.mem_map.1 hq
    exact hzero out hout

theorem approvedStatus_eq_manager {out : List RequestLine} :
    approvedStatus out = .managerApproved ↔ ∀ l ∈ out, l.appr = l.qty := by
  unfold approvedStatus
  split
  · next h =>
      simp only [List.all_eq_true, decide_eq_true_eq] at h
      exact ⟨fun _ => h, fun _ => rfl⟩
  · next h =>
      simp only [List.all_eq_true, decide_eq_true_eq] at h
      constructor
      · intro heq
        cases heq
      · intro hall
        exact absurd hall h

/-- The status says whether nothing, everything or something between was
approved. -/
theorem planApproval_verdict (hlen : appr.length = lines.length)
    (hpos : ∀ l ∈ lines, 0 < l.qty) :
    let plan := planApproval lines (appr.map Decimal.toRat) freeFor
    (plan.st = .rejected ↔ ∀ out ∈ plan.lines, out.appr = 0) ∧
      (plan.st = .managerApproved ↔
        (∃ out ∈ plan.lines, 0 < out.appr) ∧
          ∀ out ∈ plan.lines, out.appr = out.qty) ∧
      (plan.st = .partiallyApproved ↔
        (∃ out ∈ plan.lines, 0 < out.appr) ∧
          ∃ out ∈ plan.lines, out.appr < out.qty) := by
  intro plan
  have hst : plan.st = if (plan.lines.map RequestLine.appr).sum = 0
      then .rejected else approvedStatus plan.lines := rfl
  have hzero := planApproval_total_eq_zero freeFor hlen
  change (plan.lines.map RequestLine.appr).sum = 0 ↔
    ∀ out ∈ plan.lines, out.appr = 0 at hzero
  have hcap : ∀ out ∈ plan.lines, 0 ≤ out.appr ∧ out.appr ≤ out.qty := by
    intro out hout
    obtain ⟨l, hl, a, rfl⟩ := mem_planApproval hlen hout
    exact ⟨promised_nonneg l a freeFor, promised_le (hpos l hl) a freeFor⟩
  have hsome : ¬ (∀ out ∈ plan.lines, out.appr = 0) ↔
      ∃ out ∈ plan.lines, 0 < out.appr := by
    constructor
    · intro h
      obtain ⟨out, h⟩ := not_forall.1 h
      obtain ⟨hout, hne⟩ := Classical.not_imp.1 h
      exact ⟨out, hout, lt_of_le_of_ne (hcap out hout).1 (Ne.symm hne)⟩
    · rintro ⟨out, hout, hlt⟩ hall
      exact hlt.ne' (hall out hout)
  have hshort : ¬ (∀ out ∈ plan.lines, out.appr = out.qty) ↔
      ∃ out ∈ plan.lines, out.appr < out.qty := by
    constructor
    · intro h
      obtain ⟨out, h⟩ := not_forall.1 h
      obtain ⟨hout, hne⟩ := Classical.not_imp.1 h
      exact ⟨out, hout, lt_of_le_of_ne (hcap out hout).2 hne⟩
    · rintro ⟨out, hout, hlt⟩ hall
      exact hlt.ne (hall out hout)
  rw [hst, ← hsome, ← hshort]
  split
  · next h =>
      have hnone := hzero.1 h
      refine ⟨⟨fun _ => hnone, fun _ => rfl⟩, ⟨?_, ?_⟩, ⟨?_, ?_⟩⟩
      · intro heq
        cases heq
      · intro hall
        exact absurd hnone hall.1
      · intro heq
        cases heq
      · intro hall
        exact absurd hnone hall.1
  · next h =>
      have hany : ¬ ∀ out ∈ plan.lines, out.appr = 0 := fun hall =>
        h (hzero.2 hall)
      refine ⟨⟨?_, fun hall => absurd hall hany⟩, ?_, ?_⟩
      · intro heq
        rcases approvedStatus_cases plan.lines with hc | hc
        · rw [hc] at heq
          cases heq
        · rw [hc] at heq
          cases heq
      · rw [approvedStatus_eq_manager]
        exact ⟨fun hall => ⟨hany, hall⟩, fun hall => hall.2⟩
      · rw [← approvedStatus_eq_manager]
        rcases approvedStatus_cases plan.lines with hc | hc
        · rw [hc]
          constructor
          · intro heq
            cases heq
          · intro hall
            exact absurd rfl hall.2
        · rw [hc]
          refine ⟨fun _ => ⟨hany, ?_⟩, fun _ => rfl⟩
          intro heq
          cases heq

/-- An approval never promises more than the store has free: each line gets
the least of the three figures and nothing below nothing, its shortfall is
what was cut, it is marked trimmed exactly where the cover cut it, and the
status says how much of everything was approved. -/
theorem approval_capped (hlen : appr.length = lines.length)
    (hpos : ∀ l ∈ lines, 0 < l.qty) :
    let plan := planApproval lines (appr.map Decimal.toRat) freeFor
    plan.lines.length = lines.length ∧
      (∀ (i : ℕ) (l : RequestLine) (a : Qty) (out : RequestLine),
        lines[i]? = some l → appr[i]? = some a → plan.lines[i]? = some out →
        out.it = l.it ∧ out.qty = l.qty ∧
          out.appr = max 0 (min (min l.qty a) (freeFor l.it)) ∧
          out.short = some (l.qty - out.appr)) ∧
      (plan.trimmed = true ↔
        ∃ (i : ℕ) (l : RequestLine) (a : Qty), lines[i]? = some l ∧
          appr[i]? = some a ∧ 0 < min l.qty a ∧
          freeFor l.it < min l.qty a) ∧
      (plan.st = .rejected ↔ ∀ out ∈ plan.lines, out.appr = 0) ∧
      (plan.st = .managerApproved ↔
        (∃ out ∈ plan.lines, 0 < out.appr) ∧
          ∀ out ∈ plan.lines, out.appr = out.qty) ∧
      (plan.st = .partiallyApproved ↔
        (∃ out ∈ plan.lines, 0 < out.appr) ∧
          ∃ out ∈ plan.lines, out.appr < out.qty) := by
  intro plan
  refine ⟨planApproval_length, ?_, ?_, planApproval_verdict hlen hpos⟩
  · intro i l a out hl ha hout
    rw [planApproval_getElem freeFor hl ha] at hout
    obtain rfl := Option.some.inj hout
    exact ⟨rfl, rfl, rfl, rfl⟩
  · rw [planApproval_trimmed hlen]
    simp only [promised_lt_iff]

/-- Five asked and five typed with three free: three promised, two short, and
the cover is what cut it. -/
theorem approval_capped_three_free :
    (planApproval [⟨"butter", ⟨5000⟩, 0, none⟩]
      ([⟨5000⟩].map (Decimal.toRat : Qty → ℚ)) fun _ => ⟨3000⟩).trimmed =
        true ∧
      (planApproval [⟨"butter", ⟨5000⟩, 0, none⟩]
        ([⟨5000⟩].map (Decimal.toRat : Qty → ℚ)) fun _ => ⟨3000⟩).st =
          .partiallyApproved := by
  have h := @approval_capped [⟨"butter", ⟨5000⟩, 0, none⟩] [⟨5000⟩]
    (fun _ => ⟨3000⟩) (by decide) (by decide)
  refine ⟨h.2.2.1.2 ⟨0, _, _, rfl, rfl, by decide, by decide⟩, ?_⟩
  exact h.2.2.2.2.2.2 ⟨by decide +kernel, by decide +kernel⟩

end Rch
