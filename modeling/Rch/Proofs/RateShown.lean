import Rch.Api.RateCard

/-!
# The rate shown is the rate applied, but for a ceiling taken off

The sale reads the card's rows themselves. The till and the list of payers
read the card `readTerms` returns, each through maps of its own. Every lookup
is followed back to the row it came from, and what is left is one comparison.

The card fills an absent half of a category's row from the fallback, and the
sale falls back only where the whole row is gone. They part on one row. A
category whose row is there with no ceiling has none at the sale, and on the
card it gets the fallback's, which only the staff have.
-/

namespace Rch

open Kit

/-! ## Following a lookup back -/

theorem payerKey_inj {k k' : PayerKind} {id id' : String}
    (h : payerKey k id = payerKey k' id') : k = k' ∧ id = id' := by
  have hl := congrArg String.toList h
  simp only [payerKey, String.toList_append] at hl
  -- The second letters of the three words tell them apart.
  have hletter := congrArg (fun l => l[1]?) hl
  cases k <;> cases k' <;>
    first
    | exact ⟨rfl, String.toList_inj.1 (List.append_cancel_left hl)⟩
    | simp at hletter

section Lookup

variable {byName : String → String → Bool} {t : RateTables} {db : Db}
variable {kind : PayerKind} {id : String}

/-- A category is always on the card. -/
theorem fromEntries_classes (byName : String → String → Bool) (t : RateTables)
    (cls : BillParty) :
    fromEntries ((readTerms byName t).classes.map fun c => (c.cls, c)) cls =
      some (classTermsOf t cls) := by
  cases h : fromEntries ((readTerms byName t).classes.map fun c => (c.cls, c))
      cls with
  | none =>
      rw [fromEntries_eq_none] at h
      refine absurd ?_ h
      cases cls <;> simp [readTerms, billParties, classTermsOf]
  | some c =>
      have hmem := mem_of_fromEntries h
      simp only [readTerms, List.map_map, List.mem_map, Function.comp_apply,
        Prod.mk.injEq] at hmem
      obtain ⟨cls', _, rfl, rfl⟩ := hmem
      rfl

theorem mem_readTerms_payers {o : PayerTermsEntry} :
    o ∈ (readTerms byName t).payers ↔
      ∃ own p, t.payerTerms.get? (o.kind, o.id) = some own ∧
        t.payers.get? (o.kind, o.id) = some p ∧
        o = ⟨o.kind, o.id, p.name, own.pct, own.limit⟩ := by
  simp only [readTerms, List.mem_mergeSort, List.mem_filterMap,
    Option.map_eq_some_iff]
  constructor
  · rintro ⟨⟨⟨kind, id⟩, own⟩, hown, p, hp, rfl⟩
    exact ⟨own, p, Table.get?_eq_some.2 hown, hp, rfl⟩
  · rintro ⟨own, p, hown, hp, ho⟩
    exact ⟨((o.kind, o.id), own), Table.get?_eq_some.1 hown, p, hp, ho.symm⟩

/-- An exception is on the card under its payer's word, and nothing else is. -/
theorem fromEntries_payers (byName : String → String → Bool) (t : RateTables)
    (kind : PayerKind) (id : String) :
    (fromEntries ((readTerms byName t).payers.map fun o =>
      (payerKey o.kind o.id, o)) (payerKey kind id)).map
        (fun o => (⟨o.pct, o.limit⟩ : PayerTerms)) =
      t.payerTerms.get? (kind, id) := by
  cases h : fromEntries ((readTerms byName t).payers.map fun o =>
      (payerKey o.kind o.id, o)) (payerKey kind id) with
  | some o =>
      obtain ⟨o', ho', heq⟩ := List.mem_map.1 (mem_of_fromEntries h)
      obtain ⟨hkey, rfl⟩ := Prod.mk.inj heq
      obtain ⟨rfl, rfl⟩ := payerKey_inj hkey
      obtain ⟨own, p, hown, -, ho⟩ := mem_readTerms_payers.1 ho'
      rw [hown, ho]
      rfl
  | none =>
      rw [fromEntries_eq_none] at h
      cases hown : t.payerTerms.get? (kind, id) with
      | none => rfl
      | some own =>
          have hmem := t.payer_terms_payer_fk _ (Table.mem_keys_of_get? hown)
          obtain ⟨⟨_, p⟩, hp, rfl⟩ := List.mem_map.1 hmem
          have hentry : (⟨kind, id, p.name, own.pct, own.limit⟩ :
              PayerTermsEntry) ∈ (readTerms byName t).payers :=
            mem_readTerms_payers.2
              ⟨own, p, hown, Table.get?_eq_some.2 hp, rfl⟩
          refine absurd ?_ h
          rw [List.map_map]
          exact List.mem_map.2 ⟨_, hentry, rfl⟩

end Lookup

/-! ## The two folds -/

section Balance

theorem charged_eq_sumOn (db : Db) (kind : PayerKind) (id : String) :
    (outstandingFor db kind id).charged =
      sumOn (accountBills db) billPayer (some (kind, id)) BillRow.total := by
  unfold accountBills
  rw [sumOn_filter_eq_sum, List.map_map]
  refine congrArg List.sum (List.map_congr_left fun b _ => ?_)
  refine if_congr ?_ rfl rfl
  simp only [chargedTo, billPayer, Bool.and_eq_true, decide_eq_true_eq,
    Option.any_eq_true, Option.map_eq_some_iff, Prod.mk.injEq]
  tauto

theorem settled_eq_sumOn (db : Db) (kind : PayerKind) (id : String) :
    (outstandingFor db kind id).settled =
      sumOn (liveSettlements db) (fun s => (s.kind, s.payerId)) (kind, id)
        SettlementRow.amount := by
  unfold liveSettlements
  rw [sumOn_filter_eq_sum, List.map_map]
  refine congrArg List.sum (List.map_congr_left fun s _ => ?_)
  refine if_congr ?_ rfl rfl
  simp only [paidBy, Bool.and_eq_true, decide_eq_true_eq, Prod.mk.injEq]
  exact and_comm

/-- Where a payer's word has a charged row, the row is theirs; where it has
none, nothing was charged to them. -/
theorem charged_listed (db : Db) (kind : PayerKind) {id : String}
    (hid : id ≠ "") :
    ((fromEntries ((chargedByPayer db).map fun c => (payerKey c.kind c.id, c))
      (payerKey kind id)).map ChargedRow.charged).getD 0 =
      (outstandingFor db kind id).charged := by
  rw [charged_eq_sumOn]
  cases h : fromEntries ((chargedByPayer db).map fun c =>
      (payerKey c.kind c.id, c)) (payerKey kind id) with
  | some c =>
      obtain ⟨c', hc, heq⟩ := List.mem_map.1 (mem_of_fromEntries h)
      obtain ⟨hkey, rfl⟩ := Prod.mk.inj heq
      obtain ⟨rfl, rfl⟩ := payerKey_inj hkey
      obtain ⟨⟨k, g⟩, hg, hc⟩ := List.mem_filterMap.1 hc
      cases k with
      | none => cases hc
      | some p =>
          rw [Option.bind_some] at hc
          split at hc
          · cases hc
          · cases hc
            exact sum_of_mem_groups hg BillRow.total
  | none =>
      rw [fromEntries_eq_none] at h
      symm
      apply sumOn_eq_zero
      intro b hb hk
      refine absurd ?_ h
      have hg : (some (kind, id), _) ∈ groups billPayer (accountBills db) :=
        mem_groups.2 ⟨⟨b, hb, hk⟩, rfl⟩
      rw [List.map_map]
      refine List.mem_map.2 ⟨_, List.mem_filterMap.2 ⟨_, hg, if_neg hid⟩, rfl⟩

theorem settled_listed (db : Db) (kind : PayerKind) (id : String) :
    (fromEntries ((settledByPayer db).map fun s =>
      (payerKey s.kind s.id, s.settled)) (payerKey kind id)).getD 0 =
      (outstandingFor db kind id).settled := by
  rw [settled_eq_sumOn]
  cases h : fromEntries ((settledByPayer db).map fun s =>
      (payerKey s.kind s.id, s.settled)) (payerKey kind id) with
  | some x =>
      obtain ⟨s, hs, heq⟩ := List.mem_map.1 (mem_of_fromEntries h)
      obtain ⟨⟨⟨k, id'⟩, g⟩, hg, rfl⟩ := List.mem_map.1 hs
      obtain ⟨hkey, rfl⟩ := Prod.mk.inj heq
      obtain ⟨rfl, rfl⟩ := payerKey_inj hkey
      exact sum_of_mem_groups hg SettlementRow.amount
  | none =>
      rw [fromEntries_eq_none] at h
      symm
      apply sumOn_eq_zero
      intro s hs hk
      refine absurd ?_ h
      have hg : ((kind, id), _) ∈ groups
          (fun s : SettlementRow => (s.kind, s.payerId)) (liveSettlements db) :=
        mem_groups.2 ⟨⟨s, hs, hk⟩, rfl⟩
      rw [List.map_map]
      exact List.mem_map.2 ⟨_, List.mem_map.2 ⟨_, hg, rfl⟩, rfl⟩

end Balance

/-! ## The rate -/

section Rate

variable (byName : String → String → Bool) (t : RateTables) (db : Db)

def ownTerms (payer : Option PayerRef) : Option PayerTerms :=
  payer.bind fun p => t.payerTerms.get? (p.kind, p.id)

/-- What a reader of the card makes of a category and an exception. -/
def cardTerms (party : BillParty) (own : Option PayerTerms) : ResolvedTerms :=
  ⟨discountPctFor (classTermsOf t party).pct (own.bind PayerTerms.pct),
    creditLimitFor (classTermsOf t party).limit (own.bind PayerTerms.limit)⟩

theorem partyRate_eq (payer : Option PayerRef) :
    partyRate (readTerms byName t) payer =
      ⟨partyOf (payer.map PayerRef.kind),
        (cardTerms t (partyOf (payer.map PayerRef.kind)) (ownTerms t payer)).pct,
        (cardTerms t (partyOf (payer.map PayerRef.kind))
          (ownTerms t payer)).limit⟩ := by
  cases payer with
  | none =>
      simp only [partyRate, fromEntries_classes]
      rfl
  | some p =>
      simp only [partyRate, fromEntries_classes, cardTerms, ownTerms,
        Option.bind_some, ← fromEntries_payers byName t, Option.bind_map]
      rfl

theorem receivableOf_terms (charged : List ChargedRow)
    (settled : List SettledRow) (p : RegisterRow) :
    (⟨(receivableOf (readTerms byName t) charged settled p).pct,
      (receivableOf (readTerms byName t) charged settled p).limit⟩ :
        ResolvedTerms) =
      cardTerms t (partyOf (some p.kind)) (t.payerTerms.get? (p.kind, p.id)) := by
  simp only [receivableOf, fromEntries_classes, cardTerms,
    ← fromEntries_payers byName t, Option.bind_map]
  rfl

theorem termsFor_onto (party : BillParty) (payer : Option PayerRef) :
    termsFor (t.onto db) party payer =
      ⟨discountPctFor ((t.payerClassTerms.get? party).getD
          (fallbackTerms party)).pct ((ownTerms t payer).bind PayerTerms.pct),
        creditLimitFor ((t.payerClassTerms.get? party).getD
          (fallbackTerms party)).limit
          ((ownTerms t payer).bind PayerTerms.limit)⟩ := by
  have hown : (payer.bind fun p => (t.onto db).rows.payerTerms p.kind p.id) =
      ownTerms t payer := rfl
  unfold termsFor
  rw [hown]
  cases ownTerms t payer with
  | none => rfl
  | some own => cases own with | mk pct limit => cases limit <;> rfl

/-- The staff row is there and sets no ceiling, and nothing of this payer's own
stands before it. -/
def StaffUncapped (payer : Option PayerRef) : Prop :=
  payer.map PayerRef.kind = some .staff ∧
    (t.payerClassTerms.get? .staff).any (fun row => row.limit.isNone) = true ∧
    (ownTerms t payer).bind PayerTerms.limit = none

theorem classTermsOf_pct (cls : BillParty) :
    (classTermsOf t cls).pct =
      ((t.payerClassTerms.get? cls).getD (fallbackTerms cls)).pct := by
  unfold classTermsOf
  cases t.payerClassTerms.get? cls <;> rfl

/-- The staff's fallback is the only one with a ceiling. -/
theorem fallbackTerms_limit {cls : BillParty} (h : cls ≠ .staff) :
    (fallbackTerms cls).limit = none := by
  cases cls with
  | staff => exact absurd rfl h
  | customer | dept | doctor => rfl

theorem classTermsOf_limit_iff (cls : BillParty) :
    (classTermsOf t cls).limit =
        ((t.payerClassTerms.get? cls).getD (fallbackTerms cls)).limit ↔
      ¬(cls = .staff ∧
        (t.payerClassTerms.get? cls).any (fun row => row.limit.isNone) = true) := by
  unfold classTermsOf
  cases t.payerClassTerms.get? cls with
  | none => simp
  | some row =>
      obtain ⟨pct, limit⟩ := row
      cases limit with
      | some limit => simp
      | none =>
          by_cases hcls : cls = .staff
          · subst hcls
            simp [fallbackTerms]
          · simp [fallbackTerms_limit hcls, hcls]

theorem partyOf_eq_staff {kind : Option PayerKind} :
    partyOf kind = .staff ↔ kind = some .staff := by
  rcases kind with _ | ⟨_ | _ | _⟩ <;> simp [partyOf]

theorem cardTerms_eq_iff (payer : Option PayerRef) :
    cardTerms t (partyOf (payer.map PayerRef.kind)) (ownTerms t payer) =
        termsFor (t.onto db) (partyOf (payer.map PayerRef.kind)) payer ↔
      ¬StaffUncapped t payer := by
  rw [termsFor_onto]
  unfold cardTerms StaffUncapped
  rw [classTermsOf_pct, ResolvedTerms.mk.injEq, eq_self, true_and,
    ← partyOf_eq_staff]
  cases (ownTerms t payer).bind PayerTerms.limit with
  | some limit => simp [creditLimitFor]
  | none =>
      simp only [creditLimitFor, Option.none_or, and_true,
        classTermsOf_limit_iff]
      refine not_congr (and_congr_right fun hstaff => ?_)
      rw [hstaff]

/-! ## What the screens show -/

/-- Both readers of the card give this payer the sale's rate and ceiling, and
the list gives them the balance the sale counts. -/
structure RateShown (perms : Permissions) (payer : Option PayerRef) : Prop where
  till : partyRate (readTerms byName t) payer =
    ⟨partyOf (payer.map PayerRef.kind),
      (termsFor (t.onto db) (partyOf (payer.map PayerRef.kind)) payer).pct,
      (termsFor (t.onto db) (partyOf (payer.map PayerRef.kind)) payer).limit⟩
  listed : ∀ r ∈ receivables byName t db perms, ∀ p ∈ payer,
    r.kind = p.kind → r.id = p.id →
      r.pct = (termsFor (t.onto db) (partyOf (some p.kind)) payer).pct ∧
        r.limit = (termsFor (t.onto db) (partyOf (some p.kind)) payer).limit
  owed : ∀ r ∈ receivables byName t db perms,
    r.outstanding = (outstandingFor (t.onto db) r.kind r.id).outstanding

end Rate

section Listed

variable {byName : String → String → Bool} {t : RateTables} {db : Db}
variable {perms : Permissions} {r : Receivable}

theorem receivablePayers_id {p : RegisterRow}
    (h : p ∈ receivablePayers t (chargedByPayer db) byName) : p.id ≠ "" := by
  rcases List.mem_append.1 h with h | h
  · obtain ⟨⟨k, row⟩, hrow, rfl⟩ := List.mem_map.1 (List.mem_mergeSort.1 h)
    exact t.payers_id k (Table.mem_keys hrow)
  · obtain ⟨c, hc, rfl⟩ := List.mem_map.1 h
    obtain ⟨⟨k, g⟩, -, hc⟩ := List.mem_filterMap.1 (List.mem_filter.1 hc).1
    cases k with
    | none => cases hc
    | some p =>
        rw [Option.bind_some] at hc
        split at hc
        · cases hc
        · next hid =>
            cases hc
            exact hid

theorem mem_receivables (h : r ∈ receivables byName t db perms) :
    ∃ p : RegisterRow, p.id ≠ "" ∧
      r = receivableOf (readTerms byName t) (chargedByPayer db)
        (settledByPayer db) p := by
  unfold receivables at h
  split at h
  · obtain ⟨p, hp, rfl⟩ := List.mem_map.1 (List.mem_mergeSort.1 h)
    exact ⟨p, receivablePayers_id hp, rfl⟩
  · cases h

theorem receivables_owed (h : r ∈ receivables byName t db perms) :
    r.outstanding = (outstandingFor (t.onto db) r.kind r.id).outstanding := by
  obtain ⟨p, hid, rfl⟩ := mem_receivables h
  change max 0 (round2 (_ : ℚ)) = max 0 (round2 _)
  rw [charged_listed db p.kind hid, settled_listed db p.kind p.id]
  rfl

end Listed

/-- A till and the list of payers show every party the rate and the ceiling
their next bill gets, and the balance beside them is the one the sale counts,
whatever the card holds, except a member of the staff while the staff row takes
their ceiling off and they have none of their own. -/
theorem rate_shown (byName : String → String → Bool) (t : RateTables) (db : Db)
    (perms : Permissions) (payer : Option PayerRef) :
    RateShown byName t db perms payer ↔ ¬StaffUncapped t payer := by
  rw [← cardTerms_eq_iff t db payer]
  constructor
  · intro h
    have htill := h.till
    rw [partyRate_eq, PartyRate.mk.injEq] at htill
    exact congrArg₂ ResolvedTerms.mk htill.2.1 htill.2.2
  · intro h
    refine ⟨?_, ?_, fun r hr => receivables_owed hr⟩
    · rw [partyRate_eq, h]
    · intro r hr p hp hkind hid
      cases hp
      obtain ⟨row, -, rfl⟩ := mem_receivables hr
      have hrow := receivableOf_terms byName t (chargedByPayer db)
        (settledByPayer db) row
      have hown : t.payerTerms.get? (row.kind, row.id) =
          ownTerms t (some p) := by
        change row.kind = p.kind at hkind
        change row.id = p.id at hid
        rw [hkind, hid]
        rfl
      rw [hown, show row.kind = p.kind from hkind] at hrow
      rw [← show cardTerms t (partyOf (some p.kind)) (ownTerms t (some p)) =
        termsFor (t.onto db) (partyOf (some p.kind)) (some p) from h, ← hrow]
      exact ⟨rfl, rfl⟩

/-- The staff on no ceiling, and one of them on the register. -/
def uncappedStaff : RateTables where
  payerClassTerms := ⟨[(.staff, ⟨Pct.zero, none⟩)], by decide⟩
  payerTerms := .empty
  payers := ⟨[((.staff, "RC-1902"), ⟨"Vinoth Prakash · Kitchen", true⟩)],
    by decide⟩
  payer_terms_payer_fk := by decide
  payers_id := by decide

/-- The till shows him a ceiling of 3,000, and the sale holds him to none. -/
theorem rate_shown_parts :
    ¬∀ (byName : String → String → Bool) (t : RateTables) (db : Db)
      (perms : Permissions) (payer : Option PayerRef),
      RateShown byName t db perms payer := by
  intro h
  have htill := (h (fun a c => decide (a ≤ c)) uncappedStaff (.fresh .empty)
    ⟨fun _ => none, []⟩
    (some ⟨.staff, "RC-1902", "Vinoth Prakash · Kitchen"⟩)).till
  exact absurd (congrArg PartyRate.limit htill) (by decide +kernel)

end Rch
