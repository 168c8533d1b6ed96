import Rch.Machine.Contracts

/-!
# The trail of a contract's rate

Whoever moves a contract's rate holds the contract's row from before it reads
the old rate until it commits, so in the order of their commits the changes of
one contract are a chain, and it ends at the contract's rate. A contract that
becomes live holds its vendor's and item's entry in the index of live ones, so
no two do at once.

The trail is not read in the order of the commits. It is read in the order in
which the transactions began, and a transaction that began early may be the one
that waited longest for the row. Where each takes its turn in the order they
began, the two orders are one.
-/

namespace Rch

open Kit

/-! ## What is kept -/

/-- No other contract than `id` is live for this vendor and item. -/
def NoneLive (s : Contracts) (vendor : String) (it : ItemKey) (id : String) :
    Prop :=
  ∀ id' row, s.rows.get? id' = some row → id' ≠ id → row.vendor = vendor →
    row.it = it → row.active = false

theorem liveFor_eq_false {s : Contracts} {vendor id : String} {it : ItemKey} :
    liveFor s vendor it id = false ↔ NoneLive s vendor it id := by
  unfold liveFor NoneLive
  rw [List.any_eq_false]
  constructor
  · intro h id' row hrow hid hv hit
    have hno := h (id', row) (Table.get?_eq_some.1 hrow)
    simpa [hid, hv, hit] using hno
  · rintro h ⟨id', row⟩ hmem
    have hno := h id' row (Table.get?_eq_some.2 hmem)
    by_cases hid : id' = id
    · simp [hid]
    by_cases hv : row.vendor = vendor
    · by_cases hit : row.it = it
      · simp [hno hid hv hit]
      · simp [hit]
    · simp [hv]

abbrev Leads (l : List RateChange) (rate : Money) : Prop :=
  LeadsTo RateChange.oldRate RateChange.newRate l rate

structure ContractsKept (s : Contracts) : Prop where
  trail : ∀ id row, s.rows.get? id = some row →
    Leads (s.changesOf id) row.rate
  known : ∀ c ∈ s.changes, (s.rows.get? c.contract).isSome = true
  live : ∀ id row, s.rows.get? id = some row → row.active = true →
    NoneLive s row.vendor row.it id
  stamped : ∀ id, InStampOrder RateChange.at_ (s.changesOf id)

/-- The change is stamped no earlier than those its contract has. -/
def InTurn (s : Contracts) (c : RateChange) : Prop :=
  ∀ a ∈ s.changesOf c.contract, a.at_ ≤ c.at_

theorem changesOf_log (s : Contracts) (c : RateChange) (id : String) :
    (logRateChange c s).changesOf id =
      if c.contract = id then s.changesOf id ++ [c] else s.changesOf id := by
  unfold Contracts.changesOf logRateChange
  rw [List.filter_append]
  by_cases h : c.contract = id
  · rw [if_pos h, List.filter_singleton, decide_eq_true h]
    rfl
  · rw [if_neg h, List.filter_singleton, decide_eq_false h]
    exact List.append_nil _

theorem changesOf_unknown {s : Contracts} (h : ContractsKept s) {id : String}
    (hid : s.rows.get? id = none) : s.changesOf id = [] := by
  apply List.filter_eq_nil_iff.2
  intro c hc hcid
  have hknown := h.known c hc
  rw [of_decide_eq_true hcid, hid] at hknown
  cases hknown

theorem get?_insertContract {s : Contracts} {id : String}
    (hfree : s.rows.get? id = none) (row : ContractRow) (k : String) :
    (insertContract id row s).rows.get? k =
      if k = id then some row else s.rows.get? k :=
  Table.get?_insert_of_free hfree row k

theorem ContractsKept.advance {s : Contracts} (h : ContractsKept s) (n : ℕ) :
    ContractsKept { s with seq := n } :=
  ⟨h.trail, h.known, h.live, h.stamped⟩

theorem ContractsKept.insert {s : Contracts} (h : ContractsKept s) {id : String}
    {row : ContractRow} (hfree : s.rows.get? id = none)
    (hlive : NoneLive s row.vendor row.it id) :
    ContractsKept (insertContract id row s) where
  trail k r hr := by
    rw [get?_insertContract hfree] at hr
    split at hr
    · next hk =>
        change Leads (s.changesOf k) r.rate
        rw [hk, changesOf_unknown h hfree]
        exact leadsTo_nil _
    · exact h.trail k r hr
  known c hc := by
    rw [get?_insertContract hfree]
    split
    · rfl
    · exact h.known c hc
  live k r hr hact k' r' hr' hne hv hit := by
    rw [get?_insertContract hfree] at hr hr'
    split at hr
    · next hk =>
        cases hr
        split at hr'
        · next hk' => exact absurd (hk'.trans hk.symm) hne
        · exact hlive k' r' hr' (hk ▸ hne) hv hit
    · next hk =>
        split at hr'
        · cases hr'
          -- The new one may be live because the old one is not.
          have hold := hlive k r hr hk hv.symm hit.symm
          rw [hact] at hold
          cases hold
        · exact h.live k r hr hact k' r' hr' hne hv hit
  stamped := h.stamped

/-- A contract rewritten: it stays its vendor's and its item's, and it is live
only where it was or where no other one is. -/
structure Rewrites (s : Contracts) (id : String) (row row' : ContractRow) :
    Prop where
  vendor : row'.vendor = row.vendor
  it : row'.it = row.it
  active : row'.active = true →
    row.active = true ∨ NoneLive s row.vendor row.it id

theorem Rewrites.live {s : Contracts} {id : String} {row : ContractRow}
    {f : ContractRow → ContractRow} (h : ContractsKept s)
    (hid : s.rows.get? id = some row) (hf : Rewrites s id row (f row)) :
    ∀ k r, (s.rows.modify id f).get? k = some r → r.active = true →
      ∀ k' r', (s.rows.modify id f).get? k' = some r' → k' ≠ k →
        r'.vendor = r.vendor → r'.it = r.it → r'.active = false := by
  -- Where the contract is live now, no other one is.
  have hself : (f row).active = true → NoneLive s row.vendor row.it id := by
    intro hact
    rcases hf.active hact with hwas | hnone
    · exact h.live id row hid hwas
    · exact hnone
  intro k r hr hact k' r' hr' hne hv hit
  rw [Table.get?_modify_of_get? hid] at hr hr'
  split at hr
  · next hk =>
      cases hr
      rw [if_neg (hk ▸ hne)] at hr'
      exact hself hact k' r' hr' (hk ▸ hne) (hv.trans hf.vendor) (hit.trans hf.it)
  · next hk =>
      split at hr'
      · cases hr'
        cases hact' : (f row).active with
        | false => rfl
        | true =>
            have hno := hself hact' k r hr hk (hv.symm.trans hf.vendor)
              (hit.symm.trans hf.it)
            rw [hact] at hno
            cases hno
      · exact h.live k r hr hact k' r' hr' hne hv hit

theorem ContractsKept.update {s : Contracts} (h : ContractsKept s) {id : String}
    {row : ContractRow} {f : ContractRow → ContractRow}
    (hid : s.rows.get? id = some row) (hf : Rewrites s id row (f row))
    (hrate : (f row).rate = row.rate) :
    ContractsKept (updateContract id f s) where
  trail k r hr := by
    change Leads (s.changesOf k) r.rate
    rw [updateContract, Table.get?_modify_of_get? hid] at hr
    split at hr
    · next hk =>
        cases hr
        rw [hk, hrate]
        exact h.trail id row hid
    · exact h.trail k r hr
  known c hc := by
    rw [updateContract, Table.isSome_modify]
    exact h.known c hc
  live := hf.live h hid
  stamped := h.stamped

theorem ContractsKept.reprice {s : Contracts} (h : ContractsKept s)
    {row : ContractRow} {f : ContractRow → ContractRow} {c : RateChange}
    (hid : s.rows.get? c.contract = some row)
    (hf : Rewrites s c.contract row (f row)) (hold : c.oldRate = row.rate)
    (hnew : c.newRate = (f row).rate) (hmoves : c.oldRate ≠ c.newRate)
    (hturn : InTurn s c) :
    ContractsKept (logRateChange c (updateContract c.contract f s)) where
  trail k r hr := by
    change (s.rows.modify c.contract f).get? k = some r at hr
    rw [changesOf_log]
    change Leads (if c.contract = k then s.changesOf k ++ [c]
      else s.changesOf k) r.rate
    rw [Table.get?_modify_of_get? hid] at hr
    split at hr
    · next hk =>
        cases hr
        rw [if_pos hk.symm, ← hnew]
        exact (hk ▸ h.trail c.contract row hid).append hold hmoves
    · next hk =>
        rw [if_neg (Ne.symm hk)]
        exact h.trail k r hr
  known a ha := by
    change ((s.rows.modify c.contract f).get? a.contract).isSome = true
    rw [Table.isSome_modify]
    rcases List.mem_append.1 ha with ha | ha
    · exact h.known a ha
    · rw [List.mem_singleton.1 ha, hid]
      rfl
  live := hf.live h hid
  stamped k := by
    rw [changesOf_log]
    split
    · next hk => exact (h.stamped k).append (hk ▸ hturn)
    · exact h.stamped k

/-! ## What a write leaves alone -/

/-- Of the contracts whose rows were not locked nothing changed, and no entry
of the index that was not locked was taken. -/
structure ContractFrame (held : List (Lock ContractKey)) (s s' : Contracts) :
    Prop where
  rows : ∀ id, ⟨.contract id, .update⟩ ∉ held →
    s'.rows.get? id = s.rows.get? id
  live : ∀ vendor it id, ⟨.live vendor it, .update⟩ ∉ held →
    NoneLive s vendor it id → NoneLive s' vendor it id

section Frame

variable {held : List (Lock ContractKey)} {s s' s'' : Contracts} {id : String}

theorem ContractFrame.trans (h : ContractFrame held s s')
    (h' : ContractFrame held s' s'') : ContractFrame held s s'' where
  rows id hid := (h'.rows id hid).trans (h.rows id hid)
  live v it id hl hn := h'.live v it id hl (h.live v it id hl hn)

theorem ContractFrame.same (h : s'.rows = s.rows) : ContractFrame held s s' where
  rows _ _ := by rw [h]
  live _ _ _ _ hn := by
    unfold NoneLive
    rw [h]
    exact hn

theorem ContractFrame.insert {row : ContractRow}
    (hfree : s.rows.get? id = none) (hkey : ⟨.contract id, .update⟩ ∈ held)
    (hentry : ⟨.live row.vendor row.it, .update⟩ ∈ held) :
    ContractFrame held s (insertContract id row s) where
  rows k hk := by
    rw [get?_insertContract hfree, if_neg]
    rintro rfl
    exact hk hkey
  live v it k hl hn k' r' hr' hne hv hit := by
    rw [get?_insertContract hfree] at hr'
    split at hr'
    · cases hr'
      rw [hv, hit] at hentry
      exact absurd hentry hl
    · exact hn k' r' hr' hne hv hit

/-- A contract rewritten under its lock, and under the index's where it
becomes live. -/
theorem ContractFrame.update {row : ContractRow}
    {f : ContractRow → ContractRow} (hid : s.rows.get? id = some row)
    (hkey : ⟨.contract id, .update⟩ ∈ held)
    (hv : (f row).vendor = row.vendor) (hit : (f row).it = row.it)
    (hact : (f row).active = true →
      row.active = true ∨ ⟨.live row.vendor row.it, .update⟩ ∈ held) :
    ContractFrame held s (updateContract id f s) where
  rows k hk := by
    rw [updateContract, Table.get?_modify_ne]
    rintro rfl
    exact hk hkey
  live v it k hl hn k' r' hr' hne hv' hit' := by
    rw [updateContract, Table.get?_modify_of_get? hid] at hr'
    split at hr'
    · next hk' =>
        cases hr'
        rw [hv] at hv'
        rw [hit] at hit'
        cases hact' : (f row).active with
        | false => rfl
        | true =>
            rcases hact hact' with hwas | hentry
            · have hno := hn id row hid (hk' ▸ hne) hv' hit'
              rw [hwas] at hno
              cases hno
            · rw [hv', hit'] at hentry
              exact absurd hentry hl
    · exact hn k' r' hr' hne hv' hit'

end Frame

/-! ## Where an open transaction stands -/

section Shape

variable (s : Contracts) (held : List (Lock ContractKey))
variable (write : Contracts → Contracts)

def Held (id : String) (row : ContractRow) : Prop :=
  ⟨.contract id, .update⟩ ∈ held ∧ s.rows.get? id = some row

def nextContract (s : Contracts) : Contracts := { s with seq := s.seq + 1 }

def CreateShaped (body : ContractBody) : CreateContractAt → Prop
  | .begun => write = fun s => s
  | .numbered _ => write = nextContract
  | .written id => ⟨.contract id, .update⟩ ∈ held ∧
      ⟨.live body.vendorId body.it, .update⟩ ∈ held ∧
      s.rows.get? id = none ∧ NoneLive s body.vendorId body.it id ∧
      write = fun s => insertContract id (newContract body) (nextContract s)

/-- A contract that is to be live again has its entry in the index. -/
def Clear (id : String) (body : PatchContractBody) (row : ContractRow) : Prop :=
  reactivating body row = true →
    ⟨.live row.vendor row.it, .update⟩ ∈ held ∧
      NoneLive s row.vendor row.it id

def PatchShaped (now : ℕ) (by_ id : String) (body : PatchContractBody) :
    PatchContractAt → Prop
  | .begun => write = fun s => s
  | .found row | .clear row => Held s held id row ∧ write = fun s => s
  | .updated row => Held s held id row ∧ Clear s held id body row ∧
      write = updateContract id (patchedContract body)
  | .written row => Held s held id row ∧ Clear s held id body row ∧
      write = fun s => (patchChange now by_ id body row).elim
        (updateContract id (patchedContract body) s)
        fun c => logRateChange c (updateContract id (patchedContract body) s)

def CloseContractShaped (id : String) : CloseContractAt → Prop
  | .begun => write = fun s => s
  | .found row => Held s held id row ∧ write = fun s => s
  | .written => ∃ row, Held s held id row ∧
      write = updateContract id fun r => { r with active := false }

/-- A change a draft has made: of a locked contract, from its rate. -/
def Made (now : ℕ) (c : RateChange) : Prop :=
  ∃ row, Held s held c.contract row ∧ c.oldRate = row.rate ∧
    c.oldRate ≠ c.newRate ∧ c.at_ = now

def RepriceShaped (now : ℕ) : RepriceAt → Prop
  | .begun => write = fun s => s
  | .locked live made => (∀ r ∈ live, Held s held r.1 r.2) ∧
      (∀ c ∈ made, Made s held now c) ∧
      (made.map RateChange.contract ++ live.map Prod.fst).Nodup ∧
      write = fun s => made.foldl (fun s c => moveRate c s) s

end Shape

def ContractShaped (s : Contracts) (x : Tx Contracts ContractKey ContractTx) :
    Prop :=
  match x.at_.op with
  | .create body p => CreateShaped s x.held x.write body p
  | .patch by_ id body p => PatchShaped s x.held x.write x.at_.now by_ id body p
  | .close id p => CloseContractShaped s x.held x.write id p
  | .reprice _ _ p => RepriceShaped s x.held x.write x.at_.now p

/-! ## Statement by statement -/

section Runs

variable {s : Contracts} {held : List (Lock ContractKey)}
variable {write : Contracts → Contracts} {st : ContractStmt} {now : ℕ}

theorem Held.mono {id : String} {row : ContractRow} (h : Held s held id row)
    (locks : List (Lock ContractKey)) : Held s (locks ++ held) id row :=
  ⟨List.mem_append_right _ h.1, h.2⟩

theorem CreateShaped.runs {body : ContractBody} {p : CreateContractAt}
    (h : CreateShaped s held write body p)
    (hs : createContractStmt now body (write s) p = some st) :
    ContractShaped s ⟨st.next, st.locks ++ held, st.write ∘ write⟩ := by
  cases p with
  | begun =>
      obtain rfl := h
      simp only [createContractStmt] at hs
      split at hs
      · cases hs
        rfl
      · cases hs
  | numbered id =>
      obtain rfl := h
      simp only [createContractStmt] at hs
      split at hs
      · next hfree =>
          cases hs
          exact ⟨List.mem_cons_self, List.mem_cons_of_mem _ List.mem_cons_self,
            hfree.1, liveFor_eq_false.1 hfree.2, rfl⟩
      · cases hs
  | written id => cases hs

theorem PatchShaped.runs {by_ id : String} {body : PatchContractBody}
    {p : PatchContractAt} (h : PatchShaped s held write now by_ id body p)
    (hs : patchContractStmt now by_ id body (write s) p = some st) :
    ContractShaped s ⟨st.next, st.locks ++ held, st.write ∘ write⟩ := by
  cases p with
  | begun =>
      obtain rfl := h
      obtain ⟨row, hrow, hs⟩ := Option.bind_eq_some_iff.1 hs
      split at hs
      · cases hs
        exact ⟨⟨List.mem_cons_self, hrow⟩, rfl⟩
      · cases hs
  | found row =>
      obtain ⟨hheld, rfl⟩ := h
      simp only [patchContractStmt] at hs
      split at hs
      · cases hs
      · cases hs
        exact ⟨hheld, rfl⟩
  | clear row =>
      obtain ⟨hheld, rfl⟩ := h
      simp only [patchContractStmt] at hs
      split at hs
      · split at hs
        · cases hs
        next hnone =>
        cases hs
        refine ⟨hheld.mono _, fun _ => ⟨List.mem_cons_self, ?_⟩, rfl⟩
        exact liveFor_eq_false.1 (Bool.eq_false_iff.2 hnone)
      · next hre =>
          cases hs
          exact ⟨hheld, fun hre' => absurd hre' hre, rfl⟩
  | updated row =>
      obtain ⟨hheld, hclear, rfl⟩ := h
      simp only [patchContractStmt] at hs
      split at hs
      · next c hc =>
          cases hs
          refine ⟨hheld, hclear, ?_⟩
          change _ = fun s => (patchChange now by_ id body row).elim _ _
          rw [hc]
          rfl
      · next hc =>
          cases hs
          refine ⟨hheld, hclear, ?_⟩
          change _ = fun s => (patchChange now by_ id body row).elim _ _
          rw [hc]
          rfl
  | written row => cases hs

theorem CloseContractShaped.runs {id : String} {p : CloseContractAt}
    (h : CloseContractShaped s held write id p)
    (hs : closeContractStmt now id (write s) p = some st) :
    ContractShaped s ⟨st.next, st.locks ++ held, st.write ∘ write⟩ := by
  cases p with
  | begun =>
      obtain rfl := h
      obtain ⟨row, hrow, rfl⟩ := Option.map_eq_some_iff.1 hs
      exact ⟨⟨List.mem_cons_self, hrow⟩, rfl⟩
  | found row =>
      obtain ⟨hheld, rfl⟩ := h
      cases hs
      exact ⟨row, hheld, rfl⟩
  | written => cases hs

theorem syncChange_some {by_ : String} {draft : DraftRates}
    {r : String × ContractRow} {c : RateChange}
    (h : syncChange now by_ draft r = some c) :
    c.contract = r.1 ∧ c.oldRate = r.2.rate ∧ c.oldRate ≠ c.newRate ∧
      c.at_ = now := by
  obtain ⟨next, -, h⟩ := Option.bind_eq_some_iff.1 h
  split at h
  · cases h
  · next hmoves =>
      cases h
      exact ⟨rfl, rfl, fun he => hmoves (.inr he.symm), rfl⟩

theorem RepriceShaped.runs {by_ : String} {draft : DraftRates} {p : RepriceAt}
    {c : ContractChoice} (h : RepriceShaped s held write now p)
    (hs : repriceStmt c now by_ draft (write s) p = some st) :
    ContractShaped s ⟨st.next, st.locks ++ held, st.write ∘ write⟩ := by
  cases p with
  | begun =>
      obtain rfl := h
      cases hs
      refine ⟨fun r hr => ⟨?_, ?_⟩, nofun, ?_, rfl⟩
      · exact List.mem_append_left _ (List.mem_map.2 ⟨r, hr, rfl⟩)
      · exact Table.get?_eq_some.2 (List.mem_of_mem_filter hr)
      · exact s.rows.keys_nodup.sublist (List.filter_sublist.map Prod.fst)
  | locked live made =>
      obtain ⟨hlive, hmade, hnodup, rfl⟩ := h
      cases live with
      | nil => cases hs
      | cons r live =>
          have hheld : Held s held r.1 r.2 := hlive r List.mem_cons_self
          have hrest : ∀ r ∈ live, Held s held r.1 r.2 := fun r hr =>
            hlive r (List.mem_cons_of_mem _ hr)
          simp only [repriceStmt] at hs
          split at hs
          · next change hc =>
              cases hs
              obtain ⟨hid, hold, hmoves, hat⟩ := syncChange_some hc
              refine ⟨hrest, fun c hcm => ?_, ?_, ?_⟩
              · rcases List.mem_append.1 hcm with hcm | hcm
                · exact hmade c hcm
                · cases List.mem_singleton.1 hcm
                  exact ⟨r.2, hid ▸ hheld, hold, hmoves, hat⟩
              · rw [List.map_append, List.map_singleton, hid, List.append_assoc]
                exact hnodup
              · funext s
                rw [List.foldl_append]
                rfl
          · cases hs
            refine ⟨hrest, hmade, ?_, rfl⟩
            rw [List.map_cons] at hnodup
            exact hnodup.sublist
              ((List.Sublist.refl _).append (List.sublist_cons_self _ _))

end Runs

theorem contractShaped_begins (s : Contracts) {t : ContractTx}
    (ht : t.starts = true) : ContractShaped s (.fresh t) := by
  obtain ⟨now, op⟩ := t
  cases op with
  | create body p => cases p <;> first | rfl | cases ht
  | patch by_ id body p => cases p <;> first | rfl | cases ht
  | close id p => cases p <;> first | rfl | cases ht
  | reprice by_ draft p => cases p <;> first | rfl | cases ht

theorem ContractShaped.runs {s : Contracts}
    {x : Tx Contracts ContractKey ContractTx} {c : ContractChoice}
    {st : ContractStmt} (h : ContractShaped s x)
    (hs : x.at_.stmt c (x.write s) = some st) :
    ContractShaped s (x.after st) := by
  obtain ⟨⟨now, op⟩, held, write⟩ := x
  cases op with
  | create body p => exact CreateShaped.runs h hs
  | patch by_ id body p => exact PatchShaped.runs h hs
  | close id p => exact CloseContractShaped.runs h hs
  | reprice by_ draft p => exact RepriceShaped.runs h hs

/-! ## What a commit keeps -/

section Commit

variable {s : Contracts} {held : List (Lock ContractKey)}

/-- What a commit owes: the contracts kept, and the frame of its locks. -/
structure Commits (held : List (Lock ContractKey)) (s s' : Contracts) : Prop where
  kept : ContractsKept s'
  frame : ContractFrame held s s'

theorem moveRate_commits (hk : ContractsKept s) {c : RateChange} {now : ℕ}
    (hc : Made s held now c) (hturn : InTurn s c) :
    Commits held s (moveRate c s) := by
  obtain ⟨row, ⟨hkey, hrow⟩, hold, hmoves, -⟩ := hc
  refine ⟨hk.reprice hrow ⟨rfl, rfl, .inl⟩ hold rfl hmoves hturn, ?_⟩
  exact (ContractFrame.update (f := fun r => { r with rate := c.newRate })
    hrow hkey rfl rfl .inl).trans (.same rfl)

/-- A contract the change is not of stands as it did. -/
theorem moveRate_other {c : RateChange} {id : String} (hid : id ≠ c.contract) :
    (moveRate c s).rows.get? id = s.rows.get? id ∧
      (moveRate c s).changesOf id = s.changesOf id := by
  refine ⟨Table.get?_modify_ne _ _ hid, ?_⟩
  rw [moveRate, changesOf_log, if_neg (Ne.symm hid)]
  rfl

/-- The changes of a draft, one contract after another. -/
theorem moves_commit {now : ℕ} {made : List RateChange}
    (hk : ContractsKept s) (hmade : ∀ c ∈ made, Made s held now c)
    (hnodup : (made.map RateChange.contract).Nodup)
    (hturn : ∀ c ∈ made, InTurn s c) :
    Commits held s (made.foldl (fun s c => moveRate c s) s) := by
  induction made generalizing s with
  | nil => exact ⟨hk, .same rfl⟩
  | cons c made ih =>
      have hfirst := moveRate_commits hk (hmade c List.mem_cons_self)
        (hturn c List.mem_cons_self)
      obtain ⟨hc, hnodup⟩ := List.nodup_cons.1 hnodup
      have hother : ∀ c' ∈ made, c'.contract ≠ c.contract := by
        intro c' hc' heq
        exact hc (heq ▸ List.mem_map_of_mem hc')
      have hrest := ih hfirst.kept (fun c' hc' => ?_) hnodup fun c' hc' => ?_
      · exact ⟨hrest.kept, hfirst.frame.trans hrest.frame⟩
      · obtain ⟨row, ⟨hkey, hrow⟩, h⟩ := hmade c' (List.mem_cons_of_mem _ hc')
        exact ⟨row, ⟨hkey, (moveRate_other (hother c' hc')).1.trans hrow⟩, h⟩
      · unfold InTurn
        rw [(moveRate_other (hother c' hc')).2]
        exact hturn c' (List.mem_cons_of_mem _ hc')

theorem patchedContract_active {body : PatchContractBody} {row : ContractRow}
    {id : String} (hclear : Clear s held id body row) :
    (patchedContract body row).active = true →
      row.active = true ∨ ⟨.live row.vendor row.it, .update⟩ ∈ held ∧
        NoneLive s row.vendor row.it id := by
  intro hact
  cases hwas : row.active with
  | true => exact .inl rfl
  | false =>
      refine .inr (hclear ?_)
      unfold reactivating
      rw [hwas, Bool.not_false, Bool.and_true]
      rw [← hwas]
      exact hact

theorem patch_commits (hk : ContractsKept s) {now : ℕ} {by_ id : String}
    {body : PatchContractBody} {row : ContractRow} (hheld : Held s held id row)
    (hclear : Clear s held id body row)
    (hturn : ∀ c ∈ (patchChange now by_ id body row).toList, InTurn s c) :
    Commits held s ((patchChange now by_ id body row).elim
      (updateContract id (patchedContract body) s)
      fun c => logRateChange c (updateContract id (patchedContract body) s)) := by
  have hactive := patchedContract_active hclear
  have hrewrites : Rewrites s id row (patchedContract body row) :=
    ⟨rfl, rfl, fun hact => (hactive hact).imp_right And.right⟩
  have hframe : ContractFrame held s
      (updateContract id (patchedContract body) s) :=
    .update hheld.2 hheld.1 rfl rfl fun hact => (hactive hact).imp_right And.left
  cases hc : patchChange now by_ id body row with
  | none =>
      refine ⟨hk.update hheld.2 hrewrites ?_, hframe⟩
      unfold patchChange at hc
      cases hr : body.rate with
      | none => exact congrArg (Option.getD · row.rate) hr
      | some rate =>
          rw [hr, Option.bind_some] at hc
          split at hc
          · next heq => rw [patchedContract, hr, Option.getD_some, heq]
          · cases hc
  | some c =>
      have hin : InTurn s c := hturn c (by rw [hc]; exact List.mem_singleton_self c)
      obtain ⟨rate, hr, hc⟩ := Option.bind_eq_some_iff.1 hc
      split at hc
      · cases hc
      next hmoves =>
      cases hc
      have hnew : rate = (patchedContract body row).rate := by
        rw [patchedContract, hr, Option.getD_some]
      exact ⟨hk.reprice hheld.2 hrewrites rfl hnew (Ne.symm hmoves) hin,
        hframe.trans (.same rfl)⟩

theorem ContractShaped.commits {x : Tx Contracts ContractKey ContractTx}
    (h : ContractShaped s x) (hk : ContractsKept s) (hd : x.at_.done = true)
    (hturn : ∀ c ∈ x.at_.made, InTurn s c) :
    Commits x.held s (x.write s) := by
  obtain ⟨⟨now, op⟩, held, write⟩ := x
  cases op with
  | create body p =>
      cases p with
      | written id =>
          obtain ⟨hkey, hentry, hfree, hnone, rfl⟩ := h
          have hnext : ContractsKept (nextContract s) := hk.advance _
          have hframe : ContractFrame held s (nextContract s) := .same rfl
          refine ⟨hnext.insert hfree hnone, hframe.trans ?_⟩
          exact .insert hfree hkey hentry
      | _ => cases hd
  | patch by_ id body p =>
      cases p with
      | written row =>
          obtain ⟨hheld, hclear, hw⟩ := h
          exact hw ▸ patch_commits hk hheld hclear hturn
      | _ => cases hd
  | close id p =>
      cases p with
      | written =>
          obtain ⟨row, hheld, rfl⟩ := h
          exact ⟨hk.update hheld.2 ⟨rfl, rfl, nofun⟩ rfl,
            .update hheld.2 hheld.1 rfl rfl nofun⟩
      | _ => cases hd
  | reprice by_ draft p =>
      cases p with
      | locked live made =>
          cases live with
          | nil =>
              obtain ⟨-, hmade, hnodup, rfl⟩ := h
              rw [List.map_nil, List.append_nil] at hnodup
              exact moves_commit hk hmade hnodup hturn
          | cons r live => cases hd
      | begun => cases hd

end Commit

/-! ## What a commit leaves the others -/

section Others

variable {s s' : Contracts} {held held' : List (Lock ContractKey)}

theorem Held.stable (hf : ContractFrame held s s')
    (happ : clash held held' = false) {id : String} {row : ContractRow}
    (h : Held s held' id row) : Held s' held' id row := by
  refine ⟨h.1, (hf.rows id fun hkey => ?_).trans h.2⟩
  rw [clash_of_mem hkey h.1 rfl] at happ
  cases happ

theorem noneLive_stable (hf : ContractFrame held s s')
    (happ : clash held held' = false) {vendor id : String} {it : ItemKey}
    (hentry : ⟨.live vendor it, .update⟩ ∈ held')
    (h : NoneLive s vendor it id) : NoneLive s' vendor it id := by
  refine hf.live vendor it id (fun hkey => ?_) h
  rw [clash_of_mem hkey hentry rfl] at happ
  cases happ

theorem Clear.stable (hf : ContractFrame held s s')
    (happ : clash held held' = false) {id : String} {body : PatchContractBody}
    {row : ContractRow} (h : Clear s held' id body row) :
    Clear s' held' id body row := by
  intro hre
  obtain ⟨hentry, hnone⟩ := h hre
  exact ⟨hentry, noneLive_stable hf happ hentry hnone⟩

theorem ContractShaped.stable {y : Tx Contracts ContractKey ContractTx}
    (h : ContractShaped s y) (hf : ContractFrame held s s')
    (happ : clash held y.held = false) : ContractShaped s' y := by
  obtain ⟨⟨now, op⟩, held', write⟩ := y
  cases op with
  | create body p =>
      cases p with
      | begun => exact h
      | numbered id => exact h
      | written id =>
          obtain ⟨hkey, hentry, hfree, hnone, hw⟩ := h
          refine ⟨hkey, hentry, (hf.rows id fun hx => ?_).trans hfree,
            noneLive_stable hf happ hentry hnone, hw⟩
          rw [clash_of_mem hx hkey rfl] at happ
          cases happ
  | patch by_ id body p =>
      cases p with
      | begun => exact h
      | found row => exact ⟨h.1.stable hf happ, h.2⟩
      | clear row => exact ⟨h.1.stable hf happ, h.2⟩
      | updated row =>
          exact ⟨h.1.stable hf happ, h.2.1.stable hf happ, h.2.2⟩
      | written row =>
          exact ⟨h.1.stable hf happ, h.2.1.stable hf happ, h.2.2⟩
  | close id p =>
      cases p with
      | begun => exact h
      | found row => exact ⟨h.1.stable hf happ, h.2⟩
      | written =>
          obtain ⟨row, hheld, hw⟩ := h
          exact ⟨row, hheld.stable hf happ, hw⟩
  | reprice by_ draft p =>
      cases p with
      | begun => exact h
      | locked live made =>
          obtain ⟨hlive, hmade, hnodup, hw⟩ := h
          refine ⟨fun r hr => (hlive r hr).stable hf happ, fun c hc => ?_,
            hnodup, hw⟩
          obtain ⟨row, hheld, hrest⟩ := hmade c hc
          exact ⟨row, hheld.stable hf happ, hrest⟩

end Others

/-! ## The trail is a chain -/

/-- The transaction that commits takes its turn: each contract whose rate it
moved was last moved by one that had begun no later. -/
def CommitsInTurn (w : World Contracts ContractKey ContractTx) :
    TxEvent ContractChoice ContractTx → Prop
  | .commit i => ∀ x, w.tx i = some x → ∀ c ∈ x.at_.made, InTurn w.committed c
  | _ => True

theorem contracts_kept :
    contracts.Kept CommitsInTurn ContractsKept ContractShaped where
  init := by
    rintro ⟨vendors, items, rows, changes, seq⟩ ⟨hrows, hchanges⟩
    dsimp only at hrows hchanges
    subst hrows hchanges
    exact ⟨nofun, nofun, nofun, fun _ => List.Pairwise.nil⟩
  begins s t _ ht := contractShaped_begins s ht
  runs _ _ _ _ _ _ _ _ hx hs := hx.runs hs
  commits w i x hC hx hi hok hd := (hok.commits hi hd (hC x hx)).kept
  stable w i j x y hC _ hx _ hi hok hy hd happ :=
    hy.stable (hok.commits hi hd (hC x hx)).frame happ

/-- In every run whose transactions move a contract's rate in the order in
which they began, each contract's trail is a chain that ends at its rate, and
no vendor and item have two live contracts. -/
theorem rate_trail_chain {w : World Contracts ContractKey ContractTx}
    (h : contracts.machine.ReachVia CommitsInTurn w) :
    (∀ id row, w.committed.rows.get? id = some row →
      LeadsTo RateChange.oldRate RateChange.newRate
        (readRateChanges w.committed id) row.rate) ∧
    ∀ id row id' row', w.committed.rows.get? id = some row →
      w.committed.rows.get? id' = some row' →
      row.active = true → row'.active = true →
      row.vendor = row'.vendor → row.it = row'.it → id = id' := by
  have hk := (contracts_kept.safe h).inv
  refine ⟨fun id row hrow => ?_, ?_⟩
  · rw [readRateChanges, byStamp_eq (hk.stamped id)]
    exact hk.trail id row hrow
  · intro id row id' row' hrow hrow' hact hact' hv hit
    by_contra hne
    have hno := hk.live id row hrow hact id' row' hrow' (Ne.symm hne) hv.symm
      hit.symm
    rw [hact'] at hno
    cases hno

def takesTurn (w : World Contracts ContractKey ContractTx) :
    TxEvent ContractChoice ContractTx → Bool
  | .commit i => (w.tx i).all fun x => x.at_.made.all fun c =>
    (w.committed.changesOf c.contract).all fun c' => decide (c'.at_ ≤ c.at_)
  | _ => true

theorem takesTurn_sound (w : World Contracts ContractKey ContractTx)
    (e : TxEvent ContractChoice ContractTx) (h : takesTurn w e = true) :
    CommitsInTurn w e := by
  cases e with
  | commit i =>
      intro x hx c hc c' hc'
      simp only [takesTurn, hx, Option.all_some, List.all_eq_true,
        decide_eq_true_eq] at h
      exact h c hc c' hc'
  | _ => exact trivial

/-- A vendor and an item, and no contract yet. -/
def oneVendor : Contracts where
  vendors _ := some "Dairy"
  items _ := some ⟨"Milk", "L", .RAW, 0, none, none, none, true⟩
  rows := .empty
  changes := []
  seq := 109

def milkContract : ContractTx :=
  ⟨1, .create ⟨"V1", "milk", ⟨4000⟩, 0, 364, 0⟩ .begun⟩

/-- An edit of its rate, in a transaction that began at `now`. -/
def rateEdit (now : ℕ) (paise : ℤ) : ContractTx :=
  ⟨now, .patch "Ann" "RC-109" ⟨some ⟨paise⟩, none, none, none, none⟩ .begun⟩

def rateDraft (now : ℕ) (paise : ℤ) : ContractTx :=
  ⟨now, .reprice "Ben" ⟨"PO-1", "V1", [("milk", ⟨paise⟩)], 30⟩ .begun⟩

def milkRate : ContractChoice := ⟨["RC-109"]⟩

/-- An edit of the rate, and then a draft that began after it. -/
def ratesInTurn : List (TxEvent ContractChoice ContractTx) :=
  [.begin_ milkContract, .run 0 milkRate, .run 0 milkRate, .commit 0,
   .begin_ (rateEdit 2 4200), .begin_ (rateDraft 3 4500),
   .run 1 milkRate, .run 1 milkRate, .run 1 milkRate, .run 1 milkRate,
   .commit 1, .run 2 milkRate, .run 2 milkRate, .commit 2]

/-- The same two, and the draft had begun before the edit. -/
def ratesOutOfTurn : List (TxEvent ContractChoice ContractTx) :=
  [.begin_ milkContract, .run 0 milkRate, .run 0 milkRate, .commit 0,
   .begin_ (rateDraft 2 4500), .begin_ (rateEdit 3 4200),
   .run 2 milkRate, .run 2 milkRate, .run 2 milkRate, .run 2 milkRate,
   .commit 2, .run 1 milkRate, .run 1 milkRate, .commit 1]

/-- The contract's trail as it is read back, in paise. -/
def trailRates (w : World Contracts ContractKey ContractTx) :
    List (ℤ × ℤ) :=
  (readRateChanges w.committed "RC-109").map fun c =>
    (c.oldRate.units, c.newRate.units)

def standsAt (w : World Contracts ContractKey ContractTx) (paise : ℤ) :
    Bool :=
  (w.committed.rows.get? "RC-109").any fun row =>
    decide (row.rate = ⟨paise⟩)

theorem rate_trail_chain_in_turn : ∃ w, contracts.machine.ReachVia CommitsInTurn w ∧
    trailRates w = [(4000, 4200), (4200, 4500)] ∧
    ∃ row, w.committed.rows.get? "RC-109" = some row ∧ row.rate = ⟨4500⟩ ∧
      LeadsTo RateChange.oldRate RateChange.newRate
        (readRateChanges w.committed "RC-109") row.rate := by
  have hany : (contracts.machine.runVia takesTurn ⟨oneVendor, []⟩
      ratesInTurn).any (fun w => decide (trailRates w = [(4000, 4200), (4200, 4500)]) &&
        standsAt w 4500) = true := by decide +kernel
  obtain ⟨w, hrun, hw⟩ := (Option.any_eq_true _ _).1 hany
  rw [Bool.and_eq_true, decide_eq_true_eq] at hw
  obtain ⟨row, hrow, hrate⟩ := (Option.any_eq_true _ _).1 hw.2
  have hinit : contracts.machine.ReachVia CommitsInTurn ⟨oneVendor, []⟩ :=
    .init ⟨⟨rfl, rfl⟩, rfl⟩
  have hreach := Machine.reachVia_runVia takesTurn_sound hinit hrun
  exact ⟨w, hreach, hw.1, row, hrow, of_decide_eq_true hrate,
    (rate_trail_chain hreach).1 "RC-109" row hrow⟩

/-- The draft waits for the contract's row, and once it has it writes its change
under the moment it began, before the edit's: the trail is read back as 42 to
45 and then 40 to 42, and the contract stands at 45. -/
theorem rate_trail_out_of_turn : ∃ w, contracts.machine.Reach w ∧
    trailRates w = [(4200, 4500), (4000, 4200)] ∧
    ∃ row, w.committed.rows.get? "RC-109" = some row ∧ row.rate = ⟨4500⟩ ∧
      ¬ LeadsTo RateChange.oldRate RateChange.newRate
        (readRateChanges w.committed "RC-109") row.rate := by
  have hany : (contracts.machine.run ⟨oneVendor, []⟩ ratesOutOfTurn).any
      (fun w => decide (trailRates w = [(4200, 4500), (4000, 4200)]) &&
        standsAt w 4500) = true := by decide +kernel
  obtain ⟨w, hrun, hw⟩ := (Option.any_eq_true _ _).1 hany
  rw [Bool.and_eq_true, decide_eq_true_eq] at hw
  obtain ⟨row, hrow, hrate⟩ := (Option.any_eq_true _ _).1 hw.2
  have hrate : row.rate = ⟨4500⟩ := of_decide_eq_true hrate
  have hinit : contracts.machine.Reach ⟨oneVendor, []⟩ := .init ⟨⟨rfl, rfl⟩, rfl⟩
  refine ⟨w, Machine.reach_run hinit hrun, hw.1, row, hrow, hrate,
    fun hleads => ?_⟩
  have hlast := hleads.ends
  have hmap := congrArg List.getLast? hw.1
  rw [trailRates, List.getLast?_map] at hmap
  obtain ⟨c, hc, hpair⟩ := Option.map_eq_some_iff.1 hmap
  have hnew : c.newRate.units = 4200 := congrArg Prod.snd hpair
  rw [hlast c hc, hrate] at hnew
  exact absurd hnew (by decide)

end Rch
