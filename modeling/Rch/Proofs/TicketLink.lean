import Rch.Proofs.KeyShapes

/-!
# A ticket and the request behind it

A request whose ticket is out says so in its status, and the status is the
ticket's own: issued, collected, received. The link is a pair of references.
The request names its ticket; the ticket's reference names the request.

`LinkInv` is the link seen from both ends. It is kept by every operation but
one: cancelling the ticket of a redirect. That ticket is typed as a shop
transfer, and the cancellation puts a request back only where the type says
request, so the request goes on naming a ticket that no longer stands.
-/

namespace Rch

open Kit

/-- Where the ticket of a request stands, by the request's own status. -/
def mirrored : ReqStatus → Option TktStatus
  | .ticketIssued => some .issued
  | .collected => some .collected
  | .closed => some .received
  | .draft | .requestSent | .managerApproved | .partiallyApproved | .received
  | .rejected | .cancelled => none

def TktStatus.live (st : TktStatus) : Prop := st = .issued ∨ st = .collected

/-- The link from both ends, and nothing else named like a request. -/
structure LinkInv (db : Db) : Prop where
  forth : db.requests.All fun id r => ∀ st, mirrored r.status = some st →
    ∃ tid t, r.ticketId = some tid ∧ db.tickets.get? tid = some t ∧
      t.st = st ∧ t.refId = id
  back : db.tickets.All fun tid t => ∀ r, db.requests.get? t.refId = some r →
    (t.refType = .request ∨ t.refType = .shopTransfer) ∧
      (t.st.live → mirrored r.status = some t.st ∧ r.ticketId = some tid)
  refs : db.tickets.All fun _ t =>
    t.refId ∈ db.requests.keys ∨ t.refId.toList.take 3 ≠ ['R', 'E', 'Q']

theorem linkInv_fresh (rows : MasterRows) : LinkInv (Db.fresh rows) where
  forth := Table.all_empty _
  back := Table.all_empty _
  refs := Table.all_empty _

/-! ## The kinds of step -/

theorem linkInv_congr {db db' : Db} (h : LinkInv db)
    (hr : db'.requests = db.requests) (ht : db'.tickets = db.tickets) :
    LinkInv db' := by
  refine ⟨?_, ?_, ?_⟩
  · rw [hr, ht]
    exact h.forth
  · rw [hr, ht]
    exact h.back
  · rw [hr, ht]
    exact h.refs

section Steps

variable {db db' : Db} {tid : String} {t : TicketRow} {id : String}
  {r : RequestRow}

/-- A ticket written for no request. -/
theorem linkInv_written (h : LinkInv db)
    (ht : db.tickets.insert? tid t = some db'.tickets)
    (hr : db'.requests = db.requests)
    (hnone : db.requests.get? t.refId = none)
    (hshape : t.refId.toList.take 3 ≠ ['R', 'E', 'Q']) : LinkInv db' := by
  have hfresh := (Table.insert?_eq_some ht).1
  refine ⟨?_, ?_, ?_⟩
  · rw [hr]
    intro id r hid st hst
    obtain ⟨x, u, hx, hu, hrest⟩ := h.forth id r hid st hst
    refine ⟨x, u, hx, ?_, hrest⟩
    rw [Table.get?_insert ht, if_neg, hu]
    rintro rfl
    rw [hfresh] at hu
    cases hu
  · rw [hr]
    apply h.back.insert ht
    intro r hr'
    rw [hnone] at hr'
    cases hr'
  · rw [hr]
    exact h.refs.insert ht (.inr hshape)

/-- A ticket written for a request that had none out, and the request saying
so. -/
theorem linkInv_issued {f : RequestRow → RequestRow} (h : LinkInv db)
    (hid : db.requests.get? id = some r) (hst : mirrored r.status = none)
    (ht : db.tickets.insert? tid t = some db'.tickets)
    (hr : db'.requests = db.requests.modify id f)
    (htype : t.refType = .request ∨ t.refType = .shopTransfer)
    (href : t.refId = id) (hissued : t.st = .issued)
    (hf : (f r).status = .ticketIssued) (hf' : (f r).ticketId = some tid) :
    LinkInv db' := by
  have hfresh := (Table.insert?_eq_some ht).1
  have hself : db'.requests.get? id = some (f r) := by
    rw [hr, Table.get?_modify_self, hid, Option.map_some]
  refine ⟨?_, ?_, ?_⟩
  · intro id' r' hid' st hst'
    by_cases hne : id' = id
    · subst hne
      rw [hself] at hid'
      cases hid'
      rw [hf] at hst'
      cases hst'
      refine ⟨tid, t, hf', ?_, hissued, href⟩
      rw [Table.get?_insert ht, if_pos rfl]
    · rw [hr, Table.get?_modify_ne _ _ hne] at hid'
      obtain ⟨x, u, hx, hu, hrest⟩ := h.forth id' r' hid' st hst'
      refine ⟨x, u, hx, ?_, hrest⟩
      rw [Table.get?_insert ht, if_neg, hu]
      rintro rfl
      rw [hfresh] at hu
      cases hu
  · intro x u hx r' hr'
    rw [Table.get?_insert ht] at hx
    split at hx
    · next hxt =>
        cases hx
        rw [href, hself] at hr'
        cases hr'
        refine ⟨htype, fun _ => ⟨?_, hxt ▸ hf'⟩⟩
        rw [hf, hissued]
        rfl
    · by_cases hne : u.refId = id
      · -- an older ticket for the same request has been scanned to its end
        obtain ⟨hty, hlive⟩ := h.back x u hx r (by rw [hne, hid])
        refine ⟨hty, fun hl => ?_⟩
        rw [hst] at hlive
        exact absurd (hlive hl).1 (Option.some_ne_none _).symm
      · rw [hr, Table.get?_modify_ne _ _ hne] at hr'
        exact h.back x u hx r' hr'
  · rw [hr, Table.keys_modify]
    refine h.refs.insert ht (.inl ?_)
    rw [href]
    exact Table.mem_keys_of_get? hid

/-- A request that names no ticket, decided one way or another. -/
theorem linkInv_decided {f : RequestRow → RequestRow} (h : LinkInv db)
    (hid : db.requests.get? id = some r) (hst : mirrored r.status = none)
    (ht : db'.tickets = db.tickets)
    (hr : db'.requests = db.requests.modify id f)
    (hf : mirrored (f r).status = none) : LinkInv db' := by
  have hself : db'.requests.get? id = some (f r) := by
    rw [hr, Table.get?_modify_self, hid, Option.map_some]
  refine ⟨?_, ?_, ?_⟩
  · rw [ht]
    intro id' r' hid' st hst'
    by_cases hne : id' = id
    · subst hne
      rw [hself] at hid'
      cases hid'
      rw [hf] at hst'
      cases hst'
    · rw [hr, Table.get?_modify_ne _ _ hne] at hid'
      exact h.forth id' r' hid' st hst'
  · rw [ht]
    intro x u hx r' hr'
    by_cases hne : u.refId = id
    · obtain ⟨hty, hlive⟩ := h.back x u hx r (by rw [hne, hid])
      refine ⟨hty, fun hl => ?_⟩
      rw [hst] at hlive
      exact absurd (hlive hl).1 nofun
    · rw [hr, Table.get?_modify_ne _ _ hne] at hr'
      exact h.back x u hx r' hr'
  · rw [hr, ht, Table.keys_modify]
    exact h.refs

theorem linkInv_asked (h : LinkInv db) (ht : db'.tickets = db.tickets)
    (hr : db.requests.insert? id r = some db'.requests)
    (hshape : id.toList.take 3 = ['R', 'E', 'Q'])
    (hst : mirrored r.status = none) : LinkInv db' := by
  have hfresh := (Table.insert?_eq_some hr).1
  refine ⟨?_, ?_, ?_⟩
  · rw [ht]
    refine h.forth.insert hr fun st hst' => ?_
    rw [hst] at hst'
    cases hst'
  · rw [ht]
    intro x u hx r' hr'
    rw [Table.get?_insert hr] at hr'
    split at hr'
    · next hu =>
        -- nothing can have named a number nobody had taken
        rcases h.refs x u hx with hmem | hne
        · rw [Table.get?_eq_none] at hfresh
          exact absurd (hu ▸ hmem) hfresh
        · exact absurd (hu ▸ hshape) hne
    · exact h.back x u hx r' hr'
  · rw [ht]
    intro x u hx
    rw [Table.keys_insert hr, List.mem_append]
    exact (h.refs x u hx).imp_left .inl

/-- A ticket behind which there is no request moves however it moves. -/
theorem linkInv_untied {f : TicketRow → TicketRow} (h : LinkInv db)
    (htid : db.tickets.get? tid = some t)
    (hnone : db.requests.get? t.refId = none)
    (ht : db'.tickets = db.tickets.modify tid f)
    (hr : db'.requests = db.requests) (hf : (f t).refId = t.refId) :
    LinkInv db' := by
  refine ⟨?_, ?_, ?_⟩
  · rw [hr, ht]
    intro id r hid st hst
    obtain ⟨x, u, hx, hu, hus, hur⟩ := h.forth id r hid st hst
    refine ⟨x, u, hx, ?_, hus, hur⟩
    rw [Table.get?_modify_ne _ _, hu]
    rintro rfl
    cases htid.symm.trans hu
    rw [hur, hid] at hnone
    cases hnone
  · rw [hr, ht]
    refine h.back.modify fun u hu _ r' hr' => ?_
    cases htid.symm.trans hu
    rw [hf, hnone] at hr'
    cases hr'
  · rw [hr, ht]
    refine h.refs.modify fun u hu href => ?_
    cases htid.symm.trans hu
    rwa [hf]

/-- A rewrite of a ticket the link does not see. -/
theorem linkInv_same {f : TicketRow → TicketRow} (h : LinkInv db)
    (ht : db'.tickets = db.tickets.modify tid f)
    (hr : db'.requests = db.requests)
    (hf : ∀ t, (f t).refId = t.refId ∧ (f t).refType = t.refType ∧
      (f t).st = t.st) : LinkInv db' := by
  refine ⟨?_, ?_, ?_⟩
  · rw [hr, ht]
    intro id r hid st hst
    obtain ⟨x, u, hx, hu, hus, hur⟩ := h.forth id r hid st hst
    by_cases hxt : x = tid
    · subst hxt
      refine ⟨x, f u, hx, ?_, (hf u).2.2.trans hus, (hf u).1.trans hur⟩
      rw [Table.get?_modify_self, hu, Option.map_some]
    · refine ⟨x, u, hx, ?_, hus, hur⟩
      rw [Table.get?_modify_ne _ _ hxt, hu]
  · rw [hr, ht]
    refine h.back.modify fun u _ hback r' hr' => ?_
    rw [(hf u).1] at hr'
    rw [(hf u).2.1, (hf u).2.2]
    exact hback r' hr'
  · rw [hr, ht]
    refine h.refs.modify fun u _ href => ?_
    rwa [(hf u).1]

/-- A ticket and its request move together. Afterwards the request mirrors
the ticket or mirrors none, and mirrors it wherever a scan is still to come. -/
theorem linkInv_moved {f : TicketRow → TicketRow} {g : RequestRow → RequestRow}
    (h : LinkInv db) (htid : db.tickets.get? tid = some t)
    (hid : db.requests.get? t.refId = some r) (hlive : t.st.live)
    (ht : db'.tickets = db.tickets.modify tid f)
    (hr : db'.requests = db.requests.modify t.refId g)
    (hf : (f t).refId = t.refId ∧ (f t).refType = t.refType)
    (hg : ∀ st, mirrored (g r).status = some st →
      (f t).st = st ∧ (g r).ticketId = r.ticketId)
    (hscan : (f t).st.live → mirrored (g r).status = some (f t).st) :
    LinkInv db' := by
  obtain ⟨htype, hback⟩ := h.back tid t htid r hid
  obtain ⟨-, hnames⟩ := hback hlive
  have hself : db'.requests.get? t.refId = some (g r) := by
    rw [hr, Table.get?_modify_self, hid, Option.map_some]
  have hticket : db'.tickets.get? tid = some (f t) := by
    rw [ht, Table.get?_modify_self, htid, Option.map_some]
  refine ⟨?_, ?_, ?_⟩
  · intro id r' hid' st hst
    by_cases hne : id = t.refId
    · subst hne
      rw [hself] at hid'
      cases hid'
      obtain ⟨hfst, hkeeps⟩ := hg st hst
      exact ⟨tid, f t, hkeeps.trans hnames, hticket, hfst, hf.1⟩
    · rw [hr, Table.get?_modify_ne _ _ hne] at hid'
      obtain ⟨x, u, hx, hu, hus, hur⟩ := h.forth id r' hid' st hst
      refine ⟨x, u, hx, ?_, hus, hur⟩
      rw [ht, Table.get?_modify_ne _ _, hu]
      rintro rfl
      cases htid.symm.trans hu
      exact hne hur.symm
  · intro x u hu r' hr'
    by_cases hx : x = tid
    · subst hx
      rw [hticket] at hu
      cases hu
      rw [hf.1, hself] at hr'
      cases hr'
      rw [hf.2]
      refine ⟨htype, fun hl => ⟨hscan hl, ?_⟩⟩
      exact (hg _ (hscan hl)).2.trans hnames
    · rw [ht, Table.get?_modify_ne _ _ hx] at hu
      by_cases hne : u.refId = t.refId
      · -- no other ticket for the same request is still to be scanned
        obtain ⟨hty, hl⟩ := h.back x u hu r (by rw [hne, hid])
        refine ⟨hty, fun hlu => ?_⟩
        have hxt := (hl hlu).2.symm.trans hnames
        exact absurd (Option.some.inj hxt) hx
      · rw [hr, Table.get?_modify_ne _ _ hne] at hr'
        exact h.back x u hu r' hr'
  · rw [hr, Table.keys_modify, ht]
    refine h.refs.modify fun u hu href => ?_
    cases htid.symm.trans hu
    rwa [hf.1]

end Steps

/-! ## Operation by operation -/

/-- The defect's own step: the cancellation of a ticket a redirect wrote. -/
def CancelsRedirect (db : Db) : Op → Prop
  | .cancelTicket _ id _ _ => ∃ t r, db.tickets.get? id = some t ∧
      t.refType = .shopTransfer ∧ db.requests.get? t.refId = some r
  | _ => False

/-- A status a decision may leave is one that names no ticket. -/
theorem mirrored_none_of_mem {now next : ReqStatus}
    (h : next ∈ requestTransitions now) (hc : next ≠ .collected)
    (hcl : next ≠ .closed) : mirrored now = none := by
  cases now <;> simp [requestTransitions, mirrored, hc, hcl] at h ⊢

/-- A ticket's scan, whatever stands behind it. -/
theorem linkInv_scan {db db' : Db} {tid : String} {t : TicketRow}
    {f : TicketRow → TicketRow} {st : TktStatus} {next : ReqStatus}
    (h : LinkInv db) (hk : KeyShapes db)
    (htid : db.tickets.get? tid = some t) (hlive : t.st.live)
    (hnext : mirrored next = some st)
    (hcan : ∀ now, mirrored now = some t.st → next ∈ requestTransitions now)
    (ht : db'.tickets = db.tickets.modify tid f)
    (hr : db'.requests = stepRequest db t.refId next)
    (hf : (f t).refId = t.refId ∧ (f t).refType = t.refType ∧ (f t).st = st) :
    LinkInv db' := by
  unfold stepRequest at hr
  rw [linkedRequest_eq hk] at hr
  cases hid : db.requests.get? t.refId with
  | none =>
      rw [hid] at hr
      exact linkInv_untied h htid hid ht hr hf.1
  | some r =>
      rw [hid] at hr
      have hmem := hcan _ ((h.back tid t htid r hid).2 hlive).1
      dsimp only at hr
      rw [if_pos hmem] at hr
      refine linkInv_moved h htid hid hlive ht hr ⟨hf.1, hf.2.1⟩ ?_ ?_
      · intro st' hst'
        rw [hnext] at hst'
        cases hst'
        exact ⟨hf.2.2, rfl⟩
      · intro _
        rw [hf.2.2]
        exact hnext

/-- A cancellation that is not of a redirect's ticket. -/
theorem linkInv_cancel {db db' : Db} {tid : String} {t : TicketRow}
    {at_ : Instant} (h : LinkInv db) (hk : KeyShapes db)
    (htid : db.tickets.get? tid = some t) (hst : t.st = .issued)
    (hp : t.refType = .shopTransfer → db.requests.get? t.refId = none)
    (hr : Reopened (voidTicket db tid at_) t db') : LinkInv db' := by
  have htickets : db'.tickets = db.tickets.modify tid fun t =>
      { t with st := .cancelled } := hr.same .tickets nofun nofun
  have hkv : KeyShapes (voidTicket db tid at_) := ⟨hk.1, hk.2, hk.3⟩
  cases hid : db.requests.get? t.refId with
  | none =>
      have hsame : db'.requests = db.requests := by
        cases hr with
        | @request r _ hlink _ =>
            rw [linkedRequest_eq hkv] at hlink
            cases hid.symm.trans hlink
        | prodOrder _ => rfl
        | shopAsk _ => rfl
        | nothing _ => rfl
      exact linkInv_untied h htid hid htickets hsame rfl
  | some r =>
      obtain ⟨htype, hlive⟩ := h.back tid t htid r hid
      have hrequest : t.refType = .request := by
        refine htype.resolve_right fun hshop => ?_
        rw [hp hshop] at hid
        cases hid
      cases hr with
      | request _ _ _ =>
          have hback : mirrored (approvedStatus r.lines) = none := by
            rcases approvedStatus_cases r.lines with h | h
            · rw [h]
              rfl
            · rw [h]
              rfl
          refine linkInv_moved h htid hid (.inl hst) htickets
            (g := fun r =>
              { r with status := approvedStatus r.lines, ticketId := none })
            rfl ⟨rfl, rfl⟩ (fun st hs => ?_) fun hl => ?_
          · exact absurd (hback.symm.trans hs) nofun
          · exact absurd hl (by simp [TktStatus.live])
      | prodOrder htp =>
          rw [hrequest] at htp
          cases htp
      | shopAsk htp =>
          rw [hrequest] at htp
          cases htp
      | nothing hnone =>
          have hnone := hnone hrequest
          rw [linkedRequest_eq hkv] at hnone
          cases hnone.symm.trans hid

/-- What is not lettered like a request names none. -/
theorem no_request {db : Db} (hk : KeyShapes db) {refId : String}
    (h : refId.toList.take 3 ≠ ['R', 'E', 'Q']) :
    db.requests.get? refId = none := by
  cases hr : db.requests.get? refId with
  | none => rfl
  | some r => exact absurd (hk.requests refId (Table.mem_keys_of_get? hr)) h

/-- A ticket written for no request, whatever else its writer did. -/
theorem linkInv_sent {db db₁ db' : Db} {draft : TicketDraft}
    {no : TicketNumber} (h : LinkInv db) (hk : KeyShapes db)
    (hw : WroteTicket db draft no db₁)
    (hshape : draft.refId.toList.take 3 ≠ ['R', 'E', 'Q'])
    (ht : db'.tickets = db₁.tickets) (hr : db'.requests = db₁.requests) :
    LinkInv db' := by
  have hsame : db₁.requests = db.requests := hw.same .requests nofun nofun
  obtain ⟨cells, hw⟩ := hw
  exact linkInv_congr
    (linkInv_written h hw.tickets hsame (no_request hk hshape) hshape) hr ht

theorem linkInv_step {op : Op} {db db' : Db} (hinv : LinkInv db)
    (hk : KeyShapes db) (hp : ¬ CancelsRedirect db op)
    (h : op.run db = some db') : LinkInv db' := by
  by_cases htouch : .tickets ∈ op.touches ∨ .requests ∈ op.touches
  case neg =>
    rw [not_or] at htouch
    exact linkInv_congr hinv (op.frame h htouch.2) (op.frame h htouch.1)
  cases op <;> simp only [Op.run, toOption_eq_some, map_ok, Op.touches,
    List.mem_cons, List.not_mem_nil, or_false, or_self, or_true, reduceCtorEq, Option.some.injEq] at h htouch
  case handover claims tid body at_ =>
    obtain ⟨⟨db₁, e⟩, h, rfl⟩ := h
    obtain ⟨t, ht, hst, rfl | ⟨moves, -, -, rfl⟩⟩ := handover_ok h
    · exact linkInv_same hinv
        (f := fun t => { t with otpAttempts := t.otpAttempts + 1 }) rfl rfl
        fun _ => ⟨rfl, rfl, rfl⟩
    · have hnext : mirrored .collected = some .collected := rfl
      refine linkInv_scan hinv hk ht (.inl hst) hnext (fun now hnow => ?_)
        (f := fun t => { t with st := .collected, collectedAt := some at_ })
        rfl rfl ⟨rfl, rfl, rfl⟩
      rw [hst] at hnow
      cases now <;> simp [mirrored, requestTransitions] at hnow ⊢
  case receive claims tid at_ =>
    obtain ⟨t, ht, hst, rfl⟩ := receive_ok h
    have hnext : mirrored .closed = some .received := rfl
    refine linkInv_scan hinv hk ht (.inr hst) hnext (fun now hnow => ?_)
      (f := fun t => { t with st := .received, receivedAt := some at_ })
      rfl rfl ⟨rfl, rfl, rfl⟩
    rw [hst] at hnow
    cases now <;> simp [mirrored, requestTransitions] at hnow ⊢
  case cancelTicket =>
    obtain ⟨t, ht, hst, hr⟩ := cancelTicket_ok h
    refine linkInv_cancel hinv hk ht hst (fun hshop => ?_) hr
    cases hid : db.requests.get? t.refId with
    | none => rfl
    | some r => exact absurd ⟨t, r, ht, hshop, hid⟩ hp
  case transfer =>
    obtain ⟨draft, no, -, href, hs⟩ := transfer_ok h
    exact linkInv_sent hinv hk hs.wrote (href ▸ by decide) rfl rfl
  case distribute =>
    obtain ⟨draft, no, -, href, hs⟩ := distribute_ok h
    exact linkInv_sent hinv hk hs.wrote (href ▸ by decide) rfl rfl
  case dispatchOrder =>
    obtain ⟨o, draft, no, db₁, ho, -, href, hs, rfl⟩ := dispatchOrder_ok h
    refine linkInv_sent hinv hk hs.wrote ?_ rfl rfl
    rw [href, hk.prodOrders _ (Table.mem_keys_of_get? ho)]
    decide
  case answerShopAsk =>
    obtain ⟨a, draft, no, db₁, ha, -, href, hs, rfl⟩ := answerShopAsk_ok h
    refine linkInv_sent hinv hk hs.wrote ?_ rfl rfl
    rw [href, hk.shopAsks _ (Table.mem_keys_of_get? ha)]
    decide
  case redirectRequest =>
    obtain ⟨r, draft, no, db₁, hr, hst, htype, href, ⟨cells, hw⟩, -, rfl⟩ :=
      redirectRequest_ok h
    have hsame : db₁.requests = db.requests :=
      WroteTicket.same ⟨cells, hw⟩ .requests (by decide) (by decide)
    exact linkInv_issued hinv hr (by rw [hst]; rfl) hw.tickets
      ((modifyRequest_requests ..).trans (by rw [hsame])) (.inr htype) href
      rfl rfl rfl
  case issueRequest =>
    obtain ⟨r, draft, no, db₁, hr, hst, htype, href, hs, rfl⟩ :=
      issueRequest_ok h
    have hsame : db₁.requests = db.requests :=
      hs.wrote.same .requests (by decide) (by decide)
    obtain ⟨cells, hw⟩ := hs.wrote
    exact linkInv_issued hinv hr (mirrored_none_of_mem hst (by decide) (by decide))
      hw.tickets ((modifyRequest_requests ..).trans (by rw [hsame]))
      (.inl htype) href rfl rfl rfl
  case createRequest =>
    obtain ⟨r, requests, hins, hst, -, rfl⟩ := createRequest_ok h
    exact linkInv_asked hinv rfl hins (formatId_req_take _ _) (by rw [hst]; rfl)
  case cancelRequest =>
    obtain ⟨r, hr, hst, rfl⟩ := cancelRequest_ok h
    exact linkInv_decided hinv hr (mirrored_none_of_mem hst (by decide) (by decide)) rfl
      (f := fun r => { r with status := .cancelled }) rfl rfl
  case approveRequest =>
    obtain ⟨r, plan, hr, hst, hcases, -, rfl⟩ := approveRequest_ok h
    have hplan : mirrored plan.st = none := by
      rcases hcases with h | h | h <;> rw [h] <;> rfl
    have hne : ∀ st, mirrored st ≠ none → plan.st ≠ st := by
      rintro st hst' rfl
      exact hst' hplan
    exact linkInv_decided hinv hr
      (mirrored_none_of_mem hst (hne _ (by decide)) (hne _ (by decide))) rfl
      (modifyRequest_requests ..) hplan
  case rejectRequest =>
    obtain ⟨r, hr, hst, rfl⟩ := rejectRequest_ok h
    exact linkInv_decided hinv hr (mirrored_none_of_mem hst (by decide) (by decide)) rfl
      (modifyRequest_requests ..) rfl

/-! ## Every run -/

theorem linkInv_reach {db : Db}
    (h : server.ReachVia (fun db op => ¬ CancelsRedirect db op) db) :
    LinkInv db := by
  refine h.invariant ?_ ?_
  · rintro db ⟨rows, rfl⟩
    exact linkInv_fresh rows
  · intro db op db' hr hinv hp hstep
    exact linkInv_step hinv (keyShapes_reach hr.reach) hp hstep

/-- Every request that says its ticket is out names one, and the ticket stands
where the request says. -/
def Together (db : Db) : Prop :=
  db.requests.All fun _ r => ∀ st, mirrored r.status = some st →
    ∃ tid t, r.ticketId = some tid ∧ db.tickets.get? tid = some t ∧ t.st = st

/-- A cancellation takes the request its ticket was written for out of
`Ticket issued`. -/
def CancelReleases (db : Db) (claims : Claims) (tid reason : String)
    (at_ : Instant) : Prop :=
  ∀ db', Op.run db (.cancelTicket claims tid reason at_) = some db' →
    ∀ t r, db.tickets.get? tid = some t → db.requests.get? t.refId = some r →
      ∃ r', db'.requests.get? t.refId = some r' ∧ r'.status ≠ .ticketIssued

theorem cancelReleases {db : Db} (hinv : LinkInv db) (hk : KeyShapes db)
    {claims : Claims} {tid reason : String} {at_ : Instant}
    (hp : ¬ CancelsRedirect db (.cancelTicket claims tid reason at_)) :
    CancelReleases db claims tid reason at_ := by
  intro db' h t r ht hr
  obtain ⟨t', ht', -, hreopen⟩ := cancelTicket_ok (toOption_eq_some.1 h)
  cases ht.symm.trans ht'
  have hkv : KeyShapes (voidTicket db tid at_) := ⟨hk.1, hk.2, hk.3⟩
  have hrequest : t.refType = .request :=
    (hinv.back tid t ht r hr).1.resolve_right fun hshop =>
      hp ⟨t, r, ht, hshop, hr⟩
  cases hreopen with
  | request _ _ _ =>
      refine ⟨_, Table.get?_modify_self .. |>.trans (by
        rw [voidTicket, hr, Option.map_some]), ?_⟩
      rcases approvedStatus_cases r.lines with h | h
      · rw [h]
        exact nofun
      · rw [h]
        exact nofun
  | prodOrder htp =>
      rw [hrequest] at htp
      cases htp
  | shopAsk htp =>
      rw [hrequest] at htp
      cases htp
  | nothing hnone =>
      have hnone := hnone hrequest
      rw [linkedRequest_eq hkv] at hnone
      cases hnone.symm.trans hr

/-- Over every run in which no redirect's ticket is cancelled, a request and
its ticket stay together, and each cancellation releases its request. -/
theorem ticket_and_request_together {db : Db}
    (h : server.ReachVia (fun db op => ¬ CancelsRedirect db op) db) :
    Together db ∧ ∀ claims tid reason at_,
      ¬ CancelsRedirect db (.cancelTicket claims tid reason at_) →
        CancelReleases db claims tid reason at_ := by
  have hinv := linkInv_reach h
  refine ⟨fun id r hid st hst => ?_, fun claims tid reason at_ hp => ?_⟩
  · obtain ⟨tid, t, hnames, ht, hs, -⟩ := hinv.forth id r hid st hst
    exact ⟨tid, t, hnames, ht, hs⟩
  · exact cancelReleases hinv (keyShapes_reach h.reach) hp

theorem ticket_and_request_together_issued : ∃ db,
    server.run (Db.fresh corner) milkRun = some db ∧
      (db.requests.get? "REQ-1970-0913").map RequestRow.status =
        some .ticketIssued ∧
      Together db ∧ ∀ claims tid reason at_,
        ¬ CancelsRedirect db (.cancelTicket claims tid reason at_) →
          CancelReleases db claims tid reason at_ := by
  have hany : (server.run (Db.fresh corner) milkRun).any (fun db => decide
      ((db.requests.get? "REQ-1970-0913").map RequestRow.status =
        some .ticketIssued)) = true := by
    decide +kernel
  obtain ⟨db, hrun, hst⟩ := (Option.any_eq_true _ _).1 hany
  refine ⟨db, hrun, of_decide_eq_true hst,
    ticket_and_request_together
      (Machine.reachVia_run (.init ⟨corner, rfl⟩) ?_ hrun)⟩
  simp [milkRun, CancelsRedirect]

/-- A request redirected to the other shop, and the ticket of the redirect
cancelled. -/
def redirectRun : List Op :=
  [.createAdjustment ⟨"u1", STORE, true⟩ ⟨"cafe", .count, "", [⟨"milk", 5⟩]⟩ 0,
   .createRequest ⟨"u3", "kiosk", false⟩ ⟨[⟨"milk", 2⟩], "", false⟩ 0,
   .redirectRequest ⟨"u1", STORE, true⟩ "REQ-1970-0913" "cafe" lowestDraw 0,
   .cancelTicket ⟨"u2", "cafe", false⟩ "TKT-0441" "not now" 0]

/-- Afterwards the request still says `Ticket issued`, and names a ticket that
is cancelled. -/
theorem cancelled_redirect_parts : ∃ db,
    server.run (Db.fresh corner) redirectRun = some db ∧ server.Reach db ∧
      ¬ Together db := by
  have hany : (server.run (Db.fresh corner) redirectRun).any (fun db => decide
      ((db.requests.get? "REQ-1970-0913").map
          (fun r => (r.status, r.ticketId)) =
        some (.ticketIssued, some "TKT-0441") ∧
      (db.tickets.get? "TKT-0441").map TicketRow.st = some .cancelled)) =
        true := by
    decide +kernel
  obtain ⟨db, hrun, hd⟩ := (Option.any_eq_true _ _).1 hany
  obtain ⟨hreq, htkt⟩ := of_decide_eq_true hd
  refine ⟨db, hrun, Machine.reach_run (.init ⟨corner, rfl⟩) hrun, fun h => ?_⟩
  obtain ⟨r, hr, heq⟩ := Option.map_eq_some_iff.1 hreq
  obtain ⟨hst, hnames⟩ := Prod.mk.inj heq
  obtain ⟨tid, t, hname, ht, hissued⟩ := h _ r hr .issued (by rw [hst]; rfl)
  cases hnames.symm.trans hname
  rw [ht, Option.map_some, hissued] at htkt
  cases htkt

end Rch
