import Rch.Proofs.Frame

/-!
# The numbers tell the documents apart

A ticket names what it was written for by a bare string: a request's number,
a kitchen order's, a shop ask's, or a label. The scans look that string up
among the requests whatever the ticket's type says, and are right to, because
each series keeps to its own letters and no label is a number.
-/

namespace Rch

open Kit

/-- Every series of the three documents a ticket may name keeps to its own
letters. -/
structure KeyShapes (db : Db) : Prop where
  requests : ∀ id ∈ db.requests.keys, id.toList.take 3 = ['R', 'E', 'Q']
  prodOrders : ∀ id ∈ db.prodOrders.keys, id.toList.take 3 = ['P', 'R', 'D']
  shopAsks : ∀ id ∈ db.shopAsks.keys, id.toList.take 3 = ['A', 'S', 'K']

theorem forall_mem_keys_insert {κ ρ : Type} [DecidableEq κ]
    {t t' : Table κ ρ} {k : κ} {r : ρ} {P : κ → Prop}
    (h : t.insert? k r = some t') (ht : ∀ x ∈ t.keys, P x) (hk : P k) :
    ∀ x ∈ t'.keys, P x := by
  intro x hx
  rw [Table.keys_insert h, List.mem_append, List.mem_singleton] at hx
  rcases hx with hx | rfl
  · exact ht x hx
  · exact hk

theorem stepRequest_keys (db : Db) (refId : String) (next : ReqStatus) :
    (stepRequest db refId next).keys = db.requests.keys := by
  unfold stepRequest
  split
  · split
    · exact Table.keys_modify ..
    · rfl
  · rfl

/-- Only a request's creation adds to the requests' numbers. -/
theorem requests_keys_step {op : Op} {db db' : Db} (h : op.run db = some db') :
    db'.requests.keys = db.requests.keys ∨
      ∃ n t, db'.requests.keys = db.requests.keys ++ [formatId .req n t] := by
  by_cases hp : .requests ∈ op.touches
  case neg =>
    have hsame : db'.requests = db.requests := op.frame h hp
    rw [hsame]
    exact .inl rfl
  cases op <;> simp only [Op.run, toOption_eq_some, map_ok, Op.touches,
    List.mem_cons, List.not_mem_nil, or_false, reduceCtorEq,
    Option.some.injEq] at h hp
  case handover =>
    obtain ⟨⟨db₁, e⟩, h, rfl⟩ := h
    obtain ⟨t, -, -, rfl | ⟨moves, -, -, rfl⟩⟩ := handover_ok h
    · exact .inl rfl
    · exact .inl (stepRequest_keys ..)
  case receive =>
    obtain ⟨t, -, -, rfl⟩ := receive_ok h
    exact .inl (stepRequest_keys ..)
  case cancelTicket =>
    obtain ⟨t, -, -, hr⟩ := cancelTicket_ok h
    cases hr with
    | request _ _ _ => exact .inl (Table.keys_modify ..)
    | prodOrder _ => exact .inl rfl
    | shopAsk _ => exact .inl rfl
    | nothing _ => exact .inl rfl
  case createRequest =>
    obtain ⟨r, requests, hins, -, -, rfl⟩ := createRequest_ok h
    exact .inr ⟨_, _, Table.keys_insert hins⟩
  case cancelRequest =>
    obtain ⟨r, -, -, rfl⟩ := cancelRequest_ok h
    exact .inl (Table.keys_modify ..)
  case approveRequest =>
    obtain ⟨r, plan, -, -, -, -, rfl⟩ := approveRequest_ok h
    exact .inl (Table.keys_modify ..)
  case rejectRequest =>
    obtain ⟨r, -, -, rfl⟩ := rejectRequest_ok h
    exact .inl (Table.keys_modify ..)
  case redirectRequest =>
    obtain ⟨r, draft, no, db₁, -, -, -, -, hw, -, rfl⟩ := redirectRequest_ok h
    have hsame : db₁.requests = db.requests := hw.same .requests (by decide) (by decide)
    rw [← hsame]
    exact .inl (Table.keys_modify ..)
  case issueRequest =>
    obtain ⟨r, draft, no, db₁, -, -, -, -, hs, rfl⟩ := issueRequest_ok h
    have hsame : db₁.requests = db.requests :=
      hs.wrote.same .requests (by decide) (by decide)
    rw [← hsame]
    exact .inl (Table.keys_modify ..)

theorem keyShapes_step {op : Op} {db db' : Db} (hk : KeyShapes db)
    (h : op.run db = some db') : KeyShapes db' := by
  have hreq : ∀ id ∈ db'.requests.keys,
      id.toList.take 3 = ['R', 'E', 'Q'] := by
    rcases requests_keys_step h with heq | ⟨n, t, heq⟩
    · rw [heq]
      exact hk.requests
    · intro id hid
      rw [heq, List.mem_append, List.mem_singleton] at hid
      rcases hid with hid | rfl
      · exact hk.requests id hid
      · exact formatId_req_take n t
  by_cases hp : .papers ∈ op.touches
  case neg =>
    obtain ⟨hprod, hask⟩ := op.frame h hp
    refine ⟨hreq, ?_, ?_⟩
    · rw [hprod]
      exact hk.prodOrders
    · rw [hask]
      exact hk.shopAsks
  cases op <;> simp only [Op.run, toOption_eq_some, Op.touches,
    List.mem_cons, List.not_mem_nil, or_false, reduceCtorEq] at h hp
  case raiseOrder =>
    obtain ⟨o, prodOrders, hins, rfl⟩ := raiseOrder_ok h
    exact ⟨hreq, forall_mem_keys_insert hins hk.prodOrders
      (formatId_prd_take _ _), hk.shopAsks⟩
  case askShop =>
    obtain ⟨a, shopAsks, hins, rfl⟩ := askShop_ok h
    exact ⟨hreq, hk.prodOrders, forall_mem_keys_insert hins hk.shopAsks
      (formatId_shopAsk_take _ _)⟩

theorem keyShapes_reach {db : Db} (h : server.Reach db) : KeyShapes db := by
  refine h.invariant ?_ ?_
  · rintro db ⟨rows, rfl⟩
    exact ⟨nofun, nofun, nofun⟩
  · intro db op db' _ hk hstep
    exact keyShapes_step hk hstep

/-- A label is no request's number, so the two lookups agree. -/
theorem linkedRequest_eq {db : Db} (hk : KeyShapes db) (refId : String) :
    linkedRequest db refId = db.requests.get? refId := by
  unfold linkedRequest
  split
  · next hlabel =>
      cases hr : db.requests.get? refId with
      | none => rfl
      | some r =>
          have hshape := hk.requests refId (Table.mem_keys_of_get? hr)
          simp only [NO_DOCUMENT, List.mem_cons, List.not_mem_nil,
            or_false] at hlabel
          rcases hlabel with rfl | rfl
          · exact absurd hshape (by decide)
          · exact absurd hshape (by decide)
  · rfl

end Rch
