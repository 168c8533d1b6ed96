import Rch.Machine.Catalogue

/-!
# What a step of the catalogue is

Said once for the three kinds of step: a server's own operation under the rows
it read, an item added with its opening figure, an item changed. Each of them
is the server's step over a master that was edited before it, so the database
a catalogue commits is one the server reaches; and a row that was read, however
old, is a row of an item there still is.
-/

namespace Rch

open Kit

/-- The steps, each with what its service asked. -/
inductive CatalogueStep (c : Catalogue) (items : Table ItemKey Item) (db : Db) :
    CatalogueOp → Prop
  | served {op : Op} {ages : List (ItemKey × ℕ)} (hapart : op.apart = true)
      (h : op.run (c.view ages) = some db) (hitems : items = c.items) :
      CatalogueStep c items db (.serve op ages)
  | created {claims : Claims} {role : Role} {body : CreateItemBody} {at_ : Instant}
      {key : ItemKey} {db₁ : Db} (hfree : c.items.get? key = none)
      (hins : c.items.insert? key (itemRow role body) = some items)
      (h : (Op.openStock claims (decide (role = .prod)) key body.opening at_).run
        (c.db.onMaster items) = some db₁)
      (hdb : db = db₁ ∨ db = switchOff db₁ key) :
      CatalogueStep c items db (.createItem claims role body at_)
  | patched {perms : Permissions} {it : ItemKey} {body : PatchItemBody}
      {listed : List LocKey} {age : ℕ} {row : Item} (hrow : c.items.get? it = some row)
      (hkind : body.onOff = none ∨ row.t = .FG ∨ isOnOff row = true)
      (hclear : body.onOff = some true ∧ isOnOff row = false →
        (blockersOf (c.asOf age) it).none_)
      (hitems : items = c.items.modify it fun row => patchRow row body)
      (hdb : db = c.db) :
      CatalogueStep c items db (.patchItem perms it body listed age)

section Steps

variable {c c' : Catalogue} {e : CatalogueOp}

theorem commit_eq_some {items : Table ItemKey Item} {db : Db} :
    c.commit items db = some c' ↔ db.keyed items ∧ c' = ⟨items, db, c.db :: c.past⟩ := by
  unfold Catalogue.commit
  split
  · next h => simp only [h, true_and, Option.some.injEq, eq_comm]
  · next h => simp only [h, false_and, reduceCtorEq]

theorem insertItem_ok {items items' : Table ItemKey Item} {key : ItemKey} {row : Item}
    (h : insertItem items key row = .ok items') : items.insert? key row = some items' := by
  unfold insertItem at h
  simp only [bind_ok, assertRule_ok, exists_const] at h
  obtain ⟨-, h⟩ := h
  split at h
  · next hins =>
      cases h
      exact hins
  · cases h

theorem patchItem_ok {items items' : Table ItemKey Item} {db found : Db}
    {perms : Permissions} {it : ItemKey} {body : PatchItemBody} {listed : List LocKey}
    (h : patchItem items db found perms it body listed = .ok items') :
    ∃ row, items.get? it = some row ∧ body.fields ≠ [] ∧
      unauthorisedItemFields perms body.fields = [] ∧
      (body.onOff = none ∨ row.t = .FG ∨ isOnOff row = true) ∧
      (body.onOff = some true ∧ isOnOff row = false →
        (blockersOf found it).none_) ∧
      (body.active = some false ∧ row.active = true →
        (blockersOf found it).held = [] ∧ listed = []) ∧
      items' = items.modify it fun row => patchRow row body := by
  unfold patchItem at h
  simp only [bind_ok, assertRule_ok, exists_const, orNotFound_ok, pure_ok] at h
  obtain ⟨row, hrow, hsome, hyours, -, -, -, -, -, hmade, hclear, hheld, hlisted,
    rfl⟩ := h
  exact ⟨row, hrow, hsome, hyours, hmade, hclear,
    fun hr => ⟨hheld hr, hlisted hr⟩, rfl⟩

theorem catalogue_step (h : catalogue.step c e = some c') :
    CatalogueStep c c'.items c'.server e ∧ c'.server.keyed c'.items ∧
      c'.past = c.db :: c.past := by
  obtain ⟨⟨items, db⟩, hw, hc⟩ := Option.bind_eq_some_iff.1 h
  obtain ⟨hkeyed, rfl⟩ := commit_eq_some.1 hc
  refine ⟨?_, hkeyed, rfl⟩
  dsimp only
  cases e with
  | serve op ages =>
      simp only [CatalogueOp.write] at hw
      split at hw
      · next hapart =>
          obtain ⟨db', hop, heq⟩ := Option.map_eq_some_iff.1 hw
          obtain ⟨rfl, rfl⟩ := Prod.mk_inj.1 heq
          exact .served hapart hop rfl
      · cases hw
  | createItem claims role body at_ =>
      simp only [CatalogueOp.write, toOption_eq_some, createItem, bind_ok, assertRule_ok,
        exists_const, pure_ok, ite_eq_iff] at hw
      obtain ⟨-, -, -, -, -, hw⟩ := hw
      replace hw := hw.elim (fun h => h.2.2) fun h => h.2
      obtain ⟨items', hins, db₁, hopen, heq⟩ := hw
      obtain ⟨rfl, hdb⟩ := Prod.mk_inj.1 heq
      have hins := insertItem_ok hins
      refine .created (Table.insert?_eq_some hins).1 hins (toOption_eq_some.2 hopen) ?_
      split at hdb
      · exact .inr hdb.symm
      · exact .inl hdb.symm
  | patchItem perms it body listed age =>
      obtain ⟨items', hok, heq⟩ := map_ok.1 (toOption_eq_some.1 hw)
      obtain ⟨rfl, rfl⟩ := Prod.mk_inj.1 heq
      obtain ⟨row, hrow, -, -, hkind, hclear, -, hitems⟩ := patchItem_ok hok
      exact .patched hrow hkind hclear hitems rfl

/-! ## The server under a catalogue -/

/-- A master read out of other rows is the server's master edited. -/
theorem server_reach_rows {db : Db} (h : server.Reach db) (rows : MasterRows) :
    server.Reach { db with rows } :=
  h.step (e := .editMaster rows) rfl

theorem CatalogueStep.server {items : Table ItemKey Item} {db : Db}
    (hs : CatalogueStep c items db e) (h : server.Reach c.server) : server.Reach db := by
  cases hs with
  | served hapart hop hitems => exact (server_reach_rows h _).step hop
  | @created claims role body at_ key db₁ hfree hins hop hdb =>
      have hview : Rch.server.Reach (c.db.onMaster items) := server_reach_rows h _
      have hreach : Rch.server.Reach db₁ :=
        hview.step (e := .openStock claims (decide (role = .prod)) key body.opening at_) hop
      rcases hdb with rfl | rfl
      · exact hreach
      · exact server_reach_rows hreach _
  | patched hrow hkind hclear hitems hdb =>
      rw [hdb]
      exact server_reach_rows h _

theorem catalogue_server (h : catalogue.Reach c) : server.Reach c.server := by
  refine h.invariant (I := fun c => server.Reach c.server) ?_ ?_
  · rintro c ⟨items, rows, rfl⟩
    exact .init ⟨rows, rfl⟩
  · intro c e c' _ hr hstep
    exact (catalogue_step hstep).1.server hr

theorem catalogue_keyed (h : catalogue.Reach c) : c.server.keyed c.items := by
  refine h.invariant (I := fun c => c.server.keyed c.items) ?_ ?_
  · rintro c ⟨items, rows, rfl⟩
    exact ⟨List.forall_mem_nil _, List.forall_mem_nil _, List.forall_mem_nil _⟩
  · intro c e c' _ _ hstep
    exact (catalogue_step hstep).2.1

/-! ## Rows of long ago -/

def Item.unstocked (i : Item) : Bool := usedOnArrival i.t KITCHEN

/-- A change of an item never makes it one the kitchen uses, or unmakes it. -/
theorem patchRow_unstocked {row : Item} {body : PatchItemBody}
    (hkind : body.onOff = none ∨ row.t = .FG ∨ isOnOff row = true) :
    (patchRow row body).unstocked = row.unstocked := by
  unfold Item.unstocked
  have htype : row.t = .FG ∨ isOnOff row = true → usedOnArrival row.t KITCHEN = false := by
    rintro (hfg | hoff)
    · rw [hfg]
      decide
    · have hmto : row.t = .MTO := of_decide_eq_true (Bool.and_eq_true_iff.1 hoff).1
      rw [hmto]
      decide
  change usedOnArrival (if body.onOff = some true ∧ isOnOff row = false then .MTO
    else if body.onOff = some false ∧ isOnOff row = true then .FG else row.t) KITCHEN = _
  split
  · next h =>
      rw [htype (hkind.resolve_left (by rw [h.1]; exact Option.some_ne_none _))]
      decide
  · split
    · next h =>
        rw [htype (.inr h.2)]
        decide
    · rfl

/-- A row read, now or before, is of an item that is still there, and used on
arrival when it was. -/
structure RowsKept (c : Catalogue) : Prop where
  past : ∀ db ∈ c.db :: c.past, ∀ it i, db.rows.items it = some i →
    ∃ i', c.items.get? it = some i' ∧ i'.unstocked = i.unstocked

theorem rowsKept_step (h : RowsKept c) (hstep : catalogue.step c e = some c') :
    RowsKept c' := by
  obtain ⟨hs, -, hpast⟩ := catalogue_step hstep
  have hkept : ∀ it i, c.items.get? it = some i →
      ∃ i', c'.items.get? it = some i' ∧ i'.unstocked = i.unstocked := by
    intro it i hi
    cases hs with
    | served hapart hop hitems => exact ⟨i, hitems ▸ hi, rfl⟩
    | created hfree hins hop hdb =>
        refine ⟨i, ?_, rfl⟩
        rw [Table.get?_insert hins, if_neg]
        · exact hi
        · rintro rfl
          rw [hfree] at hi
          cases hi
    | @patched perms it' body listed age row hrow hkind hclear hitems hdb =>
        rw [hitems, Table.get?_modify, hi]
        split
        · next heq =>
            subst heq
            obtain rfl := Option.some.inj (hi.symm.trans hrow)
            exact ⟨_, rfl, patchRow_unstocked hkind⟩
        · exact ⟨i, rfl, rfl⟩
  constructor
  intro db hdb it i hi
  rcases List.mem_cons.1 hdb with rfl | hdb
  · exact ⟨i, hi, rfl⟩
  · rw [hpast] at hdb
    obtain ⟨i₀, hi₀, hsame⟩ := h.past db hdb it i hi
    obtain ⟨i', hi', hsame'⟩ := hkept it i₀ hi₀
    exact ⟨i', hi', hsame'.trans hsame⟩

theorem rowsKept_reach (h : catalogue.Reach c) : RowsKept c := by
  refine h.invariant ?_ fun c e c' _ hr hstep => rowsKept_step hr hstep
  rintro c ⟨items, rows, rfl⟩
  constructor
  intro db hdb it i hi
  obtain rfl := List.mem_singleton.1 hdb
  exact ⟨i, hi, rfl⟩

theorem RowsKept.seen (h : RowsKept c) (ages : List (ItemKey × ℕ)) {it : ItemKey} {i : Item}
    (hi : c.items.get? it = some i) :
    ∃ i', c.seen ages it = some i' ∧ i'.unstocked = i.unstocked := by
  unfold Catalogue.seen
  split
  · next k _ =>
      cases hold : (c.asOf k).rows.items it with
      | none => exact ⟨i, hi, rfl⟩
      | some i' =>
          have hmem : c.asOf k ∈ c.db :: c.past := by
            unfold Catalogue.asOf
            cases hk : (c.db :: c.past)[k]? with
            | none => exact List.mem_cons_self
            | some db => exact List.mem_of_getElem? hk
          obtain ⟨i₁, hi₁, hsame⟩ := h.past _ hmem it i' hold
          obtain rfl := Option.some.inj (hi.symm.trans hi₁)
          exact ⟨i', rfl, hsame.symm⟩
  · exact ⟨i, hi, rfl⟩

end Steps

end Rch
