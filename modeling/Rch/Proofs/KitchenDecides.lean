import Rch.Proofs.CatalogueSteps
import Rch.Api.ItemRecords
import Rch.Machine.Service

/-!
# Whose an item's fields are, and whose its counting is

A patch is refused unless every field it names is the caller's, so what it writes
is the columns of those fields and no others. Whether an item is on/off only is
read off two of them, and the kitchen's own field is not the only one that writes
there: naming a source alone carries a made-to-order item across.
-/

namespace Rch

open Kit

/-! ## The fields a patch names -/

def PatchItemBody.names (b : PatchItemBody) : ItemField → Bool
  | .n => b.n.isSome
  | .dn => b.dn.isSome
  | .mrp => b.mrp.isSome
  | .cost => b.cost.isSome
  | .gst => b.gst.isSome
  | .hsn => b.hsn.isSome
  | .rl => b.rl.isSome
  | .grp => b.grp.isSome
  | .sl => b.sl.isSome
  | .active => b.active.isSome
  | .src => b.src.isSome
  | .onOff => b.onOff.isSome

theorem mem_fields {b : PatchItemBody} {f : ItemField} :
    f ∈ b.fields ↔ b.names f = true := by
  unfold PatchItemBody.fields
  cases f <;> simp [PatchItemBody.names, List.mem_filterMap]

theorem unauthorised_eq_nil {perms : Permissions} {fields : List ItemField} :
    unauthorisedItemFields perms fields = [] ↔
      ∀ f ∈ fields, ∃ feature ∈ ITEM_FIELD_FEATURES f,
        can perms feature .edit = true := by
  unfold unauthorisedItemFields mayEditItemField
  rw [List.filter_eq_nil_iff]
  simp only [Bool.not_eq_true', Bool.not_eq_false, List.any_eq_true]

/-! ## An accepted patch -/

section Accepted

variable {items items' : Table ItemKey Item} {db found : Db}
  {perms : Permissions} {it : ItemKey} {body : PatchItemBody}
  {listed : List LocKey}

theorem patchRecords_ok {records after : Table ItemKey ItemRecord}
    (h : patchRecords records db found perms it body listed = .ok after) :
    ∃ row, records.get? it = some row ∧
      unauthorisedItemFields perms body.fields = [] ∧
      after = records.modify it fun row => patchRecord row body := by
  unfold patchRecords at h
  simp only [bind_ok, pure_ok] at h
  obtain ⟨items', hok, rfl⟩ := h
  obtain ⟨item, hitem, -, hyours, -⟩ := patchItem_ok hok
  unfold itemsOf at hitem
  rw [Table.get?_mapRows] at hitem
  obtain ⟨row, hrow, -⟩ := Option.map_eq_some_iff.1 hitem
  exact ⟨row, hrow, hyours, rfl⟩

/-- Column by column, the write is the one the rules were asked about. -/
theorem itemsOf_patchRecords {records after : Table ItemKey ItemRecord}
    (h : patchRecords records db found perms it body listed = .ok after) :
    patchItem (itemsOf records) db found perms it body listed =
      .ok (itemsOf after) := by
  unfold patchRecords at h
  simp only [bind_ok, pure_ok] at h
  obtain ⟨items', hok, rfl⟩ := h
  obtain ⟨-, -, -, -, -, -, -, rfl⟩ := patchItem_ok hok
  rw [hok]
  unfold itemsOf
  rw [Table.mapRows_modify records (f := ItemRecord.toItem)
    (u := fun row => patchRow row body) (fun _ => rfl) it]

end Accepted

/-! ## What the patch writes -/

/-- A column none of the named fields writes stays what it was. -/
theorem agree_patchRecord (row : ItemRecord) {b : PatchItemBody} {c : ItemColumn}
    (h : ∀ f ∈ b.fields, c ∉ f.columns) : row.Agree (patchRecord row b) c := by
  have hfree (f : ItemField) (hf : c ∈ f.columns) : ¬ b.names f = true :=
    fun hn => h f (mem_fields.2 hn) hf
  cases c with
  | code | unit | image | createdAt => rfl
  | name =>
      have hn : b.n = none :=
        Option.not_isSome_iff_eq_none.1 (hfree .n (by decide))
      simp [ItemRecord.Agree, patchRecord, patchRow, hn]
  | displayName =>
      have hn : b.dn = none :=
        Option.not_isSome_iff_eq_none.1 (hfree .dn (by decide))
      simp [ItemRecord.Agree, patchRecord, hn]
  | type =>
      have hn : b.onOff = none :=
        Option.not_isSome_iff_eq_none.1 (hfree .onOff (by decide))
      simp [ItemRecord.Agree, patchRecord, patchRow, hn]
  | grp =>
      have hn : b.grp = none :=
        Option.not_isSome_iff_eq_none.1 (hfree .grp (by decide))
      simp [ItemRecord.Agree, patchRecord, hn]
  | hsn =>
      have hn : b.hsn = none :=
        Option.not_isSome_iff_eq_none.1 (hfree .hsn (by decide))
      simp [ItemRecord.Agree, patchRecord, hn]
  | gst =>
      have hn : b.gst = none :=
        Option.not_isSome_iff_eq_none.1 (hfree .gst (by decide))
      simp [ItemRecord.Agree, patchRecord, patchRow, hn]
  | reorderLevel =>
      have hn : b.rl = none :=
        Option.not_isSome_iff_eq_none.1 (hfree .rl (by decide))
      simp [ItemRecord.Agree, patchRecord, hn]
  | cost =>
      have hn : b.cost = none :=
        Option.not_isSome_iff_eq_none.1 (hfree .cost (by decide))
      simp [ItemRecord.Agree, patchRecord, hn]
  | mrp =>
      have hn : b.mrp = none :=
        Option.not_isSome_iff_eq_none.1 (hfree .mrp (by decide))
      simp [ItemRecord.Agree, patchRecord, patchRow, hn]
  | shelfLifeHours =>
      have hn : b.sl = none :=
        Option.not_isSome_iff_eq_none.1 (hfree .sl (by decide))
      simp [ItemRecord.Agree, patchRecord, patchRow, hn]
  | src =>
      have hn : b.src = none :=
        Option.not_isSome_iff_eq_none.1 (hfree .src (by decide))
      have ho : b.onOff = none :=
        Option.not_isSome_iff_eq_none.1 (hfree .onOff (by decide))
      simp [ItemRecord.Agree, patchRecord, patchRow, hn, ho]
  | active =>
      have hn : b.active = none :=
        Option.not_isSome_iff_eq_none.1 (hfree .active (by decide))
      simp [ItemRecord.Agree, patchRecord, patchRow, hn]

/-! ## Which side of the switch it is on -/

/-- The source a patch names, where it names one, leaves the item counted or on/off
only as it was. -/
def KeepsSide (row : Item) (b : PatchItemBody) : Prop :=
  row.t ≠ .MTO ∨ b.src = none ∨
    (b.src = some .kitchen ↔ row.src = some .kitchen)

instance (row : Item) (b : PatchItemBody) : Decidable (KeepsSide row b) :=
  inferInstanceAs (Decidable (_ ∨ _ ∨ _))

/-- Without the kitchen's own field, the source decides. -/
theorem isOnOff_patchRow {row : Item} {b : PatchItemBody} (h : b.onOff = none) :
    isOnOff (patchRow row b) = isOnOff row ↔ KeepsSide row b := by
  have hrow : isOnOff (patchRow row b) =
      (decide (row.t = .MTO) && decide (b.src.or row.src = some .kitchen)) := by
    unfold isOnOff patchRow
    simp [h]
  rw [hrow]
  unfold isOnOff KeepsSide
  by_cases ht : row.t = .MTO
  · cases hs : b.src with
    | none => exact iff_of_true rfl (.inr (.inl rfl))
    | some src => simp [ht]
  · simp [ht]

/-- Only the kitchen decides what is counted, where the source a patch names does
not decide it. A refused patch leaves the master as it was. An accepted one is of
fields the caller holds, each through a feature that owns it, and changes no other
item and no column but theirs; and it turns the item on/off only or counted by the
kitchen's leave alone exactly where the caller has that leave or the named source
keeps the item on its side. -/
theorem kitchen_decides (records : Table ItemKey ItemRecord) (db found : Db)
    (perms : Permissions) (it : ItemKey) (body : PatchItemBody)
    (listed : List LocKey) :
    let out := patchRecords records db found perms it body listed
    (∀ refusal, out = .error refusal → leftBy records out = records) ∧
    ∀ after, out = .ok after → ∃ row row' : ItemRecord,
      records.get? it = some row ∧ after.get? it = some row' ∧
      (∀ other, other ≠ it → after.get? other = records.get? other) ∧
      (∀ f ∈ body.fields, ∃ feature ∈ ITEM_FIELD_FEATURES f,
        can perms feature .edit = true) ∧
      (∀ c, (∀ f ∈ body.fields, c ∉ f.columns) → row.Agree row' c) ∧
      ((isOnOff row'.toItem ≠ isOnOff row.toItem →
          can perms .make_distribute .edit = true) ↔
        can perms .make_distribute .edit = true ∨ KeepsSide row.toItem body) := by
  intro out
  refine ⟨fun refusal h => by rw [h, leftBy], fun after h => ?_⟩
  obtain ⟨row, hrow, hyours, rfl⟩ := patchRecords_ok h
  rw [unauthorised_eq_nil] at hyours
  refine ⟨row, patchRecord row body, hrow, ?_, fun other hne => ?_, hyours,
    fun c hc => agree_patchRecord row hc, ?_⟩
  · rw [Table.get?_modify_self, hrow, Option.map_some]
  · exact Table.get?_modify_ne _ _ hne
  · by_cases hcan : can perms .make_distribute .edit = true
    · exact iff_of_true (fun _ => hcan) (.inl hcan)
    · -- the kitchen's own field would have been refused
      have honOff : body.onOff = none := by
        refine Option.not_isSome_iff_eq_none.1 fun hsome => hcan ?_
        obtain ⟨feature, hf, hedit⟩ := hyours .onOff (mem_fields.2 hsome)
        rwa [List.mem_singleton.1 hf] at hedit
      rw [or_iff_right hcan, ← isOnOff_patchRow honOff]
      exact ⟨fun h => by_contra fun hne => hcan (h hne), fun h hne => absurd h hne⟩

/-- Two of the kitchen's dishes, the first cooked for service. -/
def dishes : Table ItemKey ItemRecord where
  rows := [("dosa", ⟨⟨"Dosa", "nos", .MTO, ⟨500⟩, none, none, some .kitchen, true⟩,
      "IT-1", none, "Meals", "2106", 0, ⟨2000⟩, none, 0⟩),
    ("puff", ⟨⟨"Veg puff", "nos", .FG, ⟨500⟩, none, some 8, none, true⟩,
      "IT-2", none, "Bakery", "2106", 0, ⟨1200⟩, none, 0⟩)]
  keys_nodup := by decide

/-- A store keeper's level: the master's operational half. -/
def storeDesk : Permissions :=
  ⟨fun f => if f = .item_master then some .edit else none, []⟩

def sourced (src : Source) : PatchItemBody :=
  ⟨none, none, none, none, none, none, none, none, none, none, some src, none⟩

theorem kitchen_decides_dosa : ∃ after,
    patchRecords dishes (Db.fresh corner) (Db.fresh corner) storeDesk "dosa"
        (sourced .kitchen) [] = .ok after ∧
      ∃ row row' : ItemRecord, dishes.get? "dosa" = some row ∧
        after.get? "dosa" = some row' ∧
        isOnOff row'.toItem = isOnOff row.toItem := by
  have hany : (patchRecords dishes (Db.fresh corner) (Db.fresh corner) storeDesk
      "dosa" (sourced .kitchen) []).toOption.isSome = true := by decide +kernel
  cases hout : patchRecords dishes (Db.fresh corner) (Db.fresh corner) storeDesk
      "dosa" (sourced .kitchen) [] with
  | error refusal => rw [hout] at hany; cases hany
  | ok after =>
      obtain ⟨row, row', hrow, hrow', -, -, -, hiff⟩ :=
        (kitchen_decides dishes (Db.fresh corner) (Db.fresh corner) storeDesk "dosa"
          (sourced .kitchen) []).2 after hout
      have hkeeps : can storeDesk .make_distribute .edit = true ∨
          KeepsSide row.toItem (sourced .kitchen) := by
        cases hrow
        exact .inr (by decide)
      refine ⟨after, rfl, row, row', hrow, hrow', by_contra fun hne => ?_⟩
      exact absurd (hiff.2 hkeeps hne) (by decide)

/-- The store keeper turns the dosa into a thing that is counted. -/
theorem dosa_counted_by_the_store : ∃ after row row',
    patchRecords dishes (Db.fresh corner) (Db.fresh corner) storeDesk "dosa"
        (sourced .store) [] = .ok after ∧
      dishes.get? "dosa" = some row ∧ after.get? "dosa" = some row' ∧
      isOnOff row'.toItem ≠ isOnOff row.toItem ∧
      can storeDesk .make_distribute .edit ≠ true := by
  have hany : (patchRecords dishes (Db.fresh corner) (Db.fresh corner) storeDesk
      "dosa" (sourced .store) []).toOption.any (fun after =>
        (after.get? "dosa").any fun row' => !isOnOff row'.toItem) = true := by
    decide +kernel
  obtain ⟨after, hout, hd⟩ := (Option.any_eq_true _ _).1 hany
  obtain ⟨row', hrow', hoff⟩ := (Option.any_eq_true _ _).1 hd
  cases hres : patchRecords dishes (Db.fresh corner) (Db.fresh corner) storeDesk
      "dosa" (sourced .store) [] with
  | error refusal => rw [hres] at hout; cases hout
  | ok after' =>
      rw [hres] at hout
      cases hout
      refine ⟨after, _, row', rfl, rfl, hrow', ?_, by decide⟩
      rw [Bool.not_eq_true'] at hoff
      rw [hoff]
      decide

end Rch
