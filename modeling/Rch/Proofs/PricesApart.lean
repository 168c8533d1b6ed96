import Rch.Api.PriceGrid
import Rch.Kit.CopyOnWrite

/-!
# One counter's price never moves another's

The lists are sheets the outlets are on. Every outlet the save reprices is put
on a sheet of its own before any price is written: a fork moves nobody's prices,
and the last sharer of a list, who keeps it, is alone on it by then. From there
each cell of the save is written for one outlet only.

Who is still on a list is not read again but struck off as the outlets are
forked, so the induction carries that the sharers kept are those there are.
-/

namespace Rch

open Kit

def PriceBook.sheets (b : PriceBook) : Sheets LocKey String ItemKey Money where
  on w := (b.outlets.get? w).bind Location.list
  entry id it := b.prices.get? (id, it)

/-- What a till charges for a price on its list: no more than is printed. -/
def cappedAt (item : Option Item) (listed : Money) : Money :=
  match item.bind Item.mrp with
  | none => listed
  | some mrp => if mrp < listed then mrp else listed

theorem PriceBook.priceOf_eq (b : PriceBook) (loc : LocKey) (it : ItemKey) :
    b.priceOf loc it = (b.sheets.view loc it).elim 0
      (cappedAt ((b.items it).filter Item.active)) := by
  change Rch.priceOf b.master _ loc it = _
  unfold Rch.priceOf Sheets.view PriceBook.sheets cappedAt PriceBook.master
  dsimp only
  generalize (b.outlets.get? loc).bind Location.list = list
  cases list with
  | none => rfl
  | some id =>
      dsimp only [Option.bind_some]
      generalize b.prices.get? (id, it) = listed
      cases listed with
      | none => rfl
      | some p => rfl

section Fork

variable {b b' : PriceBook} {loc : LocKey} {row : Location} {id : String}

/-- A list nobody has numbered yet. -/
theorem PriceBook.fresh_of_free (hfree : b.lists.get? id = none) :
    b.sheets.Fresh id where
  nobody w hw := by
    obtain ⟨l, hl, hlist⟩ := Option.bind_eq_some_iff.1 hw
    have hknown := b.on_a_list w l id hl hlist
    rw [hfree] at hknown
    cases hknown
  blank it := by
    cases hp : b.prices.get? (id, it) with
    | none => exact hp
    | some p =>
        have hknown := b.priced_on_a_list id it p hp
        rw [hfree] at hknown
        cases hknown

theorem PriceBook.insertList_some {name : String}
    (h : b.insertList id name = some b') :
    b.lists.get? id = none ∧ b'.sheets = b.sheets ∧ b'.outlets = b.outlets ∧
      b'.menu = b.menu ∧ b'.items = b.items ∧
      ∀ x, (b.lists.get? x).isSome = true → (b'.lists.get? x).isSome = true := by
  unfold PriceBook.insertList at h
  split at h
  · cases h
  · next lists hi =>
      cases h
      refine ⟨(Table.insert?_eq_some hi).1, rfl, rfl, rfl, rfl, fun x hx => ?_⟩
      dsimp only
      rw [Table.get?_insert hi]
      split
      · rfl
      · exact hx

theorem PriceBook.cloneItems_some {from_ : String}
    (h : b.cloneItems from_ id = some b') (hblank : ∀ it, b.sheets.entry id it = none) :
    b'.sheets.on = b.sheets.on ∧
      b'.sheets.entry =
        Function.update b.sheets.entry id (b.sheets.entry from_) ∧
      b'.outlets = b.outlets ∧ b'.menu = b.menu ∧ b'.items = b.items ∧
      b'.lists = b.lists := by
  unfold PriceBook.cloneItems at h
  split at h
  case isFalse => cases h
  next hall =>
  cases h
  refine ⟨rfl, ?_, rfl, rfl, rfl, rfl⟩
  funext x it
  change (b.prices.insertAll (b.rowsFor from_ id).rows).get? (x, it) = _
  rw [Table.get?_insertAll (b.rowsFor from_ id).keys_nodup hall.2]
  change ((b.rowsFor from_ id).get? (x, it)).or (b.prices.get? (x, it)) = _
  rw [b.get?_rowsFor]
  by_cases hx : x = id
  · subst hx
    rw [if_pos rfl, Function.update_self, show b.prices.get? (x, it) = none from
      hblank it, Option.or_none]
    rfl
  · rw [if_neg hx, Option.none_or, Function.update_of_ne hx]
    rfl

theorem PriceBook.setOutletList_some (h : b.setOutletList loc id = some b')
    (hrow : (b.outlets.get? loc).isSome = true) :
    b'.sheets.on = Function.update b.sheets.on loc (some id) ∧
      b'.sheets.entry = b.sheets.entry ∧
      (∀ w, w ≠ loc → b'.outlets.get? w = b.outlets.get? w) ∧
      b'.menu = b.menu ∧ b'.items = b.items ∧ b'.lists = b.lists := by
  unfold PriceBook.setOutletList at h
  split at h
  case isFalse => cases h
  cases h
  refine ⟨?_, rfl, fun w hw => Table.get?_modify_ne _ _ hw, rfl, rfl, rfl⟩
  obtain ⟨l, hl⟩ := Option.isSome_iff_exists.1 hrow
  funext w
  change ((b.outlets.modify loc _).get? w).bind Location.list = _
  rw [Table.get?_modify_of_get? hl]
  by_cases hw : w = loc
  · subst hw
    rw [if_pos rfl, Function.update_self]
    rfl
  · rw [if_neg hw, Function.update_of_ne hw]
    rfl

/-- A list of the outlet's own is a fresh sheet with what it read so far. -/
theorem PriceBook.ownList_ok (h : b.ownList loc row = .ok (b', id))
    (hrow : b.outlets.get? loc = some row) :
    b.sheets.Fresh id ∧ b.lists.get? id = none ∧
      b'.sheets = b.sheets.fork loc id ∧
      (∀ w, w ≠ loc → b'.outlets.get? w = b.outlets.get? w) ∧
      b'.menu = b.menu ∧ b'.items = b.items ∧
      ∀ x, (b.lists.get? x).isSome = true → (b'.lists.get? x).isSome = true := by
  unfold PriceBook.ownList at h
  simp only [bind_ok, orInternal_ok] at h
  obtain ⟨b₁, hlist, h⟩ := h
  obtain ⟨hfree, hsheets, houtlets, hmenu, hitems, hlists⟩ :=
    PriceBook.insertList_some hlist
  have hfresh := PriceBook.fresh_of_free hfree
  have hrow₁ : b₁.outlets.get? loc = some row := by rw [houtlets, hrow]
  -- The prices on the new list are those the outlet read so far.
  obtain ⟨b₂, hcopied, hset⟩ : ∃ b₂ : PriceBook,
      (b₂.sheets.on = b.sheets.on ∧
        b₂.sheets.entry = Function.update b.sheets.entry
          (formatId .priceList b.nextList 0) (b.sheets.view loc) ∧
        b₂.outlets = b.outlets ∧ b₂.menu = b.menu ∧ b₂.items = b.items ∧
        b₂.lists = b₁.lists) ∧
      ∃ b₃, b₂.setOutletList loc (formatId .priceList b.nextList 0) = some b₃ ∧
        (b₃, formatId .priceList b.nextList 0) = (b', id) := by
    split at h
    · next from_ hfrom =>
        simp only [bind_ok, orInternal_ok, pure_ok] at h
        obtain ⟨b₂, hclone, hset⟩ := h
        obtain ⟨hon, hentry, ho, hm, hi, hl⟩ := PriceBook.cloneItems_some hclone
          fun it => by rw [hsheets]; exact hfresh.blank it
        refine ⟨b₂, ⟨by rw [hon, hsheets], ?_, ho.trans houtlets, hm.trans hmenu,
          hi.trans hitems, hl⟩, hset⟩
        rw [hentry, hsheets]
        congr 1
        funext it
        unfold Sheets.view PriceBook.sheets
        dsimp only
        rw [hrow, Option.bind_some, hfrom, Option.bind_some]
    · next hnone =>
        simp only [bind_ok, orInternal_ok, pure_ok, exists_eq_left'] at h
        refine ⟨b₁, ⟨congrArg Sheets.on hsheets, ?_, houtlets, hmenu, hitems, rfl⟩, h⟩
        rw [hsheets]
        refine (Function.update_eq_self_iff.2 ?_).symm
        funext it
        rw [hfresh.blank it]
        unfold Sheets.view PriceBook.sheets
        dsimp only
        rw [hrow, Option.bind_some, hnone, Option.bind_none]
  obtain ⟨hon, hentry, ho, hm, hi, hl⟩ := hcopied
  obtain ⟨b₃, hset, heq⟩ := hset
  cases heq
  obtain ⟨hon', hentry', ho', hm', hi', hl'⟩ := PriceBook.setOutletList_some hset
    (by rw [ho, hrow]; rfl)
  refine ⟨hfresh, hfree, ?_, fun w hw => (ho' w hw).trans (congrArg (Table.get? · w) ho),
    hm'.trans hm, hi'.trans hi, fun x hx => ?_⟩
  · have hboth : b'.sheets = ⟨b'.sheets.on, b'.sheets.entry⟩ := rfl
    rw [hboth, hon', hentry', hon, hentry]
    rfl
  · rw [hl', hl]
    exact hlists x hx

end Fork

section Walk

/-- What the walk over the outlets keeps, with the outlets still to come. -/
structure Forking.Kept (b₀ : PriceBook) (todo : List (LocKey × Location))
    (st : Forking) : Prop where
  view : st.book.sheets.view = b₀.sheets.view
  menu : st.book.menu = b₀.menu
  items : st.book.items = b₀.items
  /-- An outlet still to come is as it was locked. -/
  waiting : ∀ r ∈ todo, st.book.outlets.get? r.1 = some r.2
  ahead : ∀ r ∈ todo, st.listOf.lookup r.1 = none
  alone : ∀ w x, st.listOf.lookup w = some x → st.book.sheets.Alone w x
  sharers : ∀ x ws, st.sharers.get? x = some ws →
    ws.Nodup ∧ ∀ w, w ∈ ws ↔ st.book.sheets.on w = some x
  known : ∀ x, (st.sharers.get? x).isSome = true →
    (st.book.lists.get? x).isSome = true
  held : ∀ r ∈ todo, ∀ x, r.2.list = some x → (st.sharers.get? x).isSome = true
  occupied : ∀ w x, b₀.sheets.on w = some x → ∃ v, st.book.sheets.on v = some x

variable {b₀ : PriceBook} {loc : LocKey} {row : Location}
  {rows : List (LocKey × Location)} {st st' : Forking}

theorem few_iff {ws : List LocKey} (h : ws.Nodup) :
    ws.length ≤ 1 ↔ ∀ u ∈ ws, ∀ v ∈ ws, u = v := by
  rw [← List.toFinset_card_of_nodup h, Finset.card_le_one]
  simp only [List.mem_toFinset]

theorem Forking.Kept.on_head (h : st.Kept b₀ ((loc, row) :: rows)) :
    st.book.sheets.on loc = row.list := by
  unfold PriceBook.sheets
  dsimp only
  rw [h.waiting (loc, row) (List.mem_cons_self ..), Option.bind_some]

theorem Forking.Kept.alone_of_keeps {id : String}
    (h : st.Kept b₀ ((loc, row) :: rows)) (hk : st.keeps row = some id) :
    st.book.sheets.Alone loc id := by
  obtain ⟨hlist, hfew⟩ := Option.filter_eq_some_iff.1 hk
  obtain ⟨ws, hws⟩ := Option.isSome_iff_exists.1
    (h.held (loc, row) (List.mem_cons_self ..) id hlist)
  rw [hws, Option.getD_some, decide_eq_true_eq] at hfew
  obtain ⟨hnodup, hmem⟩ := h.sharers id ws hws
  have hon : st.book.sheets.on loc = some id := h.on_head.trans hlist
  refine ⟨hon, fun v hv => ?_⟩
  exact (few_iff hnodup).1 hfew v ((hmem v).2 hv) loc ((hmem loc).2 hon)

/-- Who does not keep its list leaves somebody on it. -/
theorem Forking.Kept.left_behind {id : String}
    (h : st.Kept b₀ ((loc, row) :: rows)) (hk : st.keeps row = none)
    (hlist : row.list = some id) :
    ∃ v, v ≠ loc ∧ st.book.sheets.on v = some id := by
  obtain ⟨ws, hws⟩ := Option.isSome_iff_exists.1
    (h.held (loc, row) (List.mem_cons_self ..) id hlist)
  obtain ⟨hnodup, hmem⟩ := h.sharers id ws hws
  by_contra hno
  have hall : ∀ v ∈ ws, v = loc := fun v hv => by
    by_contra hne
    exact hno ⟨v, hne, (hmem v).1 hv⟩
  have hfew : ws.length ≤ 1 := by
    refine (few_iff hnodup).2 fun u hu v hv => ?_
    rw [hall u hu, hall v hv]
  unfold Forking.keeps at hk
  rw [hlist, Option.filter_some, hws, Option.getD_some,
    if_pos (decide_eq_true hfew)] at hk
  cases hk

theorem forkOutlet_kept (h : forkOutlet loc row st = .ok st')
    (hkept : st.Kept b₀ ((loc, row) :: rows))
    (hnew : ∀ r ∈ rows, r.1 ≠ loc) : st'.Kept b₀ rows := by
  have hrest : ∀ r ∈ rows, r ∈ (loc, row) :: rows := fun r =>
    List.mem_cons_of_mem (loc, row)
  have hahead : ∀ id, ∀ r ∈ rows, ((loc, id) :: st.listOf).lookup r.1 = none := by
    intro id r hr
    rw [List.lookup_cons, beq_false_of_ne (hnew r hr)]
    exact hkept.ahead r (hrest r hr)
  unfold forkOutlet at h
  cases hk : st.keeps row with
  | some id =>
      rw [hk] at h
      cases h
      exact
        { view := hkept.view
          menu := hkept.menu
          items := hkept.items
          waiting := fun r hr => hkept.waiting r (hrest r hr)
          ahead := hahead id
          alone := by
            intro w x hw
            rw [List.lookup_cons] at hw
            split at hw
            · next hwl =>
                cases hw
                rw [eq_of_beq hwl]
                exact hkept.alone_of_keeps hk
            · exact hkept.alone w x hw
          sharers := hkept.sharers
          known := hkept.known
          held := fun r hr => hkept.held r (hrest r hr)
          occupied := hkept.occupied }
  | none =>
      rw [hk] at h
      simp only [bind_ok, pure_ok] at h
      obtain ⟨⟨book, id⟩, hown, rfl⟩ := h
      obtain ⟨hfresh, hfree, hsheets, houtlets, hmenu, hitems, hlists⟩ :=
        PriceBook.ownList_ok hown (hkept.waiting (loc, row) (List.mem_cons_self ..))
      have hon (w : LocKey) : book.sheets.on w =
          if w = loc then some id else st.book.sheets.on w := by
        rw [hsheets]
        exact Function.update_apply ..
      have hshared (x : String) : (row.list.elim st.sharers fun y =>
          st.sharers.modify y fun on => on.filter fun l => decide (l ≠ loc)).get? x =
            if row.list = some x then
              (st.sharers.get? x).map fun on => on.filter fun l => decide (l ≠ loc)
            else st.sharers.get? x := by
        cases hl : row.list with
        | none => rfl
        | some y =>
            dsimp only [Option.elim_some]
            rw [Table.get?_modify]
            by_cases hxy : x = y
            · rw [if_pos hxy, if_pos (congrArg some hxy.symm)]
            · rw [if_neg hxy, if_neg fun hy => hxy (Option.some_inj.1 hy).symm]
      have hsome (x : String) : ((row.list.elim st.sharers fun y =>
          st.sharers.modify y fun on => on.filter fun l => decide (l ≠ loc)).get?
            x).isSome = (st.sharers.get? x).isSome := by
        rw [hshared]
        split
        · exact Option.isSome_map
        · rfl
      exact
        { view := by
            change book.sheets.view = _
            rw [hsheets, Sheets.view_fork hfresh, hkept.view]
          menu := hmenu.trans hkept.menu
          items := hitems.trans hkept.items
          waiting := fun r hr =>
            (houtlets r.1 (hnew r hr)).trans (hkept.waiting r (hrest r hr))
          ahead := hahead id
          alone := by
            intro w x hw
            change book.sheets.Alone w x
            rw [hsheets]
            rw [List.lookup_cons] at hw
            split at hw
            · next hwl =>
                cases hw
                rw [eq_of_beq hwl]
                exact Sheets.alone_fork hfresh
            · refine (hkept.alone w x hw).fork ?_ hfresh
              rintro rfl
              rw [hkept.ahead (w, row) (List.mem_cons_self ..)] at hw
              cases hw
          sharers := by
            intro x ws hws
            dsimp only at hws ⊢
            have hx : x ≠ id := by
              rintro rfl
              have hknown := hkept.known x (by rw [← hsome, hws]; rfl)
              rw [hfree] at hknown
              cases hknown
            rw [hshared] at hws
            split at hws
            · next hlist =>
                obtain ⟨on, hon', rfl⟩ := Option.map_eq_some_iff.1 hws
                obtain ⟨hnodup, hmem⟩ := hkept.sharers x on hon'
                refine ⟨hnodup.filter _, fun w => ?_⟩
                rw [List.mem_filter, hmem, hon, decide_eq_true_eq]
                by_cases hw : w = loc
                · rw [if_pos hw]
                  exact iff_of_false (fun hb => hb.2 hw)
                    fun he => hx (Option.some_inj.1 he).symm
                · rw [if_neg hw]
                  exact and_iff_left hw
            · next hlist =>
                obtain ⟨hnodup, hmem⟩ := hkept.sharers x ws hws
                refine ⟨hnodup, fun w => ?_⟩
                rw [hmem, hon]
                by_cases hw : w = loc
                · rw [if_pos hw, hw, hkept.on_head]
                  exact iff_of_false hlist
                    fun he => hx (Option.some_inj.1 he).symm
                · rw [if_neg hw]
          known := fun x hx => hlists x (hkept.known x (by rw [← hsome]; exact hx))
          held := fun r hr x hx => by
            dsimp only
            rw [hsome]
            exact hkept.held r (hrest r hr) x hx
          occupied := by
            intro w x hw
            obtain ⟨v, hv⟩ := hkept.occupied w x hw
            by_cases hvl : v = loc
            · subst hvl
              obtain ⟨u, hu, hux⟩ := hkept.left_behind hk (hkept.on_head.symm.trans hv)
              exact ⟨u, by rw [hon, if_neg hu, hux]⟩
            · exact ⟨v, by rw [hon, if_neg hvl, hv]⟩ }

theorem forkAll_kept (h : forkAll rows st = .ok st') (hkept : st.Kept b₀ rows)
    (hnodup : (rows.map Prod.fst).Nodup) : st'.Kept b₀ [] := by
  induction rows generalizing st with
  | nil =>
      cases h
      exact hkept
  | cons r rows ih =>
      unfold forkAll at h
      simp only [bind_ok] at h
      obtain ⟨st₁, hstep, h⟩ := h
      rw [List.map_cons, List.nodup_cons] at hnodup
      refine ih h (forkOutlet_kept hstep hkept fun r' hr' heq => ?_) hnodup.2
      exact hnodup.1 (heq ▸ List.mem_map_of_mem hr')

end Walk

section Start

variable {b : PriceBook} {locs : List LocKey} {rows : List (LocKey × Location)}

theorem mem_outletsOf {id : String} {w : LocKey} :
    w ∈ b.outletsOf id ↔ b.sheets.on w = some id := by
  unfold PriceBook.outletsOf PriceBook.sheets
  rw [Option.bind_eq_some_iff]
  simp only [List.mem_map, List.mem_filter, decide_eq_true_eq, Prod.exists,
    exists_and_right, exists_eq_right, ← Table.get?_eq_some]

theorem outletsOf_nodup (id : String) : (b.outletsOf id).Nodup :=
  b.outlets.keys_nodup.sublist (List.filter_sublist.map _)

theorem get?_heldLists {x : String} : (b.heldLists rows).get? x =
    if ∃ r ∈ rows, r.2.list = some x then some (b.outletsOf x) else none := by
  have hmem : x ∈ (rows.filterMap fun r => r.2.list).dedup.insertionSort (· ≤ ·) ↔
      ∃ r ∈ rows, r.2.list = some x := by
    rw [(List.perm_insertionSort _ _).mem_iff, List.mem_dedup, List.mem_filterMap]
  have hnodup : ((rows.filterMap fun r => r.2.list).dedup.insertionSort
      (· ≤ ·)).Nodup :=
    (List.perm_insertionSort _ _).nodup_iff.2 (List.nodup_dedup _)
  unfold PriceBook.heldLists
  generalize (rows.filterMap fun r => r.2.list).dedup.insertionSort (· ≤ ·) = ids
    at hmem hnodup
  have hkeys : ((ids.map fun id => (id, b.outletsOf id)).map Prod.fst).Nodup := by
    rwa [List.map_map, show Prod.fst ∘ (fun id => (id, b.outletsOf id)) = id from rfl,
      List.map_id]
  rw [Table.get?_insertAll hkeys fun _ _ => rfl, Table.get?_empty, Option.or_none]
  split
  · next h =>
      exact Table.mem_lookup hkeys (List.mem_map.2 ⟨x, hmem.2 h, rfl⟩)
  · next h =>
      rw [Table.lookup_eq_none]
      intro hx
      obtain ⟨r, hr, rfl⟩ := List.mem_map.1 hx
      obtain ⟨y, hy, rfl⟩ := List.mem_map.1 hr
      exact h (hmem.1 hy)

theorem lockOutlets_ok (h : b.lockOutlets locs = .ok rows) :
    rows.map Prod.fst = locs ∧ ∀ r ∈ rows, b.outlets.get? r.1 = some r.2 := by
  induction locs generalizing rows with
  | nil =>
      cases h
      exact ⟨rfl, List.forall_mem_nil _⟩
  | cons loc locs ih =>
      unfold PriceBook.lockOutlets at h
      simp only [bind_ok, orNotFound_ok, pure_ok] at h
      obtain ⟨row, hrow, rows', hrows', rfl⟩ := h
      obtain ⟨hkeys, hread⟩ := ih hrows'
      refine ⟨by rw [List.map_cons, hkeys], ?_⟩
      rw [List.forall_mem_cons]
      exact ⟨hrow, hread⟩

/-- Before the first outlet, with the lists of all of them held. -/
theorem kept_start (hread : ∀ r ∈ rows, b.outlets.get? r.1 = some r.2) :
    Forking.Kept b rows ⟨b, b.heldLists rows, []⟩ where
  view := rfl
  menu := rfl
  items := rfl
  waiting := hread
  ahead _ _ := rfl
  alone _ _ hw := by cases hw
  sharers x ws hws := by
    dsimp only at hws
    rw [get?_heldLists] at hws
    split at hws
    · cases hws
      exact ⟨outletsOf_nodup x, fun _ => mem_outletsOf⟩
    · cases hws
  known x hx := by
    dsimp only at hx
    rw [get?_heldLists] at hx
    split at hx
    · next hon =>
        obtain ⟨r, hr, hlist⟩ := hon
        exact b.on_a_list r.1 r.2 x (hread r hr) hlist
    · cases hx
  held r hr x hx := by
    dsimp only
    rw [get?_heldLists, if_pos ⟨r, hr, hx⟩]
    rfl
  occupied w x hw := ⟨w, hw⟩

end Start

section Write

variable {b₀ b b' : PriceBook} {listOf : List (LocKey × String)}
  {c : OutletPriceChange} {changes : List OutletPriceChange}

def OutletPriceChange.cell (c : OutletPriceChange) : LocKey × ItemKey := (c.loc, c.it)

theorem PriceBook.upsertPrice_some {id : String} {it : ItemKey} {p : ℚ}
    (h : b.upsertPrice id it p = some b') :
    b'.sheets = b.sheets.write id it (Decimal.roundAway 2 p) ∧
      b'.menu = b.menu ∧ b'.items = b.items := by
  unfold PriceBook.upsertPrice at h
  split at h
  case isFalse => cases h
  cases h
  refine ⟨?_, rfl, rfl⟩
  unfold PriceBook.sheets Sheets.write
  dsimp only
  congr 1
  funext x j
  have hrow : ((b.prices.insert? (id, it) (Decimal.roundAway 2 p)).getD
      (b.prices.modify (id, it) fun _ => Decimal.roundAway 2 p)).get? (x, j) =
        if (x, j) = (id, it) then some (Decimal.roundAway 2 p)
        else b.prices.get? (x, j) := by
    cases hi : b.prices.insert? (id, it) (Decimal.roundAway 2 p) with
    | some t => rw [Option.getD_some, Table.get?_insert hi]
    | none =>
        cases hold : b.prices.get? (id, it) with
        | none =>
            obtain ⟨t, ht⟩ := Table.insert?_of_free hold (Decimal.roundAway 2 p)
            rw [hi] at ht
            cases ht
        | some m => rw [Option.getD_none, Table.get?_modify_of_get? hold]
  rw [hrow, Function.update_apply]
  by_cases hx : x = id
  · subst hx
    rw [if_pos rfl, Function.update_apply]
    by_cases hj : j = it
    · rw [if_pos (by rw [hj]), if_pos hj]
    · rw [if_neg fun hb => hj (Prod.mk.inj hb).2, if_neg hj]
  · rw [if_neg fun hb => hx (Prod.mk.inj hb).1, if_neg hx]

def PriceBook.written (b₀ : PriceBook) (c : OutletPriceChange) : Option Money :=
  (c.price.filter fun p => !b₀.same c p).map (Decimal.roundAway 2)

/-- One cell of the save moves the price and the menu line of that cell only. -/
structure CellWritten (b₀ b b' : PriceBook) (c : OutletPriceChange) : Prop where
  items : b'.items = b.items
  on : b'.sheets.on = b.sheets.on
  view : ∀ loc it, b'.sheets.view loc it =
    if (loc, it) = c.cell then (b₀.written c).or (b.sheets.view loc it)
    else b.sheets.view loc it
  off_menu : ∀ k, k ≠ c.cell → b'.menu.get? k = b.menu.get? k
  unset : c.listed = none → b'.menu.get? c.cell = b.menu.get? c.cell
  sells : ∀ v, c.listed = some v → b.sells c.loc c.it = b₀.sells c.loc c.it →
    b'.sells c.loc c.it = v

theorem sells_listOnMenu (b : PriceBook) (loc : LocKey) (it : ItemKey) :
    (b.listOnMenu loc it).sells loc it = true ∧
      ∀ k, k ≠ (loc, it) → (b.listOnMenu loc it).menu.get? k = b.menu.get? k := by
  unfold PriceBook.sells PriceBook.listOnMenu
  dsimp only
  generalize ((b.menu.rows.filter fun r => decide (r.1.1 = loc)).map Prod.snd).foldl
    max 0 + 1 = place
  cases hi : b.menu.insert? (loc, it) place with
  | some t =>
      rw [Option.getD_some]
      refine ⟨by rw [Table.get?_insert hi, if_pos rfl]; rfl, fun k hk => ?_⟩
      rw [Table.get?_insert hi, if_neg hk]
  | none =>
      refine ⟨?_, fun _ _ => rfl⟩
      rw [Option.getD_none]
      cases hold : b.menu.get? (loc, it) with
      | none =>
          obtain ⟨t, ht⟩ := Table.insert?_of_free hold place
          rw [hi] at ht
          cases ht
      | some m => rfl

theorem sells_unlistFromMenu (b : PriceBook) (loc : LocKey) (it : ItemKey) :
    (b.unlistFromMenu loc it).sells loc it = false ∧
      ∀ k, k ≠ (loc, it) → (b.unlistFromMenu loc it).menu.get? k = b.menu.get? k := by
  unfold PriceBook.sells PriceBook.unlistFromMenu
  dsimp only
  constructor
  · rw [Table.get?_restrict, if_neg (by simp)]
    rfl
  · intro k hk
    rw [Table.get?_restrict, if_pos (decide_eq_true hk)]

/-- The switch half of a cell, on the book its price half left. -/
def PriceBook.writeSwitch (b₀ b : PriceBook) (c : OutletPriceChange) :
    PriceBook :=
  match c.listed.filter fun v => decide (v ≠ b₀.sells c.loc c.it) with
  | some true => b.listOnMenu c.loc c.it
  | some false => b.unlistFromMenu c.loc c.it
  | none => b

theorem writeCell_written (h : writeCell b₀ listOf c b = .ok b')
    (halone : ∀ w x, listOf.lookup w = some x → b.sheets.Alone w x) :
    CellWritten b₀ b b' c := by
  unfold writeCell at h
  dsimp only at h
  -- The price first: on the list of an outlet that has it to itself.
  obtain ⟨b₁, ⟨hi, hm, hon, hview⟩, hmenu⟩ : ∃ b₁ : PriceBook,
      (b₁.items = b.items ∧ b₁.menu = b.menu ∧ b₁.sheets.on = b.sheets.on ∧
        ∀ loc it, b₁.sheets.view loc it =
          if (loc, it) = c.cell then (b₀.written c).or (b.sheets.view loc it)
          else b.sheets.view loc it) ∧
      b₀.writeSwitch b₁ c = b' := by
    unfold PriceBook.written
    split at h
    · next p hp =>
        simp only [bind_ok, orInternal_ok, Option.bind_eq_some_iff, pure_ok] at h
        obtain ⟨b₁, ⟨id, hid, hup⟩, hmenu⟩ := h
        obtain ⟨hsheets, hm, hi⟩ := PriceBook.upsertPrice_some hup
        refine ⟨b₁, ⟨hi, hm, by rw [hsheets]; rfl, fun loc it => ?_⟩, hmenu⟩
        rw [hsheets, Sheets.view_write (halone c.loc id hid), hp, Option.map_some,
          Option.some_or]
        exact if_congr Prod.mk_inj.symm rfl rfl
    · next hp =>
        simp only [bind_ok, pure_ok, exists_eq_left'] at h
        refine ⟨b, ⟨rfl, rfl, rfl, fun loc it => ?_⟩, h⟩
        rw [hp, Option.map_none, Option.none_or, ite_self]
  have hsells : b₁.sells = b.sells := by
    unfold PriceBook.sells
    rw [hm]
  unfold PriceBook.writeSwitch at hmenu
  split at hmenu
  · next hl =>
      obtain ⟨hlisted, hdiff⟩ := Option.filter_eq_some_iff.1 hl
      subst hmenu
      obtain ⟨hself, hothers⟩ := sells_listOnMenu b₁ c.loc c.it
      refine ⟨hi, hon, hview, fun k hk => (hothers k hk).trans (by rw [hm]),
        fun hn => ?_, fun v hv _ => ?_⟩
      · rw [hn] at hlisted
        cases hlisted
      · rw [hlisted] at hv
        rw [hself]
        exact Option.some_inj.1 hv
  · next hl =>
      obtain ⟨hlisted, hdiff⟩ := Option.filter_eq_some_iff.1 hl
      subst hmenu
      obtain ⟨hself, hothers⟩ := sells_unlistFromMenu b₁ c.loc c.it
      refine ⟨hi, hon, hview, fun k hk => (hothers k hk).trans (by rw [hm]),
        fun hn => ?_, fun v hv _ => ?_⟩
      · rw [hn] at hlisted
        cases hlisted
      · rw [hlisted] at hv
        rw [hself]
        exact Option.some_inj.1 hv
  · next hl =>
      subst hmenu
      refine ⟨hi, hon, hview, fun k _ => by rw [hm], fun _ => by rw [hm],
        fun v hv hsame => ?_⟩
      rw [hv, Option.filter_some] at hl
      rw [hsells, hsame]
      split at hl
      · cases hl
      · next hsame' => exact (not_not.1 fun hne => hsame' (decide_eq_true hne)).symm

/-- The whole save: each cell once, and nothing off the cells. -/
structure CellsWritten (b₀ b b' : PriceBook) (changes : List OutletPriceChange) :
    Prop where
  items : b'.items = b.items
  on : b'.sheets.on = b.sheets.on
  view : ∀ c ∈ changes, b'.sheets.view c.loc c.it =
    (b₀.written c).or (b.sheets.view c.loc c.it)
  off_view : ∀ loc it, (∀ c ∈ changes, c.cell ≠ (loc, it)) →
    b'.sheets.view loc it = b.sheets.view loc it
  off_menu : ∀ k, (∀ c ∈ changes, c.cell = k → c.listed = none) →
    b'.menu.get? k = b.menu.get? k
  sells : ∀ c ∈ changes, ∀ v, c.listed = some v →
    b.sells c.loc c.it = b₀.sells c.loc c.it → b'.sells c.loc c.it = v

theorem writeCells_written (h : writeCells b₀ listOf changes b = .ok b')
    (halone : ∀ w x, listOf.lookup w = some x → b.sheets.Alone w x)
    (honce : (changes.map OutletPriceChange.cell).Nodup) :
    CellsWritten b₀ b b' changes := by
  induction changes generalizing b with
  | nil =>
      cases h
      exact ⟨rfl, rfl, List.forall_mem_nil _, fun _ _ _ => rfl, fun _ _ => rfl,
        List.forall_mem_nil _⟩
  | cons c changes ih =>
      unfold writeCells at h
      rw [bind_ok] at h
      obtain ⟨b₁, hcell, hrest⟩ := h
      rw [List.map_cons, List.nodup_cons] at honce
      have hw := writeCell_written hcell halone
      have hws := ih hrest (fun w x hx => ⟨hw.on ▸ (halone w x hx).on,
        fun v hv => (halone w x hx).only v (hw.on ▸ hv)⟩) honce.2
      have hne : ∀ c' ∈ changes, c'.cell ≠ c.cell := fun c' hc' heq =>
        honce.1 (heq ▸ List.mem_map_of_mem hc')
      have hsells : ∀ c' ∈ changes, b₁.sells c'.loc c'.it = b.sells c'.loc c'.it :=
        fun c' hc' => congrArg Option.isSome (hw.off_menu c'.cell (hne c' hc'))
      exact
        { items := hws.items.trans hw.items
          on := hws.on.trans hw.on
          view := by
            rw [List.forall_mem_cons]
            constructor
            · rw [hws.off_view c.loc c.it hne, hw.view]
              exact if_pos rfl
            · intro c' hc'
              rw [hws.view c' hc', hw.view]
              exact congrArg _ (if_neg (hne c' hc'))
          off_view := by
            intro loc it hoff
            rw [List.forall_mem_cons] at hoff
            rw [hws.off_view loc it hoff.2, hw.view]
            exact if_neg hoff.1.symm
          off_menu := by
            intro k hoff
            rw [List.forall_mem_cons] at hoff
            rw [hws.off_menu k hoff.2]
            by_cases hk : c.cell = k
            · subst hk
              exact hw.unset (hoff.1 rfl)
            · exact hw.off_menu k fun he => hk he.symm
          sells := by
            rw [List.forall_mem_cons]
            constructor
            · intro v hv hsame
              have hlater : ∀ c' ∈ changes, c'.cell = c.cell → c'.listed = none :=
                fun c' hc' heq => absurd heq (hne c' hc')
              exact (congrArg Option.isSome (hws.off_menu c.cell hlater)).trans
                (hw.sells v hv hsame)
            · intro c' hc' v hv hsame
              exact hws.sells c' hc' v hv ((hsells c' hc').trans hsame) }

theorem checkCells_ok {seen : List (LocKey × ItemKey)} {u : Unit}
    (h : b.checkCells seen changes = .ok u) :
    (changes.map OutletPriceChange.cell).Nodup ∧
      (∀ c ∈ changes, c.cell ∉ seen) ∧
      ∀ c ∈ changes, ∃ item, b.items c.it = some item ∧ item.active = true := by
  induction changes generalizing seen with
  | nil => exact ⟨List.nodup_nil, List.forall_mem_nil _, List.forall_mem_nil _⟩
  | cons c changes ih =>
      unfold PriceBook.checkCells at h
      simp only [bind_ok, orNotFound_ok, assertRule_ok, exists_const] at h
      obtain ⟨item, hitem, -, -, hseen, hactive, -, -, -, hrest⟩ := h
      obtain ⟨hnodup, hnew, hknown⟩ := ih hrest
      rw [List.map_cons, List.nodup_cons, List.forall_mem_cons, List.forall_mem_cons]
      simp only [List.mem_cons, not_or] at hnew
      refine ⟨⟨fun hmem => ?_, hnodup⟩, ⟨hseen, fun c' hc' => (hnew c' hc').2⟩,
        ⟨item, hitem, hactive⟩, hknown⟩
      obtain ⟨c', hc', heq⟩ := List.mem_map.1 hmem
      exact (hnew c' hc').1 heq

end Write

/-- A saved grid: each cell's price is what was typed, to the paisa, and every
other counter's and item's is what it was. -/
structure GridSaved (b b' : PriceBook) (changes : List OutletPriceChange) :
    Prop where
  priced : ∀ c ∈ changes, ∀ p, c.price = some p →
    b'.priceOf c.loc c.it = cappedAt (b.items c.it) (Decimal.roundAway 2 p)
  spared : ∀ loc it, (∀ c ∈ changes, c.cell = (loc, it) → c.price = none) →
    b'.priceOf loc it = b.priceOf loc it
  switched : ∀ c ∈ changes, ∀ v, c.listed = some v → b'.sells c.loc c.it = v
  menu : ∀ loc it, (∀ c ∈ changes, c.cell = (loc, it) → c.listed = none) →
    b'.menu.get? (loc, it) = b.menu.get? (loc, it)
  /-- No list is left with nobody on it. -/
  occupied : ∀ id, b.outletsOf id ≠ [] → b'.outletsOf id ≠ []

theorem saveOutletPrices_ok {b b' : PriceBook} {changes : List OutletPriceChange}
    {n : ℕ} (h : saveOutletPrices b changes = .ok (b', n)) :
    GridSaved b b' changes := by
  unfold saveOutletPrices at h
  simp only [bind_ok, pure_ok] at h
  obtain ⟨rows, hrows, -, -, -, -, u, hcells, -, -, st, hfork, b₂, hwrite, heq⟩ := h
  cases heq
  obtain ⟨hkeys, hread⟩ := lockOutlets_ok hrows
  obtain ⟨honce, -, hknown⟩ := checkCells_ok hcells
  have hnodup : (rows.map Prod.fst).Nodup := by
    rw [hkeys]
    exact (List.perm_insertionSort _ _).nodup_iff.2 (List.nodup_dedup _)
  have hkept := forkAll_kept hfork
    (kept_start fun r hr => hread r (List.mem_filter.1 hr).1)
    (hnodup.sublist (List.filter_sublist.map _))
  have hsaved := writeCells_written hwrite hkept.alone honce
  have hitems : b'.items = b.items := hsaved.items.trans hkept.items
  have hsells : st.book.sells = b.sells := by
    unfold PriceBook.sells
    rw [hkept.menu]
  have hprice {loc : LocKey} {it : ItemKey}
      (hview : b'.sheets.view loc it = b.sheets.view loc it) :
      b'.priceOf loc it = b.priceOf loc it := by
    rw [PriceBook.priceOf_eq, PriceBook.priceOf_eq, hview, hitems]
  refine ⟨fun c hc p hp => ?_, fun loc it hoff => ?_, fun c hc v hv => ?_,
    fun loc it hoff => ?_, fun id hon => ?_⟩
  · obtain ⟨item, hitem, hactive⟩ := hknown c hc
    have hview : b'.sheets.view c.loc c.it = some (Decimal.roundAway 2 p) := by
      rw [hsaved.view c hc, hkept.view]
      unfold PriceBook.written
      rw [hp, Option.filter_some]
      by_cases hsame : b.same c p = true
      · -- The price on the list already, which is to the paisa.
        rw [hsame, if_neg (by decide), Option.map_none, Option.none_or]
        unfold PriceBook.same at hsame
        obtain ⟨m, hm, heq⟩ := (Option.any_eq_true _ _).1 hsame
        rw [← of_decide_eq_true heq, Decimal.roundAway_toRat]
        exact hm
      · rw [eq_false_of_ne_true hsame, if_pos (by decide), Option.map_some,
          Option.some_or]
    rw [PriceBook.priceOf_eq, hview, Option.elim_some, hitems, hitem,
      Option.filter_some, if_pos hactive]
  · refine hprice ?_
    by_cases hcell : ∃ c ∈ changes, c.cell = (loc, it)
    · obtain ⟨c, hc, heq⟩ := hcell
      cases heq
      rw [hsaved.view c hc, hkept.view]
      unfold PriceBook.written
      rw [hoff c hc rfl, Option.filter_none, Option.map_none, Option.none_or]
    · rw [hsaved.off_view loc it fun c hc heq => hcell ⟨c, hc, heq⟩, hkept.view]
  · exact hsaved.sells c hc v hv (by rw [hsells])
  · rw [hsaved.off_menu (loc, it) hoff, hkept.menu]
  · obtain ⟨w, hw⟩ := List.exists_mem_of_ne_nil _ hon
    obtain ⟨v, hv⟩ := hkept.occupied w id (mem_outletsOf.1 hw)
    rw [← hsaved.on] at hv
    exact List.ne_nil_of_mem (mem_outletsOf.2 hv)

/-- One counter's price never moves another's, and a refused save moves none. -/
theorem prices_apart (b : PriceBook) (changes : List OutletPriceChange) :
    (∀ b' n, saveOutletPrices b changes = .ok (b', n) →
      b.afterSave changes = b' ∧ GridSaved b b' changes) ∧
    ∀ r, saveOutletPrices b changes = .error r → b.afterSave changes = b := by
  unfold PriceBook.afterSave
  constructor
  · intro b' n h
    rw [h]
    exact ⟨rfl, saveOutletPrices_ok h⟩
  · intro r h
    rw [h]

def tillsOnOneList : Table LocKey Location := Table.empty.insertAll
  [("cafe", ⟨"Cafe", .Outlet, some "PL-1", true⟩),
   ("juice", ⟨"Juice bar", .Outlet, some "PL-1", true⟩),
   ("kiosk", ⟨"Kiosk", .Outlet, some "PL-1", true⟩)]

/-- A latte at 80 everywhere, on the menu of the cafe alone. -/
def everydayPrices : PriceBook where
  items it := if it = "latte" then
    some ⟨"Latte", "CUP", .MTO, ⟨500⟩, none, none, some .kitchen, true⟩ else none
  outlets := tillsOnOneList
  lists := Table.empty.insertAll [("PL-1", "Everyday")]
  prices := Table.empty.insertAll [(("PL-1", "latte"), ⟨8000⟩)]
  menu := Table.empty.insertAll [(("cafe", "latte"), 1)]
  nextList := 2
  on_a_list w l id hw hid := by
    have hall : ∀ r ∈ tillsOnOneList.rows, r.2.list = some "PL-1" := by decide
    cases hid.symm.trans (hall (w, l) (Table.get?_eq_some.1 hw))
    rfl
  priced_on_a_list id it p hp := by
    have hall : ∀ r ∈ (Table.empty.insertAll [(("PL-1", "latte"), (⟨8000⟩ : Money))] :
        Table (String × ItemKey) Money).rows, r.1.1 = "PL-1" := by decide
    cases hall ((id, it), p) (Table.get?_eq_some.1 hp)
    rfl

def dearerTwo : List OutletPriceChange :=
  [⟨"kiosk", "latte", some 85, some true⟩, ⟨"cafe", "latte", some 90, none⟩]

theorem prices_apart_one_list : ∃ b',
    everydayPrices.afterSave dearerTwo = b' ∧
    GridSaved everydayPrices b' dearerTwo ∧
    b'.priceOf "juice" "latte" = ⟨8000⟩ := by
  have hjuice : ((saveOutletPrices everydayPrices dearerTwo).toOption.any fun r =>
      decide (r.1.priceOf "juice" "latte" = ⟨8000⟩)) = true := by decide +kernel
  cases h : saveOutletPrices everydayPrices dearerTwo with
  | error r =>
      rw [h] at hjuice
      cases hjuice
  | ok saved =>
      rw [h] at hjuice
      have hapart := (prices_apart everydayPrices dearerTwo).1 saved.1 saved.2 h
      exact ⟨saved.1, hapart.1, hapart.2, of_decide_eq_true hjuice⟩

end Rch
