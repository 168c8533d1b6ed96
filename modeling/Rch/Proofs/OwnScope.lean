import Rch.Api.Scope
import Rch.Kit.Cut

/-!
# A snapshot tells a caller nothing outside their scope

Each collection's rule is a cut, blind to what the caller may not read of it,
and the snapshot is cut field by field. Two snapshots that differ only in other
locations' rows, and in the digits of tickets that are not the caller's to
collect, are cut to one and the same; and a snapshot that is cut already stays.

The kitchen's switches are the exception: they take products off every till, so
every till reads them.
-/

namespace Rch

open Kit

variable {ρ : Payload → Type} {α δ : Type}

/-- The location a key `loc:item` is of. -/
def locOfKey (k : String) : LocKey :=
  String.ofList (k.toList.takeWhile fun c => decide (c ≠ ':'))

/-- Read whole, or at the caller's location and of no other. -/
def ReadAlike (wide : Bool) (own : α → Bool) (l l' : List α) : Prop :=
  if wide then l = l' else SameRows own l l'

instance [DecidableEq α] (wide : Bool) (own : α → Bool) (l l' : List α) :
    Decidable (ReadAlike wide own l l') :=
  inferInstanceAs (Decidable (if wide then l = l' else l.filter own = l'.filter own))

/-- The same ticket, or the same but for digits the caller may not read. -/
def SameButOtp (who : Who) (t t' : Wire.Ticket δ) : Prop :=
  t = t' ∨ readsOtp who t = false ∧ ∃ otp, t' = { t with otp := otp }

/-- The tickets a caller reads, at either end of the movement. -/
def TicketsAlike (who : Who) (l l' : List (Wire.Ticket δ)) : Prop :=
  let own (t : Wire.Ticket δ) := decide (t.from_ = who.loc) || decide (t.to_ = who.loc)
  if readsWide who.desk who.perms .tickets then List.Forall₂ (SameButOtp who) l l'
  else List.Forall₂ (SameButOtp who) (l.filter own) (l'.filter own)

/-- Two snapshots a caller may not tell apart, `switches` being the locations
whose switches they may read. -/
structure AlikeFor (who : Who) (switches : List LocKey) (s s' : Snapshot ρ) :
    Prop where
  stock : ReadAlike (readsWide who.desk who.perms .stock)
    (fun e => decide (e.1 = who.loc)) s.stock s'.stock
  rsv : ReadAlike (readsWide who.desk who.perms .stock)
    (fun e => decide (locOfKey e.1 = who.loc)) s.rsv s'.rsv
  ovr : ReadAlike (readsWide who.desk who.perms .stock)
    (fun e => decide (locOfKey e.1 ∈ switches)) s.ovr s'.ovr
  menu : ReadAlike (readsWide who.desk who.perms .stock)
    (fun e => decide (e.1 = who.loc)) s.menu s'.menu
  adjustments : ReadAlike (readsWide who.desk who.perms .stock)
    (fun a => decide (a.loc = who.loc)) s.adjustments s'.adjustments
  req : ReadAlike (readsWide who.desk who.perms .requests)
    (fun r => decide (r.from_ = who.loc)) s.req s'.req
  tkt : TicketsAlike who s.tkt s'.tkt
  shopAsks : ReadAlike (readsWide who.desk who.perms .shopAsks)
    (fun a => decide (a.from_ = who.loc) || decide (a.to_ = who.loc))
    s.shopAsks s'.shopAsks
  pord : ReadAlike (readsWide who.desk who.perms .prodOrders)
    (fun o => decide (o.from_ = who.loc)) s.pord s'.pord
  adjReq : ReadAlike (readsWide who.desk who.perms .adjReq)
    (fun r => decide (r.loc = who.loc)) s.adjReq s'.adjReq
  productReqs : ReadAlike (readsWide who.desk who.perms .productReqs)
    (fun p => decide (p.forLoc = who.loc)) s.productReqs s'.productReqs
  bills : ReadAlike (readsBills who.desk who.perms &&
      readsWide who.desk who.perms .bills)
    (fun b => decide (b.loc = who.loc)) s.bills s'.bills
  sales : List.Forall₂ (ReadAlike (readsBills who.desk who.perms &&
      readsWide who.desk who.perms .bills)
    fun e => decide (e.1 = who.loc)) s.sales s'.sales
  /-- Everything else is the same. -/
  rest : s' =
    { s with
      toStockPart := s'.toStockPart
      menu := s'.menu
      req := s'.req
      tkt := s'.tkt
      pord := s'.pord
      bills := s'.bills
      productReqs := s'.productReqs
      shopAsks := s'.shopAsks
      sales := s'.sales
      adjustments := s'.adjustments
      adjReq := s'.adjReq }

/-! ## Each collection's cut -/

section Each

variable (who : Who)

theorem cut_rows (c : ReadCollection) (own : α → Bool) :
    Cut (fun l => if !cut who c then l else l.filter own)
      (ReadAlike (readsWide who.desk who.perms c) own) := by
  unfold cut
  simp only [Bool.not_not]
  exact Cut.exempt _ (Cut.rows own)

theorem lookup_own (L : LocKey) (m : List (LocKey × α)) :
    (m.filter fun e => decide (e.1 = L)).lookup L = m.lookup L := by
  induction m with
  | nil => rfl
  | cons e m ih =>
      rw [List.filter_cons, List.lookup_cons]
      by_cases he : e.1 = L
      · rw [if_pos (decide_eq_true he), List.lookup_cons, he, beq_self_eq_true]
      · rw [if_neg (fun h => he (of_decide_eq_true h)), ih,
          beq_false_of_ne fun h => he h.symm]

theorem cut_ownEntry (L : LocKey) :
    Cut (ownEntry (α := α) L) (SameRows fun e => decide (e.1 = L)) where
  blind m m' h := by
    unfold ownEntry
    rw [← lookup_own L m, ← lookup_own L m', h]
  settled m := by
    unfold ownEntry
    rw [List.lookup_cons, beq_self_eq_true]
    rfl

theorem locOfKey_of_startsWith {L : LocKey} (hL : ':' ∉ L.toList) {k : String}
    (h : startsWith k (L ++ ":") = true) : locOfKey k = L := by
  obtain ⟨rest, hk⟩ := List.isPrefixOf_iff_prefix.1 h
  have hplain : ∀ c ∈ L.toList, decide (c ≠ ':') = true := fun c hc =>
    decide_eq_true fun he => hL (he.subst hc)
  have hcolon : (L ++ ":").toList = L.toList ++ [':'] := String.toList_append
  unfold locOfKey
  rw [← hk, hcolon, List.append_assoc, List.takeWhile_append_of_pos hplain,
    List.singleton_append, List.takeWhile_cons, if_neg (by decide), List.append_nil,
    String.ofList_toList]

theorem kitchen_plain : ':' ∉ KITCHEN.toList := by decide

/-- The three maps, the kitchen's switches among those that are read. -/
theorem cut_stock : Cut (fun part => scopeStock part who) fun part part' =>
    ReadAlike (readsWide who.desk who.perms .stock)
      (fun e => decide (e.1 = who.loc)) part.stock part'.stock ∧
    ReadAlike (readsWide who.desk who.perms .stock)
      (fun e => decide (locOfKey e.1 = who.loc)) part.rsv part'.rsv ∧
    ReadAlike (readsWide who.desk who.perms .stock)
      (fun e => decide (locOfKey e.1 ∈ [who.loc, KITCHEN])) part.ovr part'.ovr := by
  have hrsv : Cut (List.filter fun e : String × Qty =>
      startsWith e.1 (who.loc ++ ":"))
      (SameRows fun e => decide (locOfKey e.1 = who.loc)) :=
    Cut.rows_of fun e he => decide_eq_true (locOfKey_of_startsWith who.plain he)
  have hovr : Cut (List.filter fun e : String × String =>
      startsWith e.1 (who.loc ++ ":") || startsWith e.1 (KITCHEN ++ ":"))
      (SameRows fun e => decide (locOfKey e.1 ∈ [who.loc, KITCHEN])) := by
    refine Cut.rows_of fun e he => decide_eq_true ?_
    rw [Bool.or_eq_true] at he
    rw [List.mem_cons, List.mem_singleton]
    exact he.imp (locOfKey_of_startsWith who.plain)
      (locOfKey_of_startsWith kitchen_plain)
  unfold scopeStock cut ReadAlike
  cases readsWide who.desk who.perms .stock with
  | true => exact ⟨fun p p' h => StockPart.ext h.1 h.2.1 h.2.2, fun _ => rfl⟩
  | false =>
      refine ⟨fun p p' h => StockPart.ext ?_ ?_ ?_, fun p => StockPart.ext ?_ ?_ ?_⟩
      · exact (cut_ownEntry who.loc).blind _ _ h.1
      · exact hrsv.blind _ _ h.2.1
      · exact hovr.blind _ _ h.2.2
      · exact (cut_ownEntry who.loc).settled _
      · exact hrsv.settled _
      · exact hovr.settled _

theorem cut_menu : Cut (fun menu : List (LocKey × List ItemKey) =>
      if cut who .stock then ownEntry who.loc menu else menu)
    (ReadAlike (readsWide who.desk who.perms .stock)
      fun e => decide (e.1 = who.loc)) := by
  unfold cut ReadAlike
  cases readsWide who.desk who.perms .stock with
  | true => exact Cut.whole
  | false => exact cut_ownEntry who.loc

theorem redactOtp_idem (t : Wire.Ticket δ) :
    redactOtp who (redactOtp who t) = redactOtp who t := by
  cases h : readsOtp who t with
  | true => simp only [redactOtp, h, if_true]
  | false =>
      have hagain : readsOtp who { t with otp := "" } = false := h
      simp only [redactOtp, h, hagain, Bool.false_eq_true, if_false]

theorem redactOtp_eq {t t' : Wire.Ticket δ} (h : SameButOtp who t t') :
    redactOtp who t = redactOtp who t' := by
  obtain rfl | ⟨hread, otp, rfl⟩ := h
  · rfl
  · have hagain : readsOtp who { t with otp := otp } = false := hread
    simp only [redactOtp, hread, hagain, Bool.false_eq_true, if_false]

theorem cut_tickets : Cut (fun tkt : List (Wire.Ticket δ) =>
    redactOtps who (scopeTickets who tkt)) (TicketsAlike who) := by
  have hrows : Cut (scopeTickets (ρ := δ) who) _ := cut_rows who .tickets _
  have hdigits : Cut (redactOtps (ρ := δ) who) _ := Cut.each (redactOtp_idem who)
  have hends : ∀ t : Wire.Ticket δ, (redactOtp who t).from_ = t.from_ ∧
      (redactOtp who t).to_ = t.to_ := fun t => by
    unfold redactOtp
    split
    · exact ⟨rfl, rfl⟩
    · exact ⟨rfl, rfl⟩
  refine (hrows.andThen hdigits fun l => ?_).mono fun l l' h => Or.inr ?_
  · unfold scopeTickets redactOtps
    split
    · rfl
    · exact Cut.rows_kept (fun t => by rw [(hends t).1, (hends t).2]) l
  · unfold TicketsAlike at h
    unfold scopeTickets cut
    simp only [Bool.not_not]
    split at h
    · next hw =>
        rw [if_pos hw, if_pos hw]
        exact h.imp fun _ _ => redactOtp_eq who
    · next hw =>
        rw [if_neg hw, if_neg hw]
        exact h.imp fun _ _ => redactOtp_eq who

theorem withoutPayer_idem (b : Wire.Bill δ) :
    withoutPayer (withoutPayer b) = withoutPayer b := by
  unfold withoutPayer
  split
  · exact ite_self _
  · rfl

theorem withoutPayer_loc (b : Wire.Bill δ) : (withoutPayer b).loc = b.loc := by
  unfold withoutPayer
  split
  · rfl
  · rfl

theorem cut_bills : Cut (fun bills : List (Wire.Bill δ) =>
      scopePayers who (scopeBills who bills))
    (ReadAlike (readsBills who.desk who.perms && readsWide who.desk who.perms .bills)
      fun b => decide (b.loc = who.loc)) := by
  have hrows : Cut (scopeBills (ρ := δ) who)
      (ReadAlike (readsBills who.desk who.perms && readsWide who.desk who.perms .bills)
        fun b => decide (b.loc = who.loc)) := by
    unfold scopeBills cut ReadAlike
    cases readsBills who.desk who.perms with
    | false => exact (Cut.shut []).mono fun _ _ _ => trivial
    | true =>
        cases readsWide who.desk who.perms .bills with
        | true => exact Cut.whole
        | false => exact Cut.rows _
  have hnames : Cut (scopePayers (ρ := δ) who) _ :=
    Cut.exempt (readsPayers who) (Cut.each withoutPayer_idem)
  refine (hrows.andThen hnames fun l => ?_).mono fun _ _ h => Or.inl h
  unfold scopePayers
  split
  · exact hrows.settled l
  · unfold scopeBills
    split
    · rfl
    · split
      · rfl
      · exact Cut.rows_kept (fun b => by rw [withoutPayer_loc]) l

theorem cut_sales : Cut (scopeSales who)
    (List.Forall₂ (ReadAlike (readsBills who.desk who.perms &&
        readsWide who.desk who.perms .bills)
      fun e => decide (e.1 = who.loc))) := by
  unfold scopeSales cut ReadAlike
  cases readsBills who.desk who.perms with
  | false =>
      exact (Cut.each (g := fun _ => []) fun _ => rfl).mono fun _ _ h =>
        h.imp fun _ _ _ => rfl
  | true =>
      cases readsWide who.desk who.perms .bills with
      | true => exact Cut.whole.mono fun _ _ h => List.forall₂_eq_eq_eq ▸ h
      | false =>
          refine (Cut.each fun row => ?_).mono fun _ _ h => h.imp fun row row' hrow => ?_
          · cases row.lookup who.loc with
            | none => rfl
            | some taken => 
                dsimp only
                rw [List.lookup_cons, beq_self_eq_true]
          · have hrow : SameRows (fun e => decide (e.1 = who.loc)) row row' := hrow
            rw [← lookup_own who.loc row, ← lookup_own who.loc row', hrow]

end Each

/-! ## The snapshot's -/

theorem scope_blind {who : Who} {sub : String} {owners : String → Option String}
    {s s' : Snapshot ρ} (h : AlikeFor who [who.loc, KITCHEN] s s') :
    scope s who sub owners = scope s' who sub owners := by
  rw [h.rest]
  unfold scope
  dsimp only
  congr 1
  · exact (cut_stock who).blind _ _ ⟨h.stock, h.rsv, h.ovr⟩
  · exact (cut_menu who).blind _ _ h.menu
  · exact (cut_rows who .requests _).blind _ _ h.req
  · exact (cut_tickets who).blind _ _ h.tkt
  · exact (cut_rows who .prodOrders _).blind _ _ h.pord
  · exact (cut_bills who).blind _ _ h.bills
  · exact (cut_rows who .productReqs _).blind _ _ h.productReqs
  · exact (cut_rows who .shopAsks _).blind _ _ h.shopAsks
  · exact (cut_sales who).blind _ _ h.sales
  · exact (cut_rows who .stock _).blind _ _ h.adjustments
  · exact (cut_rows who .adjReq _).blind _ _ h.adjReq

/-- What is cut for everybody alike, or for nobody. -/
theorem cut_gate (open_ : Bool) (a : α) :
    Cut (fun b => if open_ then b else a) fun b b' => if open_ then b = b' else True :=
  Cut.exempt open_ (Cut.shut a)

theorem scope_settled (s : Snapshot ρ) (who : Who) (sub : String)
    (owners : String → Option String) :
    scope (scope s who sub owners) who sub owners = scope s who sub owners := by
  unfold scope
  dsimp only
  congr 1
  · exact (cut_stock who).settled _
  · exact (cut_gate _ _).settled _
  · exact (cut_gate _ _).settled _
  · exact (cut_menu who).settled _
  · exact (cut_rows who .requests _).settled _
  · exact (cut_tickets who).settled _
  · exact (cut_gate _ _).settled _
  · exact (cut_gate _ _).settled _
  · exact (cut_rows who .prodOrders _).settled _
  · exact (cut_gate _ _).settled _
  · exact (cut_bills who).settled _
  · exact (cut_gate _ _).settled _
  · exact (cut_gate _ _).settled _
  · exact (cut_gate _ _).settled _
  · exact (Cut.rows _).settled _
  · exact (cut_rows who .productReqs _).settled _
  · exact (cut_rows who .shopAsks _).settled _
  · exact (cut_sales who).settled _
  · exact (cut_rows who .stock _).settled _
  · exact (cut_rows who .adjReq _).settled _

/-- A snapshot tells a caller nothing outside their scope, the kitchen's
switches apart, and cutting it again changes nothing. -/
theorem scope_own (who : Who) (sub : String) (owners : String → Option String) :
    (∀ s s' : Snapshot ρ, AlikeFor who [who.loc, KITCHEN] s s' →
      scope s who sub owners = scope s' who sub owners) ∧
    ∀ s : Snapshot ρ,
      scope (scope s who sub owners) who sub owners = scope s who sub owners :=
  ⟨fun _ _ => scope_blind, fun s => scope_settled s who sub owners⟩

/-- A counter that is given nothing else. -/
def cafeCounter : Who := ⟨.counter, "cafe", ⟨fun _ => none, []⟩, by decide⟩

/-- A quiet hospital with these switches and tickets. -/
def quietSnapshot (ovr : List (String × String)) (tkt : List (Wire.Ticket Unit)) :
    Snapshot fun _ => Unit where
  stock := []
  rsv := []
  ovr := ovr
  user := ()
  items := ()
  locations := ()
  users := ()
  roster := ⟨[], [], []⟩
  terms := noTerms
  prices := ()
  priceLists := ()
  menu := []
  req := []
  tkt := tkt
  prq := []
  po := []
  pord := []
  batch := []
  bills := []
  grn := []
  vendors := []
  contracts := []
  tickets := []
  productReqs := []
  shopAsks := []
  sales := []
  dayLabels := ()
  adjustments := []
  adjReq := []

/-- The digits of a ticket the cafe is sent, and a ticket between two others. -/
theorem scope_own_otp :
    scope (quietSnapshot [] [⟨STORE, "cafe", .issued, "481516", ()⟩])
      cafeCounter "u1" (fun _ => none) =
    scope (quietSnapshot [("kiosk:puff", "Sold out")]
        [⟨STORE, "cafe", .issued, "000000", ()⟩, ⟨STORE, "kiosk", .issued, "234200", ()⟩])
      cafeCounter "u1" (fun _ => none) := by
  refine (scope_own cafeCounter "u1" fun _ => none).1 _ _ ⟨rfl, rfl, by decide, rfl, rfl,
    rfl, ?_, rfl, rfl, rfl, rfl, rfl, .nil, rfl⟩
  exact .cons (Or.inr ⟨by decide, "000000", rfl⟩) .nil

/-- A till reads the kitchen's switches, which are no row of its own. -/
theorem scope_tells_switches :
    ¬ ∀ (who : Who) (sub : String) (owners : String → Option String)
      (s s' : Snapshot fun _ => Unit), AlikeFor who [who.loc] s s' →
        scope s who sub owners = scope s' who sub owners := by
  intro hall
  have hsame := hall cafeCounter "u1" (fun _ => none) (quietSnapshot [] [])
    (quietSnapshot [("kitchen:puff", "switched off by the kitchen")] [])
    ⟨rfl, rfl, by decide, rfl, rfl, rfl, .nil, rfl, rfl, rfl, rfl, rfl, .nil, rfl⟩
  have hovr := congrArg (fun s => s.ovr.length) hsame
  revert hovr
  decide

end Rch
