import Rch.Machine.Service
import Rch.Proofs.SaleEffect

/-!
# Money taken now and the account

A sale reads a payer's account at one point: the ceiling. Everything before it
reads the payer's name and rate, and everything after it the shelf, so two
databases that differ only in one payer's account part there or not at all.
The ceiling is asked of whoever the bill names, and not only where the tender
runs up a balance; so a bill paid at the counter is apart from the account it
names exactly when it never gets as far as the ceiling.
-/

namespace Rch

open Kit

/-- What the books hold of one payer's account. -/
structure Account where
  bills : Table String BillRow
  settlements : Table String SettlementRow
  settlementLines : Table (String × String) Money
  payerTerms : PayerKind → String → Option PayerTerms

def Db.withAccount (db : Db) (a : Account) : Db :=
  { db with
    rows := { db.rows with payerTerms := a.payerTerms }
    bills := a.bills
    settlements := a.settlements
    settlementLines := a.settlementLines }

/-- A bill on one payer's account, voided or not. -/
def onAccountOf (kind : PayerKind) (id : String) (b : BillRow) : Prop :=
  b.tender ∈ accountTenders ∧ ∃ p, b.payer = some p ∧ p.kind = kind ∧ p.id = id

/-- A settlement of one payer's, voided or not. -/
def settledBy (kind : PayerKind) (id : String) (s : SettlementRow) : Prop :=
  s.kind = kind ∧ s.payerId = id

/-- Books that differ from a database's only in one payer's account bills,
settlements and ceiling. -/
structure AccountOf (kind : PayerKind) (id : String) (db : Db) (a : Account) :
    Prop where
  bills : ∀ no b, ¬ onAccountOf kind id b →
    (a.bills.get? no = some b ↔ db.bills.get? no = some b)
  settlements : ∀ sid s, ¬ settledBy kind id s →
    (a.settlements.get? sid = some s ↔ db.settlements.get? sid = some s)
  settlementLines : ∀ sid no s, db.settlements.get? sid = some s →
    ¬ settledBy kind id s →
    a.settlementLines.get? (sid, no) = db.settlementLines.get? (sid, no)
  terms : ∀ k i, (k ≠ kind ∨ i ≠ id) →
    a.payerTerms k i = db.rows.payerTerms k i
  pct : (a.payerTerms kind id).bind PayerTerms.pct =
    (db.rows.payerTerms kind id).bind PayerTerms.pct
  /-- the next number is on a bill of both books or of neither -/
  next : ∀ t, (a.bills.get? (formatId .bill (db.seq .bill) t)).isSome =
    (db.bills.get? (formatId .bill (db.seq .bill) t)).isSome

/-- What the till sees of a sale: the bill, or the refusal. -/
def saleOutcome (db : Db) (body : PayBody) (operatorId : String)
    (mint : Option String) (at_ : Instant) : Outcome (String × BillRow) :=
  Prod.snd <$> postSale db (body.input operatorId) mint at_

/-! ## The sale on either side of the ceiling -/

/-- What a sale has in hand when it comes to the ceiling. -/
structure Quote where
  db : Db
  session : String
  phone : Option String
  payer : Option PayerRef

def quote (db : Db) (i : SaleInput) (mint : Option String) (at_ : Instant) :
    Outcome Quote := do
  let outlet ← lockLocation db i.loc
  assertOpen outlet none
  let (db, session) ← sessionFor db i.loc i.operatorId mint at_
  let phone ← customerPhoneOf i.customerPhone
  let payer ← payerOf db i.tender i.payer
  assertSellable (sellableAt db i.loc) (cartOf i.lines)
  pure ⟨db, session, phone, payer⟩

def Quote.terms (q : Quote) : ResolvedTerms :=
  termsFor q.db (partyOf (q.payer.map PayerRef.kind)) q.payer

def Quote.plan (q : Quote) (i : SaleInput) : BillPlan :=
  planBill q.db.master q.db.rows.prices i.loc (cartOf i.lines) q.terms.pct

def Quote.finish (q : Quote) (i : SaleInput) (at_ : Instant) :
    Outcome (Db × String × BillRow) := do
  let s := sellableAt q.db i.loc
  let took := tookOf (q.plan i)
  let stock := lockBalances q.db.stock (took.map fun l => ⟨i.loc, l.it⟩)
  assertCover s.master s.locName stock i.loc took
  let (db, no) := allocateId q.db .bill at_
  let row := billRow i (q.plan i) q.terms q.payer q.phone q.session at_
  let bills ← insertBill db no row
  let stock := postMoves stock (saleMoves (q.plan i) no i.operatorId at_)
  assertLeft s.master s.locName stock i.loc took
  pure ({ db with bills, stock }, no, row)

theorem postSale_eq (db : Db) (i : SaleInput) (mint : Option String)
    (at_ : Instant) :
    postSale db i mint at_ = quote db i mint at_ >>= fun q =>
      assertCredit q.db q.payer (q.plan i).tot q.terms.limit >>= fun _ =>
        q.finish i at_ := by
  unfold postSale quote
  simp only [bind_assoc, pure_bind]
  rfl

def Quote.withAccount (q : Quote) (a : Account) : Quote :=
  { q with db := q.db.withAccount a }

theorem sessionFor_withAccount (db : Db) (a : Account) (loc by_ : String)
    (mint : Option String) (at_ : Instant) :
    sessionFor (db.withAccount a) loc by_ mint at_ =
      (fun out => (out.1.withAccount a, out.2)) <$>
        sessionFor db loc by_ mint at_ := by
  have hopen : openSessionAt (db.withAccount a) loc = openSessionAt db loc := rfl
  have hsessions : (db.withAccount a).sessions = db.sessions := rfl
  unfold sessionFor
  rw [hopen, hsessions]
  cases openSessionAt db loc with
  | some s => rfl
  | none =>
      dsimp only
      generalize (mint.bind fun id => _) = fresh
      cases fresh with
      | none => rfl
      | some f => rfl

/-- Up to the ceiling a sale reads no account. -/
theorem quote_withAccount (db : Db) (a : Account) (i : SaleInput)
    (mint : Option String) (at_ : Instant) :
    quote (db.withAccount a) i mint at_ =
      (fun q => q.withAccount a) <$> quote db i mint at_ := by
  unfold quote
  rw [sessionFor_withAccount]
  simp only [map_bind, bind_map_left, map_pure]
  rfl

/-- What a refusal past the ceiling reads like: a shelf that is short, or a
table's own check. -/
theorem finish_error {q : Quote} {i : SaleInput} {at_ : Instant} {e : Refusal}
    (h : q.finish i at_ = .error e) :
    e.code = .internal ∨ e.message.toList.head? = some 'O' := by
  unfold Quote.finish allocateId at h
  simp only [bind_error, pure_error, and_false, exists_const, or_false] at h
  rcases h with h | ⟨_, -, h | ⟨bills, -, h⟩⟩
  · obtain ⟨l, -, rfl⟩ := assertEach_error h
    exact .inr (by simp)
  · unfold insertBill at h
    simp only [bind_error] at h
    rcases h with h | ⟨_, -, h | ⟨_, -, h⟩⟩
    · rw [← (guardOr_error.1 h).2]
      exact .inl rfl
    · rw [← (guardOr_error.1 h).2]
      exact .inl rfl
    · rw [← (someOr_error.1 h).2]
      exact .inl rfl
  · obtain ⟨l, -, rfl⟩ := assertEach_error h
    exact .inr (by simp)

/-- The ceiling's own refusal is none of those. -/
theorem finish_ne_breach {q : Quote} {i : SaleInput} {at_ : Instant}
    {outstanding limit : Money} {total : ℚ} {name : String} :
    q.finish i at_ ≠
      .error ⟨.rule, creditBreachMessage outstanding total name limit⟩ := by
  intro h
  rcases finish_error h with h | h
  · cases h
  · simp [creditBreachMessage, inr] at h

/-! ## Where two books agree -/

section Books

variable {kind : PayerKind} {id : String} {db : Db} {a : Account}

theorem AccountOf.outstanding (h : AccountOf kind id db a) {k : PayerKind}
    {i : String} (hne : k ≠ kind ∨ i ≠ id) :
    outstandingFor (db.withAccount a) k i = outstandingFor db k i := by
  have hbills : ∀ no b, chargedTo k i b = true →
      (a.bills.get? no = some b ↔ db.bills.get? no = some b) := by
    intro no b hb
    apply h.bills no b
    rintro ⟨-, p, hp, hk, hi⟩
    simp only [chargedTo, Bool.and_eq_true, Option.any_eq_true,
      decide_eq_true_eq] at hb
    obtain ⟨⟨-, p', hp', hk', hi'⟩, -⟩ := hb
    rw [hp] at hp'
    obtain rfl := Option.some.inj hp'
    rcases hne with hne | hne
    · exact hne (hk'.symm.trans hk)
    · exact hne (hi'.symm.trans hi)
  have hsettled : ∀ sid s, paidBy k i s = true →
      (a.settlements.get? sid = some s ↔
        db.settlements.get? sid = some s) := by
    intro sid s hs
    apply h.settlements sid s
    rintro ⟨hk, hi⟩
    simp only [paidBy, Bool.and_eq_true, decide_eq_true_eq] at hs
    obtain ⟨⟨hk', hi'⟩, -⟩ := hs
    rcases hne with hne | hne
    · exact hne (hk'.symm.trans hk)
    · exact hne (hi'.symm.trans hi)
  have hcharged := Table.total_filter_agree hbills fun _ b => b.total
  have hpaid := Table.total_filter_agree hsettled fun _ s => s.amount
  have hbooks : (db.withAccount a).bills = a.bills := rfl
  have hpayments : (db.withAccount a).settlements = a.settlements := rfl
  simp only [outstandingFor, hbooks, hpayments, hcharged, hpaid]

theorem termsFor_pct (db : Db) (party : BillParty) (payer : Option PayerRef) :
    (termsFor db party payer).pct =
      ((payer.bind fun p => db.rows.payerTerms p.kind p.id).bind
        PayerTerms.pct).getD
        ((db.rows.classTerms party).getD (fallbackTerms party)).pct := by
  unfold termsFor
  cases payer.bind fun p => db.rows.payerTerms p.kind p.id with
  | none => rfl
  | some own => rfl

theorem termsFor_limit_of_own {party : BillParty} {p : PayerRef}
    {own : PayerTerms} {limit : Money}
    (h : db.rows.payerTerms p.kind p.id = some own)
    (hlimit : own.limit = some limit) :
    (termsFor db party (some p)).limit = some limit := by
  have hown : ((some p).bind fun p' => db.rows.payerTerms p'.kind p'.id) =
      some own := h
  unfold termsFor
  rw [hown]
  dsimp only
  rw [hlimit]

theorem AccountOf.rate (h : AccountOf kind id db a) (party : BillParty)
    (payer : Option PayerRef) :
    (termsFor (db.withAccount a) party payer).pct =
      (termsFor db party payer).pct := by
  rw [termsFor_pct, termsFor_pct]
  cases payer with
  | none => rfl
  | some p =>
      have hown : (a.payerTerms p.kind p.id).bind PayerTerms.pct =
          (db.rows.payerTerms p.kind p.id).bind PayerTerms.pct := by
        by_cases hk : p.kind = kind
        · by_cases hi : p.id = id
          · rw [hk, hi]
            exact h.pct
          · rw [h.terms _ _ (.inr hi)]
        · rw [h.terms _ _ (.inl hk)]
      exact congrArg (fun o => Option.getD o _) hown

theorem AccountOf.termsFor_of_ne (h : AccountOf kind id db a)
    (party : BillParty) {payer : PayerRef}
    (hne : payer.kind ≠ kind ∨ payer.id ≠ id) :
    termsFor (db.withAccount a) party (some payer) =
      termsFor db party (some payer) := by
  have hown : ((some payer).bind fun p =>
      (db.withAccount a).rows.payerTerms p.kind p.id) =
      (some payer).bind fun p => db.rows.payerTerms p.kind p.id :=
    h.terms _ _ hne
  unfold termsFor
  rw [hown]
  rfl

/-- A till's bill meets the bills table at its number only. -/
theorem insertBill_till {db : Db} {no : String} {row : BillRow}
    (hsource : row.source = .till) (horder : row.qrOrderId = none) :
    insertBill db no row = orInternal (db.bills.insert? no row) "bills_pkey" := by
  unfold insertBill guardOr
  rw [hsource, horder, if_pos (by decide)]
  have hone : ∀ b ∈ db.bills.rows,
      (none : Option String).isSome = true → b.2.qrOrderId ≠ none := by
    intro b _ h
    cases h
  rw [if_pos hone]
  rfl

def Quote.number (q : Quote) (at_ : Instant) : String :=
  formatId .bill (q.db.seq .bill) at_

def Quote.row (q : Quote) (i : SaleInput) (at_ : Instant) : BillRow :=
  billRow i (q.plan i) q.terms q.payer q.phone q.session at_

theorem finish_outcome (q : Quote) (body : PayBody) (operatorId : String)
    (at_ : Instant) :
    Prod.snd <$> q.finish (body.input operatorId) at_ =
      let i := body.input operatorId
      let s := sellableAt q.db i.loc
      let took := tookOf (q.plan i)
      let stock := lockBalances q.db.stock (took.map fun l => ⟨i.loc, l.it⟩)
      assertCover s.master s.locName stock i.loc took >>= fun _ =>
        orInternal (q.db.bills.insert? (q.number at_) (q.row i at_))
            "bills_pkey" >>= fun _ =>
          assertLeft s.master s.locName (postMoves stock
            (saleMoves (q.plan i) (q.number at_) i.operatorId at_)) i.loc
              took >>= fun _ =>
            pure (q.number at_, q.row i at_) := by
  unfold Quote.finish allocateId
  simp only [map_bind, map_pure]
  rw [insertBill_till rfl rfl]
  rfl

theorem orInternal_const {α β γ : Type} {o : Option α} {o' : Option β}
    (h : o.isSome = o'.isSome) (what : String) (x : Outcome γ) :
    (orInternal o what >>= fun _ => x) = orInternal o' what >>= fun _ => x := by
  cases o with
  | none =>
      cases o' with
      | none => rfl
      | some _ => cases h
  | some _ =>
      cases o' with
      | none => cases h
      | some _ => rfl

theorem insert?_isSome {t : Table String BillRow} (no : String) (row : BillRow) :
    (t.insert? no row).isSome = !(t.get? no).isSome := by
  cases h : t.get? no with
  | none =>
      obtain ⟨t', ht⟩ := Table.insert?_of_free h row
      rw [ht]
      rfl
  | some r =>
      rw [Table.insert?_of_taken h]
      rfl

/-- Past the ceiling the books are only added to. -/
theorem AccountOf.finish {q : Quote} (h : AccountOf kind id q.db a)
    (body : PayBody) (operatorId : String) (at_ : Instant) :
    Prod.snd <$> (q.withAccount a).finish (body.input operatorId) at_ =
      Prod.snd <$> q.finish (body.input operatorId) at_ := by
  have hrate := h.rate (partyOf (q.payer.map PayerRef.kind)) q.payer
  have hplan : (q.withAccount a).plan (body.input operatorId) =
      q.plan (body.input operatorId) :=
    congrArg (planBill q.db.master q.db.rows.prices body.loc
      (cartOf body.lines)) hrate
  have hrow : (q.withAccount a).row (body.input operatorId) at_ =
      q.row (body.input operatorId) at_ := by
    unfold Quote.row billRow
    rw [hplan, show (q.withAccount a).terms.pct = q.terms.pct from hrate]
    rfl
  have hnumber : (q.withAccount a).number at_ = q.number at_ := rfl
  have htaken : (a.bills.insert? (q.number at_)
      (q.row (body.input operatorId) at_)).isSome =
      (q.db.bills.insert? (q.number at_)
        (q.row (body.input operatorId) at_)).isSome := by
    rw [insert?_isSome, insert?_isSome]
    exact congrArg _ (h.next at_)
  rw [finish_outcome, finish_outcome]
  dsimp only
  rw [hplan, hrow, hnumber]
  refine congrArg (fun x => _ >>= fun _ => x) ?_
  exact orInternal_const htaken ..

theorem quote_ok {i : SaleInput} {mint : Option String} {at_ : Instant}
    {q : Quote} (h : quote db i mint at_ = .ok q) :
    (∃ l, lockLocation db i.loc = .ok l ∧ l.active = true) ∧
      (∃ sessions, q.db = { db with sessions }) ∧
      payerOf db i.tender i.payer = .ok q.payer := by
  simp only [quote, bind_ok, assertOpen_ok, exists_const, pure_ok] at h
  obtain ⟨outlet, hl, hopen, ⟨db₁, session⟩, hsession, phone, -, payer, hp, _,
    -, rfl⟩ := h
  obtain ⟨sessions, hdb⟩ := sessionFor_ok hsession
  obtain rfl : db₁ = { db with sessions } := hdb
  exact ⟨⟨outlet, hl, hopen⟩, ⟨sessions, rfl⟩, hp⟩

theorem AccountOf.quoted (h : AccountOf kind id db a) {i : SaleInput}
    {mint : Option String} {at_ : Instant} {q : Quote}
    (hq : quote db i mint at_ = .ok q) : AccountOf kind id q.db a := by
  obtain ⟨-, ⟨sessions, hdb⟩, -⟩ := quote_ok hq
  rw [hdb]
  exact ⟨h.bills, h.settlements, h.settlementLines, h.terms, h.pct, h.next⟩

variable {body : PayBody} {operatorId : String} {mint : Option String}
  {at_ : Instant}

theorem saleOutcome_refused {e : Refusal}
    (hq : quote db (body.input operatorId) mint at_ = .error e) :
    saleOutcome (db.withAccount a) body operatorId mint at_ = .error e := by
  unfold saleOutcome
  rw [postSale_eq, quote_withAccount, hq]
  rfl

theorem AccountOf.saleOutcome (h : AccountOf kind id db a) {q : Quote}
    (hq : quote db (body.input operatorId) mint at_ = .ok q) :
    saleOutcome (db.withAccount a) body operatorId mint at_ =
      assertCredit (q.db.withAccount a) q.payer
          (q.plan (body.input operatorId)).tot
          (q.withAccount a).terms.limit >>= fun _ =>
        Prod.snd <$> q.finish (body.input operatorId) at_ := by
  have hquoted := h.quoted hq
  have hrate := hquoted.rate (partyOf (q.payer.map PayerRef.kind)) q.payer
  have hplan : (q.withAccount a).plan (body.input operatorId) =
      q.plan (body.input operatorId) :=
    congrArg (planBill q.db.master q.db.rows.prices body.loc
      (cartOf body.lines)) hrate
  unfold Rch.saleOutcome
  rw [postSale_eq, quote_withAccount, hq, ← hquoted.finish]
  change Prod.snd <$> (assertCredit (q.db.withAccount a) q.payer
    ((q.withAccount a).plan (body.input operatorId)).tot _ >>= fun _ => _) = _
  rw [hplan, map_bind]

end Books

/-! ## Money taken now -/

/-- A sale that nothing on one payer's account decides, and that leaves what
they owe as it was. -/
structure NeverForCredit (db : Db) (body : PayBody) (operatorId : String)
    (mint : Option String) (at_ : Instant) (kind : PayerKind) (id : String) :
    Prop where
  same : ∀ a₁ a₂, AccountOf kind id db a₁ → AccountOf kind id db a₂ →
    saleOutcome (db.withAccount a₁) body operatorId mint at_ =
      saleOutcome (db.withAccount a₂) body operatorId mint at_
  unchanged : ∀ db' no row,
    postSale db (body.input operatorId) mint at_ = .ok (db', no, row) →
    outstandingFor db' kind id = outstandingFor db kind id

/-- The sale names this payer and passes every check made before the ceiling:
the outlet is open, its register is or can be, the phone reads as one, the
payer is on the roster and the cart can be sold. -/
structure AsksCeiling (db : Db) (body : PayBody) (mint : Option String)
    (kind : PayerKind) (id : String) : Prop where
  outlet : ∃ l, lockLocation db body.loc = .ok l ∧ l.active = true
  session : (openSessionAt db body.loc).isSome = true ∨
    ∃ sid, mint = some sid ∧ db.sessions.get? sid = none
  phone : ∃ phone, customerPhoneOf body.customerPhone = .ok phone
  payer : body.payer.map (fun p => (p.kind, p.id)) = some (kind, id)
  roster : (db.rows.payers kind id).any PayerRow.active = true
  sellable : assertSellable (sellableAt db body.loc) (cartOf body.lines) =
    .ok ()

def takenNow (t : Tender) : Prop := t = .cash ∨ t = .upi ∨ t = .card

section Ceiling

variable {db : Db} {body : PayBody} {operatorId : String}
  {mint : Option String} {at_ : Instant} {kind : PayerKind} {id : String}

theorem takenNow.apart {t : Tender} (h : takenNow t) :
    payerKindForTender t = none ∧ t ∉ accountTenders := by
  rcases h with rfl | rfl | rfl
  · exact ⟨rfl, by decide⟩
  · exact ⟨rfl, by decide⟩
  · exact ⟨rfl, by decide⟩

/-- Naming somebody where money changes hands asks only that they are on the
roster. -/
theorem payerOf_takenNow {t : Tender} (h : takenNow t) {p : PayerRef}
    {out : Option PayerRef} :
    payerOf db t (some p) = .ok out ↔
      ∃ r, db.rows.payers p.kind p.id = some r ∧ r.active = true ∧
        out = some { p with name := r.name } := by
  unfold payerOf
  simp only [h.apart.1, bind_ok, assertRule_ok, exists_const, pure_ok,
    Option.isSome_none, Option.isNone_none, Bool.false_eq_true, false_and,
    not_false_eq_true, true_or, true_and]
  cases hr : db.rows.payers p.kind p.id with
  | none => simp
  | some r =>
      by_cases hactive : r.active = true
      · rw [Option.filter_some_pos hactive]
        simp only [Option.isSome_some, Option.map_some, true_and]
        constructor
        · intro hout
          exact ⟨r, rfl, hactive, hout.symm⟩
        · rintro ⟨r', hr', -, rfl⟩
          rw [Option.some.inj hr']
      · have hnone : (some r).filter PayerRow.active = none :=
          Option.filter_some_neg (by simpa using hactive)
        rw [hnone]
        simp [hactive]

theorem sessionFor_isOk {loc by_ : String} :
    (∃ out, sessionFor db loc by_ mint at_ = .ok out) ↔
      (openSessionAt db loc).isSome = true ∨
        ∃ sid, mint = some sid ∧ db.sessions.get? sid = none := by
  unfold sessionFor
  cases openSessionAt db loc with
  | some s =>
      dsimp only
      exact ⟨fun _ => .inl rfl, fun _ => ⟨_, rfl⟩⟩
  | none =>
      dsimp only
      cases mint with
      | none => simp
      | some sid =>
          simp only [Option.bind_some]
          cases hs : db.sessions.get? sid with
          | none =>
              obtain ⟨t, ht⟩ := Table.insert?_of_free hs
                { loc, zNo := none, openedBy := by_, openedAt := at_,
                  closedAt := none, closedBy := none }
              rw [ht]
              exact ⟨fun _ => .inr ⟨sid, rfl, hs⟩, fun _ => ⟨_, rfl⟩⟩
          | some r =>
              rw [Table.insert?_of_taken hs]
              simp [hs]

/-- A quote names this payer exactly where the sale comes to the ceiling with
their name on it. -/
theorem asksCeiling_iff (hnow : takenNow body.tender) :
    AsksCeiling db body mint kind id ↔
      ∃ q p, quote db (body.input operatorId) mint at_ = .ok q ∧
        q.payer = some p ∧ p.kind = kind ∧ p.id = id := by
  constructor
  · rintro ⟨⟨l, hl, hopen⟩, hsession, ⟨phone, hphone⟩, hpayer, hroster, hsell⟩
    obtain ⟨p, hp, hkey⟩ := Option.map_eq_some_iff.1 hpayer
    obtain ⟨rfl, rfl⟩ := Prod.mk.inj hkey
    obtain ⟨r, hr, hactive⟩ := (Option.any_eq_true _ _).1 hroster
    obtain ⟨⟨db₁, session⟩, hs⟩ := (@sessionFor_isOk _ _ at_ _ _).2 hsession
    obtain ⟨sessions, hdb⟩ := sessionFor_ok hs
    obtain rfl : db₁ = { db with sessions } := hdb
    refine ⟨⟨{ db with sessions }, session, phone,
      some { p with name := r.name }⟩, _, ?_, rfl, rfl, rfl⟩
    simp only [quote, bind_ok, assertOpen_ok, exists_const, pure_ok]
    refine ⟨l, hl, hopen, _, hs, phone, hphone, _, ?_, (), hsell, rfl⟩
    rw [show (body.input operatorId).payer = some p from hp]
    exact (payerOf_takenNow hnow).2 ⟨r, hr, hactive, rfl⟩
  · rintro ⟨q, p, hq, hp, rfl, rfl⟩
    simp only [quote, bind_ok, assertOpen_ok, exists_const, pure_ok] at hq
    obtain ⟨l, hl, hopen, ⟨db₁, session⟩, hs, phone, hphone, payer, hpayer, _,
      hsell, rfl⟩ := hq
    obtain ⟨sessions, hdb⟩ := sessionFor_ok hs
    obtain rfl : db₁ = { db with sessions } := hdb
    obtain rfl : payer = some p := hp
    have hkey := payerOf_ok hpayer
    refine ⟨⟨l, hl, hopen⟩, sessionFor_isOk.1 ⟨_, hs⟩, ⟨phone, hphone⟩,
      hkey.symm, ?_, hsell⟩
    cases hb : body.payer with
    | none =>
        rw [show (body.input operatorId).payer = none from hb] at hkey
        cases hkey
    | some p₀ =>
        rw [show (body.input operatorId).payer = some p₀ from hb] at hpayer hkey
        obtain ⟨hk, hi⟩ := Prod.mk.inj (Option.some.inj hkey)
        obtain ⟨r, hr, hactive, -⟩ := (payerOf_takenNow hnow).1 hpayer
        rw [hk, hi]
        exact (Option.any_eq_true _ _).2 ⟨r, hr, hactive⟩

/-- A database's own books with one payer's ceiling set. -/
def ceilingAt (db : Db) (kind : PayerKind) (id : String) (limit : Money) :
    Account where
  bills := db.bills
  settlements := db.settlements
  settlementLines := db.settlementLines
  payerTerms := fun k i =>
    if k = kind ∧ i = id then
      some ⟨(db.rows.payerTerms kind id).bind PayerTerms.pct, some limit⟩
    else db.rows.payerTerms k i

theorem ceilingAt_own (db : Db) (kind : PayerKind) (id : String)
    (limit : Money) : (ceilingAt db kind id limit).payerTerms kind id =
      some ⟨(db.rows.payerTerms kind id).bind PayerTerms.pct, some limit⟩ :=
  if_pos ⟨rfl, rfl⟩

theorem ceilingAt_accountOf (db : Db) (kind : PayerKind) (id : String)
    (limit : Money) : AccountOf kind id db (ceilingAt db kind id limit) where
  bills _ _ _ := Iff.rfl
  settlements _ _ _ := Iff.rfl
  settlementLines _ _ _ _ _ := rfl
  terms k i hne := by
    apply if_neg
    rintro ⟨rfl, rfl⟩
    rcases hne with hne | hne
    · exact hne rfl
    · exact hne rfl
  pct := by
    rw [ceilingAt_own]
    rfl
  next _ := rfl

/-- What a sale that names somebody comes to under a ceiling set on them. -/
theorem saleOutcome_ceilingAt {q : Quote} {p : PayerRef}
    (hq : quote db (body.input operatorId) mint at_ = .ok q)
    (hp : q.payer = some p) (limit : Money) :
    saleOutcome (db.withAccount (ceilingAt db p.kind p.id limit)) body
        operatorId mint at_ =
      assertCredit q.db (some p) (q.plan (body.input operatorId)).tot
          (some limit) >>= fun _ =>
        Prod.snd <$> q.finish (body.input operatorId) at_ := by
  have hbooks := ceilingAt_accountOf db p.kind p.id limit
  obtain ⟨-, ⟨sessions, hdb⟩, -⟩ := quote_ok hq
  have hlimit : (q.withAccount (ceilingAt db p.kind p.id limit)).terms.limit =
      some limit := by
    have hpayer : (q.withAccount (ceilingAt db p.kind p.id limit)).payer =
        some p := hp
    unfold Quote.terms
    rw [hpayer]
    exact termsFor_limit_of_own (ceilingAt_own db p.kind p.id limit) rfl
  have hout : outstandingFor
      (q.db.withAccount (ceilingAt db p.kind p.id limit)) p.kind p.id =
      outstandingFor q.db p.kind p.id := by
    rw [hdb]
    rfl
  rw [hbooks.saleOutcome hq, hlimit, hp]
  unfold assertCredit
  dsimp only
  rw [hout]

/-- Two ceilings on one account: the sale fits under the one and not under the
other. -/
theorem asksCeiling_differs (hnow : takenNow body.tender)
    (h : AsksCeiling db body mint kind id) :
    ∃ a₁ a₂, AccountOf kind id db a₁ ∧ AccountOf kind id db a₂ ∧
      saleOutcome (db.withAccount a₁) body operatorId mint at_ ≠
        saleOutcome (db.withAccount a₂) body operatorId mint at_ := by
  obtain ⟨q, p, hq, hp, rfl, rfl⟩ :=
    (@asksCeiling_iff _ _ operatorId _ at_ _ _ hnow).1 h
  generalize hdue : Doubles.round2
    ((outstandingFor q.db p.kind p.id).outstanding.held +
      .ofRat (q.plan (body.input operatorId)).tot) = due
  obtain ⟨low, hlow⟩ := Decimal.exists_held_lt (by decide) due
  have hfits : breachesCredit (outstandingFor q.db p.kind p.id).outstanding
      (q.plan (body.input operatorId)).tot (some due) = false := by
    unfold breachesCredit
    rw [hdue]
    exact decide_eq_false (lt_irrefl due.held.val)
  have hbreaks : breachesCredit (outstandingFor q.db p.kind p.id).outstanding
      (q.plan (body.input operatorId)).tot (some low) = true := by
    unfold breachesCredit
    rw [hdue]
    exact decide_eq_true hlow
  refine ⟨_, _, ceilingAt_accountOf db p.kind p.id due,
    ceilingAt_accountOf db p.kind p.id low, ?_⟩
  rw [saleOutcome_ceilingAt hq hp, saleOutcome_ceilingAt hq hp]
  unfold assertCredit assertRule guardOr
  dsimp only
  rw [hfits, hbreaks, if_pos rfl, if_neg (by decide)]
  intro heq
  cases hfin : q.finish (body.input operatorId) at_ with
  | ok out =>
      rw [hfin] at heq
      cases heq
  | error e =>
      rw [hfin] at heq
      obtain rfl := Except.error.inj heq
      exact finish_ne_breach hfin

theorem outstanding_takenNow (hnow : takenNow body.tender) {db' : Db}
    {no : String} {row : BillRow}
    (h : postSale db (body.input operatorId) mint at_ = .ok (db', no, row)) :
    outstandingFor db' kind id = outstandingFor db kind id := by
  have hsold := postSale_ok h
  obtain ⟨plan, terms, payer, phone, session, hrow⟩ := hsold.row_eq
  have huncharged : chargedTo kind id row = false := by
    have htender : row.tender = body.tender := congrArg BillRow.tender hrow
    unfold chargedTo
    rw [htender, decide_eq_false hnow.apart.2]
    rfl
  obtain ⟨cells, moves, -, -, -, seq, sessions, hdb⟩ := hsold.exists_moves
  have hsettlements : db'.settlements = db.settlements := by
    rw [hdb]
  unfold outstandingFor
  rw [hsettlements, Table.total_insert hsold.bills, huncharged]
  simp only [Bool.false_eq_true, if_false, add_zero]

/-- A bill paid at the counter is apart from a payer's account exactly where
it never comes to the ceiling with their name on it. -/
theorem never_for_credit_iff (hnow : takenNow body.tender) :
    NeverForCredit db body operatorId mint at_ kind id ↔
      ¬ AsksCeiling db body mint kind id := by
  constructor
  · intro hnever hasks
    obtain ⟨a₁, a₂, h₁, h₂, hne⟩ :=
      @asksCeiling_differs _ _ operatorId _ at_ _ _ hnow hasks
    exact hne (hnever.same a₁ a₂ h₁ h₂)
  · intro hasks
    refine ⟨?_, fun db' no row h => outstanding_takenNow hnow h⟩
    intro a₁ a₂ h₁ h₂
    cases hq : quote db (body.input operatorId) mint at_ with
    | error e => rw [saleOutcome_refused hq, saleOutcome_refused hq]
    | ok q =>
        rw [h₁.saleOutcome hq, h₂.saleOutcome hq]
        cases hp : q.payer with
        | none => rfl
        | some p =>
            have hne : p.kind ≠ kind ∨ p.id ≠ id := by
              by_contra hsame
              rw [not_or, not_not, not_not] at hsame
              exact hasks ((asksCeiling_iff hnow).2
                ⟨q, p, hq, hp, hsame.1, hsame.2⟩)
            have hterms₁ := (h₁.quoted hq).termsFor_of_ne
              (partyOf (q.payer.map PayerRef.kind)) hne
            have hterms₂ := (h₂.quoted hq).termsFor_of_ne
              (partyOf (q.payer.map PayerRef.kind)) hne
            have hout₁ := (h₁.quoted hq).outstanding hne
            have hout₂ := (h₂.quoted hq).outstanding hne
            rw [← hp] at hterms₁ hterms₂
            have hlimit₁ : (q.withAccount a₁).terms = q.terms := hterms₁
            have hlimit₂ : (q.withAccount a₂).terms = q.terms := hterms₂
            rw [hlimit₁, hlimit₂]
            unfold assertCredit
            dsimp only
            rw [hout₁, hout₂]

end Ceiling

/-! ## A consultant paying cash -/

def cashBill (payer : Option PayerRef) : PayBody where
  loc := "cafe"
  tender := .cash
  payer := payer
  lines := [⟨"milk", 1⟩]
  customerName := none
  customerPhone := none
  till := by decide
  positive := by decide

def stockedCafe : List Op :=
  [.createAdjustment ⟨"u1", STORE, true⟩ ⟨"cafe", .count, "", [⟨"milk", 5⟩]⟩ 0]

/-- A bill that names nobody is apart from everybody's account. -/
theorem never_for_credit_nobody : ∃ db, server.Reach db ∧
    NeverForCredit db (cashBill none) "u2" (some "s1") 0 .doctor "DR-001" := by
  have hany : (server.run (Db.fresh corner) stockedCafe).isSome = true := by
    decide +kernel
  obtain ⟨db, hrun⟩ := Option.isSome_iff_exists.1 hany
  refine ⟨db, Machine.reach_run (.init ⟨corner, rfl⟩) hrun, ?_⟩
  refine (never_for_credit_iff (.inl rfl)).2 ?_
  intro h
  cases h.payer

/-- Fifty rupees in cash with a consultant's name on the bill: taken while
their ceiling has room, refused for credit while it has none. -/
theorem cash_refused_for_credit : ∃ db, server.Reach db ∧
    ¬ NeverForCredit db (cashBill (some ⟨.doctor, "DR-001", "Consultant"⟩))
      "u2" (some "s1") 0 .doctor "DR-001" := by
  have hany : (server.run (Db.fresh corner) stockedCafe).any (fun db =>
      (saleOutcome (db.withAccount (ceilingAt db .doctor "DR-001" ⟨5000⟩))
        (cashBill (some ⟨.doctor, "DR-001", "Consultant"⟩)) "u2" (some "s1")
        0).isOk &&
      !(saleOutcome (db.withAccount (ceilingAt db .doctor "DR-001" 0))
        (cashBill (some ⟨.doctor, "DR-001", "Consultant"⟩)) "u2" (some "s1")
        0).isOk) = true := by
    decide +kernel
  obtain ⟨db, hrun, hd⟩ := (Option.any_eq_true _ _).1 hany
  refine ⟨db, Machine.reach_run (.init ⟨corner, rfl⟩) hrun, ?_⟩
  intro h
  have hsame := h.same _ _ (ceilingAt_accountOf db .doctor "DR-001" ⟨5000⟩)
    (ceilingAt_accountOf db .doctor "DR-001" 0)
  rw [hsame, Bool.and_not_self] at hd
  cases hd

end Rch
