import Rch.Api.Qr
import Rch.Kit.Transactions

/-!
# QR orders placed at once

A phone places an order under a nonce of its own. The nonce is looked up first,
under no lock: a checkout it names is handed back with a fresh secret, and
anything else is placed by a transaction that counts the phone's unpaid orders
under an advisory lock and leaves the nonce to a unique index. The loser of two
placings under one nonce looks again, and hands the winner's order back.

Beside them orders are paid, lapse and move along, the gateway's ids are
stored, and whatever else the server writes is written.
-/

namespace Rch

open Kit

/-- What these transactions lock. -/
inductive QrKey
  | code (id : String)
  | outlet (loc : LocKey)
  /-- An advisory lock, on a number a text is hashed to. -/
  | advisory (key : ℤ)
  | sequence (kind : IdKind)
  | order (id : String)
  /-- The nonce's entry in its unique index. -/
  | nonce (hash : String)
deriving DecidableEq

/-- A checkout placed or handed back: the order, the secret minted for it, and
the clock as the transaction read it. -/
structure Minted where
  order : String
  secret : String
  at_ : Instant
deriving DecidableEq

/-- The tables, the clock, and every secret committed so far, the newest
first. -/
structure QrStore where
  db : Db
  clock : Instant
  minted : List Minted

/-- What a request to place an order says. -/
structure PlaceAsk where
  token : String
  body : CreateQrOrderBody
  nonce : String
  ip : String

/-- The deployment, and the two hashes. -/
structure QrEnv where
  config : QrConfig
  sha256 : String → String
  hashtext : String → ℤ

/-- Whether `given` is the secret whose digest is stored. -/
def QrEnv.secretMatches (env : QrEnv) (storedHash given : String) : Bool :=
  decide (env.sha256 given = storedHash)

inductive PlaceAt
  | begun
  | coded (code : QrCodeRow)
  | located (code : QrCodeRow)
  /-- Inside the outlet's hours. -/
  | timed (code : QrCodeRow) (now : Instant)
  | opened (code : QrCodeRow) (now : Instant)
  | phoneHeld (code : QrCodeRow) (now : Instant)
  | held (code : QrCodeRow) (now : Instant)
  /-- The phone is below its cap. -/
  | few (code : QrCodeRow) (now : Instant)
  | capped (code : QrCodeRow) (now : Instant)
  | quoted (code : QrCodeRow) (now : Instant) (plan : BillPlan)
  | numbered (code : QrCodeRow) (now : Instant) (plan : BillPlan) (id : String)
  | stored (m : Minted)

inductive ReplayAt
  | begun
  | held (o : QrOrderRow)
  /-- Unpaid, and not past its window. -/
  | checked (now : Instant)
  | rotated (m : Minted)

inductive MoveAt
  | begun
  | held (o : QrOrderRow)
  | moved

inductive OnceAt
  | begun
  | written

inductive QrTx
  | place (a : PlaceAsk) (p : PlaceAt)
  | replay (order : String) (p : ReplayAt)
  /-- A payment, a lapse, a step of the counter's, a void. -/
  | move (order : String) (next : QrOrderStatus) (at_ : Instant)
      (patch : OrderPatch) (p : MoveAt)
  | checkout (order rzpOrderId : String) (p : OnceAt)
  /-- Any other write of the server: it leaves the orders alone. -/
  | elsewhere (db : Db) (p : OnceAt)
  | tick (t : Instant) (p : OnceAt)

abbrev QrStmt := Stmt QrStore QrKey QrTx

/-! ## The reads -/

def orderByNonce (db : Db) (nonceHash : String) :
    Option (String × QrOrderRow) :=
  db.qrOrders.rows.find? fun o => decide (o.2.nonce = nonceHash)

/-- What a cart comes to at an outlet, where the outlet sells it. -/
def quoteOrder (db : Db) (config : QrConfig) (loc : LocKey)
    (body : CreateQrOrderBody) : Outcome BillPlan := do
  let s := sellableAt db loc
  let cart := cartOf (body.lines.map fun l => ⟨l.it, l.qty⟩)
  assertEach cart (fun c => (c.qty : ℚ) ≤ QR_MAX_QTY) fun c =>
    "One order can carry at most " ++ toString QR_MAX_QTY ++ " of "
      ++ s.master.itemName c.it ++ "."
  assertSellable s cart
  let terms := termsFor db .customer none
  let plan := planBill s.master s.prices loc cart terms.pct
  let total := round2 plan.tot
  assertRule (0 < total) "There is nothing to pay for on this order."
  assertRule (⟨100⟩ ≤ total)
    ("An online payment has to be at least " ++ inr ⟨100⟩ ++ " - this order is "
      ++ inr total ++ ". Add an item, or order at the counter.")
  assertRule (total ≤ config.maxRupees)
    ("One QR order can come to at most " ++ inr config.maxRupees
      ++ " - this one is " ++ inr total
      ++ ". Take a few items off, or order at the counter.")
  pure plan

/-! ## The writes -/

def storeOrder (row : QrOrderRow) (m : Minted) (s : QrStore) : QrStore where
  db := { s.db with
    qrOrders := (s.db.qrOrders.insert? m.order row).getD s.db.qrOrders }
  clock := s.clock
  minted := m :: s.minted

def QrStore.edit (order : String) (f : QrOrderRow → QrOrderRow) (s : QrStore) :
    QrStore :=
  { s with db := { s.db with qrOrders := s.db.qrOrders.modify order f } }

def setSecret (env : QrEnv) (m : Minted) (s : QrStore) : QrStore :=
  { s.edit m.order fun o =>
      { o with secretHash := env.sha256 m.secret, updatedAt := m.at_ } with
    minted := m :: s.minted }

def moveOrder (order : String) (next : QrOrderStatus) (at_ : Instant)
    (patch : OrderPatch) : QrStore → QrStore :=
  QrStore.edit order fun o => patchOrder o next at_ patch

/-- The gateway's order, where the row has none yet. -/
def noteRzpOrder (order rzpOrderId : String) : QrStore → QrStore :=
  QrStore.edit order fun o =>
    { o with rzpOrderId := o.rzpOrderId.orElse fun _ => some rzpOrderId }

def advanceOrders (s : QrStore) : QrStore :=
  { s with db := s.db.advance .qrOrder }

/-- Everything but the orders, as some other write left it. -/
def writeAside (db : Db) (s : QrStore) : QrStore :=
  { s with db := { db with qrOrders := s.db.qrOrders } }

/-- The clock never goes back. -/
def tickTo (t : Instant) (s : QrStore) : QrStore :=
  { s with clock := max s.clock t }

/-! ## The statements -/

def QrEnv.phoneLock (env : QrEnv) (phone : String) : QrKey :=
  .advisory (env.hashtext ("qr-phone:" ++ phone))

def QrEnv.ipLock (env : QrEnv) (ip : String) : QrKey :=
  .advisory (env.hashtext ("qr-ip:" ++ ip))

def placeStmt (env : QrEnv) (secret : String) (a : PlaceAsk) (s : QrStore) :
    PlaceAt → Option QrStmt
  | .begun =>
    ((s.db.rows.qrCodes a.token).filter QrCodeRow.active).map fun code =>
      .lock (.code code.id) .share (.place a (.coded code))
  | .coded code =>
    ((s.db.rows.locations code.loc).filter Location.active).map fun _ =>
      .lock (.outlet code.loc) .share (.place a (.located code))
  | .located code =>
    if (qrOpenAt (s.db.rows.orderHours code.loc) s.clock).open_ then
      some (.read (.place a (.timed code s.clock)))
    else none
  | .timed code now =>
    if s.db.rows.qrPaused code.loc then none
    else some (.read (.place a (.opened code now)))
  | .opened code now =>
    some (.lock (env.phoneLock a.body.phone) .update
      (.place a (.phoneHeld code now)))
  | .phoneHeld code now =>
    some (.lock (env.ipLock a.ip) .update (.place a (.held code now)))
  | .held code now =>
    if pendingForPhone s.db a.body.phone now < QR_PENDING_PER_PHONE then
      some (.read (.place a (.few code now)))
    else none
  | .few code now =>
    if pendingForIp s.db a.ip (now - IP_WINDOW_MS) < env.config.pendingPerIp
    then some (.read (.place a (.capped code now)))
    else none
  | .capped code now =>
    (quoteOrder s.db env.config code.loc a.body).toOption.map fun plan =>
      .read (.place a (.quoted code now plan))
  | .quoted code now plan =>
    let (_, id) := allocateId s.db .qrOrder now
    some ⟨[⟨.sequence .qrOrder, .noKeyUpdate⟩], advanceOrders,
      .place a (.numbered code now plan id)⟩
  | .numbered code now plan id =>
    let row := quotedOrder code a.body
      ⟨env.sha256 secret, env.sha256 a.nonce, a.ip⟩ plan env.config.ttlMin now
    if orderByNonce s.db (env.sha256 a.nonce) = none ∧
        s.db.qrOrders.get? id = none then
      some ⟨[⟨.order id, .update⟩, ⟨.nonce (env.sha256 a.nonce), .update⟩],
        storeOrder row ⟨id, secret, now⟩, .place a (.stored ⟨id, secret, now⟩)⟩
    else none
  | .stored _ => none

def replayStmt (env : QrEnv) (secret order : String) (s : QrStore) :
    ReplayAt → Option QrStmt
  | .begun =>
    (s.db.qrOrders.get? order).map fun o =>
      .lock (.order order) .update (.replay order (.held o))
  | .held o =>
    if o.status = .awaitingPayment ∧ s.clock < o.expiresAt then
      some (.read (.replay order (.checked s.clock)))
    else none
  | .checked now =>
    some ⟨[⟨.order order, .noKeyUpdate⟩], setSecret env ⟨order, secret, now⟩,
      .replay order (.rotated ⟨order, secret, now⟩)⟩
  | .rotated _ => none

def moveStmt (order : String) (next : QrOrderStatus) (at_ : Instant)
    (patch : OrderPatch) (s : QrStore) : MoveAt → Option QrStmt
  | .begun =>
    (s.db.qrOrders.get? order).map fun o =>
      .lock (.order order) .update (.move order next at_ patch (.held o))
  | .held o =>
    (moveQrOrder s.db order o next at_ patch).toOption.map fun _ =>
      ⟨[⟨.order order, .noKeyUpdate⟩], moveOrder order next at_ patch,
        .move order next at_ patch .moved⟩
  | .moved => none

def QrTx.stmt (env : QrEnv) (secret : String) (t : QrTx) (s : QrStore) :
    Option QrStmt :=
  match t with
  | .place a p => placeStmt env secret a s p
  | .replay order p => replayStmt env secret order s p
  | .move order next at_ patch p => moveStmt order next at_ patch s p
  | .checkout order rzpOrderId .begun =>
    some ⟨[⟨.order order, .noKeyUpdate⟩], noteRzpOrder order rzpOrderId,
      .checkout order rzpOrderId .written⟩
  | .elsewhere db .begun => some ⟨[], writeAside db, .elsewhere db .written⟩
  | .tick t .begun => some ⟨[], tickTo t, .tick t .written⟩
  | .checkout _ _ .written | .elsewhere _ .written | .tick _ .written => none

def QrTx.starts : QrTx → Bool
  | .place _ .begun | .replay _ .begun | .move _ _ _ _ .begun
  | .checkout _ _ .begun | .elsewhere _ .begun | .tick _ .begun => true
  | _ => false

def QrTx.done : QrTx → Bool
  | .place _ (.stored _) | .replay _ (.rotated _) | .move _ _ _ _ .moved
  | .checkout _ _ .written | .elsewhere _ .written | .tick _ .written => true
  | _ => false

/-- The QR orders, with any number of these transactions open at once. -/
def qrDesk (env : QrEnv) : Database QrStore QrKey String QrTx where
  init s := ∃ rows t, s = ⟨Db.fresh rows, t, []⟩
  starts := QrTx.starts
  stmt := QrTx.stmt env
  done := QrTx.done

/-! ## The requests -/

/-- Where a request to place an order stands. -/
inductive CallAt
  | arrived
  /-- Its code is in use, and payments are set up. -/
  | coded (code : QrCodeRow)
  | placing (code : QrCodeRow) (tx : ℕ)
  /-- Beaten to its nonce. -/
  | lost (code : QrCodeRow)
  | replaying (tx : ℕ)
  /-- Committed, its checkout not open yet. -/
  | minted (m : Minted)
  | answered (m : Minted)
  | refused
deriving DecidableEq

structure PlaceCall where
  ask : PlaceAsk
  at_ : CallAt

structure Placing where
  world : World QrStore QrKey QrTx
  calls : List PlaceCall

namespace Placing

def store (p : Placing) : QrStore := p.world.committed

def db (p : Placing) : Db := p.store.db

def become (p : Placing) (i : ℕ) (at_ : CallAt) : Placing :=
  { p with calls := p.calls.modify i fun c => { c with at_ } }

/-- A call whose next step is a transaction of its own. -/
def begins (p : Placing) (i : ℕ) (t : QrTx) (at_ : ℕ → CallAt) : Placing :=
  Placing.become
    { p with world := { p.world with txs := p.world.txs ++ [some (.fresh t)] } }
    i (at_ p.world.txs.length)

/-- An order the call's nonce names: handed back to the code it came from. -/
def replay (p : Placing) (i : ℕ) (code : QrCodeRow)
    (prior : String × QrOrderRow) : Placing :=
  if prior.2.qrCodeId = code.id then
    p.begins i (.replay prior.1 .begun) .replaying
  else p.become i .refused

inductive Event
  | ask (a : PlaceAsk)
  /-- Read the code and the gateway's settings. -/
  | code (i : ℕ)
  /-- Look the nonce up. -/
  | prior (i : ℕ)
  /-- The insert hits the nonce's index. -/
  | lose (i : ℕ)
  /-- Look the winner up. -/
  | winner (i : ℕ)
  | commit (i : ℕ)
  /-- The checkout is open, and the answer leaves. -/
  | answer (i : ℕ)
  | refuse (i : ℕ)
  /-- A step of a transaction: a call's statement, or anything of another's. -/
  | desk (e : TxEvent String QrTx)

def code (p : Placing) (i : ℕ) (c : PlaceCall) : Option Placing :=
  match c.at_ with
  | .arrived =>
    ((p.db.rows.qrCodes c.ask.token).filter QrCodeRow.active).map fun code =>
      p.become i (.coded code)
  | _ => none

def prior (env : QrEnv) (p : Placing) (i : ℕ) (c : PlaceCall) :
    Option Placing :=
  match c.at_ with
  | .coded code =>
    match orderByNonce p.db (env.sha256 c.ask.nonce) with
    | some prior => some (p.replay i code prior)
    | none => some (p.begins i (.place c.ask .begun) (.placing code))
  | _ => none

/-- Whether a placing is about to insert under a nonce that is taken. -/
def beaten (env : QrEnv) (db : Db) (ask : PlaceAsk) : QrTx → Bool
  | .place _ (.numbered ..) =>
    (orderByNonce db (env.sha256 ask.nonce)).isSome
  | _ => false

def lose (env : QrEnv) (p : Placing) (i : ℕ) (c : PlaceCall) :
    Option Placing :=
  match c.at_ with
  | .placing code t =>
    (p.world.tx t).bind fun x =>
      if beaten env p.db c.ask x.at_ then
        some ({ p with world := p.world.put t none }.become i (.lost code))
      else none
  | _ => none

def winner (env : QrEnv) (p : Placing) (i : ℕ) (c : PlaceCall) :
    Option Placing :=
  match c.at_ with
  | .lost code =>
    (orderByNonce p.db (env.sha256 c.ask.nonce)).map (p.replay i code)
  | _ => none

/-- The step in which a call looks its nonce up, first or beaten. -/
def looksUp (i : ℕ) : CallAt → Option (QrCodeRow × Event)
  | .coded code => some (code, .prior i)
  | .lost code => some (code, .winner i)
  | _ => none

/-- What a finished transaction of a call has minted. -/
def mintedBy : QrTx → Option Minted
  | .place _ (.stored m) | .replay _ (.rotated m) => some m
  | _ => none

def txOf : CallAt → Option ℕ
  | .placing _ t | .replaying t => some t
  | _ => none

def commit (p : Placing) (i : ℕ) (c : PlaceCall) : Option Placing :=
  (txOf c.at_).bind fun t => (p.world.tx t).bind fun x =>
    (mintedBy x.at_).map fun m =>
      { p with world := { p.world.put t none with
          committed := x.write p.world.committed } }.become i (.minted m)

def answer (p : Placing) (i : ℕ) (c : PlaceCall) : Option Placing :=
  match c.at_ with
  | .minted m => some (p.become i (.answered m))
  | _ => none

/-- Whatever goes wrong before the answer, the transaction is rolled back. -/
def refuse (p : Placing) (i : ℕ) (c : PlaceCall) : Option Placing :=
  match c.at_ with
  | .answered _ | .refused => none
  | at_ =>
    match (txOf at_).filter fun t => (p.world.tx t).isSome with
    | some t => some ({ p with world := p.world.put t none }.become i .refused)
    | none => some (p.become i .refused)

def isCall : QrTx → Bool
  | .place .. | .replay .. => true
  | _ => false

def alien (w : World QrStore QrKey QrTx) : TxEvent String QrTx → Bool
  | .begin_ t => !isCall t
  | .run _ _ => true
  | .commit t | .abort t => (w.tx t).all fun x => !isCall x.at_

def step (env : QrEnv) (p : Placing) : Event → Option Placing
  | .ask a => some { p with calls := p.calls ++ [⟨a, .arrived⟩] }
  | .code i => (p.calls[i]?).bind (p.code i)
  | .prior i => (p.calls[i]?).bind (p.prior env i)
  | .lose i => (p.calls[i]?).bind (p.lose env i)
  | .winner i => (p.calls[i]?).bind (p.winner env i)
  | .commit i => (p.calls[i]?).bind (p.commit i)
  | .answer i => (p.calls[i]?).bind (p.answer i)
  | .refuse i => (p.calls[i]?).bind (p.refuse i)
  | .desk e =>
    if alien p.world e then
      ((qrDesk env).step p.world e).map fun world => { p with world }
    else none

end Placing

def placing (env : QrEnv) : Machine Placing Placing.Event where
  init p := (qrDesk env).machine.init p.world ∧ p.calls = []
  step := Placing.step env

end Rch
