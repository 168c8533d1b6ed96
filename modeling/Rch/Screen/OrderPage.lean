import Rch.Api.Qr
import Rch.Kit.Machine
import Rch.Kit.Table

/-!
# The customer's order page

A phone with no session reads an outlet's menu, fills a cart and places it as an
order that is paid at the gateway's sheet. An answer may be lost on the way, and
the customer may tap Pay again, so each attempt at one checkout carries a nonce
by which the server knows it.

Answers go on from where the call was made, whatever has happened on the page
since. The gateway and its sheets do what they like.

The state keeps the requests sent, newest first, each with the menu it was sent
from, what was heard of it, and whether the check of some payment was answered
since.
-/

namespace Rch.OrderPage

open Kit

def NETWORK_MENU : String :=
  "Could not load the menu - check your connection and try again."

def NETWORK_PLACE : String :=
  "Could not place your order - check your connection and try again."

def CHECKOUT_FAILED : String :=
  "Could not open the payment page - check your connection and try again."

def PAYMENT_DISMISSED : String :=
  "Payment was not completed. Tap Pay to try again - you have not been charged."

def VERIFY_PENDING : String :=
  "We could not confirm your payment yet. This page will update as soon as it goes through."

/-- The gateway's reason, with one full stop after it. -/
def paymentFailedNote (why : Option String) : String :=
  (match why.filter fun w => decide (w ≠ "") with
    | some w => "Your payment did not go through: "
        ++ (if w.toList.getLast? = some '.' then w else w ++ ".")
    | none => "Your payment did not go through.")
  ++ " Tap Pay to try again - you have not been charged."

/-! ## The menu and the cart -/

structure MenuItem where
  it : String
  name : String
  available : Bool
  max : ℕ

structure Menu where
  outletName : String
  mode : QrMode
  /-- Whether the window is open. -/
  open_ : Bool
  paused : Bool
  items : List MenuItem
  distinct : (items.map MenuItem.it).Nodup

/-- A line of the menu as the server answers it: what is free, up to the cap. -/
def servedItem (l : SellableLine) : MenuItem :=
  let max := if l.available then
      (match l.cover with
      | none => QR_MAX_QTY
      | some cover => min QR_MAX_QTY ⌊(cover : ℚ)⌋.toNat)
    else 0
  ⟨l.it, l.item.n, decide (0 < max), max⟩

theorem servedItem_distinct (localeCompare : String → String → Ordering)
    (s : Sellable) {listed : List ItemKey} (h : listed.Nodup) :
    (((menuOf localeCompare s listed).map servedItem).map MenuItem.it).Nodup := by
  have hkey : ∀ it l, sellableLine s it = some l → l.it = it := by
    intro it l hl
    obtain ⟨item, -, rfl⟩ := Option.map_eq_some_iff.1 hl
    rfl
  have hsub : ((listed.filterMap (sellableLine s)).map SellableLine.it).Sublist listed := by
    clear h
    induction listed with
    | nil => exact .slnil
    | cons it listed ih =>
        rw [List.filterMap_cons]
        cases hl : sellableLine s it with
        | none => exact ih.cons it
        | some l =>
            rw [List.map_cons, hkey it l hl]
            exact ih.cons_cons it
  have hperm := ((listed.filterMap (sellableLine s)).mergeSort_perm fun a b =>
    decide ((localeCompare a.item.n b.item.n).then (localeCompare a.it b.it) ≠ .gt)).map
      SellableLine.it
  rw [List.map_map]
  exact hperm.nodup_iff.2 (h.sublist hsub)

/-- The menu the server answers with, by a set of keys and so each once. -/
def servedMenu (localeCompare : String → String → Ordering) (s : Sellable)
    (listed : List ItemKey) (h : listed.Nodup) (mode : QrMode) (open_ paused : Bool) :
    Menu where
  outletName := s.locName
  mode
  open_
  paused
  items := (menuOf localeCompare s listed).map servedItem
  distinct := servedItem_distinct localeCompare s h

def Menu.item (m : Menu) (it : String) : Option MenuItem :=
  m.items.find? fun i => decide (i.it = it)

def limitOf (item : MenuItem) : ℕ := min item.max QR_MAX_QTY

def orderable (menu : Option Menu) : Bool := menu.any fun m => m.open_ && !m.paused

abbrev Cart := Table String ℕ

structure CartLine where
  it : String
  qty : ℕ
deriving DecidableEq

def cartLines (menu : Option Menu) (cart : Cart) : List CartLine :=
  (menu.map fun m => m.items.filterMap fun i =>
    ((cart.get? i.it).filter fun n => decide (0 < n)).map fun n => ⟨i.it, n⟩).getD []

def Menu.reconcile (m : Menu) (cart : Cart) : Cart :=
  (cart.filter fun it _ => (m.item it).any MenuItem.available).update fun it n =>
    min n (((m.item it).map limitOf).getD 0)

/-! ## The customer -/

structure Customer where
  name : String
  phone : String
  detail : String

def Customer.typed (c : Customer) : Bool :=
  decide (utf16Units c.name ≤ 80) && decide (utf16Units c.phone ≤ 20) &&
    decide (utf16Units c.detail ≤ 80)

def Customer.incomplete (c : Customer) : Bool :=
  decide (trim c.name = "") || (normalizePhone c.phone).isNone

/-- What is sent, and by which a later tap is told to be for the same order. -/
structure Body where
  name : String
  phone : String
  detail : Option String
  lines : List CartLine
deriving DecidableEq

/-! ## Placing and paying -/

/-- An order as the server answers it. -/
structure Created where
  orderId : String
  secret : String
  status : QrOrderStatus

structure Placed where
  order : Created
  body : Body

inductive PlaceReply
  | created (o : Created)
  | refused (status : ℕ) (message : String)
  /-- No answer that can be read. -/
  | lost

structure Send where
  nonce : ℕ
  token : String
  body : Body
  menu : Option Menu
  heard : Option PlaceReply
  paid : Bool

inductive LoadState
  | idle | loading | ready | missing | error
deriving DecidableEq

structure Phone where
  token : Option String
  menu : Option Menu
  menuState : LoadState
  menuError : Option String
  cart : Cart
  notice : Option String
  customer : Customer
  placing : Bool
  paying : Bool
  error : Option String
  note : Option String
  placed : Option Placed
  attempt : Option (ℕ × Body)
  order : Option (String × QrOrderStatus)
  statusNote : Option String
  /-- Menus being read. -/
  menuCalls : ℕ
  /-- Checkouts waiting for the gateway's script, by their outlet. -/
  opening : ℕ
  /-- The gateway's sheets, each with why its last payment was turned down. -/
  sheets : List (Option String)
  /-- The timer that brings Pay back, and the sheet it is set behind. -/
  backstop : Option ℕ
  /-- Payments being checked, by their order. -/
  verifies : List (String × QrOrderStatus)
  /-- Nonces drawn so far. -/
  drawn : ℕ
  sends : List Send

def blank : Phone where
  token := none
  menu := none
  menuState := .idle
  menuError := none
  cart := Table.empty
  notice := none
  customer := ⟨"", "", ""⟩
  placing := false
  paying := false
  error := none
  note := none
  placed := none
  attempt := none
  order := none
  statusNote := none
  menuCalls := 0
  opening := 0
  sheets := []
  backstop := none
  verifies := []
  drawn := 0
  sends := []

def codeOf (s : Phone) : Option String := s.token.filter fun t => decide (t ≠ "")

def bodyOf (s : Phone) : Body :=
  let detail := if s.menu.any (fun m => decide (m.mode = .deliver)) then trim s.customer.detail
    else ""
  { name := trim s.customer.name
    phone := (normalizePhone s.customer.phone).getD (trim s.customer.phone)
    detail := if detail = "" then none else some detail
    lines := cartLines s.menu s.cart }

/-- Put an item's count within the caps, saying which cap stopped it. -/
def put (s : Phone) (it : String) (n : ℚ) : Phone :=
  match s.menu.bind fun m => m.item it with
  | none => s
  | some item =>
    let want := ⌊n⌋
    if want ≤ 0 then
      { s with cart := s.cart.restrict fun k => decide (k ≠ it), notice := none }
    else if item.available = false ∨ orderable s.menu = false then s
    else if s.cart.get? it = none ∧ QR_MAX_LINES ≤ s.cart.rows.length then
      { s with notice := some ("One order can carry at most " ++ toString QR_MAX_LINES
          ++ " different items.") }
    else
      let cap := limitOf item
      let q := min want.toNat cap
      { s with
        notice := if (cap : ℤ) < want then
            some (if item.max < QR_MAX_QTY then
              "Only " ++ toString item.max ++ " of " ++ item.name ++ " can be ordered right now."
            else "One order can carry at most " ++ toString QR_MAX_QTY ++ " of one item.")
          else none
        cart := if q = 0 then s.cart.restrict fun k => decide (k ≠ it) else s.cart.set it q }

inductive MenuReply
  | read (m : Menu)
  | refused (status : ℕ) (message : String)
  | lost

def loadMenu (s : Phone) (token : String) : Phone :=
  { s with
    token := some token
    menuState := if s.menu.isSome ∧ s.token = some token then .ready else .loading
    menuCalls := s.menuCalls + 1 }

/-- An answer to a menu that was asked for, whichever it was. -/
def menuAnswered (s : Phone) (r : MenuReply) : Phone :=
  let s := { s with menuCalls := s.menuCalls - 1 }
  let failed (message : String) : Phone :=
    { s with
      menuState := if s.menu.isSome then .ready else .error
      menuError := some message }
  match r with
  | .read m =>
    { s with menu := some m, menuState := .ready, menuError := none, cart := m.reconcile s.cart }
  | .refused status message =>
    if status = 404 then { s with menu := none, menuState := .missing } else failed message
  | .lost => failed NETWORK_MENU

/-- Pay is locked, and the gateway's script asked for. -/
def openCheckout (s : Phone) : Phone :=
  if s.placed.isSome then
    { s with paying := true, error := none, note := none, opening := s.opening + 1 }
  else s

/-- A placed order that is unpaid is opened again, and never placed again. -/
def reopens (s : Phone) (body : Body) : Bool :=
  s.placed.any fun p => decide (p.body = body ∧ p.order.status = .awaitingPayment)

/-- The nonce of the attempt under way at these very contents. -/
def keptNonce (s : Phone) (body : Body) : Option ℕ :=
  (s.attempt.filter fun a => decide (a.2 = body)).map Prod.fst

def send (s : Phone) (token : String) (body : Body) : Phone :=
  let nonce := (keptNonce s body).getD s.drawn
  { s with
    placing := true
    error := none
    note := none
    attempt := some (nonce, body)
    drawn := if (keptNonce s body).isSome then s.drawn else s.drawn + 1
    sends := ⟨nonce, token, body, s.menu, none, false⟩ :: s.sends }

def placeOrder (s : Phone) : Phone :=
  match codeOf s with
  | none => s
  | some token =>
    if s.placing || s.paying || s.customer.incomplete then s
    else
      let body := bodyOf s
      if body.lines = [] then s
      else if reopens s body then openCheckout s
      else send s token body

def placeAnswered (s : Phone) (i : ℕ) (a : Send) (r : PlaceReply) : Phone :=
  let s := { s with placing := false, sends := s.sends.modify i fun a => { a with heard := some r } }
  match r with
  | .created o =>
    openCheckout { s with
      placed := some ⟨o, a.body⟩, order := some (o.orderId, o.status), attempt := none }
  | .refused status message =>
    { s with error := some message, attempt := if status = 409 then none else s.attempt }
  | .lost => { s with error := some NETWORK_PLACE }

/-- How a sheet comes up. -/
inductive Opened
  | opened | noScript | threw
deriving DecidableEq

def scriptSettled (s : Phone) : Opened → Phone
  | .opened =>
    { s with
      opening := s.opening - 1
      sheets := s.sheets ++ [none]
      backstop := some s.sheets.length }
  | .noScript =>
    { s with opening := s.opening - 1, paying := false, error := some CHECKOUT_FAILED }
  | .threw =>
    { s with
      opening := s.opening - 1, backstop := none, paying := false
      error := some CHECKOUT_FAILED }

/-- The gateway hands a payment over: it is checked for the order placed last. -/
def handOver (s : Phone) : Phone :=
  match s.placed, codeOf s with
  | some p, some _ =>
    { s with
      backstop := none
      verifies := s.verifies ++ [(p.order.orderId, p.order.status)] }
  | _, _ => { s with backstop := none }

inductive VerifyReply
  | settled (status : QrOrderStatus)
  | refused (message : String)
  | lost

/-- Whatever was answered, the order is no longer this page's to pay. -/
def verified (s : Phone) (k : ℕ) (order : String × QrOrderStatus) (r : VerifyReply) : Phone :=
  { s with
    paying := false
    placed := none
    cart := Table.empty
    order := some (match r with
      | .settled status => (order.1, status)
      | _ => order)
    statusNote := match r with
      | .settled _ => none
      | .refused message => some message
      | .lost => some VERIFY_PENDING
    note := none
    error := none
    verifies := s.verifies.eraseIdx k
    sends := s.sends.map fun a => { a with paid := true } }

inductive Event
  | loadMenu (token : String)
  | menuAnswered (r : MenuReply)
  | add (it : String)
  | remove (it : String)
  | setQty (it : String) (n : ℚ)
  | setCustomer (c : Customer)
  | clearNotice
  | placeOrder
  /-- An answer to a request of those out. -/
  | placeAnswered (i : ℕ) (r : PlaceReply)
  | scriptSettled (o : Opened)
  /-- A sheet's payment is turned down, and the sheet stays open. -/
  | turnedDown (sheet : ℕ) (why : Option String)
  | dismissed (sheet : ℕ)
  | paid (sheet : ℕ)
  | backstop
  | verified (k : ℕ) (r : VerifyReply)

def amount (s : Phone) (it : String) : ℚ := (s.cart.get? it).getD 0

def step (s : Phone) : Event → Option Phone
  | .loadMenu token => some (loadMenu s token)
  | .menuAnswered r => if 0 < s.menuCalls then some (menuAnswered s r) else none
  | .add it => some (put s it (amount s it + 1))
  | .remove it => some (put s it (amount s it - 1))
  | .setQty it n => some (put s it n)
  | .setCustomer customer => if customer.typed then some { s with customer } else none
  | .clearNotice => some { s with notice := none }
  | .placeOrder => some (placeOrder s)
  | .placeAnswered i r =>
    ((s.sends[i]?).filter fun a => a.heard.isNone).map fun a => placeAnswered s i a r
  | .scriptSettled o => if 0 < s.opening then some (scriptSettled s o) else none
  | .turnedDown sheet why =>
    (s.sheets[sheet]?).map fun _ => { s with
      sheets := s.sheets.set sheet (some (paymentFailedNote why))
      note := some (paymentFailedNote why) }
  | .dismissed sheet =>
    (s.sheets[sheet]?).map fun failed => { s with
      backstop := none, paying := false, note := some (failed.getD PAYMENT_DISMISSED) }
  | .paid sheet => (s.sheets[sheet]?).map fun _ => handOver s
  | .backstop =>
    s.backstop.map fun sheet =>
      let s := { s with backstop := none }
      if s.paying then
        { s with
          paying := false
          note := some ((s.sheets[sheet]?.join).getD PAYMENT_DISMISSED) }
      else s
  | .verified k r => (s.verifies[k]?).map fun order => verified s k order r

def orderPage : Machine Phone Event where
  init s := s = blank
  step := step

end Rch.OrderPage

/-!
## An order's status page

The page of one order asks for its status while it is on screen, and each answer
sets the wait before the next question. A hidden page asks nothing, and one that
comes back asks at once.

Counted for the statements: the questions asked, and how often the page came back.
-/

namespace Rch.OrderStatus

open Kit

export OrderPage (LoadState)

def POLL_FAST_MS : ℕ := 5000
def POLL_SLOW_MS : ℕ := 15000
def POLL_SLOW_AFTER_MS : ℕ := 10 * 60000

/-- After hand-over: once a minute, for two hours. -/
def POLL_SETTLED_MS : ℕ := 60000
def POLL_SETTLED_FOR_MS : ℕ := 2 * 60 * 60000

def QR_TERMINAL : List QrOrderStatus := [.collected, .delivered, .refunded, .expired, .voided]

def QR_HANDED_OVER : List QrOrderStatus := [.collected, .delivered]

structure Order where
  id : String
  status : QrOrderStatus
  refund : Option RefundStatus

def Order.refunding (o : Order) : Bool :=
  o.refund.any fun r => decide (r = .pending ∨ r = .sent)

def Order.handedOver (o : Order) : Bool := decide (o.status ∈ QR_HANDED_OVER)

def Order.ended (o : Order) : Bool := decide (o.status ∈ QR_TERMINAL)

/-- The wait before the page asks again, or none to stop. -/
def pollDelay (order : Option Order) (sinceStart : ℕ) (sinceHandedOver : Option ℕ) : Option ℕ :=
  if order.any Order.refunding then some POLL_SLOW_MS
  else if order.any Order.handedOver then
    if sinceHandedOver.getD 0 < POLL_SETTLED_FOR_MS then some POLL_SETTLED_MS else none
  else if order.any Order.ended then none
  else some (if POLL_SLOW_AFTER_MS ≤ sinceStart then POLL_SLOW_MS else POLL_FAST_MS)

structure Page where
  id : String
  now : ℕ
  started : ℕ
  order : Option Order
  orderState : LoadState
  stale : Bool
  /-- When the page first saw the order handed over. -/
  handedOver : Option ℕ
  timer : Option ℕ
  busy : Bool
  stopped : Bool
  hidden : Bool
  /-- Questions that are out. -/
  reads : ℕ
  asked : ℕ
  shows : ℕ

def Page.shown (s : Page) : Option Order := s.order.filter fun o => decide (o.id = s.id)

/-- When the order on screen was first seen handed over, now included. -/
def Page.since (s : Page) : Option ℕ :=
  if s.shown.any Order.handedOver then some (s.handedOver.getD s.now) else none

/-- The wait before the next read, or none once there is nothing left to hear. -/
def next (s : Page) : Page × Option ℕ :=
  if s.orderState = .missing then (s, none)
  else ({ s with handedOver := s.since },
    pollDelay s.shown (s.now - s.started) (s.since.map fun t => s.now - t))

def schedule (s : Page) : Page :=
  if s.stopped || s.hidden then s
  else { (next s).1 with timer := (next s).2.map fun wait => s.now + wait }

def loadOrder (s : Page) : Page :=
  if s.order.any fun o => decide (o.id = s.id) then s
  else { s with order := none, orderState := .loading }

def tick (s : Page) : Page :=
  let s := { s with timer := none }
  if s.stopped || s.busy || s.hidden then s
  else loadOrder { s with busy := true, reads := s.reads + 1, asked := s.asked + 1 }

inductive Answer
  | read (status : QrOrderStatus) (refund : Option RefundStatus)
  | gone
  | failed

def answered (s : Page) : Answer → Page
  | .read status refund =>
    { s with order := some ⟨s.id, status, refund⟩, orderState := .ready, stale := false }
  | .gone => { s with order := none, orderState := .missing, stale := false }
  | .failed =>
    if s.order.any fun o => decide (o.id = s.id) then { s with stale := true }
    else { s with orderState := .error }

inductive Event
  | clock (ms : ℕ)
  | fires
  | answered (a : Answer)
  | hide
  | show_
  | stop
  /-- An order is put on screen by placing it or by checking its payment. -/
  | written (o : Order) (ready : Bool)

/-- Back on screen, the page asks at once, unless there is nothing left to hear. -/
def onVisible (s : Page) : Page :=
  if s.timer.isSome || s.busy || s.stopped then s
  else if (next s).2.isSome then tick (next s).1 else (next s).1

def step (s : Page) : Event → Option Page
  | .clock ms => some { s with now := s.now + ms }
  | .fires => if s.timer.any fun due => decide (due ≤ s.now) then some (tick s) else none
  | .answered a =>
    if 0 < s.reads then
      some (schedule { answered s a with busy := false, reads := s.reads - 1 })
    else none
  | .hide => if s.hidden then none else some { s with hidden := true }
  | .show_ =>
    if s.hidden then some (onVisible { s with hidden := false, shows := s.shows + 1 }) else none
  | .stop => some { s with stopped := true, timer := none }
  | .written o ready =>
    some { s with
      order := some o
      orderState := if ready then .ready else s.orderState }

/-- The page as it is put up, whatever the store holds. -/
def opened (id : String) (now : ℕ) (order : Option Order) (orderState : LoadState)
    (hidden : Bool) : Page :=
  tick {
    id, now, started := now, order, orderState, stale := false, handedOver := none, timer := none
    busy := false, stopped := false, hidden, reads := 0, asked := 0, shows := 0 }

def statusPage : Machine Page Event where
  init s := ∃ id now order orderState hidden, s = opened id now order orderState hidden
  step := step

end Rch.OrderStatus
