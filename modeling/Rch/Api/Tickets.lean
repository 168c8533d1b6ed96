import Rch.Api.Db

/-!
# Tickets

Approval authorises and the scan moves: a ticket holds stock where it stands,
the handover is the one place that stock leaves, the receipt the one place it
lands, and between the two it is in transit and owned by neither end.

Every ticket is written by `writeTicket`, whatever asked for it.
-/

namespace Rch

open Kit

structure TicketDraft where
  refType : TicketRefType
  refId : String
  from_ : LocKey
  to_ : LocKey
  lines : List LineInput
  by_ : String
  at_ : Instant

structure TicketNumber where
  id : String
  otp : String

abbrev OtpDraw := Fin 900000

def ticketNumber (db : Db) (draw : OtpDraw) (at_ : Instant) : TicketNumber :=
  ⟨formatId .tkt (db.seq .tkt) at_, toString (draw.val + 100000)⟩

def allocateTicket (db : Db) (draw : OtpDraw) (at_ : Instant) :
    Db × TicketNumber := (db.advance .tkt, ticketNumber db draw at_)

/-- The lines a ticket is written with: folded, and without the ones that
round away to nothing. -/
def ticketLinesOf (lines : List LineInput) : List Line :=
  (foldLines lines).filter fun l => decide (l.qty ≠ 0)

def newTicket (draft : TicketDraft) (otp : String) : TicketRow where
  refType := draft.refType
  refId := draft.refId
  from_ := draft.from_
  to_ := draft.to_
  st := .issued
  otp := otp
  otpAttempts := 0
  issuedBy := draft.by_
  issuedAt := draft.at_
  collectedAt := none
  receivedAt := none
  lines := ticketLinesOf draft.lines

/-- One ticket, however it was asked for: head, lines, and the hold at the
place it leaves from. The caller has checked the cover. -/
def writeTicket (db : Db) (draft : TicketDraft) (no : TicketNumber) :
    Outcome Db := do
  let lines := ticketLinesOf draft.lines
  assertRule (lines ≠ [])
    ("Nothing to send - every line on " ++ draft.refId ++ " is for zero")
  guardOr (draft.from_ ≠ draft.to_) ⟨.internal, "tickets_from_to_ck"⟩
  let tickets ← orInternal (db.tickets.insert? no.id (newTicket draft no.otp))
    "tickets_pkey"
  let stock ← reserve db.stock
    (lines.map fun l => ⟨draft.from_, l.it, l.qty, no.id⟩)
  pure { db with tickets, stock }

/-- Put a ticket back: its holds are released and nothing moves, because
nothing ever moved. -/
def voidTicket (db : Db) (id : String) (at_ : Instant) : Db :=
  { db with
    stock := releaseForTicket db.stock id at_
    tickets := db.tickets.modify id fun t => { t with st := .cancelled } }

/-- What a ticket carries for a reference when there is no document behind
it. -/
def NO_DOCUMENT : List String := ["Shop transfer", "Direct issue"]

/-- The request a ticket was raised against. A kitchen dispatch names a
production order, which has no row among the requests. -/
def linkedRequest (db : Db) (refId : String) : Option RequestRow :=
  if refId ∈ NO_DOCUMENT then none else db.requests.get? refId

def setRequestStatus (db : Db) (id : String) (status : ReqStatus) : Db :=
  { db with requests := db.requests.modify id fun r => { r with status } }

/-- How many wrong codes a ticket takes before the window stops listening. -/
def OTP_ATTEMPTS : ℕ := 5

def lockedMessage (id : String) : String :=
  id ++ " is locked after five wrong codes - cancel it and issue a new one, "
    ++ "with fresh digits"

/-- A code as the body's schema admits it. -/
structure HandoverBody where
  otp : String
  digits : (otp.toList.all Char.isDigit && otp.toList.length == 6) = true

def countWrongOtp (db : Db) (id : String) : Db :=
  { db with tickets := db.tickets.modify id fun t =>
      { t with otpAttempts := t.otpAttempts + 1 } }

def ticketMoves (t : TicketRow) (id : String) (loc : LocKey)
    (signed : Qty → ℚ) (kind : MoveKind) (by_ : String) (at_ : Instant) :
    List Move :=
  t.lines.map fun l =>
    ⟨loc, l.it, signed l.qty, kind, "ticket", id, some by_, at_, none⟩

/-- The scan at the window. A wrong code is counted, and the count is
committed: the sentence beside the state is the refusal raised after the
commit. Any other refusal leaves nothing behind. -/
def handover (db : Db) (claims : Claims) (id : String) (body : HandoverBody)
    (at_ : Instant) : Outcome (Db × Option String) := do
  let t ← orNotFound (db.tickets.get? id) ("There is no ticket " ++ id ++ ".")
  let linked := linkedRequest db t.refId
  requireLocOf claims t.from_ "the location the ticket is issued from"
  assertTransition ticketTransitions TktStatus.word t.st .collected id
  assertRule (t.otpAttempts < OTP_ATTEMPTS) (lockedMessage id)
  if body.otp ≠ t.otp then
    pure (countWrongOtp db id,
      some ("That OTP does not match " ++ id
        ++ ". Ask the collector to read it again."))
  else
    let m := db.master
    let stock := postMoves db.stock
      (ticketMoves t id t.from_ (fun q => -q) .ticketOut claims.sub at_)
    assertEach t.lines (fun l => 0 ≤ balancesAt stock t.from_ l.it) fun l =>
      m.locName t.to_ ++ " cannot collect " ++ fq l.qty (m.unitOf l.it) ++ " "
        ++ m.unitOf l.it ++ " of " ++ m.itemName l.it ++ " - "
        ++ m.locName t.from_ ++ " no longer has it"
    let db := { db with
      stock := releaseForTicket stock id at_
      tickets := db.tickets.modify id fun t =>
        { t with st := .collected, collectedAt := some at_ } }
    pure (match linked with
      | some r =>
        if canTransition requestTransitions r.status .collected then
          setRequestStatus db t.refId .collected
        else db
      | none => db, none)

/-- The scan on the shelf: the mirror of the handover, and the end of the
request behind it. -/
def receive (db : Db) (claims : Claims) (id : String) (at_ : Instant) :
    Outcome Db := do
  let t ← orNotFound (db.tickets.get? id) ("There is no ticket " ++ id ++ ".")
  let linked := linkedRequest db t.refId
  requireLocOf claims t.to_ "the location the ticket is coming to"
  assertTransition ticketTransitions TktStatus.word t.st .received id
  let landed := ticketMoves t id t.to_ (fun q => q) .ticketIn claims.sub at_
  let stock := postMoves db.stock
    (withUseOnArrival (loadItemTypes db.rows) landed)
  let db := { db with
    stock
    tickets := db.tickets.modify id fun t =>
      { t with st := .received, receivedAt := some at_ } }
  pure (match linked with
    | some r =>
      if canTransition requestTransitions r.status .closed then
        setRequestStatus db t.refId .closed
      else db
    | none => db)

/-- Back to an approved status with no ticket against it. -/
def releaseRequest (db : Db) (id : String) : Db :=
  { db with requests := db.requests.modify id fun r =>
      { r with status := approvedStatus r.lines, ticketId := none } }

def setProdOrderStatus (db : Db) (id : String) (status : PordStatus) : Db :=
  { db with prodOrders := db.prodOrders.modify id fun o => { o with status } }

/-- Back to Asked, with the grant and the ticket cleared. -/
def reopenShopAsk (db : Db) (id : String) : Db :=
  { db with shopAsks := db.shopAsks.modify id fun a =>
      { a with status := .asked, grantedQty := none, ticketId := none } }

/-- The document behind a withdrawn ticket, put back where it was before the
ticket was raised. Which document that is goes by the ticket's own type: a
ticket typed as a shop transfer has none, whatever its reference names. -/
def reopenDocument (db : Db) (t : TicketRow) : Outcome Db :=
  match t.refType with
  | .request =>
    match linkedRequest db t.refId with
    | none => pure db
    | some r => do
      assertRule (r.status = .ticketIssued)
        (t.refId ++ " is " ++ r.status.word.toLower
          ++ " - this ticket cannot be cancelled")
      pure (releaseRequest db t.refId)
  | .prodOrder =>
    match db.prodOrders.get? t.refId with
    | none => pure db
    | some o => do
      assertRule (canTransition prodOrderTransitions o.status .ready = true)
        (t.refId ++ " is " ++ o.status.word.toLower
          ++ " - this ticket cannot be cancelled")
      pure (setProdOrderStatus db t.refId .ready)
  | .shopAsk =>
    match db.shopAsks.get? t.refId with
    | none => pure db
    | some a => do
      assertTransition shopAskTransitions ShopAskStatus.word a.status .asked
        t.refId
      pure (reopenShopAsk db t.refId)
  | .direct | .shopTransfer => pure db

/-- A ticket withdrawn before anyone collected against it. -/
def cancelTicket (db : Db) (claims : Claims) (id reason : String)
    (at_ : Instant) : Outcome Db := do
  let t ← orNotFound (db.tickets.get? id) ("There is no ticket " ++ id ++ ".")
  requireLocOf claims t.from_ "the location the ticket is issued from"
  assertRule (trim reason ≠ "") "Say why the ticket is being cancelled"
  assertRule (canTransition ticketTransitions t.st .cancelled = true)
    (if t.st = .cancelled then id ++ " is already cancelled"
      else id ++ " has already been handed over - the stock is on its way to "
        ++ db.locName t.to_)
  reopenDocument (voidTicket db id at_) t

structure TransferBody where
  from_ : LocKey
  to_ : LocKey
  it : ItemKey
  qty : ℚ

/-- Shop to shop, with no request behind it: it holds and moves nothing. -/
def transfer (db : Db) (claims : Claims) (body : TransferBody)
    (draw : OtpDraw) (at_ : Instant) : Outcome Db := do
  assertRule (0 < body.qty) "Enter a quantity"
  let item ← orNotFound (db.master.items body.it)
    ("There is no item " ++ body.it ++ ".")
  assertRule (body.from_ ≠ body.to_)
    "A shop transfer runs between two different outlets"
  let source ← lockLocation db body.from_
  let target ← lockLocation db body.to_
  assertRule (source.type = .Outlet ∧ target.type = .Outlet)
    "A shop transfer runs between two different outlets"
  assertOpen source none
  assertOpen target none
  let (db, no) := allocateTicket db draw at_
  let stock := lockBalances db.stock [⟨body.from_, body.it⟩]
  let free := freeAt stock body.from_ body.it
  assertRule (body.qty ≤ free)
    (source.n ++ " has only " ++ fq free item.u ++ " " ++ item.u
      ++ " free to send")
  writeTicket { db with stock }
    { refType := .shopTransfer, refId := "Shop transfer", from_ := body.from_,
      to_ := body.to_, lines := [⟨body.it, body.qty⟩], by_ := claims.sub,
      at_ } no

end Rch
