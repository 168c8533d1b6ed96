import Rch.Domain.Ids
import Rch.Domain.Party
import Rch.Kit.Table
import Rch.Kit.Transactions

/-!
# The support desk

A ticket is raised by somebody at a screen and answered by the desk, and five words
say where it stands. Each of the two parties walks the one table by edges of its
own, and a ticket is its reporter's and the desk's to write on, nobody else's.

Every write takes the ticket's row first and decides on what it finds there. A
message is numbered by counting the ones there are.
-/

namespace Rch.Support

open Kit

/-! ## The five words -/

inductive TicketStatus
  | open_ | withSupport | waitingOnYou | resolved | closed
deriving DecidableEq, Repr

def SUPPORT_TRANSITIONS : TicketStatus → List TicketStatus
  | .open_ => [.withSupport, .waitingOnYou, .resolved, .closed]
  | .withSupport => [.waitingOnYou, .resolved, .closed]
  | .waitingOnYou => [.withSupport, .resolved, .closed]
  | .resolved => [.withSupport, .closed]
  | .closed => []

def mayUserSet (st : TicketStatus) : Bool := decide (st = .resolved) || decide (st = .closed)

def statusAfterReply (st : TicketStatus) : TicketStatus :=
  if st = .waitingOnYou ∨ st = .resolved then .withSupport else st

def mayRate (st : TicketStatus) : Bool := decide (st = .resolved) || decide (st = .closed)

def mayReply (st : TicketStatus) : Bool := decide (st ≠ .closed)

def mayDeskSet (st : TicketStatus) : Bool := decide (st ≠ .open_)

/-- What the desk's reply box sends beside the text: Send & ask user, Send & resolve. -/
inductive SentWith
  | waitingOnYou | resolved
deriving DecidableEq

def SentWith.status : SentWith → TicketStatus
  | .waitingOnYou => .waitingOnYou
  | .resolved => .resolved

def deskStatusAfterReply (st : TicketStatus) (sentWith : Option SentWith) : TicketStatus :=
  match sentWith with
  | some sent => sent.status
  | none => if st = .open_ then .withSupport else st

/-! ## The rows -/

structure Rating where
  stars : ℕ
  least : 1 ≤ stars
  most : stars ≤ 5
deriving DecidableEq

structure RaiseTicketBody where
  topic : String
  subject : String
  body : String
  priority : String
  screen : String

structure TicketRow where
  topic : String
  subject : String
  priority : String
  status : TicketStatus
  byUser : String
  screen : String
  rating : Option Rating
deriving DecidableEq

inductive From
  | user | support
deriving DecidableEq

structure MessageRow where
  ticketId : String
  from_ : From
  who : String
  body : String
deriving DecidableEq

structure Desk where
  tickets : Table String TicketRow
  messages : Table String MessageRow
  /-- The next number of the tickets' series. -/
  sequence : ℕ

inductive DeskLock
  | ticket (id : String)
  | message (id : String)
  | sequence
deriving DecidableEq

def messagesOf (s : Desk) (ticketId : String) : List (String × MessageRow) :=
  s.messages.rows.filter fun m => decide (m.2.ticketId = ticketId)

def messageId (ticketId : String) (n : ℕ) : String := ticketId ++ "/m" ++ toString n

/-! ## The writes -/

def insertTicket (id : String) (row : TicketRow) (s : Desk) : Desk :=
  { s with tickets := (s.tickets.insert? id row).getD s.tickets }

def drawTicket (s : Desk) : Desk := { s with sequence := s.sequence + 1 }

def appendMessage (n : ℕ) (m : MessageRow) (s : Desk) : Desk :=
  { s with
    messages := (s.messages.insert? (messageId m.ticketId (n + 1)) m).getD s.messages }

def setTicketStatus (id : String) (st : TicketStatus) (s : Desk) : Desk :=
  { s with tickets := s.tickets.modify id fun row => { row with status := st } }

def setRating (id : String) (rating : Rating) (s : Desk) : Desk :=
  { s with tickets := s.tickets.modify id fun row => { row with rating := some rating } }

/-! ## The transactions -/

/-- Who replies: the reporter, or the desk's account. -/
inductive Speaker
  | user (sub : String)
  | support (sub : String) (sentWith : Option SentWith)

/-- Who moves a ticket by hand. -/
inductive Mover
  | user (sub : String)
  | desk

inductive RaiseAt
  | begun
  | named (who : String)
  | numbered (who id : String)
  | stored (who id : String)
  | counted (who id : String) (n : ℕ)
  | said (id : String)

inductive SayAt
  | begun
  | held (row : TicketRow)
  | named (row : TicketRow) (who : String)
  | counted (row : TicketRow) (who : String) (n : ℕ)
  | said (row : TicketRow)
  | moved

inductive HoldAt
  | begun
  | held (row : TicketRow)
  | written

inductive DeskTx
  | raise (sub : String) (body : RaiseTicketBody) (p : RaiseAt)
  | reply (by_ : Speaker) (id body : String) (p : SayAt)
  | setStatus (by_ : Mover) (id : String) (st : TicketStatus) (p : HoldAt)
  | rate (sub id : String) (rating : Rating) (p : HoldAt)

/-- `mine` finds the caller's own tickets, and the desk's `any` every one. -/
def Speaker.finds (by_ : Speaker) (row : TicketRow) : Prop :=
  match by_ with
  | .user sub => row.byUser = sub
  | .support _ _ => True

instance (by_ : Speaker) (row : TicketRow) : Decidable (by_.finds row) := by
  cases by_ <;> unfold Speaker.finds <;> infer_instance

def Mover.finds (by_ : Mover) (row : TicketRow) : Prop :=
  match by_ with
  | .user sub => row.byUser = sub
  | .desk => True

instance (by_ : Mover) (row : TicketRow) : Decidable (by_.finds row) := by
  cases by_ <;> unfold Mover.finds <;> infer_instance

def Speaker.side : Speaker → From
  | .user _ => .user
  | .support _ _ => .support

/-- Where a reply leaves the ticket. -/
def Speaker.next (by_ : Speaker) (st : TicketStatus) : TicketStatus :=
  match by_ with
  | .user _ => statusAfterReply st
  | .support _ sentWith => deskStatusAfterReply st sentWith

def Mover.maySet : Mover → TicketStatus → Bool
  | .user _ => mayUserSet
  | .desk => mayDeskSet

def Speaker.mayWrite (by_ : Speaker) (row : TicketRow) (body : String) : Prop :=
  trim body ≠ "" ∧ mayReply row.status = true ∧
    (by_.next row.status = row.status ∨
      by_.next row.status ∈ SUPPORT_TRANSITIONS row.status)

instance (by_ : Speaker) (row : TicketRow) (body : String) :
    Decidable (by_.mayWrite row body) := inferInstanceAs (Decidable (_ ∧ _))

def Speaker.message (by_ : Speaker) (id who body : String) : MessageRow where
  ticketId := id
  from_ := by_.side
  who
  body := trim body

def raisedRow (sub : String) (body : RaiseTicketBody) : TicketRow where
  topic := body.topic
  subject := trim body.subject
  priority := body.priority
  status := .open_
  byUser := sub
  screen := trim body.screen
  rating := none

def firstMessage (id who : String) (body : RaiseTicketBody) : MessageRow where
  ticketId := id
  from_ := .user
  who
  body := trim body.body

abbrev DeskStmt := Stmt Desk DeskLock DeskTx

section Statements

-- `name` is what the author's row is read to say
variable (name : String) (s : Desk)

def raiseStmt (sub : String) (body : RaiseTicketBody) : RaiseAt → Option DeskStmt
  | .begun =>
    if trim body.subject ≠ "" then some (.read (.raise sub body (.named name))) else none
  | .named who =>
    some ⟨[⟨.sequence, .noKeyUpdate⟩], drawTicket,
      .raise sub body (.numbered who (formatId .support s.sequence 0))⟩
  | .numbered who id =>
    (s.tickets.insert? id (raisedRow sub body)).map fun _ =>
      ⟨[⟨.ticket id, .update⟩], insertTicket id (raisedRow sub body),
        .raise sub body (.stored who id)⟩
  | .stored who id =>
    -- a first message only where there is a detail
    if trim body.body ≠ "" then
      some (.read (.raise sub body (.counted who id (messagesOf s id).length)))
    else none
  | .counted who id n =>
    (s.messages.insert? (messageId id (n + 1)) (firstMessage id who body)).map fun _ =>
      ⟨[⟨.message (messageId id (n + 1)), .update⟩], appendMessage n (firstMessage id who body),
        .raise sub body (.said id)⟩
  | .said _ => none

def replyStmt (by_ : Speaker) (id body : String) : SayAt → Option DeskStmt
  | .begun =>
    ((s.tickets.get? id).filter fun row => decide (by_.finds row)).map fun row =>
      .lock (.ticket id) .update (.reply by_ id body (.held row))
  | .held row =>
    if by_.mayWrite row body then some (.read (.reply by_ id body (.named row name))) else none
  | .named row who =>
    some (.read (.reply by_ id body (.counted row who (messagesOf s id).length)))
  | .counted row who n =>
    (s.messages.insert? (messageId id (n + 1)) (by_.message id who body)).map fun _ =>
      ⟨[⟨.message (messageId id (n + 1)), .update⟩], appendMessage n (by_.message id who body),
        .reply by_ id body (.said row)⟩
  | .said row =>
    if by_.next row.status ≠ row.status then
      some ⟨[⟨.ticket id, .noKeyUpdate⟩], setTicketStatus id (by_.next row.status),
        .reply by_ id body .moved⟩
    else none
  | .moved => none

def setStatusStmt (by_ : Mover) (id : String) (st : TicketStatus) : HoldAt → Option DeskStmt
  | .begun =>
    ((s.tickets.get? id).filter fun row => decide (by_.finds row)).map fun row =>
      .lock (.ticket id) .update (.setStatus by_ id st (.held row))
  | .held row =>
    if by_.maySet st = true ∧ st ∈ SUPPORT_TRANSITIONS row.status then
      some ⟨[⟨.ticket id, .noKeyUpdate⟩], setTicketStatus id st, .setStatus by_ id st .written⟩
    else none
  | .written => none

def rateStmt (sub id : String) (rating : Rating) : HoldAt → Option DeskStmt
  | .begun =>
    ((s.tickets.get? id).filter fun row => decide (row.byUser = sub)).map fun row =>
      .lock (.ticket id) .update (.rate sub id rating (.held row))
  | .held row =>
    if mayRate row.status = true then
      some ⟨[⟨.ticket id, .noKeyUpdate⟩], setRating id rating, .rate sub id rating .written⟩
    else none
  | .written => none

def DeskTx.stmt (t : DeskTx) : Option DeskStmt :=
  match t with
  | .raise sub body p => raiseStmt name s sub body p
  | .reply by_ id body p => replyStmt name s by_ id body p
  | .setStatus by_ id st p => setStatusStmt s by_ id st p
  | .rate sub id rating p => rateStmt s sub id rating p

end Statements

def DeskTx.starts : DeskTx → Bool
  | .raise _ _ .begun | .reply _ _ _ .begun | .setStatus _ _ _ .begun | .rate _ _ _ .begun => true
  | _ => false

def DeskTx.done : DeskTx → Bool
  | .raise _ body (.stored _ _) => decide (trim body.body = "")
  | .raise _ _ (.said _) => true
  | .reply by_ _ _ (.said row) => decide (by_.next row.status = row.status)
  | .reply _ _ _ .moved => true
  | .setStatus _ _ _ .written | .rate _ _ _ .written => true
  | _ => false

/-- The desk, with any number of these transactions open at once. -/
def desk : Database Desk DeskLock String DeskTx where
  init s := s.tickets = .empty ∧ s.messages = .empty
  starts := DeskTx.starts
  stmt name t s := DeskTx.stmt name s t
  done := DeskTx.done

end Rch.Support
