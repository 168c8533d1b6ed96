import Rch.Api.Tickets

/-!
# Stock requests

A counter asks the central store, a manager decides, the store issues a
ticket. The manager's other door out of an undecided request is a redirect: a
peer outlet covers the whole of it, and its ticket is typed as a shop transfer
while its reference names the request.
-/

namespace Rch

open Kit

structure CreateRequestBody where
  lines : List LineInput
  note : String
  urgent : Bool

/-- The first line that names an item an earlier line already named. -/
def repeatedLine (lines : List LineInput) : Option LineInput := go [] lines
where
  go (seen : List ItemKey) : List LineInput → Option LineInput
    | [] => none
    | l :: rest => if l.it ∈ seen then some l else go (l.it :: seen) rest

/-- A body with no repeated line names each item once. -/
theorem nodup_of_repeatedLine {lines : List LineInput}
    (h : repeatedLine lines = none) : (lines.map LineInput.it).Nodup := by
  suffices hs : ∀ seen : List ItemKey, repeatedLine.go seen lines = none →
      (lines.map LineInput.it).Nodup ∧ ∀ l ∈ lines, l.it ∉ seen from (hs [] h).1
  clear h
  induction lines with
  | nil => simp
  | cons l lines ih =>
      intro seen h
      rw [repeatedLine.go] at h
      split at h
      · cases h
      · next hl =>
          obtain ⟨hn, hseen⟩ := ih _ h
          rw [List.map_cons, List.nodup_cons, List.forall_mem_cons]
          refine ⟨⟨?_, hn⟩, hl, fun x hx hm =>
            hseen x hx (List.mem_cons_of_mem _ hm)⟩
          rintro hm
          obtain ⟨x, hx, he⟩ := List.mem_map.1 hm
          exact hseen x hx (he ▸ List.mem_cons_self)

/-- One outlet's ask. The raiser's place is the token's. -/
def createRequest (db : Db) (claims : Claims) (body : CreateRequestBody)
    (at_ : Instant) : Outcome Db := do
  let place ← lockLocation db claims.loc
  if place.type = .Outlet then assertOpen place none
  let m := db.master
  checkEach body.lines fun l => do
    let _ ← orNotFound (m.items l.it) ("There is no item " ++ l.it ++ ".")
  assertRule (∀ l ∈ body.lines, 0 < l.qty)
    "Add at least one line with a quantity"
  assertRule (repeatedLine body.lines = none)
    ("Combine the "
      ++ ((repeatedLine body.lines).map fun l => m.itemName l.it).getD ""
      ++ " lines into one")
  let (db, id) := allocateId db .req at_
  let requests ← orInternal (db.requests.insert? id
    { fromLoc := claims.loc, byUser := claims.sub, at_,
      status := .requestSent, ticketId := none, managerNote := body.note,
      urgent := body.urgent, approvedBy := none,
      lines := body.lines.map fun l => ⟨l.it, round3 l.qty, 0, none⟩ })
    "stock_requests_pkey"
  pure { db with requests }

def modifyRequest (db : Db) (id : String) (f : RequestRow → RequestRow) : Db :=
  { db with requests := db.requests.modify id f }

/-- The counter's own withdrawal, or the manager's of an approval never
issued. -/
def cancelRequest (db : Db) (claims : Claims) (id : String) : Outcome Db := do
  let r ← orNotFound (db.requests.get? id) ("There is no request " ++ id ++ ".")
  if ¬ claims.wide then requireLocOf claims r.fromLoc "your own counter"
  assertRule (r.status ≠ .ticketIssued)
    (id ++ " already has ticket " ++ r.ticketId.getD "null"
      ++ " - cancel the ticket instead")
  assertTransition requestTransitions ReqStatus.word r.status .cancelled id
  pure (setRequestStatus db id .cancelled)

/-- Approvals that have not become a ticket. -/
def openRequests (db : Db) : List RequestRow :=
  (db.requests.rows.map Prod.snd).filter fun r =>
    (decide (r.status = .managerApproved) ||
      decide (r.status = .partiallyApproved)) && r.ticketId.isNone

/-- What open approvals have already committed of an item. -/
def committed (requests : List RequestRow) (it : ItemKey) : Qty :=
  (requests.map fun r =>
    sumOn r.lines RequestLine.it it RequestLine.appr).sum

def approveRequest (db : Db) (claims : Claims) (id : String)
    (appr : List ℚ) (note : String) : Outcome Db := do
  let r ← orNotFound (db.requests.get? id) ("There is no request " ++ id ++ ".")
  assertRule (appr.length = r.lines.length)
    ("Give a quantity for each of the " ++ toString r.lines.length ++ " lines")
  let plan := planApproval r.lines appr fun it =>
    round3 ((balancesAt db.stock STORE it : ℚ) - reservedAt db.stock STORE it
      - committed (openRequests db) it)
  assertTransition requestTransitions ReqStatus.word r.status plan.st id
  pure (modifyRequest db id fun r =>
    { r with
      status := plan.st, managerNote := note, approvedBy := some claims.sub,
      lines := plan.lines })

def rejectRequest (db : Db) (claims : Claims) (id note : String) :
    Outcome Db := do
  let r ← orNotFound (db.requests.get? id) ("There is no request " ++ id ++ ".")
  assertRule (trim note ≠ "")
    "Give a reason - the counter sees it on the request"
  assertTransition requestTransitions ReqStatus.word r.status .rejected id
  pure (modifyRequest db id fun r =>
    { r with
      status := .rejected, managerNote := note, approvedBy := some claims.sub })

/-- Fulfil the whole of an undecided request from a peer outlet's shelf. The
cover is checked line by line. -/
def redirectRequest (db : Db) (claims : Claims) (id : String)
    (source : LocKey) (draw : OtpDraw) (at_ : Instant) : Outcome Db := do
  let r ← orNotFound (db.requests.get? id) ("There is no request " ++ id ++ ".")
  assertRule (r.status = .requestSent)
    (id ++ " has already been decided - redirect only applies before it is "
      ++ "approved")
  let m := db.master
  assertRule (isOpenOutlet m r.fromLoc = true)
    (id ++ " was not raised by an outlet - there is no peer shop to redirect "
      ++ "it to")
  assertRule (source ≠ r.fromLoc) "Pick a different outlet to redirect from"
  assertRule (isOpenOutlet m source = true)
    "A redirect only runs between two outlets"
  let (db, no) := allocateTicket db draw at_
  let stock := lockBalances db.stock (r.lines.map fun l => ⟨source, l.it⟩)
  let short := r.lines.filter fun l => decide (freeAt stock source l.it < l.qty)
  assertRule (short = [])
    (m.locName source ++ " has not got enough "
      ++ ", ".intercalate (short.map fun l => m.itemName l.it)
      ++ " free to cover this request")
  let db ← writeTicket { db with stock }
    { refType := .shopTransfer, refId := id, from_ := source, to_ := r.fromLoc,
      lines := r.lines.map fun l => ⟨l.it, l.qty⟩, by_ := claims.sub, at_ } no
  pure (modifyRequest db id fun r =>
    { r with
      status := .ticketIssued, ticketId := some no.id,
      approvedBy := some claims.sub,
      lines := r.lines.map fun l =>
        { l with appr := l.qty, short := some 0 } })

/-- The store keeper turns an approval into a ticket. The lines are folded
before the cover check. -/
def issueRequest (db : Db) (claims : Claims) (id : String) (draw : OtpDraw)
    (at_ : Instant) : Outcome Db := do
  let r ← orNotFound (db.requests.get? id) ("There is no request " ++ id ++ ".")
  assertTransition requestTransitions ReqStatus.word r.status .ticketIssued id
  let m := db.master
  let approved := r.lines.filter fun l => decide (0 < l.appr)
  assertRule (approved ≠ []) "Nothing approved on this request"
  let lines := foldLines (approved.map fun l => ⟨l.it, l.appr⟩)
  let (db, no) := allocateTicket db draw at_
  let stock := lockBalances db.stock (lines.map fun l => ⟨STORE, l.it⟩)
  assertEach lines (fun l => l.qty ≤ freeAt stock STORE l.it) fun l =>
    "Not enough " ++ m.itemName l.it ++ " available to promise"
  let db ← writeTicket { db with stock }
    { refType := .request, refId := id, from_ := STORE, to_ := r.fromLoc,
      lines := lines.map Line.input, by_ := claims.sub, at_ } no
  pure (modifyRequest db id fun r =>
    { r with status := .ticketIssued, ticketId := some no.id })

end Rch
