import Rch.Audit.Log
import Rch.Kit.Machine
import Rch.Kit.Table

/-!
# The Audit log tab

The tab reads the log a page at a time while the log grows. A change of filter
reads it afresh, Load more appends the next page, and an answer to an older
question is dropped. An export asks for pages one after another until there is
none or it has enough.

Kept for the statements: the log and the filter the list on screen was begun
with, and each export's.

An export hands the rows over as comma-separated lines for a spreadsheet: a
header, then one line an event, its time in the hospital's. A field is quoted
where it has to be, and text a spreadsheet would run as a formula gets an
apostrophe in front, because the log carries what people typed.
-/

namespace Rch.AuditLog

open Kit

/-! ## A row's time -/

def readDigits (l : List Char) : Option ℕ :=
  if l ≠ [] ∧ l.all Char.isDigit = true then some (Nat.ofDigitChars 10 l 0) else none

def readInstant (s : String) : Option Instant := do
  let l := s.toList
  guard (l.length = 24 ∧ l[10]? = some 'T' ∧ l[13]? = some ':' ∧ l[16]? = some ':' ∧
    l[19]? = some '.' ∧ l[23]? = some 'Z')
  let date ← Calendar.readStamp (String.ofList (l.take 10))
  let hour ← readDigits ((l.drop 11).take 2)
  let minute ← readDigits ((l.drop 14).take 2)
  let second ← readDigits ((l.drop 17).take 2)
  let ms ← readDigits ((l.drop 20).take 3)
  pure (Calendar.dayOf date.1 date.2.1 date.2.2 * DAY_MS
    + (hour * 3600000 + minute * 60000 + second * 1000 + ms : ℕ))

/-- The day and the time of day in the hospital, in one cell. Anything else comes
back unchanged. -/
def fromWireStamp (iso : String) : String :=
  match readInstant iso with
  | none => iso
  | some t =>
    let ms := ((t + 19800000) % DAY_MS).toNat
    istDayOf t ++ " " ++ Decimal.pad 2 (ms / 3600000) ++ ":"
      ++ Decimal.pad 2 (ms / 60000 % 60) ++ ":" ++ Decimal.pad 2 (ms / 1000 % 60)

/-! ## The lines -/

def CSV_HEADER : List String :=
  ["at (IST)", "emp", "name", "role", "location", "area", "action", "target",
    "outcome", "status", "message", "ip", "request id"]

def AUDIT_OUTCOME_LABEL : AuditOutcome → String
  | .done => "Done"
  | .refused => "Refused"
  | .error => "Error"

/-- What a spreadsheet takes for the start of a formula. -/
def startsFormula (c : Char) : Bool :=
  decide (c ∈ ['=', '+', '-', '@', '\t', '\r'])

/-- The text with an apostrophe before what would be run. -/
def disarm (v : String) : String :=
  if v.toList.head?.any startsFormula then "'" ++ v else v

def needsQuotes (text : List Char) : Bool :=
  text.any fun c => decide (c ∈ ['"', ',', '\r', '\n'])

def quoteField (text : List Char) : List Char :=
  if needsQuotes text then
    '"' :: text.flatMap (fun c => if c = '"' then ['"', '"'] else [c]) ++ ['"']
  else text

/-- A cell: a number as it is, and a text disarmed. -/
inductive CsvValue
  | number (n : ℤ)
  | text (s : String)

def CsvValue.content : CsvValue → String
  | .number n => toString n
  | .text s => disarm s

def csvCell : CsvValue → List Char
  | .number n => (toString n).toList
  | .text s => quoteField (disarm s).toList

def rowValues (r : AuditRow) : List CsvValue :=
  let label := auditLabelOf r.action r.outcome
  [.text (fromWireStamp r.at_), .text r.actor.emp, .text r.actor.name,
    .text r.actor.role, .text r.actor.loc, .text ((label.2.map AUDIT_GROUPS).getD ""),
    .text label.1, .text r.target, .text (AUDIT_OUTCOME_LABEL r.outcome),
    .number r.status, .text r.message, .text r.ip, .text r.requestId]

def csvLine (cells : List (List Char)) : List Char :=
  [','].intercalate cells ++ ['\r', '\n']

def auditCsv (rows : List AuditRow) : String :=
  String.ofList ((csvLine (CSV_HEADER.map String.toList) ::
    rows.map fun r => csvLine ((rowValues r).map csvCell)).flatten)

/-! ## The filter -/

inductive AuditPeriod
  | today | week | month | custom
deriving DecidableEq

/-- What the tab is filtered on. The days mean something only for a custom
period. -/
structure TabFilter where
  period : AuditPeriod
  from_ : String
  to_ : String
  actor : Option String
  role : Option String
  loc : Option String
  group : Option AuditGroup
  outcome : Option AuditOutcome
  q : Option String

/-- Whole days before a day that is written out. -/
def daysBefore (day : String) (n : ℕ) : Option String :=
  (Calendar.readStamp day).map fun date =>
    istDate (Calendar.dayOf date.1 date.2.1 date.2.2 * DAY_MS - 19800000 - n * DAY_MS)

def typedDay (day : String) : Option String :=
  if (Calendar.readStamp day).isSome then some day else none

/-- The days a period covers. A custom one takes what was typed, turned the right
way round. -/
def auditDayRange (period : AuditPeriod) (from_ to_ : String) (now : Instant) :
    Option (String × String) :=
  let today := istDate now
  match period with
  | .today => some (today, today)
  | .week => (daysBefore today 6).map fun day => (day, today)
  | .month => (daysBefore today 29).map fun day => (day, today)
  | .custom =>
    let first := (typedDay from_).getD ((typedDay to_).getD today)
    let last := (typedDay to_).getD first
    some (if first ≤ last then (first, last) else (last, first))

def TabFilter.range (f : TabFilter) (now : Instant) : Option (String × String) :=
  auditDayRange f.period f.from_ f.to_ now

def filled (s : Option String) : Option String := s.filter fun s => decide (s ≠ "")

def queryOver (f : TabFilter) (days : String × String) (before limit : Option ℕ) :
    AuditQuery where
  from_ := some days.1
  to_ := some days.2
  actor := filled f.actor
  role := filled f.role
  loc := filled f.loc
  group := f.group
  action := none
  outcome := f.outcome
  q := filled (f.q.map trim)
  before := before
  limit := limit

inductive Status
  | idle | loading | ready | failed
deriving DecidableEq

def EXPORT_PAGE : ℕ := 500
def EXPORT_CAP : ℕ := 50000

/-! ## The requests in flight -/

/-- What the log said, and the log it said it of. -/
structure Said where
  page : Option AuditPage
  seen : List StoredEvent

/-- Which list a page was asked for: a new one, or more of the one on screen, as
the tab that asked stands. -/
inductive Purpose
  | load
  | more (mount : ℕ)
deriving DecidableEq

structure Call where
  purpose : Purpose
  /-- Which load was the latest when it was asked. -/
  mine : ℕ
  filter : TabFilter
  days : Option (String × String)
  before : Option ℕ
  said : Option Said

def Call.query (c : Call) : Option AuditQuery :=
  c.days.map fun days => queryOver c.filter days c.before none

structure Exported where
  csv : String
  rows : ℕ
  capped : Bool

inductive Progress
  /-- A page is being asked for, past the mark, over these days. -/
  | asking (before : Option ℕ) (days : Option (String × String))
  /-- It was answered. -/
  | answered (page : Option AuditPage)
  | done (out : Option Exported)

structure Export where
  filter : TabFilter
  rows : List AuditRow
  progress : Progress
  /-- Pages asked for so far. -/
  pages : ℕ
  days : Option (String × String)
  /-- The log when the first page was answered. -/
  since : List StoredEvent

structure Tab where
  log : List StoredEvent
  rows : List AuditRow
  next : Option ℕ
  counts : Option AuditCounts
  filter : TabFilter
  /-- Notices of new events since the last load. -/
  fresh : ℕ
  status : Status
  latest : ℕ
  /-- Which tab is open, and whether its Load more waits. -/
  mount : ℕ
  more : Bool
  calls : Table ℕ Call
  exports : Table ℕ Export
  /-- Numbers the requests and the exports. -/
  seq : ℕ
  /-- The log the list on screen was begun with, and the days. -/
  since : List StoredEvent
  days : Option (String × String)

/-! ## The list -/

def Tab.loadAudit (t : Tab) (filter : Option TabFilter) (now : Instant) : Tab :=
  let f := filter.getD t.filter
  let mine := t.latest + 1
  let t := { t with
    fresh := 0, status := .loading, latest := mine, seq := t.seq + 1
    calls := t.calls.set t.seq ⟨.load, mine, f, f.range now, none, none⟩ }
  match filter with
  | some filter => { t with filter, rows := [], next := none, counts := none }
  | none => t

/-- The tab is opened: nothing waits on it, and the list is read again. -/
def Tab.open_ (t : Tab) (now : Instant) : Tab :=
  ({ t with mount := t.mount + 1, more := false } : Tab).loadAudit none now

/-- Load more, where there is more and the button does not wait. -/
def Tab.loadMoreAudit (t : Tab) (now : Instant) : Option Tab :=
  if t.more then none
  else t.next.map fun before =>
    { t with
      more := true, seq := t.seq + 1
      calls := t.calls.set t.seq
        ⟨.more t.mount, t.latest, t.filter, t.filter.range now, some before, none⟩ }

section Reading

variable (env : LogEnv)

def ask (log : List StoredEvent) (now : Instant) (query : Option AuditQuery) :
    Option AuditPage :=
  query.bind fun q => (list env log now q).toOption

def Tab.answer (t : Tab) (k : ℕ) (now : Instant) : Option Tab := do
  let c ← t.calls.get? k
  guard c.said.isNone
  pure { t with
    calls := t.calls.set k { c with said := some ⟨ask env t.log now c.query, t.log⟩ } }

end Reading

def Tab.lose (t : Tab) (k : ℕ) : Option Tab := do
  let c ← t.calls.get? k
  guard c.said.isNone
  pure { t with calls := t.calls.set k { c with said := some ⟨none, []⟩ } }

/-- What an answer to a load does: nothing, where it is not the latest's. -/
def Tab.loaded (t : Tab) (c : Call) (said : Said) : Tab :=
  if c.mine = t.latest then
    match said.page with
    | some page =>
      { t with
        rows := page.rows, next := page.next, counts := some page.counts
        status := .ready, since := said.seen, days := c.days }
    | none =>
      { t with rows := [], next := none, counts := none, status := .failed }
  else t

/-- What an answer to Load more does: the page goes under the list, unless the
list is another's by now. -/
def Tab.appended (t : Tab) (c : Call) (said : Said) : Tab :=
  if c.mine = t.latest then
    match said.page with
    | some page => { t with rows := t.rows ++ page.rows, next := page.next }
    | none => t
  else t

def Tab.land (t : Tab) (k : ℕ) : Option Tab := do
  let c ← t.calls.get? k
  let said ← c.said
  let t := { t with calls := t.calls.restrict fun j => decide (j ≠ k) }
  match c.purpose with
  | .load => pure (t.loaded c said)
  | .more mount =>
    let t := t.appended c said
    pure (if mount = t.mount then { t with more := false } else t)

/-! ## The export -/

def Tab.exportAudit (t : Tab) (now : Instant) : Tab :=
  { t with
    seq := t.seq + 1
    exports := t.exports.set t.seq
      ⟨t.filter, [], .asking none (t.filter.range now), 1, t.filter.range now, []⟩ }

section Reading

variable (env : LogEnv)

def Tab.exportAnswer (t : Tab) (k : ℕ) (now : Instant) : Option Tab := do
  let x ← t.exports.get? k
  match x.progress with
  | .asking before days =>
    let query := days.map fun days => queryOver x.filter days before (some EXPORT_PAGE)
    pure { t with
      exports := t.exports.set k { x with
        progress := .answered (ask env t.log now query)
        since := if before.isNone then t.log else x.since } }
  | _ => none

end Reading

def Tab.exportLose (t : Tab) (k : ℕ) : Option Tab := do
  let x ← t.exports.get? k
  match x.progress with
  | .asking _ _ =>
    pure { t with exports := t.exports.set k { x with progress := .answered none } }
  | _ => none

/-- The loop's body: enough, no more, or the next page. -/
def Export.next (x : Export) (page : AuditPage) (now : Instant) : Export :=
  let rows := x.rows ++ page.rows
  if EXPORT_CAP ≤ rows.length then
    let kept := rows.take EXPORT_CAP
    { x with
      rows
      progress := .done (some ⟨auditCsv kept, kept.length,
        decide (EXPORT_CAP < rows.length) || page.next.isSome⟩) }
  else match page.next with
    | none => { x with rows, progress := .done (some ⟨auditCsv rows, rows.length, false⟩) }
    | some before =>
      { x with
        rows, pages := x.pages + 1
        progress := .asking (some before) (x.filter.range now) }

def Tab.exportLand (t : Tab) (k : ℕ) (now : Instant) : Option Tab := do
  let x ← t.exports.get? k
  match x.progress with
  | .answered (some page) =>
    pure { t with exports := t.exports.set k (x.next page now) }
  | .answered none =>
    pure { t with exports := t.exports.set k { x with progress := .done none } }
  | _ => none

/-! ## The machine -/

inductive TabEvent
  /-- A drain commits more events. -/
  | store (events : List StoredEvent)
  | notice
  | open_ (now : Instant)
  | load (filter : Option TabFilter) (now : Instant)
  | loadMore (now : Instant)
  | answer (k : ℕ) (now : Instant)
  | lose (k : ℕ)
  | land (k : ℕ)
  | export_ (now : Instant)
  | exportAnswer (k : ℕ) (now : Instant)
  | exportLose (k : ℕ)
  | exportLand (k : ℕ) (now : Instant)

/-- Ids are handed out once, and an event is visible only when its transaction
is: they do not come in order. -/
def Tab.store (t : Tab) (events : List StoredEvent) : Option Tab := do
  guard ((t.log ++ events).map StoredEvent.id).Nodup
  pure { t with log := t.log ++ events }

def Tab.step (env : LogEnv) (t : Tab) : TabEvent → Option Tab
  | .store events => t.store events
  | .notice => some { t with fresh := t.fresh + 1 }
  | .open_ now => some (t.open_ now)
  | .load filter now => some (t.loadAudit filter now)
  | .loadMore now => t.loadMoreAudit now
  | .answer k now => t.answer env k now
  | .lose k => t.lose k
  | .land k => t.land k
  | .export_ now => some (t.exportAudit now)
  | .exportAnswer k now => t.exportAnswer env k now
  | .exportLose k => t.exportLose k
  | .exportLand k now => t.exportLand k now

def initialFilter : TabFilter := ⟨.today, "", "", none, none, none, none, none, none⟩

/-- Nothing read yet, over any log. -/
structure Unread (t : Tab) : Prop where
  rows : t.rows = []
  next : t.next = none
  status : t.status = .idle
  calls : t.calls = .empty
  exports : t.exports = .empty
  since : t.since = []
  ids : (t.log.map StoredEvent.id).Nodup

def auditTab (env : LogEnv) : Machine Tab TabEvent where
  init := Unread
  step t e := t.step env e

end Rch.AuditLog
