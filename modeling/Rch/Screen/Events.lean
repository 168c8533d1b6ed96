import Rch.Domain.JsonText
import Rch.Kit.Framing
import Rch.Kit.Utf8
import Rch.Screen.Feed

/-!
# The feed's text

The pod writes frames as text: a hint how long to wait before the next
connection, a heartbeat, a notice that a collection changed, and a call to take
everything again. A frame is a few lines and ends at a blank one.

The browser is handed the bytes in chunks of any length. It decodes what it has,
keeps it in a buffer, and reads every frame the buffer holds, line by line. A
frame it cannot read is dropped.
-/

namespace Rch

open Kit

/-! ## The names of the collections -/

def Collection.text : Collection → String
  | .stock => "stock"
  | .rsv => "rsv"
  | .ovr => "ovr"
  | .prices => "prices"
  | .priceLists => "priceLists"
  | .menu => "menu"
  | .bills => "bills"
  | .req => "req"
  | .tkt => "tkt"
  | .prq => "prq"
  | .po => "po"
  | .pord => "pord"
  | .batch => "batch"
  | .grn => "grn"
  | .vendors => "vendors"
  | .contracts => "contracts"
  | .tickets => "tickets"
  | .productReqs => "productReqs"
  | .shopAsks => "shopAsks"
  | .items => "items"
  | .locations => "locations"
  | .outlets => "outlets"
  | .roster => "roster"
  | .payers => "payers"
  | .terms => "terms"
  | .receivables => "receivables"
  | .adjustments => "adjustments"
  | .adjReq => "adjReq"
  | .wastage => "wastage"
  | .accounts => "accounts"
  | .audit => "audit"
  | .shifts => "shifts"
  | .roles => "roles"
  | .qrOrders => "qrOrders"
  | .qrCodes => "qrCodes"

def Collection.all : List Collection :=
  [.stock, .rsv, .ovr, .prices, .priceLists, .menu, .bills, .req, .tkt, .prq,
    .po, .pord, .batch, .grn, .vendors, .contracts, .tickets, .productReqs,
    .shopAsks, .items, .locations, .outlets, .roster, .payers, .terms,
    .receivables, .adjustments, .adjReq, .wastage, .accounts, .audit, .shifts,
    .roles, .qrOrders, .qrCodes]

/-- The collection of a name, where there is one. -/
def collectionOf (name : String) : Option Collection :=
  Collection.all.find? fun c => decide (c.text = name)

theorem collectionOf_text (c : Collection) : collectionOf c.text = some c := by
  cases c <;> decide

/-! ## What the pod writes -/

/-- The wait the configuration allows, in milliseconds. -/
structure RetryMs where
  ms : ℕ
  range : 100 ≤ ms ∧ ms ≤ 60000

/-- The frames the pod writes. -/
inductive Notice
  | retry (hint : RetryMs)
  | ping
  | changed (id : ℕ) (c : Collection) (at_ : String)
  | resync (id : ℕ) (at_ : String)

/-- A numbered frame, up to the blank line it ends in. -/
def numbered (id : ℕ) (event : String) (data : List Char) : List Char :=
  "id: ".toList ++ (toString id).toList ++ '\n' :: ("event: ".toList ++
    event.toList ++ '\n' :: ("data: ".toList ++ data))

def Notice.body : Notice → List Char
  | .retry hint => "retry: ".toList ++ (toString hint.ms).toList
  | .ping => ": ping".toList
  | .changed id c at_ =>
    numbered id "changed" (stringify [("collection", c.text), ("at", at_)])
  | .resync id at_ => numbered id "resync" (stringify [("at", at_)])

def Notice.text (w : Notice) : List Char := w.body ++ ['\n', '\n']

/-! ## What the browser makes of it -/

/-- What the browser keeps of the frames. -/
structure Heard where
  lastEventId : Option String
  retryHintMs : Option ℚ
  /-- The collections to pull back, each once. -/
  pending : List Collection
  wantsSnapshot : Bool
  /-- The debounce is running. -/
  flush : Bool

/-- What the lines of one frame have said so far. -/
structure FrameLines where
  event : List Char
  data : List (List Char)

/-- The notice in a value: the two fields, and no other. -/
def eventNotice : Json → Option Collection
  | .obj fields =>
    if fields.all (fun f => ["collection", "at"].contains f.1) then
      ((Json.obj fields).field "at").bind fun at_ =>
        at_.str?.bind fun _ =>
          ((Json.obj fields).field "collection").bind fun c =>
            c.str?.bind collectionOf
    else none
  | _ => none

def fieldOf (line : List Char) : List Char := line.takeWhile fun c => c != ':'

/-- A line's value, without the one blank that may stand before it. -/
def valueOf (line : List Char) : List Char :=
  match line.dropWhile fun c => c != ':' with
  | ':' :: ' ' :: value => value
  | ':' :: value => value
  | _ => []

def onLine (p : Heard × FrameLines) (line : List Char) : Heard × FrameLines :=
  let (s, l) := p
  if line.head? = some ':' ∨ line = [] then p
  else if fieldOf line = "id".toList then
    ({ s with lastEventId := some (String.ofList (valueOf line)) }, l)
  else if fieldOf line = "event".toList then
    (s, { l with event := valueOf line })
  else if fieldOf line = "data".toList then
    (s, { l with data := l.data ++ [valueOf line] })
  else if fieldOf line = "retry".toList then
    match number (String.ofList (valueOf line)) with
    | some n => ({ s with retryHintMs := some n }, l)
    | none => p
  else p

def dispatch (s : Heard) (l : FrameLines) : Heard :=
  if l.event = "resync".toList then
    { s with wantsSnapshot := true, flush := true }
  else if l.event ≠ "changed".toList ∨ l.data = [] then s
  else
    match (parseJson (['\n'].intercalate l.data)).bind eventNotice with
    | none => s
    | some c =>
      { s with
        pending := if c ∈ s.pending then s.pending else s.pending ++ [c]
        flush := true }

def onFrame (s : Heard) (text : List Char) : Heard :=
  let p := (text.splitOn '\n').foldl onLine (s, ⟨"message".toList, []⟩)
  dispatch p.1 p.2

/-- A connection being read: what the decoder has of a character, the buffer,
and what the frames are handled into. -/
structure Reader (σ : Type) where
  dec : Decoder
  buf : List Char
  state : σ

def Reader.open_ {σ : Type} (s : σ) : Reader σ := ⟨.fresh, [], s⟩

def Reader.read {σ : Type} (handle : σ → List Char → σ) (r : Reader σ)
    (chunk : List ℕ) : Reader σ :=
  let (dec, out) := r.dec.decode chunk
  let (state, buf) := readChunk '\n' handle (r.state, r.buf) out
  ⟨dec, buf, state⟩

end Rch
