import Rch.Api.Tickets

/-!
# Shop asks

One shop asks another for stock it is holding, and the holder grants or
declines. A grant raises the ticket the asker collects against, in the same
transaction as its hold.
-/

namespace Rch

open Kit

structure ShopAskBody where
  to_ : LocKey
  it : ItemKey
  qty : ℚ
  note : String

def askShop (db : Db) (claims : Claims) (body : ShopAskBody) (at_ : Instant) :
    Outcome Db := do
  assertRule (body.to_ ≠ claims.loc) "Pick a different shop"
  let asker ← lockLocation db claims.loc
  let holder ← lockLocation db body.to_
  assertRule (holder.type = .Outlet ∧ asker.type = .Outlet)
    "Only another shop can be asked directly"
  assertOpen asker none
  assertOpen holder none
  assertRule (0 < body.qty) "Enter a quantity"
  let _ ← orNotFound (db.master.items body.it)
    ("There is no item " ++ body.it ++ ".")
  let (db, id) := allocateId db .shopAsk at_
  let shopAsks ← orInternal (db.shopAsks.insert? id
    { fromLoc := claims.loc, toLoc := body.to_, it := body.it,
      qty := round3 body.qty, status := .asked, byUser := claims.sub, at_,
      note := body.note, grantedQty := none, ticketId := none,
      reason := none }) "shop_asks_pkey"
  pure { db with shopAsks }

/-- The shop being asked decides. The ticket runs back the other way. -/
def answerShopAsk (db : Db) (claims : Claims) (id : String) (grant : ℚ)
    (draw : OtpDraw) (at_ : Instant) : Outcome Db := do
  let a ← orNotFound (db.shopAsks.get? id) ("There is no shop ask " ++ id ++ ".")
  requireLocOf claims a.toLoc "your own counter"
  assertTransition shopAskTransitions ShopAskStatus.word a.status .sent id
  let m := db.master
  let item ← orNotFound (m.items a.it) ("There is no item " ++ a.it ++ ".")
  assertRule (0 < grant) "Grant a quantity, or decline the ask"
  assertRule (grant ≤ a.qty)
    (m.locName a.fromLoc ++ " asked for " ++ fq a.qty item.u ++ " " ++ item.u
      ++ " - grant that or less")
  let give := round3 grant
  let (db, no) := allocateTicket db draw at_
  let stock := lockBalances db.stock [⟨a.toLoc, a.it⟩]
  let free := freeAt stock a.toLoc a.it
  assertRule (give ≤ free)
    (m.locName a.toLoc ++ " has only " ++ fq free item.u ++ " " ++ item.u
      ++ " free to send")
  let db ← writeTicket { db with stock }
    { refType := .shopAsk, refId := id, from_ := a.toLoc, to_ := a.fromLoc,
      lines := [⟨a.it, give⟩], by_ := claims.sub, at_ } no
  pure { db with shopAsks := db.shopAsks.modify id fun a =>
    { a with
      status := .sent, grantedQty := some give, ticketId := some no.id } }

def declineShopAsk (db : Db) (claims : Claims) (id reason : String) :
    Outcome Db := do
  let a ← orNotFound (db.shopAsks.get? id) ("There is no shop ask " ++ id ++ ".")
  requireLocOf claims a.toLoc "your own counter"
  assertRule (trim reason ≠ "") "Give a reason - the other shop sees it"
  assertTransition shopAskTransitions ShopAskStatus.word a.status .declined id
  pure { db with shopAsks := db.shopAsks.modify id fun a =>
    { a with status := .declined, reason := some (trim reason) } }

end Rch
