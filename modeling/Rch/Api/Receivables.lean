import Rch.Api.Credit

/-!
# Settlements

A payment against what a payer owes is laid over their open bills oldest
first, and the allocation is stored. A mis-keyed one is voided on the day it
was recorded: the row stays, badged, and its lines stay with it.
-/

namespace Rch

open Kit

structure RecordSettlementBody where
  kind : PayerKind
  id : String
  amount : ℚ
  mode : SettlementMode
  note : String
  positive : 0 < amount
  bounded : amount ≤ 10000000

/-- Write a settlement's lines, refused where one bill is named twice. -/
def insertSettlementLines (t : Table (String × String) Money) (id : String) :
    List SettlementLine → Option (Table (String × String) Money)
  | [] => some t
  | l :: rest =>
    (t.insert? (id, l.no) l.amount).bind fun t => insertSettlementLines t id rest

def recordSettlement (db : Db) (claims : Claims) (body : RecordSettlementBody)
    (at_ : Instant) : Outcome Db := do
  let payer ← orNotFound (db.rows.payers body.kind body.id)
    ("There is nobody on the roster with the number " ++ body.id ++ ".")
  let outstanding := (outstandingFor db body.kind body.id).outstanding
  assertRule (0 < outstanding) (nothingOwedMessage payer.name)
  let amount := round2 body.amount
  assertRule (amount ≤ outstanding)
    (settlementOverpayMessage amount outstanding payer.name)
  let open_ := (openBillsFor db body.kind body.id).map fun b =>
    (⟨b.no, b.at_, b.owed⟩ : OpenBill)
  let (lines, left) := allocateSettlement open_ amount
  assertRule (left = 0)
    (settlementOverpayMessage amount (amount - left) payer.name)
  let (db, id) := allocateId db .settlement at_
  let settlements ← orInternal (db.settlements.insert? id
    { kind := body.kind, payerId := body.id, payerName := payer.name, amount,
      mode := body.mode, note := trim body.note, at_, by_ := claims.sub,
      voided := none }) "settlements_pkey"
  let settlementLines ← orInternal
    (insertSettlementLines db.settlementLines id lines)
    "settlement_lines_pkey"
  pure { db with settlements, settlementLines }

def voidSettlement (db : Db) (claims : Claims) (id reason : String)
    (at_ : Instant) : Outcome Db := do
  let row ← orNotFound (db.settlements.get? id)
    ("There is no settlement " ++ id ++ ".")
  assertRule (trim reason ≠ "") "Give a reason for voiding this settlement"
  assertRule (row.voided = none) (id ++ " has already been voided")
  assertRule (istDate row.at_ = istDate at_)
    (id ++ " was taken on " ++ dmy row.at_ ++ " - a settlement can only be "
      ++ "voided on the day it was recorded; record a correcting payment "
      ++ "instead")
  pure { db with settlements := db.settlements.modify id fun s =>
    { s with voided := some ⟨at_, claims.sub, trim reason⟩ } }

end Rch
