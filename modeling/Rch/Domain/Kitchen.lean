import Rch.Domain.Ids
import Rch.Domain.Master

/-!
# What the kitchen holds

Raw materials and packaging are not stocked at the kitchen: whatever lands
there is used as it lands. A finished good is either counted or on/off only,
and an on/off-only one is never counted anywhere.
-/

namespace Rch

/-- Whether a quantity of this type landing here is used the moment it
lands. -/
def usedOnArrival (t : ItemType) (loc : LocKey) : Bool :=
  decide (loc = KITCHEN) && (decide (t = .RAW) || decide (t = .PACK))

/-- Whether this item is one of the kitchen's on/off-only products. -/
def isOnOff (item : Item) : Bool :=
  decide (item.t = .MTO) && decide (item.src = some .kitchen)

def kitchenOffReason : String := "switched off by the kitchen"

def onOffRefusal (name what : String) : String :=
  name ++ " is on/off only - the kitchen switches it on and off, so it is not "
    ++ what

def notStockedAtKitchenMessage (name : String) : String :=
  name ++ " is not stocked at the kitchen - it was used when it arrived; "
    ++ "record it as wastage instead"

/-! ## How long a made thing keeps -/

/-- An item with no shelf life recorded keeps for the working day. -/
def DEFAULT_SHELF_LIFE_HOURS : ℕ := 8

def bestBeforeAt (made : Instant) (hours : Option ℕ) : Instant :=
  made + (hours.getD DEFAULT_SHELF_LIFE_HOURS : ℕ) * 3600000

end Rch
