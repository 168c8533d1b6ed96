import Rch.Domain.Kitchen

/-!
# What a location can sell

On hand, less what is held: the number every cover check starts from. An item
is sold by that number unless it is made to order, when only a switch can take
it off, or on/off only, when the switch is the kitchen's.
-/

namespace Rch

open Kit

abbrev StockMap := LocKey → ItemKey → Qty
abbrev RsvMap := LocKey → ItemKey → Qty
/-- Manual switches, with the reason each was thrown. -/
abbrev OvrMap := LocKey → ItemKey → Option String

def avail (stock : StockMap) (rsv : RsvMap) (l : LocKey) (it : ItemKey) : Qty :=
  stock l it - rsv l it

structure Availability where
  ok : Bool
  why : String
deriving DecidableEq

/-- Whether an item can be sold at a location right now. An empty switch
reason reads as no switch, the way the source's truthiness test does. -/
def availOf (m : Master) (stock : StockMap) (rsv : RsvMap) (ovr : OvrMap)
    (l : LocKey) (it : ItemKey) : Availability :=
  let switch := fun loc => (ovr loc it).filter (· ≠ "")
  if ((m.items it).any isOnOff) && (switch KITCHEN).isSome then
    ⟨false, kitchenOffReason⟩
  else match switch l with
    | some why => ⟨false, why⟩
    | none =>
      if m.madeToOrder it then ⟨true, ""⟩
      else if ⟨1000⟩ ≤ avail stock rsv l it then ⟨true, ""⟩
      else ⟨false, "zero at this location"⟩

end Rch
