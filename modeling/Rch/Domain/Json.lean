import Mathlib.Data.Rat.Defs

/-!
# Values as they travel

What a request carries, what a write answers and what the trail keeps is JSON:
read field by field, never taken apart otherwise. The one thing done to a whole
value is to mask its secrets before it is kept.
-/

namespace Rch

inductive Json
  | null
  | bool (b : Bool)
  | num (n : ℚ)
  | str (s : String)
  | arr (l : List Json)
  | obj (fields : List (String × Json))

namespace Json

def field : Json → String → Option Json
  | .obj fields, key => fields.lookup key
  | _, _ => none

def str? : Json → Option String
  | .str s => some s
  | _ => none

def arr? : Json → Option (List Json)
  | .arr l => some l
  | _ => none

end Json

/-- What a secret reads as once masked. -/
def MASK : String := "••••"

/-- The keys whose values are never stored, by exact name. -/
def SECRET_KEYS : List String :=
  ["password", "newPassword", "currentPassword", "tempPassword", "otp",
   "token", "accessToken", "refreshToken", "secret"]

mutual

/-- A copy with the value under every secret key masked, at any depth. -/
def maskSecrets : Json → Json
  | .arr l => .arr (maskEach l)
  | .obj fields => .obj (maskFields fields)
  | j => j

def maskEach : List Json → List Json
  | [] => []
  | j :: l => maskSecrets j :: maskEach l

def maskFields : List (String × Json) → List (String × Json)
  | [] => []
  | (k, j) :: l =>
    (k, if k ∈ SECRET_KEYS then .str MASK else maskSecrets j) :: maskFields l

end

def collections : List String :=
  ["stock", "rsv", "ovr", "prices", "priceLists", "menu", "bills", "req", "tkt",
   "prq", "po", "pord", "batch", "grn", "vendors", "contracts", "tickets",
   "productReqs", "shopAsks", "items", "locations", "outlets", "roster",
   "payers", "terms", "receivables", "adjustments", "adjReq", "wastage",
   "accounts", "audit", "shifts", "roles", "qrOrders", "qrCodes"]

end Rch
