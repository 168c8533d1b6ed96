import Mathlib.Data.List.DropRight
import Rch.Domain.Master
import Rch.Domain.Text

/-!
# The key a new outlet is given

Every document names an outlet by a key made from its name once: lower case,
what is not a letter or a digit come down to one dash, a letter first, and a
number behind it where the key is taken.
-/

namespace Rch

def keyChar (c : Char) : Bool := c.isLower || c.isDigit

/-- A key by its shape: a lower-case letter and at most 23 letters, digits and
dashes, and never the rejected-goods shelf. -/
def locKeySchema (key : LocKey) : Bool :=
  decide (key ≠ QUARANTINE) &&
    match key.toList with
    | [] => false
    | c :: cs => c.isLower && decide (cs.length ≤ 23) &&
      cs.all fun c => keyChar c || c == '-'

def RESERVED : List LocKey := [STORE, KITCHEN, QUARANTINE]

/-- Twenty, so a `-NNN` suffix still fits. -/
def STEM : ℕ := 20

/-- Runs of anything outside a to z and 0 to 9 become one dash. -/
def dashRuns : (inRun : Bool) → List Char → List Char
  | _, [] => []
  | inRun, c :: cs =>
    if keyChar c then c :: dashRuns false cs
    else if inRun then dashRuns true cs
    else '-' :: dashRuns true cs

def trimKey (s : List Char) : List Char :=
  (s.take STEM).rdropWhile (· == '-')

def outletSlug (name : String) : List Char :=
  trimKey ((dashRuns false (toLowerCase name).toList).dropWhile (· == '-'))

/-- The key before any number. -/
def outletStem (name : String) : LocKey :=
  let slug := outletSlug name
  String.ofList <|
    if slug.head?.any Char.isLower then slug
    else trimKey ("outlet".toList ++ if slug = [] then [] else '-' :: slug)

def suffixed (stem : LocKey) (n : ℕ) : LocKey := stem ++ "-" ++ toString n

/-- The first of `stem-n`, `stem-(n+1)`, ... nobody has, as far as the search
gets. -/
def firstFree (used : List LocKey) (stem : LocKey) : (fuel n : ℕ) → Option LocKey
  | 0, _ => none
  | fuel + 1, n =>
    if suffixed stem n ∉ used then some (suffixed stem n)
    else firstFree used stem fuel (n + 1)

/-- None only while the search has not ended. -/
def outletKeyFor (fuel : ℕ) (name : String) (taken : List LocKey) :
    Option LocKey :=
  let stem := outletStem name
  if stem ∉ RESERVED ∧ stem ∉ taken then some stem
  else firstFree taken stem fuel 2

example : outletKeyFor 2 "  Dr. Rao's  Café & Tea!! " [] = some "dr-rao-s-caf-tea" := by
  decide +kernel
example : outletKeyFor 2 "Juice Bar" ["juice-bar", "juice-bar-2"] =
    some "juice-bar-3" := by decide +kernel

end Rch
