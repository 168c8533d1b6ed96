import Mathlib.Tactic.Common
import Rch.Kit.Like

/-!
# How text is measured, searched and lowered

A schema counts a string's code points, and a form's field the units of UTF-16.
The database's patterns have their own signs. What lower-casing makes of a string
is told as far as the letters a to z go: two characters outside ASCII come down
to one of them (the Kelvin sign, and the dotted capital I, which leaves its dot
behind), and no other does.
-/

namespace Rch

open Kit

def codePoints (s : String) : ℕ := s.toList.length

/-- A character past the first 65536 takes two. -/
def utf16Units (s : String) : ℕ :=
  s.toList.length + s.toList.countP fun c => decide (0x10000 ≤ c.toNat)

def likeSigns : Like.Signs Char where
  many := '%'
  one := '_'
  escape := '\\'

def lowerChar (c : Char) : List Char :=
  if c = '\u212a' then ['k']
  else if c = '\u0130' then ['i', '\u0307']
  else [c.toLower]

def toLowerCase (s : String) : String :=
  String.ofList (s.toList.flatMap lowerChar)

end Rch
