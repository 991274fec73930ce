/-
  Strings of JavaScript: sequences of code units of 16 bits, which need not be valid UTF-16.

  Upper and lower case are left to a parameter where they are used; `trim` and `includes` are here.
-/
import Mathlib.Data.List.Infix

namespace CloudScale.Frontend

abbrev JsString := List UInt16

/-- A character below U+10000 as a code unit. -/
def unit (c : Char) : UInt16 := c.toNat.toUInt16

/-- A text of such characters. -/
def units (text : String) : JsString := text.toList.map unit

/-- `WhiteSpace` and `LineTerminator`. -/
def isWhiteSpace (u : UInt16) : Bool :=
  (9 ≤ u && u ≤ 13) || u == 0x20 || u == 0xa0 || u == 0x1680 || (0x2000 ≤ u && u ≤ 0x200a) ||
    u == 0x2028 || u == 0x2029 || u == 0x202f || u == 0x205f || u == 0x3000 || u == 0xfeff

def trim (s : JsString) : JsString :=
  ((s.dropWhile isWhiteSpace).reverse.dropWhile isWhiteSpace).reverse

/-- `t.includes(q)`. -/
def includesUnits (t q : JsString) : Bool := t.tails.any q.isPrefixOf

theorem includesUnits_iff {t q : JsString} : includesUnits t q = true ↔ q <:+: t := by
  unfold includesUnits
  simp only [List.any_eq_true, List.mem_tails, List.isPrefixOf_iff_prefix]
  rw [List.infix_iff_prefix_suffix]
  exact exists_congr fun _ => and_comm

end CloudScale.Frontend
