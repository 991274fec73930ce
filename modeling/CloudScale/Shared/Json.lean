/-
  JSON values over the numbers and the strings of a language (`JsonTree`), those that Python's
  `json.loads` produces (`Json`), and the few dict and number operations the consumers use. A dict
  is a list of pairs, looked up from the left.

  `Runtime` collects behaviour that lies outside the repository: the rounding of `x + 1` on a
  float and pydantic's lax validation of an `int` field, of which only `intField_int` (an int
  validates to itself) is ever relied on.
-/
import Mathlib.Data.Rat.Defs
import Mathlib.Algebra.Order.Ring.Rat

namespace CloudScale.Shared

/-- JSON values, over the numbers and the strings of a language. -/
inductive JsonTree (N S : Type) where
  | null
  | bool (b : Bool)
  | num (n : N)
  | str (s : S)
  | arr (xs : List (JsonTree N S))
  | obj (fields : List (S × JsonTree N S))

/-! ## Values of `json.loads` -/

/-- A Python float; `json.loads` also accepts the non-finite ones. -/
inductive PyFloat where
  | finite (q : ℚ)
  | inf (negative : Bool)
  | nan

/-- A number without a point or an exponent is read as an `int`. -/
inductive PyNumber where
  | int (n : Int)
  | float (x : PyFloat)

abbrev Json := JsonTree PyNumber String

@[match_pattern]
abbrev JsonTree.int (n : Int) : Json := .num (.int n)

@[match_pattern]
abbrev JsonTree.float (x : PyFloat) : Json := .num (.float x)

/-- A `dict[str, Any]`. -/
abbrev Dict := List (String × Json)

/-- Behaviour of the Python runtime and of pydantic that the repository only uses. -/
structure Runtime where
  addOne : PyFloat → PyFloat
  intField : Json → Option Int
  intField_int : ∀ n, intField (.int n) = some n

/-- A runtime without float rounding whose `int` fields take integral numbers only. -/
def Runtime.exact : Runtime where
  addOne
    | .finite q => .finite (q + 1)
    | x => x
  intField
    | .int n => some n
    | .bool b => some (if b then 1 else 0)
    | .float (.finite q) => if q.den = 1 then some q.num else none
    | _ => none
  intField_int _ := rfl

/-- `d[k] = v`. -/
def Dict.insert (d : Dict) (k : String) (v : Json) : Dict :=
  if d.any (·.1 == k) then d.map fun kv => if kv.1 == k then (k, v) else kv
  else d ++ [(k, v)]

def PyFloat.ltInt : PyFloat → Int → Bool
  | .finite q, m => q < m
  | .inf negative, _ => negative
  | .nan, _ => false

/-- Python's `x < m`; `none` is the `TypeError` of an unordered type. -/
def Json.ltInt : Json → Int → Option Bool
  | .int n, m => some (n < m)
  | .bool b, m => some ((if b then 1 else 0) < m)
  | .float x, m => some (x.ltInt m)
  | _, _ => none

/-- Python's `x + 1` on a number. -/
def Json.addOne (rt : Runtime) : Json → Json
  | .int n => .int (n + 1)
  | .bool b => .int ((if b then 1 else 0) + 1)
  | .float x => .float (rt.addOne x)
  | j => j

/-- A `str` field. -/
def Json.strField : Json → Option String
  | .str s => some s
  | _ => none

/-- A `dict[str, Any]` field. -/
def Json.dictField : Json → Option Dict
  | .obj d => some d
  | _ => none

theorem lookup_cons_ite (k : String) (v : Json) (d : Dict) (x : String) :
    List.lookup x ((k, v) :: d) = if x = k then some v else d.lookup x := by
  by_cases h : x = k
  · subst h
    simp
  · rw [if_neg h, List.lookup_cons, beq_eq_false_iff_ne.mpr h]

theorem lookup_isSome (d : Dict) (k : String) : (d.lookup k).isSome = d.any (·.1 == k) := by
  induction d with
  | nil => rfl
  | cons kv d ih =>
    obtain ⟨k', v'⟩ := kv
    rw [lookup_cons_ite, List.any_cons, ← ih]
    by_cases hk : k = k'
    · simp [hk]
    · simp [hk, Ne.symm hk]

theorem lookup_append (d d' : Dict) (k : String) :
    (d ++ d').lookup k = (d.lookup k).or (d'.lookup k) := by
  induction d with
  | nil => simp
  | cons kv d ih =>
    obtain ⟨k', v'⟩ := kv
    rw [List.cons_append, lookup_cons_ite, lookup_cons_ite, ih]
    split <;> simp

/-- Replacing the value at `k` changes the lookup of `k` only. -/
theorem lookup_map_replace (d : Dict) (k : String) (v : Json) (x : String) :
    List.lookup x (d.map fun kv => if kv.1 == k then (k, v) else kv) =
      if x = k then (d.lookup x).map fun _ => v else d.lookup x := by
  induction d with
  | nil => simp
  | cons kv d ih =>
    obtain ⟨k', v'⟩ := kv
    by_cases hk : k' = k
    · subst hk
      simp only [List.map_cons, beq_self_eq_true, if_true, lookup_cons_ite, ih]
      split <;> simp
    · simp only [List.map_cons, beq_iff_eq, hk, if_false, lookup_cons_ite]
      simp only [beq_iff_eq] at ih
      rw [ih]
      by_cases hx : x = k'
      · simp [hx, hk]
      · simp [hx]

@[simp] theorem lookup_insert_self (d : Dict) (k : String) (v : Json) :
    (d.insert k v).lookup k = some v := by
  unfold Dict.insert
  split
  · next h =>
    rw [← lookup_isSome, Option.isSome_iff_exists] at h
    obtain ⟨w, hw⟩ := h
    rw [lookup_map_replace, if_pos rfl, hw]
    rfl
  · next h =>
    rw [← lookup_isSome, Option.not_isSome_iff_eq_none] at h
    rw [lookup_append, h]
    simp

theorem lookup_insert_ne (d : Dict) {k x : String} (v : Json) (hx : x ≠ k) :
    (d.insert k v).lookup x = d.lookup x := by
  unfold Dict.insert
  split
  · rw [lookup_map_replace, if_neg hx]
  · rw [lookup_append, lookup_cons_ite, if_neg hx]
    simp

end CloudScale.Shared
