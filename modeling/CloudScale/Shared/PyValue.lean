/-
  Python values that `json.dumps` may refuse: JSON's own, and uuids and decimals, as pydantic's
  `model_dump()` leaves them in its dicts.

  `dumps` is `json.dumps` without a `default`: one uuid or decimal anywhere makes it raise. The text
  is represented by the JSON value it spells, so `loads` is `json.loads`. `loads_dumps`: what is
  encoded decodes to an equal value. `dumps_eq_none_iff`: the encoding fails exactly at a `Foreign`
  part.
-/
import CloudScale.Shared.Json

namespace CloudScale.Shared

inductive PyValue where
  | none
  | bool (b : Bool)
  | int (n : Int)
  | float (x : PyFloat)
  | str (s : String)
  | list (xs : List PyValue)
  | dict (fields : List (String × PyValue))
  /-- `uuid.UUID`, by its text -/
  | uuid (text : String)
  | decimal (q : ℚ)

namespace PyValue

/-! ## Encoding -/

mutual

/-- `json.dumps`; `none` is the `TypeError` of a value that is not JSON serializable. -/
def dumps : PyValue → Option Json
  | .none => some .null
  | .bool b => some (.bool b)
  | .int n => some (.int n)
  | .float x => some (.float x)
  | .str s => some (.str s)
  | .list xs => (dumpsList xs).map .arr
  | .dict fields => (dumpsFields fields).map .obj
  | .uuid _ => Option.none
  | .decimal _ => Option.none

def dumpsList : List PyValue → Option (List Json)
  | [] => some []
  | x :: xs => do return (← dumps x) :: (← dumpsList xs)

def dumpsFields : List (String × PyValue) → Option (List (String × Json))
  | [] => some []
  | (k, x) :: fields => do return (k, ← dumps x) :: (← dumpsFields fields)

end

mutual

/-- `json.loads`. -/
def loads : Json → PyValue
  | .null => .none
  | .bool b => .bool b
  | .int n => .int n
  | .float x => .float x
  | .str s => .str s
  | .arr js => .list (loadsList js)
  | .obj fields => .dict (loadsFields fields)

def loadsList : List Json → List PyValue
  | [] => []
  | j :: js => loads j :: loadsList js

def loadsFields : List (String × Json) → List (String × PyValue)
  | [] => []
  | (k, j) :: fields => (k, loads j) :: loadsFields fields

end

mutual

/-- There is a uuid or a decimal in the value. -/
def Foreign : PyValue → Prop
  | .list xs => ForeignList xs
  | .dict fields => ForeignFields fields
  | .uuid _ => True
  | .decimal _ => True
  | _ => False

def ForeignList : List PyValue → Prop
  | [] => False
  | x :: xs => x.Foreign ∨ ForeignList xs

def ForeignFields : List (String × PyValue) → Prop
  | [] => False
  | (_, x) :: fields => x.Foreign ∨ ForeignFields fields

end

/-! ## The round trip -/

mutual

theorem loads_dumps : ∀ {v : PyValue} {j : Json}, dumps v = some j → loads j = v
  | .none, _, h => by cases h; rfl
  | .bool _, _, h => by cases h; rfl
  | .int _, _, h => by cases h; rfl
  | .float _, _, h => by cases h; rfl
  | .str _, _, h => by cases h; rfl
  | .list xs, _, h => by
    obtain ⟨js, hjs, rfl⟩ := Option.map_eq_some_iff.mp h
    exact congrArg PyValue.list (loadsList_dumpsList hjs)
  | .dict fields, _, h => by
    obtain ⟨js, hjs, rfl⟩ := Option.map_eq_some_iff.mp h
    exact congrArg PyValue.dict (loadsFields_dumpsFields hjs)
  | .uuid _, _, h => nomatch h
  | .decimal _, _, h => nomatch h

theorem loadsList_dumpsList : ∀ {xs : List PyValue} {js : List Json}, dumpsList xs = some js →
    loadsList js = xs
  | [], _, h => by cases h; rfl
  | x :: xs, _, h => by
    obtain ⟨j, hj, js, hjs, rfl⟩ : ∃ j, dumps x = some j ∧ ∃ js, dumpsList xs = some js ∧
        j :: js = _ := by
      simpa [dumpsList, Option.bind_eq_some_iff] using h
    rw [loadsList, loads_dumps hj, loadsList_dumpsList hjs]

theorem loadsFields_dumpsFields : ∀ {fields : List (String × PyValue)}
    {js : List (String × Json)}, dumpsFields fields = some js → loadsFields js = fields
  | [], _, h => by cases h; rfl
  | (k, x) :: fields, _, h => by
    obtain ⟨j, hj, js, hjs, rfl⟩ : ∃ j, dumps x = some j ∧ ∃ js, dumpsFields fields = some js ∧
        (k, j) :: js = _ := by
      simpa [dumpsFields, Option.bind_eq_some_iff] using h
    rw [loadsFields, loads_dumps hj, loadsFields_dumpsFields hjs]

end

mutual

theorem dumps_eq_none_iff : ∀ v : PyValue, dumps v = Option.none ↔ v.Foreign
  | .none => by simp [dumps, Foreign]
  | .bool _ => by simp [dumps, Foreign]
  | .int _ => by simp [dumps, Foreign]
  | .float _ => by simp [dumps, Foreign]
  | .str _ => by simp [dumps, Foreign]
  | .list xs => by simp [dumps, Foreign, dumpsList_eq_none_iff xs]
  | .dict fields => by simp [dumps, Foreign, dumpsFields_eq_none_iff fields]
  | .uuid _ => by simp [dumps, Foreign]
  | .decimal _ => by simp [dumps, Foreign]

theorem dumpsList_eq_none_iff : ∀ xs : List PyValue, dumpsList xs = Option.none ↔ ForeignList xs
  | [] => by simp [dumpsList, ForeignList]
  | x :: xs => by
    rw [ForeignList, ← dumps_eq_none_iff x, ← dumpsList_eq_none_iff xs]
    cases hx : dumps x <;> cases hxs : dumpsList xs <;> simp [dumpsList, hx, hxs]

theorem dumpsFields_eq_none_iff : ∀ fields : List (String × PyValue),
    dumpsFields fields = Option.none ↔ ForeignFields fields
  | [] => by simp [dumpsFields, ForeignFields]
  | (k, x) :: fields => by
    rw [ForeignFields, ← dumps_eq_none_iff x, ← dumpsFields_eq_none_iff fields]
    cases hx : dumps x <;> cases hxs : dumpsFields fields <;> simp [dumpsFields, hx, hxs]

end

end PyValue

end CloudScale.Shared
