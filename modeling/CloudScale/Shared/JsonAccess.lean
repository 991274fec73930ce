/-
  Access to JSON values as Python does it, with the exceptions of ill-typed values.
-/
import CloudScale.Shared.Json

namespace CloudScale.Shared

/-- The exceptions that reading a value of the wrong shape raises. -/
inductive PyError where
  | attributeError
  | typeError
  | indexError
  | keyError
deriving DecidableEq

namespace JsonTree

/-- `value.get(key, default)`. -/
def get (value : Json) (key : String) (default : Json) : Except PyError Json :=
  match value with
  | .obj d => .ok ((d.lookup key).getD default)
  | _ => .error .attributeError

def isDict : Json → Bool
  | .obj _ => true
  | _ => false

/-- What `value.get(key, default)` is of a dict. -/
def field (value : Json) (key : String) (default : Json) : Json :=
  match value with
  | .obj d => (d.lookup key).getD default
  | _ => default

theorem get_eq_ok {value default a : Json} {key : String} :
    value.get key default = .ok a ↔ value.isDict = true ∧ value.field key default = a := by
  cases value <;> simp [get, isDict, field]

/-- `value[0]`. A JSON object has string keys only. -/
def first : Json → Except PyError Json
  | .arr (x :: _) => .ok x
  | .arr [] => .error .indexError
  | .str s => match s.toList with
    | c :: _ => .ok (.str c.toString)
    | [] => .error .indexError
  | .obj _ => .error .keyError
  | _ => .error .typeError

/-- `bool(value)`. -/
def truthy : Json → Bool
  | .null => false
  | .bool b => b
  | .int n => n != 0
  | .float (.finite q) => q != 0
  | .float _ => true
  | .str s => !s.isEmpty
  | .arr xs => !xs.isEmpty
  | .obj d => !d.isEmpty

end JsonTree

end CloudScale.Shared
