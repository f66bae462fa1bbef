/-! Kinds of stored values. -/
namespace GraphSnapshot

inductive Kind where
  | bool | int | float | string | array | record
deriving DecidableEq, Repr

def Kind.name : Kind → String
  | .bool => "bool"
  | .int => "int"
  | .float => "float"
  | .string => "string"
  | .array => "array"
  | .record => "record"

end GraphSnapshot
