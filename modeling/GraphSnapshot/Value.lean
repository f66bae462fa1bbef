import GraphSnapshot.Entries
import GraphSnapshot.NumericArray

/-! Stored values. A record holds named values in order, so values nest. A float is kept as its
bits: two floats are the same value exactly when all their bits agree. -/
namespace GraphSnapshot

inductive Value where
  | bool (b : Bool)
  | int (i : Int64)
  | float (bits : UInt64)
  | string (s : String)
  | array (a : NumericArray)
  | record (entries : List (String × Value))
deriving Repr

abbrev Record := Entries Value

namespace Value

def kind : Value → Kind
  | .bool _ => .bool
  | .int _ => .int
  | .float _ => .float
  | .string _ => .string
  | .array _ => .array
  | .record _ => .record

def asBool : Value → Except Fault Bool
  | .bool b => .ok b
  | v => .error (.kindMismatch .bool v.kind)

def asInt : Value → Except Fault Int64
  | .int i => .ok i
  | v => .error (.kindMismatch .int v.kind)

def asFloat : Value → Except Fault UInt64
  | .float bits => .ok bits
  | v => .error (.kindMismatch .float v.kind)

def asString : Value → Except Fault String
  | .string s => .ok s
  | v => .error (.kindMismatch .string v.kind)

def asArray : Value → Except Fault NumericArray
  | .array a => .ok a
  | v => .error (.kindMismatch .array v.kind)

def asRecord : Value → Except Fault Record
  | .record entries => .ok entries
  | v => .error (.kindMismatch .record v.kind)

mutual
def beq : Value → Value → Bool
  | .bool a, .bool b => a == b
  | .int a, .int b => a == b
  | .float a, .float b => a == b
  | .string a, .string b => a == b
  | .array a, .array b => a == b
  | .record a, .record b => beqEntries a b
  | _, _ => false

def beqEntries : List (String × Value) → List (String × Value) → Bool
  | [], [] => true
  | (k, v) :: rest, (k', v') :: rest' => k == k' && beq v v' && beqEntries rest rest'
  | _, _ => false
end

mutual
theorem beq_eq_true_iff : (a b : Value) → (beq a b = true ↔ a = b)
  | .bool _, b | .int _, b | .float _, b | .string _, b | .array _, b => by
    cases b <;> simp [beq]
  | .record entries, b => by
    cases b with
    | record entries' => simp only [beq, beqEntries_eq_true_iff entries entries', record.injEq]
    | _ => simp [beq]

theorem beqEntries_eq_true_iff : (a b : List (String × Value)) → (beqEntries a b = true ↔ a = b)
  | [], b => by cases b <;> simp [beqEntries]
  | (key, value) :: rest, b => by
    cases b with
    | nil => simp [beqEntries]
    | cons entry rest' =>
      simp only [beqEntries, Bool.and_eq_true, beq_eq_true_iff value, beqEntries_eq_true_iff rest,
        beq_iff_eq, List.cons.injEq, Prod.ext_iff]
end

instance : DecidableEq Value := fun a b => decidable_of_iff _ (beq_eq_true_iff a b)

mutual
/-- Every record inside has distinct keys and every array inside has the bytes its shape needs. -/
def WellFormed : Value → Prop
  | .array a => a.Sized
  | .record entries => Entries.Distinct entries ∧ WellFormedEntries entries
  | _ => True

def WellFormedEntries : List (String × Value) → Prop
  | [] => True
  | (_, v) :: rest => v.WellFormed ∧ WellFormedEntries rest
end

end Value
end GraphSnapshot
