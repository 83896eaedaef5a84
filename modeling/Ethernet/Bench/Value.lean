/-! Values of the bench protocol: nulls, booleans, integers, strings, lists and records. A number
with a fraction or an exponent is kept apart, since no field accepts it. -/
namespace Ethernet.Bench

/-- A request or answer of the bench. -/
inductive Value where
  | null
  | bool (b : Bool)
  | int (n : Int)
  /-- A number written with a fraction or exponent: `mantissa / 10 ^ exponent`. -/
  | decimal (mantissa : Int) (exponent : Nat)
  | str (s : String)
  | arr (items : List Value)
  | obj (fields : List (String × Value))
  deriving Inhabited

namespace Value

def nat (n : Nat) : Value := .int n

/-- `null` for nothing. -/
def opt (f : α → Value) : Option α → Value
  | some a => f a
  | none => .null

def isObj : Value → Bool
  | .obj _ => true
  | _ => false

/-- The kind of a value as JSON names it: every number is a `number`. -/
def kindName : Value → String
  | .null => "null"
  | .bool _ => "boolean"
  | .int _ | .decimal _ _ => "number"
  | .str _ => "string"
  | .arr _ => "array"
  | .obj _ => "object"

/-- The field `k` of a record; a field given as `null` counts as absent. -/
def get? (v : Value) (k : String) : Option Value :=
  match v with
  | .obj fields =>
    match fields.find? (·.1 == k) with
    | some (_, .null) => none
    | some (_, x) => some x
    | none => none
  | _ => none

def extend (v : Value) (more : List (String × Value)) : Value :=
  match v with
  | .obj fields => .obj (fields ++ more)
  | other => other

mutual

/-- How deeply lists and records nest: a scalar is 0, a list or record one more than its
deepest item. -/
def depth : Value → Nat
  | .arr items => 1 + depthOfItems items
  | .obj fields => 1 + depthOfFields fields
  | _ => 0

def depthOfItems : List Value → Nat
  | [] => 0
  | x :: rest => max (depth x) (depthOfItems rest)

def depthOfFields : List (String × Value) → Nat
  | [] => 0
  | (_, x) :: rest => max (depth x) (depthOfFields rest)

end

end Value

/-- The deepest nesting of lists and records a request may have: the reader gives up on
entering the 128th level. -/
def maxDepth : Nat := 127

/-- Why a request or a step cannot be carried out as written. -/
inductive Malformed where
  | invalidJson
  | missing (field : String)
  | invalid (field : String)
  | unknownOp (op : String)
  | unknownStep (name : String)
  /-- A handle that names nothing: `slot`, `buf`, `chain`, `frame`, `tcp`. -/
  | unknownHandle (kind : String)
  | slotNotArmed
  /-- A station address given as text that does not read as one. -/
  | badMac

def Malformed.message : Malformed → String
  | .invalidJson => "invalid json"
  | .missing k => "missing field: " ++ k
  | .invalid k => "invalid field: " ++ k
  | .unknownOp op => "unknown op: " ++ op
  | .unknownStep s => "unknown step: " ++ s
  | .unknownHandle k => "unknown " ++ k
  | .slotNotArmed => "slot not armed"
  | .badMac => "Invalid MAC address"

/-- Reading a request: the value or why it is malformed. -/
abbrev Read := Except Malformed

def failure (kind message : String) : Value :=
  .obj [("error", .str kind), ("message", .str message)]

/-- The answer to a malformed request: a station address that does not read is answered as the
address parser's own failure, every other fault as bad input. -/
def Malformed.answer (m : Malformed) : Value :=
  match m with
  | .badMac => failure "ParseMacError" m.message
  | _ => failure "BadInput" m.message

end Ethernet.Bench
