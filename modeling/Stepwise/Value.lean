/-!
# Values

The values that deferreds carry, machines end with, and logs record: null,
truth values, integers, texts, lists, records, and binary64 reals.  A record
keeps the order of its fields; a field that is absent reads as null, so a
request can leave out what it does not need.
-/

namespace Stepwise

/-- A structured value. -/
inductive Value where
  | null
  | bool (flag : Bool)
  | int (number : Int)
  | text (content : String)
  | list (items : List Value)
  | record (fields : List (String × Value))
  | real (number : Float)
  deriving Inhabited

namespace Value

/-- A field of a record; null where there is none. -/
def field (value : Value) (name : String) : Value :=
  match value with
  | .record fields => (fields.lookup name).getD .null
  | _ => .null

/-- Whether a record has a field of this name. -/
def hasField (value : Value) (name : String) : Bool :=
  match value with
  | .record fields => (fields.lookup name).isSome
  | _ => false

/-- The content of a text; empty for anything else. -/
def asText : Value → String
  | .text content => content
  | _ => ""

/-- An integer; zero for anything else. -/
def asInt : Value → Int
  | .int number => number
  | _ => 0

/-- A natural number; zero for anything else. -/
def asNat (value : Value) : Nat := value.asInt.toNat

/-- A truth value; false for anything else. -/
def asFlag : Value → Bool
  | .bool flag => flag
  | _ => false

/-- The items of a list; none for anything else. -/
def asList : Value → List Value
  | .list items => items
  | _ => []

/-- Whether the value is null. -/
def isNull : Value → Bool
  | .null => true
  | _ => false

mutual

/-- How deeply lists and records are nested in a value. -/
def depth : Value → Nat
  | .list items => depthOfItems items + 1
  | .record fields => depthOfFields fields + 1
  | _ => 0

/-- The greatest depth among the items of a list. -/
def depthOfItems : List Value → Nat
  | [] => 0
  | item :: rest => max item.depth (depthOfItems rest)

/-- The greatest depth among the fields of a record. -/
def depthOfFields : List (String × Value) → Nat
  | [] => 0
  | (_, item) :: rest => max item.depth (depthOfFields rest)

end

end Value

/-- The integers a signed 64-bit word holds. -/
def fitsWord (number : Int) : Bool :=
  decide (Int64.minValue.toInt ≤ number) && decide (number ≤ Int64.maxValue.toInt)

end Stepwise
