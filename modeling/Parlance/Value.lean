import Parlance.Json.Writer

namespace Parlance

/-- What programs compute with. `nothing` is the value of statements that
produce none; `absent` is a binding that a host left without a value, and no
program ever computes it. -/
inductive Value where
  | int (value : Int64)
  | str (value : Text)
  | bool (value : Bool)
  | nothing
  | absent
  deriving DecidableEq, Repr

namespace Value

/-- The text that printing writes. What is absent has none. -/
def text? : Value → Option Text
  | int value => some (Text.ofInt64 value)
  | str value => some value
  | bool value => some (Json.bool value)
  | nothing => some (utf8 "nothing")
  | absent => none

def text (value : Value) : Text :=
  value.text?.getD []

def isNothing : Value → Bool
  | nothing | absent => true
  | _ => false

/-- How a condition reads the value; only booleans and integers are conditions. -/
def truth? : Value → Option Bool
  | bool value => some value
  | int value => some (value != 0)
  | _ => none

def equal? : Value → Value → Option Bool
  | int a, int b => some (a == b)
  | str a, str b => some (a == b)
  | bool a, bool b => some (a == b)
  | nothing, nothing => some true
  | _, _ => none

def typeName : Value → Text
  | int _ => utf8 "integer"
  | str _ => utf8 "string"
  | bool _ => utf8 "boolean"
  | nothing => utf8 "nothing"
  | absent => utf8 "unknown"

def data : Value → Data
  | int value => .int value.toInt
  | str value => .text value
  | bool value => .bool value
  | nothing | absent => .null

end Value

end Parlance
