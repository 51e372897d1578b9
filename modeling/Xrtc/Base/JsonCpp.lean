/-
# The JSON library

`jsoncpp` is not part of the repository. What the server uses of it is a
parameter here: a parser, the members of an object, `operator[]` and three
conversions, each of which returns a value or throws a `Json::Exception` with a
text. A value of the right kind holds a number or a string of its own, and a
conversion returns what such a value holds. Conversions also accept other
values, null among them, and that is where they say less than they seem to.

The small value type at the end is the library as the server's author finds it
documented, as far as objects, integers and strings go.
-/

import Mathlib.Algebra.Order.Ring.Int

namespace Xrtc.Base

structure JsonCpp where
  Value : Type
  /-- `CharReader::parse`; nothing where the text is no JSON. -/
  parse : List UInt8 → Option Value
  /-- The member of an object. Other values have none. -/
  find : Value → String → Option Value
  /-- `operator[]`. -/
  index : Value → String → Except String Value
  asInt : Value → Except String ℤ
  asUInt64 : Value → Except String ℕ
  asString : Value → Except String (List UInt8)
  /-- The number of an integer in the range of `int`. -/
  intValue : Value → Option ℤ
  /-- The number of an integer in the range of `uint64_t`. -/
  uint64Value : Value → Option ℕ
  stringValue : Value → Option (List UInt8)

/-- What the library promises about members that are there and values of the
right kind. -/
structure JsonCpp.Documented (lib : JsonCpp) : Prop where
  index_of_find : ∀ {root key member}, lib.find root key = some member →
    lib.index root key = .ok member
  asInt_of_intValue : ∀ {value n}, lib.intValue value = some n → lib.asInt value = .ok n
  asUInt64_of_uint64Value : ∀ {value n}, lib.uint64Value value = some n →
    lib.asUInt64 value = .ok n
  asString_of_stringValue : ∀ {value s}, lib.stringValue value = some s →
    lib.asString value = .ok s

/-- Null, integers, strings, and objects with these members. -/
inductive JsonValue
  | null
  | int (n : ℤ)
  | string (s : List UInt8)
  | object (members : List (String × JsonValue))

namespace JsonValue

def find : JsonValue → String → Option JsonValue
  | object members, key => members.lookup key
  | null, _ | int _, _ | string _, _ => none

/-- `operator[]`: null for a member that is missing. -/
def index : JsonValue → String → Except String JsonValue
  | object members, key => .ok ((members.lookup key).getD null)
  | null, _ | int _, _ | string _, _ => .error "requires objectValue"

def intValue : JsonValue → Option ℤ
  | int n => if -2 ^ 31 ≤ n ∧ n < 2 ^ 31 then some n else none
  | null | string _ | object _ => none

def uint64Value : JsonValue → Option ℕ
  | int n => if 0 ≤ n ∧ n < 2 ^ 64 then some n.toNat else none
  | null | string _ | object _ => none

def stringValue : JsonValue → Option (List UInt8)
  | string s => some s
  | null | int _ | object _ => none

/-- A conversion: the default for null, what the value holds, or an exception. -/
def convert {α : Type} (default : α) (held : JsonValue → Option α) : JsonValue → Except String α
  | null => .ok default
  | value => (held value).elim (.error "Value is not convertible") .ok

end JsonValue

end Xrtc.Base
