import Mathlib.Algebra.GroupWithZero.Nat
import GroupButler.Foundation.Text

/-!
# JSON trees

Decoded JSON with integers for its only numbers, and its size under Go's compact encoder.
-/

namespace GroupButler.Foundation

inductive Json where
  | null
  | bool (value : Bool)
  | num (value : Int)
  | str (value : String)
  | arr (items : List Json)
  | obj (fields : List (String × Json))
  deriving Repr

/-- `value[key]`; of repeated keys the last counts. -/
def Json.field (value : Json) (key : String) : Option Json :=
  match value with
  | .obj fields => (fields.reverse.find? fun field => field.1 == key).map Prod.snd
  | _ => none

def byteLength (s : String) : Nat := (s.toList.map fun c => c.utf8Size).sum

/-- The bytes `json.Marshal` spends on one character of a string. -/
def marshalledChar (c : Char) : Nat :=
  if c = '"' ∨ c = '\\' then 2
  else if c.toNat ∈ [0x08, 0x09, 0x0A, 0x0C, 0x0D] then 2
  else if c.toNat < 0x20 then 6
  else if c = '<' ∨ c = '>' ∨ c = '&' then 6
  else if c.toNat = 0x2028 ∨ c.toNat = 0x2029 then 6
  else c.utf8Size

def marshalledString (s : String) : Nat := 2 + (s.toList.map marshalledChar).sum

def marshalledInt (n : Int) : Nat := (toString n).length

mutual

/-- `len(json.Marshal(value))`. -/
def Json.marshalled : Json → Nat
  | .null => 4
  | .bool true => 4
  | .bool false => 5
  | .num n => marshalledInt n
  | .str s => marshalledString s
  | .arr items => 2 + Json.marshalledItems items
  | .obj fields => 2 + Json.marshalledFields fields

def Json.marshalledItems : List Json → Nat
  | [] => 0
  | [item] => item.marshalled
  | item :: items => item.marshalled + 1 + Json.marshalledItems items

def Json.marshalledFields : List (String × Json) → Nat
  | [] => 0
  | [(key, value)] => marshalledString key + 1 + value.marshalled
  | (key, value) :: fields => marshalledString key + 1 + value.marshalled + 1 + Json.marshalledFields fields

end

example : (Json.obj [("a", .str "<\n"), ("b", .arr [.num (-12), .null])]).marshalled = 31 := by decide

end GroupButler.Foundation
