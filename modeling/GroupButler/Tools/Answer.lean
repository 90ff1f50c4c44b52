import GroupButler.Ai.Sanitize
import GroupButler.Foundation.Buffer
import GroupButler.Foundation.Json

/-!
# A tool's answer

`JSON.stringify`, and the clipping that makes an answer fit its budget of characters.
-/

namespace GroupButler.Tools
open Foundation Ai

mutual

/-- `JSON.stringify` -/
def stringify : Json → List Char
  | .null => "null".toList
  | .bool true => "true".toList
  | .bool false => "false".toList
  | .num n => (toString n).toList
  | .str s => quote s.toList
  | .arr items => '[' :: stringifyItems items ++ [']']
  | .obj fields => '{' :: stringifyFields fields ++ ['}']

def stringifyItems : List Json → List Char
  | [] => []
  | [item] => stringify item
  | item :: items => stringify item ++ ',' :: stringifyItems items

def stringifyFields : List (String × Json) → List Char
  | [] => []
  | [(key, value)] => quote key.toList ++ ':' :: stringify value
  | (key, value) :: fields => quote key.toList ++ ':' :: stringify value ++ ',' :: stringifyFields fields

end

example : stringify (.arr [.num (-1), .str "\n", .obj []]) = "[-1,\"\\n\",\x7b\x7d]".toList := by decide

/-- `JSON.stringify(value).length` -/
def jsonLength (value : Json) : Nat := ((stringify value).flatMap utf16Units).length

/-- The characters one string spends once JSON has escaped it. -/
def jsonChars (value : String) : Nat := ((quote value.toList).flatMap utf16Units).length - 2

/-- What the whole string spends above its own length comes off the budget first. -/
def clipJson (value : String) (budget : Int) : Clipped :=
  clipScalars value (budget - ((jsonChars value : Int) - (utf16 value).length)).toNat

/-- `NOT_AVAILABLE` -/
def notAvailable : Json := .obj [("ok", .bool false), ("code", .str "not_available")]

/-- A field that is there only when the call asked for addresses. -/
def optionalField (present : Bool) (key value : String) : List (String × Json) := if present then [(key, .str value)] else []

end GroupButler.Tools
