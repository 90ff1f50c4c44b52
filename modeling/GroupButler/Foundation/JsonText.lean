import GroupButler.Foundation.Buffer

/-!
# JSON texts

What `JSON.parse` accepts. A value read from the front of a text leaves the rest of it.
-/

namespace GroupButler.Foundation

def skipBlank (cs : List Char) : List Char := cs.dropWhile isJsonSpace

/-- One digit or more. -/
def readDigits (cs : List Char) : Option (List Char) :=
  if (cs.takeWhile Char.isDigit).isEmpty then none else some (cs.dropWhile Char.isDigit)

def readExponent (cs : List Char) : Option (List Char) :=
  match cs with
  | e :: rest =>
    if e = 'e' ∨ e = 'E' then
      match rest with
      | '+' :: rest | '-' :: rest => readDigits rest
      | rest => readDigits rest
    else some cs
  | [] => some []

def readFraction (cs : List Char) : Option (List Char) :=
  match cs with
  | '.' :: rest => readDigits rest
  | rest => some rest

/-- A number: no zero leads other digits. -/
def readNumber (cs : List Char) : Option (List Char) :=
  let unsigned := match cs with
    | '-' :: rest => rest
    | rest => rest
  let whole := match unsigned with
    | '0' :: rest => some rest
    | rest => readDigits rest
  (whole.bind readFraction).bind readExponent

mutual

/-- A value, with at most `fuel` nested or consecutive ones in it. -/
def readValue : Nat → List Char → Option (List Char)
  | 0, _ => none
  | fuel + 1, cs =>
    match skipBlank cs with
    | '"' :: rest => (readUnits rest).map Prod.snd
    | '[' :: rest =>
      match skipBlank rest with
      | ']' :: rest => some rest
      | rest => readItems fuel rest
    | '{' :: rest =>
      match skipBlank rest with
      | '}' :: rest => some rest
      | rest => readFields fuel rest
    | 't' :: 'r' :: 'u' :: 'e' :: rest => some rest
    | 'f' :: 'a' :: 'l' :: 's' :: 'e' :: rest => some rest
    | 'n' :: 'u' :: 'l' :: 'l' :: rest => some rest
    | rest => readNumber rest

def readItems : Nat → List Char → Option (List Char)
  | 0, _ => none
  | fuel + 1, cs =>
    (readValue fuel cs).bind fun rest =>
      match skipBlank rest with
      | ',' :: rest => readItems fuel rest
      | ']' :: rest => some rest
      | _ => none

def readFields : Nat → List Char → Option (List Char)
  | 0, _ => none
  | fuel + 1, cs =>
    match skipBlank cs with
    | '"' :: rest =>
      (readUnits rest).bind fun (_, rest) =>
        match skipBlank rest with
        | ':' :: rest =>
          (readValue fuel rest).bind fun rest =>
            match skipBlank rest with
            | ',' :: rest => readFields fuel rest
            | '}' :: rest => some rest
            | _ => none
        | _ => none
    | _ => none

end

/-- `JSON.parse(text)` does not throw. Each level and each item of a text takes a character of it. -/
def parsesJson (cs : List Char) : Bool := (readValue (2 * cs.length + 2) cs).any fun rest => (skipBlank rest).isEmpty

example : parsesJson "\x7b\"a\": [1, -0.5e+3, true, \"\\u0041\"]\x7d".toList = true ∧ parsesJson "[1,]".toList = false ∧
    parsesJson "[01]".toList = false := by
  decide +kernel

end GroupButler.Foundation
