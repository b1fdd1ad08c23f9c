import ReconcileLoop.Json.Basic

namespace ReconcileLoop.Json

/-! # Compact JSON text

The text without any blanks. Quotes, backslashes and control characters are escaped, everything
else stands for itself.
-/

def hexPair (n : Nat) : String :=
  String.ofList [Nat.digitChar (n / 16 % 16), Nat.digitChar (n % 16)]

def escapedChar (c : Char) : String :=
  if c = '"' then "\\\""
  else if c = '\\' then "\\\\"
  else if c = '\x08' then "\\b"
  else if c = '\x0c' then "\\f"
  else if c = '\n' then "\\n"
  else if c = '\r' then "\\r"
  else if c = '\t' then "\\t"
  else if c.toNat < 32 then "\\u00" ++ hexPair c.toNat
  else c.toString

def quotedText (text : String) : String :=
  "\"" ++ String.join (text.toList.map escapedChar) ++ "\""

def decimalText (mantissa exponent : Int) : String :=
  let sign := if mantissa < 0 then "-" else ""
  let digits := toString mantissa.natAbs
  if 0 ≤ exponent then sign ++ digits ++ String.ofList (List.replicate exponent.toNat '0') ++ ".0"
  else
    let places := exponent.natAbs
    let padded := (List.replicate (places + 1 - digits.length) '0') ++ digits.toList
    let whole := padded.length - places
    sign ++ String.ofList (padded.take whole) ++ "." ++ String.ofList (padded.drop whole)

mutual

def compact : Json → String
  | null => "null"
  | bool true => "true"
  | bool false => "false"
  | int value => toString value
  | dec mantissa exponent => decimalText mantissa exponent
  | str value => quotedText value
  | arr items => "[" ++ ",".intercalate (compactItems items) ++ "]"
  | obj members => "\x7b" ++ ",".intercalate (compactMembers members) ++ "\x7d"

def compactItems : List Json → List String
  | [] => []
  | item :: rest => compact item :: compactItems rest

def compactMembers : List (String × Json) → List String
  | [] => []
  | (name, value) :: rest =>
      (quotedText name ++ ":" ++ compact value) :: compactMembers rest

end

end ReconcileLoop.Json
