import ReconcileLoop.Text.Printable

namespace ReconcileLoop.Text

/-! # Quoted text

The form in which messages show a piece of foreign text: between double quotes, with the quote,
the backslash and everything that does not show as itself escaped.
-/

def lowerHex (n : Nat) : String := String.ofList (Nat.toDigits 16 n)

def quotedChar (c : Char) : String :=
  if c = '\x00' then "\\0"
  else if c = '\t' then "\\t"
  else if c = '\r' then "\\r"
  else if c = '\n' then "\\n"
  else if c = '"' then "\\\""
  else if c = '\\' then "\\\\"
  else if standsAlone c then c.toString
  else "\\u\x7b" ++ lowerHex c.toNat ++ "\x7d"

/-- The text between double quotes, with its characters escaped where they have to be. -/
def quoted (text : String) : String :=
  "\"" ++ String.join (text.toList.map quotedChar) ++ "\""

end ReconcileLoop.Text
