import ReconcileLoop.Json.Basic

namespace ReconcileLoop.Json

/-! # Reading JSON text

A reader for the whole grammar: blanks between tokens, escapes in texts (a character above U+FFFF as
a pair of surrogates), numbers with point and exponent. Whole numbers beyond 64 bits are read as
decimals, numbers beyond the range of doubles are refused, and of members with one name the last
counts. A text that breaks off, so that more of it might make it readable, is told from one that
no more text can mend.
-/

inductive Flaw where
  /-- It ends where it has to go on. -/
  | unfinished
  | malformed
deriving DecidableEq, Repr, Inhabited

/-- What a reader gives: what it has read, with the text behind it. -/
abbrev Reading := Except Flaw

def isBlank (c : Char) : Bool := c = ' ' || c = '\t' || c = '\n' || c = '\r'

def skipBlanks (input : List Char) : List Char := input.dropWhile isBlank

/-- The flaw of a text that has something else than what has to come next. -/
def flawAt : List Char → Flaw
  | [] => .unfinished
  | _ => .malformed

/-- The rest of a word that stands for a value. -/
def literal (word : List Char) (value : Json) (input : List Char) : Reading (Json × List Char) :=
  match word, input with
  | [], rest => .ok (value, rest)
  | _, [] => .error .unfinished
  | expected :: word, c :: rest =>
      if c = expected then literal word value rest else .error .malformed

def hexDigit? (c : Char) : Option Nat :=
  if c.isDigit then some (c.toNat - 48)
  else if 'a' ≤ c ∧ c ≤ 'f' then some (c.toNat - 87)
  else if 'A' ≤ c ∧ c ≤ 'F' then some (c.toNat - 55)
  else none

def unit : List Char → Reading (Nat × List Char)
  | a :: b :: c :: d :: rest =>
      match [a, b, c, d].mapM hexDigit? with
      | some digits => .ok (digits.foldl (fun n digit => n * 16 + digit) 0, rest)
      | none => .error .malformed
  | _ => .error .unfinished

/-- The second unit of a pair, with its escape. -/
def lowUnit : List Char → Reading (Nat × List Char)
  | '\\' :: 'u' :: rest => unit rest
  | ['\\'] => .error .unfinished
  | rest => .error (flawAt rest)

/-- The character written as `\u....`, or as two of them that form a pair. -/
def escapedUnit (input : List Char) : Reading (Char × List Char) := do
  let (high, rest) ← unit input
  if 0xd800 ≤ high ∧ high < 0xdc00 then
    let (low, rest) ← lowUnit rest
    if 0xdc00 ≤ low ∧ low < 0xe000 then
      return (Char.ofNat (0x10000 + (high - 0xd800) * 0x400 + (low - 0xdc00)), rest)
    else throw .malformed
  else if 0xdc00 ≤ high ∧ high < 0xe000 then throw .malformed
  else return (Char.ofNat high, rest)

/-- The character that an escape stands for, after its backslash. -/
def escaped : List Char → Reading (Char × List Char)
  | '"' :: rest => .ok ('"', rest)
  | '\\' :: rest => .ok ('\\', rest)
  | '/' :: rest => .ok ('/', rest)
  | 'b' :: rest => .ok ('\x08', rest)
  | 'f' :: rest => .ok ('\x0c', rest)
  | 'n' :: rest => .ok ('\n', rest)
  | 'r' :: rest => .ok ('\r', rest)
  | 't' :: rest => .ok ('\t', rest)
  | 'u' :: rest => escapedUnit rest
  | rest => .error (flawAt rest)

/-- The rest of a text after its opening quote; what was read of it comes in reverse. -/
def textBody (fuel : Nat) (read : List Char) (input : List Char) : Reading (String × List Char) :=
  match fuel, input with
  | 0, _ => .error .malformed
  | _, [] => .error .unfinished
  | fuel + 1, c :: rest =>
      if c = '"' then .ok (String.ofList read.reverse, rest)
      else if c = '\\' then do
        let (c, rest) ← escaped rest
        textBody fuel (c :: read) rest
      else if c.toNat < 32 then .error .malformed
      else textBody fuel (c :: read) rest

def natOfDigits (digits : List Char) : Nat :=
  digits.foldl (fun n c => n * 10 + (c.toNat - 48)) 0

/-- Whether a double can hold a number of this size: the sizes from here on round to infinity. -/
def withinDoubles (mantissa : Nat) (exponent : Int) : Bool :=
  let digits := (toString mantissa).length
  if mantissa = 0 then true
  else if 309 < (digits : Int) + exponent then false
  else if exponent < 0 then
    mantissa < (Nat.pow 2 1024 - Nat.pow 2 970) * Nat.pow 10 (min exponent.natAbs (digits + 1))
  else mantissa * Nat.pow 10 exponent.toNat < Nat.pow 2 1024 - Nat.pow 2 970

def digits (input : List Char) : Reading (List Char × List Char) :=
  match input.takeWhile Char.isDigit with
  | [] => .error (flawAt input)
  | read => .ok (read, input.dropWhile Char.isDigit)

def fraction : List Char → Reading (Option (List Char) × List Char)
  | '.' :: rest => do
      let (read, rest) ← digits rest
      return (some read, rest)
  | rest => .ok (none, rest)

def exponentDigits (sign : Int) (input : List Char) : Reading (Option Int × List Char) := do
  let (read, rest) ← digits input
  return (some (sign * natOfDigits read), rest)

def signedExponent : List Char → Reading (Option Int × List Char)
  | '+' :: rest => exponentDigits 1 rest
  | '-' :: rest => exponentDigits (-1) rest
  | rest => exponentDigits 1 rest

def exponent : List Char → Reading (Option Int × List Char)
  | 'e' :: rest => signedExponent rest
  | 'E' :: rest => signedExponent rest
  | rest => .ok (none, rest)

/-- The number with the given parts, if there is one. -/
def number? (negative : Bool) (whole : List Char) (fraction : Option (List Char))
    (exponent : Option Int) : Option Json :=
  let mantissa := natOfDigits (whole ++ fraction.getD [])
  let scale := exponent.getD 0 - (fraction.getD []).length
  let signed : Int := if negative then -(mantissa : Int) else mantissa
  if 1 < whole.length ∧ whole.head? = some '0' then none
  else if fraction.isNone ∧ exponent.isNone ∧ ¬(negative ∧ mantissa = 0) ∧
      Int64.minValue.toInt ≤ signed ∧ signed < UInt64.size then
    some (int signed)
  else if withinDoubles mantissa scale then some (dec signed scale)
  else none

def unsigned (negative : Bool) (input : List Char) : Reading (Json × List Char) := do
  let (whole, rest) ← digits input
  let (fraction, rest) ← fraction rest
  let (exponent, rest) ← exponent rest
  match number? negative whole fraction exponent with
  | some number => return (number, rest)
  | none => throw .malformed

mutual

/-- A value, which may stand after blanks. -/
def value (fuel : Nat) (input : List Char) : Reading (Json × List Char) :=
  match fuel with
  | 0 => .error .malformed
  | fuel + 1 =>
      match skipBlanks input with
      | 'n' :: rest => literal ['u', 'l', 'l'] null rest
      | 't' :: rest => literal ['r', 'u', 'e'] (bool true) rest
      | 'f' :: rest => literal ['a', 'l', 's', 'e'] (bool false) rest
      | '"' :: rest => do
          let (text, rest) ← textBody (rest.length + 1) [] rest
          return (str text, rest)
      | '[' :: rest =>
          match skipBlanks rest with
          | ']' :: rest => .ok (arr [], rest)
          | _ => do
              let (items, rest) ← items fuel [] rest
              return (arr items, rest)
      | '{' :: rest =>
          match skipBlanks rest with
          | '}' :: rest => .ok (obj [], rest)
          | _ => do
              let (members, rest) ← members fuel [] rest
              return (ofMembers members, rest)
      | '-' :: rest => unsigned true rest
      | rest => unsigned false rest

/-- One item and those after it, up to the closing bracket. -/
def items (fuel : Nat) (read : List Json) (input : List Char) : Reading (List Json × List Char) :=
  match fuel with
  | 0 => .error .malformed
  | fuel + 1 => do
      let (item, rest) ← value fuel input
      match skipBlanks rest with
      | ',' :: rest => items fuel (item :: read) rest
      | ']' :: rest => return ((item :: read).reverse, rest)
      | rest => throw (flawAt rest)

/-- One member and those after it, up to the closing brace. -/
def members (fuel : Nat) (read : List (String × Json)) (input : List Char) :
    Reading (List (String × Json) × List Char) :=
  match fuel with
  | 0 => .error .malformed
  | fuel + 1 =>
      match skipBlanks input with
      | '"' :: rest => do
          let (name, rest) ← textBody (rest.length + 1) [] rest
          match skipBlanks rest with
          | ':' :: rest =>
              let (held, rest) ← value fuel rest
              match skipBlanks rest with
              | ',' :: rest => members fuel ((name, held) :: read) rest
              | '}' :: rest => return (((name, held) :: read).reverse, rest)
              | rest => throw (flawAt rest)
          | rest => throw (flawAt rest)
      | rest => .error (flawAt rest)

end

/-- Reads a text that holds one JSON value and nothing else but blanks. -/
def parse (source : String) : Except Flaw Json := do
  let input := source.toList
  let (read, rest) ← value (2 * input.length + 2) input
  if skipBlanks rest = [] then return read else throw .malformed

def parse? (source : String) : Option Json := (parse source).toOption

end ReconcileLoop.Json
