import ReconcileLoop.Json.Printer

namespace ReconcileLoop.Json

/-! # YAML text

Objects and lists as indented blocks, one line for each value that holds no others. The items of a
list stand at the column of the name they belong to. A text is written without quotes if it cannot
be taken for anything else.
-/

/-- The characters that mean something at the beginning of a value. -/
def yamlIndicators : List Char := "#,[]\x7b\x7d&*!|>'\"%@\x60".toList

/-- The words and signs that stand for other values than themselves. -/
def yamlWords : List String :=
  ["", "~", "null", "Null", "NULL", "true", "True", "TRUE", "false", "False", "FALSE", "y", "Y", "n",
    "N", "yes", "Yes", "YES", "no", "No", "NO", "on", "On", "ON", "off", "Off", "OFF"]

/-- Whether a text may be read as a number, or as the beginning of one. -/
def looksNumeric (text : String) : Bool :=
  match text.toList with
  | '+' :: c :: _ => c.isDigit || c = '.'
  | '-' :: c :: _ => c.isDigit || c = '.'
  | '.' :: c :: _ => c.isDigit || [".inf", ".Inf", ".INF", ".nan", ".NaN", ".NAN"].contains text
  | c :: _ => c.isDigit
  | [] => false

/-- Whether a colon or a number sign would end the value. -/
def breaksOff : List Char → Bool
  | [] => false
  | [c] => c = ':' || c = ' '
  | ':' :: ' ' :: _ => true
  | ' ' :: '#' :: _ => true
  | _ :: rest => breaksOff rest

/-- Whether a text can be written without quotes. -/
def isPlainYaml (text : String) : Bool :=
  match text.toList with
  | [] => false
  | first :: rest =>
      !yamlWords.contains text && !looksNumeric text && !yamlIndicators.contains first &&
        !(['-', '?', ':'].contains first && (rest.head?.all (· = ' '))) &&
        !(text.startsWith "---") && !(text.startsWith "...") &&
        first ≠ ' ' && !breaksOff (first :: rest) && (first :: rest).all (32 ≤ ·.toNat)

/-- A text, between single quotes if it needs quotes, and between double quotes if it holds
characters that do not show. -/
def yamlText (text : String) : String :=
  if isPlainYaml text then text
  else if text.toList.all (32 ≤ ·.toNat) then
    "'" ++ String.join (text.toList.map fun c => if c = '\'' then "''" else c.toString) ++ "'"
  else quotedText text

/-- Puts a mark before the first line, and as many blanks before the others. -/
def hang (mark blanks : String) : List String → List String
  | [] => []
  | line :: rest => (mark ++ line) :: rest.map (blanks ++ ·)

mutual

def yamlLines : Json → List String
  | arr (item :: rest) => yamlItems (item :: rest)
  | obj (member :: rest) => yamlMembers (member :: rest)
  | str text => [yamlText text]
  | arr [] => ["[]"]
  | obj [] => ["\x7b\x7d"]
  | null => ["null"]
  | bool true => ["true"]
  | bool false => ["false"]
  | int value => [toString value]
  | dec mantissa exponent => [decimalText mantissa exponent]

def yamlItems : List Json → List String
  | [] => []
  | item :: rest => hang "- " "  " (yamlLines item) ++ yamlItems rest

def yamlMembers : List (String × Json) → List String
  | [] => []
  | (name, value) :: rest =>
      let lines := yamlLines value
      let own := match value with
        | arr (_ :: _) => (yamlText name ++ ":") :: lines
        | obj (_ :: _) => (yamlText name ++ ":") :: lines.map ("  " ++ ·)
        | _ => hang (yamlText name ++ ": ") "" lines
      own ++ yamlMembers rest

end

def yaml (value : Json) : String := String.join ((yamlLines value).map (· ++ "\n"))

end ReconcileLoop.Json
