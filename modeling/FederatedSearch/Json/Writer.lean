import FederatedSearch.Json.Value
import FederatedSearch.Number.Layout

/-!
# Writing JSON text

A document is written either without any blanks or indented by two spaces per level. Only quotes,
backslashes and control characters are escaped.

## Main definitions

* `Json.compact` — the text without blanks
* `Json.indented` — one item or member per line
-/

namespace FederatedSearch

namespace Json

def hexChar (n : Nat) : Char := (Nat.toDigits 16 n).headD '0'

def escapeChar (c : Char) : List Char :=
  match c with
  | '"' => ['\\', '"']
  | '\\' => ['\\', '\\']
  | '\x08' => ['\\', 'b']
  | '\x0c' => ['\\', 'f']
  | '\n' => ['\\', 'n']
  | '\r' => ['\\', 'r']
  | '\t' => ['\\', 't']
  | c =>
    if c.toNat < 0x20 then ['\\', 'u', '0', '0', hexChar (c.toNat / 16), hexChar (c.toNat % 16)]
    else [c]

def quote (s : String) : String := "\"" ++ String.ofList (s.toList.flatMap escapeChar) ++ "\""

/-- The text of a scalar. -/
def scalarText : Json → String
  | null => "null"
  | bool b => if b then "true" else "false"
  | integer v => toString v
  | single x => x.jsonText
  | double x => x.jsonText
  | text s => quote s
  | _ => "null"

mutual

def compact : Json → String
  | array items => "[" ++ compactItems items ++ "]"
  | object members => "\x7b" ++ compactMembers members ++ "\x7d"
  | scalar => scalar.scalarText

def compactItems : List Json → String
  | [] => ""
  | [j] => j.compact
  | j :: rest => j.compact ++ "," ++ compactItems rest

def compactMembers : List (String × Json) → String
  | [] => ""
  | [(name, j)] => quote name ++ ":" ++ j.compact
  | (name, j) :: rest => quote name ++ ":" ++ j.compact ++ "," ++ compactMembers rest

end

def newline (level : Nat) : String := "\n" ++ String.ofList (List.replicate (2 * level) ' ')

mutual

/-- The indented text of a document whose brackets stand at `level`. -/
def indentedAt (level : Nat) : Json → String
  | array [] => "[]"
  | object [] => "\x7b\x7d"
  | array items => "[" ++ indentedItems (level + 1) items ++ newline level ++ "]"
  | object members => "\x7b" ++ indentedMembers (level + 1) members ++ newline level ++ "\x7d"
  | scalar => scalar.scalarText

def indentedItems (level : Nat) : List Json → String
  | [] => ""
  | [j] => newline level ++ j.indentedAt level
  | j :: rest => newline level ++ j.indentedAt level ++ "," ++ indentedItems level rest

def indentedMembers (level : Nat) : List (String × Json) → String
  | [] => ""
  | [(name, j)] => newline level ++ quote name ++ ": " ++ j.indentedAt level
  | (name, j) :: rest =>
    newline level ++ quote name ++ ": " ++ j.indentedAt level ++ "," ++ indentedMembers level rest

end

def indented (j : Json) : String := j.indentedAt 0

end Json

end FederatedSearch
