import DocTree.Text.Alphabet
import DocTree.Value.Display

/-!
# Documents written as JSON

The written form is pure ASCII: a code point outside the printable ASCII range is spelled `\uXXXX`, and
by its two halves where it needs them, so that a text with these two halves in it is written alike.
Without an indentation a document stands on one line with `", "` between the parts; with one, each part
stands on a line of its own and the comma ends the line before.

What is written depends on the alphabet of the texts. `write` is for texts in which every character
stands for itself.
-/

namespace DocTree.Json

/-- One UTF-16 unit spelled out. -/
def unitEscape (n : Nat) : List Char := '\\' :: 'u' :: Text.hexDigits 4 n

/-- One code point inside a JSON string. -/
def writePoint (n : Nat) : List Char :=
  if n == 0x22 then ['\\', '"']
  else if n == 0x5C then ['\\', '\\']
  else if n == 0x0A then ['\\', 'n']
  else if n == 0x0D then ['\\', 'r']
  else if n == 0x09 then ['\\', 't']
  else if n == 0x08 then ['\\', 'b']
  else if n == 0x0C then ['\\', 'f']
  else if 0x20 ≤ n && n < 0x7F then [Char.ofNat n]
  else if n < 0x10000 then unitEscape n
  else unitEscape (Text.highHalf n) ++ unitEscape (Text.lowHalf n)

section

variable (a : Text.Alphabet)

/-- A JSON string. -/
def writeString (s : String) : String :=
  String.ofList ('"' :: (s.toList.flatMap (fun c => writePoint (a.point c)) ++ ['"']))

/-- A JSON number; the three values JSON has no number for have names. -/
def writeFloat : Binary64 → String
  | .nan => "NaN"
  | .infinite true => "-Infinity"
  | .infinite false => "Infinity"
  | x => x.text

/-- A scalar as the name of a JSON field. -/
def fieldName : Scalar → String
  | .null => "null"
  | .bool true => "true"
  | .bool false => "false"
  | .int n => toString n
  | .float x => writeFloat x
  | .str s => s
  | .time m => m.text

/-- A scalar as a JSON value. -/
def writeScalar : Scalar → String
  | .str s => writeString a s
  | .time m => writeString a m.text
  | s => fieldName s

/-- What stands between the parts of a list or mapping at a level of nesting. -/
def separator (indent : Option Nat) (level : Nat) : String :=
  match indent with
  | none => ", "
  | some n => ",\n" ++ "".pushn ' ' (n * level)

/-- What stands between a bracket and the parts, at the level of the line that follows. -/
def edge (indent : Option Nat) (level : Nat) : String :=
  match indent with
  | none => ""
  | some n => "\n" ++ "".pushn ' ' (n * level)

mutual

/-- A document at a level of nesting. -/
def writeAt (indent : Option Nat) (level : Nat) : Value → String
  | .scalar s => writeScalar a s
  | .list [] => "[]"
  | .list items =>
    "[" ++ edge indent (level + 1) ++
      (separator indent (level + 1)).intercalate (writeItems indent (level + 1) items) ++
      edge indent level ++ "]"
  | .map [] => "\x7b\x7d"
  | .map entries =>
    "\x7b" ++ edge indent (level + 1) ++
      (separator indent (level + 1)).intercalate (writeEntries indent (level + 1) entries) ++
      edge indent level ++ "\x7d"

/-- The items of a list at a level of nesting. -/
def writeItems (indent : Option Nat) (level : Nat) : List Value → List String
  | [] => []
  | v :: rest => writeAt indent level v :: writeItems indent level rest

/-- The entries of a mapping at a level of nesting. -/
def writeEntries (indent : Option Nat) (level : Nat) : List (Scalar × Value) → List String
  | [] => []
  | (k, v) :: rest =>
    (writeString a (fieldName k) ++ ": " ++ writeAt indent level v) :: writeEntries indent level rest

end

/-- A document over an alphabet as JSON. -/
def writeIn (indent : Option Nat) (v : Value) : String := writeAt a indent 0 v

end

/-- A document as JSON. -/
def write (indent : Option Nat) (v : Value) : String := writeIn .unicode indent v

/-! ## Names -/

/-- A scalar can be the name of a JSON field. -/
def isName : Scalar → Bool
  | .time _ => false
  | _ => true

mutual

/-- The keys in a document can be names of JSON fields. -/
def hasNames : Value → Bool
  | .scalar _ => true
  | .list items => itemsHaveNames items
  | .map entries => entriesHaveNames entries

/-- The keys in the items of a list can be names of JSON fields. -/
def itemsHaveNames : List Value → Bool
  | [] => true
  | v :: rest => hasNames v && itemsHaveNames rest

/-- The keys of entries, and those in their values, can be names of JSON fields. -/
def entriesHaveNames : List (Scalar × Value) → Bool
  | [] => true
  | (k, v) :: rest => isName k && hasNames v && entriesHaveNames rest

end

end DocTree.Json
