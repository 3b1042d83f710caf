import DocTree.Text.Blank
import DocTree.Value.Basic
import DocTree.Yaml.Error

/-!
# What an unquoted scalar stands for

A scalar without quotes is a truth value, a number, a moment or nothing if it is spelled like one, and
a text otherwise. Two spellings are reserved for the keys of a mapping: `<<` takes over the entries of
another mapping and `=` stands for the mapping's own value.

Integers are decimal, binary after `0b`, octal after `0`, hexadecimal after `0x`, or groups of base
sixty between colons. A number with a fraction has a point; its exponent has a sign. Underscores may
stand between the digits, of which there may be any number.
-/

namespace DocTree.Yaml

/-- What an unquoted scalar stands for. -/
inductive Meaning where
  | scalar (s : Scalar)
  /-- The key `<<`. -/
  | merge
  /-- The key `=`. -/
  | own
  deriving DecidableEq, Repr

/-! ## Words -/

/-- The spellings of a word: small, with a capital, and in capitals. -/
def spellings (word : String) : List String :=
  let cs := word.toList
  [word, String.ofList ((cs.take 1).map Char.toUpper ++ cs.drop 1), String.ofList (cs.map Char.toUpper)]

/-- The words that are truth values. -/
def truthWords : List (String × Bool) :=
  [("yes", true), ("no", false), ("true", true), ("false", false), ("on", true), ("off", false)]

/-- The truth value that a text spells. -/
def truth? (s : String) : Option Bool :=
  (truthWords.find? fun w => (spellings w.1).contains s).map (·.2)

/-- The spellings of the absent value. -/
def isNull (s : String) : Bool := s == "" || s == "~" || (spellings "null").contains s

/-! ## Numbers -/

/-- A sign, if there is one, and what follows it. -/
def splitSign : List Char → Bool × List Char
  | '-' :: rest => (true, rest)
  | '+' :: rest => (false, rest)
  | s => (false, s)

/-- Digits of a radix or underscores. -/
def allDigits (radix : Nat) (s : List Char) : Bool := s.all fun c => digitIn radix c || c == '_'

/-- A text without its underscores. -/
def dropUnderscores (s : List Char) : List Char := s.filter (· != '_')

/-- A group of base sixty after the first one: one digit, or two of which the first is below six. -/
def isSixtieth : List Char → Bool
  | [a] => isAsciiDigit a
  | [a, b] => digitIn 6 a && isAsciiDigit b
  | _ => false

/-- The number that groups of base sixty write. -/
def ofSixtieths (groups : List (List Char)) : Nat :=
  groups.foldl (fun n g => 60 * n + ofDigits g) 0

/-- Starts with a digit that is not zero and goes on with digits. -/
def isDecimal : List Char → Bool
  | d :: rest => isAsciiDigit d && d != '0' && allDigits 10 rest
  | [] => false

/-- The digits and the radix of an unsigned integer written with digits only. -/
def radixForm? (s : List Char) : Option (Nat × List Char) :=
  match s with
  | ['0'] => some (10, s)
  | '0' :: 'b' :: ds => if !ds.isEmpty && allDigits 2 ds then some (2, ds) else none
  | '0' :: 'x' :: ds => if !ds.isEmpty && allDigits 16 ds then some (16, ds) else none
  | '0' :: ds => if allDigits 8 ds then some (8, s) else none
  | _ => if isDecimal s then some (10, s) else none

/-- The unsigned integer that a text spells. -/
def unsigned? (s : List Char) : Option (Except Error Nat) :=
  match radixForm? s with
  | some (radix, ds) =>
    let ds := dropUnderscores ds
    some (if ds.isEmpty then .error (.noDigits radix) else .ok (ofRadix radix ds))
  | none =>
    match Text.splitWhere (· == ':') s with
    | first :: g :: more =>
      if isDecimal first && (g :: more).all isSixtieth then
        some (.ok (ofSixtieths (dropUnderscores first :: g :: more)))
      else none
    | _ => none

/-- The integer that a text spells. -/
def integer? (s : List Char) : Option (Except Error Int) :=
  let (negative, body) := splitSign s
  (unsigned? body).map fun r => r.map fun n => if negative then -(n : Int) else n

/-- An exponent with its sign, if there is one. -/
def exponent? (s : List Char) : Option Int :=
  match s with
  | [] => some 0
  | e :: sign :: ds =>
    if (e == 'e' || e == 'E') && (sign == '-' || sign == '+') && !ds.isEmpty && ds.all isAsciiDigit then
      let n : Int := ofDigits ds
      some (if sign == '-' then -n else n)
    else none
  | _ => none

/-- The number of whole digits and digits of a fraction. -/
def decimal (negative : Bool) (whole fraction : List Char) (power : Int) : Binary64 :=
  let fraction := dropUnderscores fraction
  Binary64.ofDecimal negative (ofDigits (dropUnderscores whole ++ fraction)) (power - fraction.length)

/-- The names of the infinite number. -/
def infinityNames : List String := [".inf", ".Inf", ".INF"]

/-- The names of the number that is none. -/
def nanNames : List String := [".nan", ".NaN", ".NAN"]

/-- The number with a fraction that a text spells. -/
def fractional? (s : List Char) : Option Binary64 :=
  let (negative, body) := splitSign s
  let digitOrLow (c : Char) : Bool := isAsciiDigit c || c == '_'
  if nanNames.contains (String.ofList s) then some .nan
  else if infinityNames.contains (String.ofList body) then some (.infinite negative)
  else
    let whole := body.takeWhile (· != '.')
    match body.dropWhile (· != '.') with
    | '.' :: after =>
      let fraction := after.takeWhile digitOrLow
      let tail := after.dropWhile digitOrLow
      match whole with
      | [] =>
        match s, fraction with
        | '.' :: _, d :: _ =>
          if isAsciiDigit d then (exponent? tail).map (decimal false [] fraction) else none
        | _, _ => none
      | d :: ds =>
        if !isAsciiDigit d then none
        else if allDigits 10 ds then (exponent? tail).map (decimal negative whole fraction)
        else
          match Text.splitWhere (· == ':') whole with
          | first :: g :: more =>
            if allDigits 10 first && (g :: more).all isSixtieth && tail.isEmpty then
              let fraction := dropUnderscores fraction
              let groups := ofSixtieths (dropUnderscores first :: g :: more)
              some (Binary64.ofDecimal negative
                (groups * powTen fraction.length + ofDigits fraction) (-(fraction.length : Int)))
            else none
          | _ => none
    | _ => none

/-! ## Meaning -/

/-- What an unquoted scalar stands for. -/
def meaning (text : List Char) : Except Error Meaning :=
  let s := String.ofList text
  if let some b := truth? s then .ok (.scalar (.bool b))
  else if let some x := fractional? text then .ok (.scalar (.float x))
  else if let some r := integer? text then r.map fun n => .scalar (.int n)
  else if s == "<<" then .ok .merge
  else if isNull s then .ok (.scalar .null)
  else if let some m := moment? text then
    match momentFault? m with
    | some f => .error (.noMoment f)
    | none => .ok (.scalar (.time m))
  else if s == "=" then .ok .own
  else .ok (.scalar (.str s))

/-- An unquoted scalar that stands for its own text. -/
def isText (text : List Char) : Bool :=
  match meaning text with
  | .ok (.scalar (.str _)) => true
  | _ => false

end DocTree.Yaml
