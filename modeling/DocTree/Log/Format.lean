import DocTree.Log.Basic
import DocTree.Number.Radix
import DocTree.Value.Bindings

/-!
# The format of a line of the log

The format of a line is a text in which `%(name)s` stands for a field of the record. Between the name
and the letter there may be a minus sign, which puts blanks after a short field instead of in front of
it, a width, and after a point the greatest number of characters. Two percent signs stand for one. A
format has to mention at least one field.
-/

namespace DocTree

/-- A part of a format. -/
inductive FormatPart where
  | text (cs : List Char)
  | field (name : String) (left : Bool) (width : Nat) (limit : Option Nat)
  deriving DecidableEq, Repr

namespace LogFormat

/-- A field behind its percent sign, and what follows it. -/
def field? (s : List Char) : Option (FormatPart × List Char) :=
  match s with
  | '(' :: rest =>
    let name := rest.takeWhile (· != ')')
    let rest := (rest.drop name.length).drop 1
    let flags := rest.takeWhile fun c => "#0+ -".toList.contains c
    let rest := rest.drop flags.length
    let width := rest.takeWhile isAsciiDigit
    let rest := rest.drop width.length
    let (limit, rest) := match rest with
      | '.' :: more =>
        let ds := more.takeWhile isAsciiDigit
        (some (ofDigits ds), more.drop ds.length)
      | _ => (none, rest)
    match rest with
    | 's' :: rest =>
      some (.field (String.ofList name) (flags.contains '-') (ofDigits width) limit, rest)
    | _ => none
  | _ => none

/-- The parts of a format; none if a percent sign starts nothing. -/
def partsFrom : Nat → List Char → Option (List FormatPart)
  | 0, _ => none
  | _, [] => some []
  | fuel + 1, c :: rest =>
    match c, rest with
    | '%', '%' :: rest => (partsFrom fuel rest).map (.text ['%'] :: ·)
    | '%', rest => do
      let (f, rest) ← field? rest
      let more ← partsFrom fuel rest
      return f :: more
    | c, rest => (partsFrom fuel rest).map (.text [c] :: ·)

/-- The parts of a format. -/
def parts? (format : String) : Option (List FormatPart) :=
  partsFrom (format.length + 1) format.toList

/-- The format used if the given one is empty. -/
def orDefault (format : String) : String := if format == "" then "%(message)s" else format

/-- Somewhere in the text a field starts. -/
def mentionsField : List Char → Bool
  | [] => false
  | c :: rest =>
    (c == '%' && (match field? rest with
      | some (.field name .., _) => name != "" && name.toList.all fun c => c.isAlphanum || c == '_'
      | _ => false)) || mentionsField rest

/-- The fields of a record at a time. -/
def fields (time : String) (r : LogRecord) : Bindings String :=
  [("asctime", time), ("levelname", r.level.name), ("levelno", toString r.level.rank),
   ("name", r.source), ("message", r.message)]

/-- A field brought to its width. -/
def fit (left : Bool) (width : Nat) (limit : Option Nat) (s : List Char) : List Char :=
  let s := match limit with
    | some n => s.take n
    | none => s
  let blanks := List.replicate (width - s.length) ' '
  if left then s ++ blanks else blanks ++ s

/-- A part of a format, filled in. -/
def fill? (fs : Bindings String) : FormatPart → Option (List Char)
  | .text cs => some cs
  | .field name left width limit => (fs.get? name).map fun v => fit left width limit v.toList

/-- The line of a record, if the format can be filled in. -/
def line? (format time : String) (r : LogRecord) : Option String := do
  let parts ← parts? format
  let filled ← parts.mapM (fill? (fields time r))
  return String.ofList filled.flatten

end LogFormat

end DocTree
