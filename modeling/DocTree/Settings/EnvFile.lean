import DocTree.Text.Blank
import DocTree.Value.Bindings

/-!
# Environment files

An environment file gives variables their values, one a line: a name, an equals sign and a value. The
word `export` may stand in front, blanks around the parts, and a comment after them. A value between
quotes may go over several lines and has escapes; another one ends where its line does or where a blank
and a comment follow. A name without an equals sign is listed but given no value, and a line that fits
none of this is skipped.

A value may refer to variables: `${NAME}` stands for the value of the variable, which is looked up in
the environment first and then among the lines above, and `${NAME:-default}` has a value to fall back
on.
-/

namespace DocTree

/-- The variables of a process and their values. -/
abbrev Environment := Bindings String

namespace EnvFile

/-- A line of an environment file: a name, and its value unless it stands alone. -/
abbrev Line := String × Option String

/-! ## Parts of a line -/

/-- A blank that does not end a line. -/
def isInlineBlank (c : Char) : Bool := Text.isBlank c && !Text.isLineBreak c

/-- Skip the rest of a line. -/
def skipLine (s : List Char) : List Char := (s.dropWhile fun c => !Text.isLineBreak c).drop 1

/-- Skip the word `export` and the blanks after it. -/
def skipExport (s : List Char) : List Char :=
  if "export".toList.isPrefixOf s then
    let rest := s.drop 6
    match rest with
    | c :: _ => if isInlineBlank c then rest.dropWhile isInlineBlank else s
    | [] => s
  else s

/-- The text up to the quote `q`; a quote behind a backslash belongs to the text, unless no other one
closes it. -/
def untilQuote (q : Char) (done : List Char) (fallback : Option (List Char × List Char)) :
    List Char → Option (List Char × List Char)
  | [] => fallback
  | '\\' :: c :: rest =>
    if c == q then untilQuote q (q :: '\\' :: done) (some (('\\' :: done).reverse, rest)) rest
    else untilQuote q ('\\' :: done) fallback (c :: rest)
  | c :: rest => if c == q then some (done.reverse, rest) else untilQuote q (c :: done) fallback rest

/-- The characters that a backslash and a letter stand for between double quotes. -/
def escapes : List (Char × Char) :=
  [('\\', '\\'), ('\'', '\''), ('"', '"'), ('a', '\x07'), ('b', '\x08'), ('f', '\x0c'), ('n', '\n'),
   ('r', '\r'), ('t', '\t'), ('v', '\x0b')]

/-- The escapes that hold between quotes `q`. -/
def escapesIn (q : Char) : List (Char × Char) := if q == '"' then escapes else escapes.take 2

/-- A text with its escapes replaced. -/
def unescape (table : List (Char × Char)) : List Char → List Char
  | [] => []
  | '\\' :: c :: rest =>
    match table.find? (·.1 == c) with
    | some e => e.2 :: unescape table rest
    | none => '\\' :: unescape table (c :: rest)
  | c :: rest => c :: unescape table rest

/-- The part of a value in front of a blank and a comment. -/
def beforeComment : List Char → List Char
  | [] => []
  | c :: rest =>
    if Text.isBlank c && rest.head? == some '#' then [] else c :: beforeComment rest

/-- The value of a line, or where it cannot be read. -/
def valueAt (s : List Char) : Except (List Char) (String × List Char) :=
  match s with
  | [] => .ok ("", s)
  | q :: rest =>
    if q == '\'' || q == '"' then
      match untilQuote q [] none rest with
      | some (v, rest) => .ok (String.ofList (unescape (escapesIn q) v), rest)
      | none => .error s
    else
      let line := s.takeWhile fun c => !Text.isLineBreak c
      .ok (String.ofList (Text.dropEndWhile Text.isBlank (beforeComment line)), s.drop line.length)

/-- The name of a line, or where it cannot be read; a comment has none. -/
def nameAt (s : List Char) : Except (List Char) (Option String × List Char) :=
  match s with
  | '#' :: _ => .ok (none, s)
  | '\'' :: rest =>
    let name := rest.takeWhile (· != '\'')
    match name, rest.drop name.length with
    | _ :: _, _ :: after => .ok (some (String.ofList name), after)
    | _, _ => .error s
  | _ =>
    let name := s.takeWhile fun c => c != '=' && c != '#' && !Text.isBlank c
    if name.isEmpty then .error s else .ok (some (String.ofList name), s.drop name.length)

/-- The end of a line, after an optional comment. -/
def lineEnd (s : List Char) : Except (List Char) (List Char) :=
  let rest := s.dropWhile isInlineBlank
  let rest := match rest with
    | '#' :: _ => rest.dropWhile fun c => !Text.isLineBreak c
    | _ => rest
  match rest with
  | [] => .ok []
  | c :: after => if Text.isLineBreak c then .ok after else .error rest

/-- One line, from its first character on. -/
def lineAt (s : List Char) : Except (List Char) (Option Line × List Char) := do
  let (name, rest) ← nameAt (skipExport s)
  let rest := rest.dropWhile isInlineBlank
  let (value, rest) ← match rest with
    | '=' :: after => do
      let (v, rest) ← valueAt (after.dropWhile isInlineBlank)
      pure (some v, rest)
    | _ => pure (none, rest)
  let rest ← lineEnd rest
  return (name.map fun n => (n, value), rest)

/-- All lines; each takes at least one character. -/
def linesFrom : Nat → List Char → List Line
  | 0, _ => []
  | fuel + 1, s =>
    match Text.trimLeft s with
    | [] => []
    | s =>
      match lineAt s with
      | .ok (some line, rest) => line :: linesFrom fuel rest
      | .ok (none, rest) => linesFrom fuel rest
      | .error rest => linesFrom fuel (skipLine rest)

/-- The lines of an environment file. -/
def lines (text : List Char) : List Line := linesFrom (text.length + 1) text

/-! ## References -/

/-- A reference behind its dollar sign and brace: the name, the value to fall back on, and the rest. -/
def reference? (s : List Char) : Option (String × Option String × List Char) :=
  let name := s.takeWhile fun c => c != '}' && c != ':'
  let named := String.ofList name
  match s.drop name.length with
  | '}' :: rest => some (named, none, rest)
  | ':' :: '-' :: more =>
    let default := more.takeWhile (· != '}')
    match more.drop default.length with
    | _ :: rest => some (named, some (String.ofList default), rest)
    | [] => none
  | _ => none

/-- A text with its references replaced. -/
def interpolate (value : String → Option String → String) : Nat → List Char → List Char
  | 0, s => s
  | _, [] => []
  | fuel + 1, c :: rest =>
    match c, rest with
    | '$', '{' :: inner =>
      match reference? inner with
      | some (name, default, after) =>
        (value name default).toList ++ interpolate value fuel after
      | none => c :: interpolate value fuel rest
    | _, _ => c :: interpolate value fuel rest

/-- What a reference stands for: the environment wins over the lines above. -/
def resolve (env : Environment) (above : Bindings (Option String)) (name : String)
    (default : Option String) : String :=
  match env.get? name, above.get? name with
  | some v, _ => v
  | none, some v => v.getD ""
  | none, none => default.getD ""

/-- The variables that lines set, their references replaced from the first line on. -/
def assignments (env : Environment) (ls : List Line) : Bindings (Option String) :=
  ls.foldl (fun above l =>
    above.set l.1 (l.2.map fun v =>
      String.ofList (interpolate (resolve env above) (v.length + 1) v.toList))) []

/-- Add the variables of an environment file to an environment, which keeps what it has. -/
def extend (env : Environment) (text : List Char) : Environment :=
  (assignments env (lines text)).foldl (fun acc v =>
    match v.2, acc.get? v.1 with
    | some value, none => acc.set v.1 value
    | _, _ => acc) env

end EnvFile

end DocTree
