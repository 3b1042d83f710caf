import DocTree.Number.Written
import DocTree.Settings.EnvFile
import DocTree.Text.Case
import DocTree.Text.Word
import DocTree.Value.Basic

/-!
# References to the environment in settings

A text in a settings file may refer to variables of the environment: `${NAME}`, or with a value to fall
back on `${NAME:-value}` or `${NAME:value}`. A text that is one single reference takes the type that
its value is written in, which is what `coerce` decides; inside a longer text the value is inserted as
it is. A reference to a variable that is not set, without a value to fall back on, stays as it is.
-/

namespace DocTree

/-- The words that are true, and those that are false. -/
def settingWords : List (String × Bool) :=
  [("true", true), ("yes", true), ("on", true), ("false", false), ("no", false), ("off", false)]

/-- What the text of a setting is worth: nothing, a truth value, a number or itself. A number with a
point or the letter e is one with a fraction, any other one an integer. -/
def coerce (s : String) : Scalar :=
  let small := Text.lower s.toList
  if s == "" then .null
  else match settingWords.find? fun w => w.1.toList == small with
    | some w => .bool w.2
    | none =>
      let number :=
        if s.toList.contains '.' || small.contains 'e' then (writtenDecimal? s.toList).map Scalar.float
        else (writtenInteger? s.toList).map Scalar.int
      number.getD (.str s)

/-- A reference to a variable. -/
structure Reference where
  name : String
  default : Option String
  deriving DecidableEq, Repr

/-- The end of a reference: its brace. -/
def closeBrace? : List Char → Option (List Char)
  | '}' :: rest => some rest
  | _ => none

/-- The reference at the start of a text, and what follows it. -/
def Reference.read? (s : List Char) : Option (Reference × List Char) :=
  match s with
  | '$' :: '{' :: inner =>
    let name := inner.takeWhile Text.isWord
    let named := String.ofList name
    if name.isEmpty then none
    else match inner.drop name.length with
      | ':' :: more =>
        let more := match more with
          | '-' :: rest => rest
          | _ => more
        let default := more.takeWhile (· != '}')
        (closeBrace? (more.drop default.length)).map fun rest =>
          (⟨named, some (String.ofList default)⟩, rest)
      | rest => (closeBrace? rest).map fun rest => (⟨named, none⟩, rest)
  | _ => none

/-- What a reference stands for, if anything. -/
def Reference.value? (env : Environment) (r : Reference) : Option String :=
  match env.get? r.name with
  | some v => some v
  | none => r.default

/-- A text with its references replaced by their values. -/
def expandReferences (env : Environment) : Nat → List Char → List Char
  | 0, s => s
  | _, [] => []
  | fuel + 1, c :: rest =>
    match Reference.read? (c :: rest) with
    | some (r, after) =>
      let length := (c :: rest).length - after.length
      let written := match r.value? env with
        | some v => v.toList
        | none => (c :: rest).take length
      written ++ expandReferences env fuel after
    | none => c :: expandReferences env fuel rest

/-- What a text of a settings file is worth. -/
def substituteText (env : Environment) (s : String) : Scalar :=
  match Reference.read? s.toList with
  | some (r, []) =>
    match r.value? env with
    | some v => coerce v
    | none => .str s
  | _ => .str (String.ofList (expandReferences env (s.length + 1) s.toList))

mutual

/-- A document with the references in its texts replaced; keys are left alone. -/
def substitute (env : Environment) : Value → Value
  | .scalar (.str s) => .scalar (substituteText env s)
  | .scalar s => .scalar s
  | .list items => .list (substituteItems env items)
  | .map entries => .map (substituteEntries env entries)

/-- Items with the references in their texts replaced. -/
def substituteItems (env : Environment) : List Value → List Value
  | [] => []
  | v :: rest => substitute env v :: substituteItems env rest

/-- Entries with the references in their texts replaced. -/
def substituteEntries (env : Environment) : List (Scalar × Value) → List (Scalar × Value)
  | [] => []
  | (k, v) :: rest => (k, substitute env v) :: substituteEntries env rest

end

/-! ## Absent values -/

/-- The absent value. -/
def Value.isNull : Value → Bool
  | .null => true
  | _ => false

mutual

/-- A document without the entries whose value is absent. -/
def dropNulls : Value → Value
  | .scalar s => .scalar s
  | .list items => .list (dropNullsItems items)
  | .map entries => .map (dropNullsEntries entries)

/-- Items without the entries whose value is absent; an absent item stays. -/
def dropNullsItems : List Value → List Value
  | [] => []
  | v :: rest => dropNulls v :: dropNullsItems rest

/-- The entries whose value is not absent. -/
def dropNullsEntries : List (Scalar × Value) → List (Scalar × Value)
  | [] => []
  | (k, v) :: rest =>
    if v.isNull then dropNullsEntries rest else (k, dropNulls v) :: dropNullsEntries rest

end

/-! ## Overriding variables -/

/-- The variables that override a setting, and where the setting stands. -/
def overrides : List (String × List String) :=
  [("DOCEXPORT_MAX_DEPTH", ["hash_notation", "max_depth"]),
   ("DOCEXPORT_SHARED_INDEX", ["hash_notation", "shared_index"]),
   ("DOCEXPORT_FALLBACK_TO_RAW", ["hash_notation", "fallback_to_raw"]),
   ("DOCEXPORT_PARALLEL_FILES", ["export", "parallel_files"]),
   ("DOCEXPORT_CONTINUE_ON_ERROR", ["export", "continue_on_error"]),
   ("DOCEXPORT_LOG_LEVEL", ["logging", "level"]),
   ("DOCEXPORT_LOG_FILE", ["logging", "file"]),
   ("DOCEXPORT_DEBUG", ["debug"])]

/-- Put a value below entries, through mappings that are made where there are none. -/
def putBelow (value : Value) : List String → Entries → Entries
  | [], es => es
  | [name], es => es.put name value
  | name :: more, es =>
    let inner : Entries := match es.get? name with
      | some (.map inner) => inner
      | _ => []
    es.put name (.map (putBelow value more inner))

/-- Entries with the settings that the environment overrides. -/
def applyOverrides (env : Environment) (es : Entries) : Entries :=
  overrides.foldl (fun es o =>
    match env.get? o.1 with
    | some v => putBelow (.scalar (coerce v)) o.2 es
    | none => es) es

end DocTree
