import DocTree.Number.Radix
import DocTree.Schema.Issue
import DocTree.Text.Blank

/-!
# Checking documents

A *check* reads a document into a type of the library or finds everything that is wrong with it. The
parts of a document are checked independently and their issues are collected in order, so checks are
combined as an applicative functor: `f <$> a <*> b` succeeds if both parts do and otherwise reports the
issues of both.

Scalars are read leniently: a number may be given by its text or by a truth value, a truth value by a
word. What is read is then held against the bounds of the field.
-/

namespace DocTree.Schema

/-- What a check finds: something of the wanted type, or issues. -/
inductive Checked (α : Type) where
  | ok (a : α)
  | bad (issues : List Issue)
  deriving Repr

namespace Checked

variable {α β : Type}

/-- Change what was read. -/
def map (f : α → β) : Checked α → Checked β
  | ok a => ok (f a)
  | bad issues => bad issues

/-- Combine two parts; the issues of both are kept. -/
def both (f : Checked (α → β)) (a : Checked α) : Checked β :=
  match f, a with
  | ok f, ok a => ok (f a)
  | ok _, bad e => bad e
  | bad e, ok _ => bad e
  | bad e, bad e' => bad (e ++ e')

instance : Applicative Checked where
  pure := ok
  map := map
  seq f a := both f (a ())

/-- Check what was read further. -/
def refine (a : Checked α) (f : α → Checked β) : Checked β :=
  match a with
  | ok a => f a
  | bad issues => bad issues

/-- One issue at the place that is being checked. -/
def fail (fault : Fault) : Checked α := bad [⟨[], fault⟩]

/-- Lay the issues of a part at the step that leads to it. -/
def under (step : Step) : Checked α → Checked α
  | ok a => ok a
  | bad issues => bad (issues.map fun i => { i with place := step :: i.place })

/-- Keep what was read if it obeys a rule. -/
def obeying (rule : α → Option String) (a : Checked α) : Checked α :=
  a.refine fun x => match rule x with
    | none => ok x
    | some text => fail (.broken text)

/-- The outcome of a check against a named shape. -/
def against (shape : String) : Checked α → Except Rejection α
  | ok a => .ok a
  | bad issues => .error ⟨shape, issues⟩

end Checked

/-! ## Texts -/

/-- A text. -/
def text : Value → Checked String
  | .str s => .ok s
  | _ => .fail .notString

/-- A text with at least one character. -/
def nonEmptyText (v : Value) : Checked String :=
  (text v).refine fun s => if s == "" then .fail .emptyString else .ok s

/-- One of the listed things, given by its name. -/
def choice {α : Type} (choices : List (String × α)) : Value → Checked α
  | .str s =>
    match choices.find? fun c => c.1 == s with
    | some c => .ok c.2
    | none => .fail (.notChoice (choices.map (·.1)))
  | _ => .fail (.notChoice (choices.map (·.1)))

/-! ## Numbers -/

/-- Digits with single underscores between them. -/
def unsigned? (s : List Char) : Option Nat :=
  let groups := Text.splitWhere (· == '_') s
  if groups.all fun g => !g.isEmpty && g.all isAsciiDigit then
    some (ofDigits groups.flatten)
  else none

/-- The integer that a text writes: an optional sign, digits, and an optional fraction of zeros. -/
def integerOfText? (s : List Char) : Option Int :=
  let s := Text.stripSpace s
  let (negative, s) := match s with
    | '-' :: rest => (true, rest)
    | '+' :: rest => (false, rest)
    | _ => (false, s)
  let whole := s.takeWhile (· != '.')
  let fraction := (s.dropWhile (· != '.')).drop 1
  if fraction.all (· == '0') then
    (unsigned? whole).map fun n => if negative then -(n : Int) else n
  else none

/-- An integer, or something that stands for one. -/
def integer : Value → Checked Int
  | .int n => .ok n
  | .bool b => .ok (if b then 1 else 0)
  | .float x =>
    if !x.isFinite then .fail .infiniteNumber
    else match x.toInt? with
      | some n => if n.natAbs < powTwo 63 then .ok n else .fail .oversizedNumber
      | none => .fail .fractionalNumber
  | .str s =>
    match integerOfText? s.toList with
    | some n => .ok n
    | none => .fail .unreadableInteger
  | _ => .fail .notInteger

/-- A natural number that is at least `least`. -/
def natAtLeast (least : Nat) (v : Value) : Checked Nat :=
  (integer v).refine fun n =>
    if n < least then .fail (.belowMinimum least) else .ok n.toNat

/-- A natural number between two bounds. -/
def natBetween (least greatest : Nat) (v : Value) : Checked Nat :=
  (natAtLeast least v).refine fun n =>
    if greatest < n then .fail (.aboveMaximum greatest) else .ok n

/-! ## Truth values -/

/-- The words for true. -/
def trueWords : List String := ["1", "true", "t", "yes", "y", "on"]

/-- The words for false. -/
def falseWords : List String := ["0", "false", "f", "no", "n", "off"]

/-- A truth value, or something that stands for one. -/
def truth : Value → Checked Bool
  | .bool b => .ok b
  | .int n => if n == 0 then .ok false else if n == 1 then .ok true else .fail .unreadableBool
  | .float x =>
    match x.toInt? with
    | some 0 => .ok false
    | some 1 => .ok true
    | _ => .fail .notBool
  | .str s =>
    let word := String.ofList (s.toList.map Char.toLower)
    if trueWords.contains word then .ok true
    else if falseWords.contains word then .ok false
    else .fail .unreadableBool
  | _ => .fail .notBool

/-! ## Parts -/

/-- Something, or nothing where the value is absent. -/
def optional {α : Type} (check : Value → Checked α) : Value → Checked (Option α)
  | .null => .ok none
  | v => (check v).map some

/-- The items of a list from position `i` on. -/
def itemsFrom {α : Type} (check : Value → Checked α) : Nat → List Value → Checked (List α)
  | _, [] => .ok []
  | i, v :: rest =>
    List.cons <$> (check v).under (.index i) <*> itemsFrom check (i + 1) rest

/-- A list. -/
def listOf {α : Type} (check : Value → Checked α) : Value → Checked (List α)
  | .list items => itemsFrom check 0 items
  | _ => .fail .notList

/-- A key of a mapping, which has to be a name. -/
def keyName : Scalar → Checked String
  | .str s => .ok s
  | k => .bad [⟨[.ofKey k, .name "[key]"], .notString⟩]

/-- The entries of a mapping whose keys are names. -/
def entriesOf {α : Type} (check : Value → Checked α) :
    List (Scalar × Value) → Checked (List (String × α))
  | [] => .ok []
  | (k, v) :: rest =>
    (fun name a others => (name, a) :: others) <$> keyName k <*> (check v).under (.ofKey k) <*>
      entriesOf check rest

/-- A mapping whose keys are names. -/
def mapOf {α : Type} (check : Value → Checked α) : Value → Checked (List (String × α))
  | .map entries => entriesOf check entries
  | _ => .fail .notMapping

/-- Any value. -/
def anything (v : Value) : Checked Value := .ok v

/-! ## Records -/

/-- A mapping of the named shape, whose fields are then checked. -/
def ofFields {α : Type} (shape : String) (check : Entries → Checked α) : Value → Checked α
  | .map entries => check entries
  | _ => .fail (.notModel shape)

/-- A field that has to be there. -/
def required {α : Type} (es : Entries) (name : String) (check : Value → Checked α) : Checked α :=
  match es.get? name with
  | some v => (check v).under (.name name)
  | none => .bad [⟨[.name name], .missing⟩]

/-- A field with a default. -/
def field {α : Type} (es : Entries) (name : String) (default : α) (check : Value → Checked α) :
    Checked α :=
  match es.get? name with
  | some v => (check v).under (.name name)
  | none => .ok default

end DocTree.Schema
