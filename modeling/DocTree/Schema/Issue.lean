import DocTree.Value.Display

/-!
# What can be wrong with a document

A document that should describe something is checked as a whole: every fault is an *issue*, an issue
says where in the document it lies and what it is, and the issues come in the order of the fields.
-/

namespace DocTree.Schema

/-- One step of the way to a part of a document. -/
inductive Step where
  /-- A field or a key. -/
  | name (s : String)
  /-- A position in a list, or a key that is a number. -/
  | index (n : Int)
  deriving DecidableEq, Repr

/-- A step as text. -/
def Step.text : Step → String
  | .name s => s
  | .index n => toString n

/-- A step as a document. -/
def Step.toValue : Step → Value
  | .name s => .str s
  | .index n => .int n

/-- The step to the value under a key. -/
def Step.ofKey : Scalar → Step
  | .str s => .name s
  | .int n => .index n
  | .bool b => .index (if b then 1 else 0)
  | s => .name s.shown

/-- What is wrong at one place of a document. -/
inductive Fault where
  | missing
  /-- Not a mapping where one of the named shape is wanted. -/
  | notModel (shape : String)
  | notString
  | emptyString
  | notInteger
  | unreadableInteger
  | fractionalNumber
  | infiniteNumber
  | oversizedNumber
  | belowMinimum (least : Int)
  | aboveMaximum (greatest : Int)
  | notBool
  | unreadableBool
  | notList
  | notMapping
  /-- Not one of the listed choices. -/
  | notChoice (choices : List String)
  /-- Not the one text that is allowed. -/
  | notLiteral (wanted : String)
  | noKind
  /-- A kind that none of the listed ones matches. -/
  | unknownKind (given : String) (choices : List String)
  | notTag
  /-- A rule of the shape is broken. -/
  | broken (rule : String)
  | frozen
  deriving DecidableEq, Repr

namespace Fault

/-- The short name of a fault. -/
def code : Fault → String
  | missing => "missing"
  | notModel _ => "model_type"
  | notString => "string_type"
  | emptyString => "string_too_short"
  | notInteger => "int_type"
  | unreadableInteger => "int_parsing"
  | fractionalNumber => "int_from_float"
  | infiniteNumber => "finite_number"
  | oversizedNumber => "int_parsing_size"
  | belowMinimum _ => "greater_than_equal"
  | aboveMaximum _ => "less_than_equal"
  | notBool => "bool_type"
  | unreadableBool => "bool_parsing"
  | notList => "list_type"
  | notMapping => "dict_type"
  | notChoice _ => "enum"
  | notLiteral _ => "literal_error"
  | noKind => "union_tag_not_found"
  | unknownKind .. => "union_tag_invalid"
  | notTag => "model_attributes_type"
  | broken _ => "value_error"
  | frozen => "frozen_instance"

/-- Choices in a sentence: quoted, with commas and an "or" before the last one. -/
def choiceText (choices : List String) : String :=
  let quotedOnes := choices.map fun c => "'" ++ c ++ "'"
  match quotedOnes.reverse with
  | [] => ""
  | [c] => c
  | last :: others => ", ".intercalate others.reverse ++ " or " ++ last

/-- A fault in a sentence. -/
def message : Fault → String
  | missing => "Field required"
  | notModel shape => "Input should be a valid dictionary or instance of " ++ shape
  | notString => "Input should be a valid string"
  | emptyString => "String should have at least 1 character"
  | notInteger => "Input should be a valid integer"
  | unreadableInteger => "Input should be a valid integer, unable to parse string as an integer"
  | fractionalNumber => "Input should be a valid integer, got a number with a fractional part"
  | infiniteNumber => "Input should be a finite number"
  | oversizedNumber => "Unable to parse input string as an integer, exceeded maximum size"
  | belowMinimum least => "Input should be greater than or equal to " ++ toString least
  | aboveMaximum greatest => "Input should be less than or equal to " ++ toString greatest
  | notBool => "Input should be a valid boolean"
  | unreadableBool => "Input should be a valid boolean, unable to interpret input"
  | notList => "Input should be a valid list"
  | notMapping => "Input should be a valid dictionary"
  | notChoice choices => "Input should be " ++ choiceText choices
  | notLiteral wanted => "Input should be '" ++ wanted ++ "'"
  | noKind => "Unable to extract tag using discriminator 'kind'"
  | unknownKind given choices =>
    "Input tag '" ++ given ++ "' found using 'kind' does not match any of the expected tags: " ++
      ", ".intercalate (choices.map fun c => "'" ++ c ++ "'")
  | notTag => "Input should be a valid dictionary or object to extract fields from"
  | broken rule => "Value error, " ++ rule
  | frozen => "Instance is frozen"

end Fault

/-- A fault and the place where it lies. -/
structure Issue where
  place : List Step
  fault : Fault
  deriving DecidableEq, Repr

/-- The place of an issue as dotted text. -/
def Issue.placeText (i : Issue) : String := ".".intercalate (i.place.map Step.text)

/-- The document is not what the named shape asks for. -/
structure Rejection where
  shape : String
  issues : List Issue
  deriving DecidableEq, Repr

/-- A rejection in one line. -/
def Rejection.headline (r : Rejection) : String :=
  toString r.issues.length ++ " validation error" ++ (if r.issues.length == 1 then "" else "s") ++
    " for " ++ r.shape

end DocTree.Schema
