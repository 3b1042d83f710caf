import DocTree.Yaml.Time

/-!
# What is wrong with a document

Most texts that are no documents are just that. A few are documents in form, but one of their scalars
spells something that does not exist.
-/

namespace DocTree.Yaml

/-- Why a document cannot be read. -/
inductive Error where
  /-- The text is not a document. -/
  | malformed
  /-- A number is spelled without digits. -/
  | noDigits (radix : Nat)
  /-- A moment that the calendar does not have. -/
  | noMoment (fault : MomentFault)
  /-- A character that there is not. -/
  | noCharacter (point : Nat)
  deriving DecidableEq, Repr

/-- An error in words. -/
def Error.message : Error → String
  | .malformed => "Invalid YAML"
  | .noDigits radix => "invalid literal for int() with base " ++ toString radix ++ ": ''"
  | .noMoment fault => fault.message
  | .noCharacter _ => "chr() arg not in range(0x110000)"

/-- What is there, if the text is a document. -/
def orMalformed {α : Type} : Option α → Except Error α
  | some a => .ok a
  | none => .error .malformed

end DocTree.Yaml
