import DocTree.Tag.Kind
import DocTree.Text.Case
import DocTree.Text.Order
import DocTree.Value.Bindings
import DocTree.Value.Display

/-!
# Registries of annotation names

A registry says of which kind an annotation is and which annotations announce an entry of a hash, the
*markers*. Names are compared without their leading `@` and in lower case. A marker always names a
variable, so a registry in which a marker is bound to another kind does not exist: building one fails.

Registries are values. `Registry.extend` leaves its argument alone and gives a registry in which the
new bindings win.
-/

namespace DocTree

/-- Which kind each annotation has, and which annotations announce an entry of a hash. -/
structure Registry where
  /-- Bound names, in lower case and each one once. -/
  kinds : Bindings TagKind
  /-- Names of the markers, in lower case and each one once. -/
  markers : List String
  /-- The kind of a name without a binding. -/
  defaultKind : TagKind
  deriving DecidableEq, Repr

/-- Why there is no such registry. -/
inductive RegistryError where
  /-- Something that is not the name of a kind was given as a kind. -/
  | unknownKind (given : String)
  /-- A marker is bound to a kind that names no variable. -/
  | markerKind (marker : String)
  deriving DecidableEq, Repr

/-- What is reported when there is no such registry. -/
def RegistryError.message : RegistryError → String
  | unknownKind given => given ++ " is not a valid TagKind"
  | markerKind marker => "Hash marker '@" ++ marker ++ "' must be a variable tag"

/-! ## Names -/

/-- A name in lower case. -/
def lowerName (name : String) : String := String.ofList (Text.lower name.toList)

/-- A name without its leading `@`. -/
def bareName (name : String) : String := String.ofList (name.toList.dropWhile (· == '@'))

/-- The form in which a name is looked up. -/
def lookupName (name : String) : String := lowerName (bareName name)

/-- The kind that a value names. -/
def TagKind.ofValue : Value → Except RegistryError TagKind
  | .str s =>
    match TagKind.ofName? s with
    | some k => .ok k
    | none => .error (.unknownKind (Text.quoted s))
  | v => .error (.unknownKind v.shown)

namespace Registry

/-! ## Building -/

/-- Bind one marker, unless it is bound, and refuse it if it is bound to another kind. -/
def addMarker (kinds : Bindings TagKind) (marker : String) :
    Except RegistryError (Bindings TagKind) :=
  match Bindings.get? marker kinds with
  | none => .ok (Bindings.set marker .binding kinds)
  | some .binding => .ok kinds
  | some _ => .error (.markerKind marker)

/-- A registry of bindings whose kinds are known. -/
def ofBindings (kinds : Bindings TagKind) (markers : List String) (defaultKind : TagKind) :
    Except RegistryError Registry := do
  let lowered := Bindings.setAll (kinds.map fun b => (lowerName b.1, b.2)) []
  let markers := (markers.map lowerName).eraseDups
  let kinds ← markers.foldlM addMarker lowered
  return { kinds, markers, defaultKind }

/-- A registry of bindings as they are given; every given kind has to be one. -/
def make (kinds : Bindings Value) (markers : List String) (defaultKind : Value) :
    Except RegistryError Registry := do
  let kinds ← kinds.mapM fun b => do return (b.1, ← TagKind.ofValue b.2)
  let registry ← ofBindings kinds markers .plain
  return { registry with defaultKind := ← TagKind.ofValue defaultKind }

/-- The markers used unless others are given. -/
def defaultMarkers : List String := ["type"]

/-- The standard annotations. -/
def defaultKinds : Bindings TagKind :=
  [("param", .binding), ("type", .binding), ("var", .binding), ("property", .binding),
   ("property-read", .binding), ("property-write", .binding), ("global", .binding),
   ("return", .typed), ("throws", .typed),
   ("see", .reference), ("uses", .reference), ("used-by", .reference), ("link", .reference),
   ("covers", .reference),
   ("since", .version), ("deprecated", .version), ("version", .version)]

/-- The standard registry. -/
def standard : Registry := ⟨defaultKinds, defaultMarkers, .plain⟩

/-- A registry with further bindings, and other markers if any are given. Of several bindings of one
name only the last has to name a kind. -/
def extend (r : Registry) (kinds : Bindings Value) (markers : Option (List String)) :
    Except RegistryError Registry := do
  let given := Bindings.setAll (kinds.map fun b => (lowerName b.1, b.2)) []
  let merged := Bindings.setAll given (r.kinds.map fun b => (b.1, .str b.2.name))
  make merged (markers.getD r.markers) (.str r.defaultKind.name)

/-! ## Looking up -/

/-- The kind of an annotation. -/
def kindOf (r : Registry) (name : String) : TagKind :=
  (Bindings.get? (lookupName name) r.kinds).getD r.defaultKind

/-- The annotation announces an entry of a hash. -/
def isMarker (r : Registry) (name : String) : Bool := r.markers.contains (lookupName name)

/-- The annotation has a binding. -/
def contains (r : Registry) (name : String) : Bool := (Bindings.get? (lookupName name) r.kinds).isSome

/-- All bound names in alphabetical order. -/
def names (r : Registry) : List String := Text.sortNames (r.kinds.map (·.1))

/-- All markers in alphabetical order. -/
def sortedMarkers (r : Registry) : List String := Text.sortNames r.markers

/-- The two registries answer every question alike. -/
def same (r s : Registry) : Bool :=
  r.kinds.length == s.kinds.length &&
    (r.kinds.all fun b => Bindings.get? b.1 s.kinds == some b.2) &&
    r.markers.length == s.markers.length && (r.markers.all fun m => s.markers.contains m) &&
    r.defaultKind == s.defaultKind

/-- The registry in one line: how many names are bound, and the markers. -/
def summary (r : Registry) : String :=
  "TagRegistry(" ++ toString r.kinds.length ++ " tags, markers=" ++
    Text.quotedList r.sortedMarkers ++ ")"

end Registry

end DocTree
