import DocTree.Number.Binary64
import DocTree.Text.Quoted
import DocTree.Value.Moment

/-!
# Documents

The data of a reflector dump and of a settings file is a document: scalars, lists and mappings. A
mapping keeps its entries in the order in which their keys were first written, and a key that is
written again keeps its place and takes the new value. Keys are scalars; in most documents they are
names.
-/

namespace DocTree

/-- A value without parts. -/
inductive Scalar where
  | null
  | bool (b : Bool)
  | int (n : Int)
  | float (x : Binary64)
  | str (s : String)
  /-- A date or a point in time. -/
  | time (m : Moment)
  deriving DecidableEq, Repr

/-- A document. -/
inductive Value where
  | scalar (s : Scalar)
  | list (items : List Value)
  | map (entries : List (Scalar × Value))

namespace Value

/-- The absent value. -/
@[match_pattern] abbrev null : Value := .scalar .null

/-- A truth value. -/
@[match_pattern] abbrev bool (b : Bool) : Value := .scalar (.bool b)

/-- An integer. -/
@[match_pattern] abbrev int (n : Int) : Value := .scalar (.int n)

/-- A number with a fraction. -/
@[match_pattern] abbrev float (x : Binary64) : Value := .scalar (.float x)

/-- A text. -/
@[match_pattern] abbrev str (s : String) : Value := .scalar (.str s)

/-- A list of texts. -/
def strs (xs : List String) : Value := .list (xs.map .str)

/-- A text, or the absent value. -/
def optStr : Option String → Value
  | some s => .str s
  | none => .null

/-- A natural number. -/
def nat (n : Nat) : Value := .int n

/-- A natural number, or the absent value. -/
def optNat : Option Nat → Value
  | some n => .nat n
  | none => .null

/-- A mapping whose keys are names. -/
def record (fields : List (String × Value)) : Value :=
  .map (fields.map fun f => (.str f.1, f.2))

end Value

instance : Inhabited Value := ⟨.null⟩

/-- The entries of a mapping, in order. -/
abbrev Entries := List (Scalar × Value)

namespace Entries

/-- The value under a key. -/
def find? (key : Scalar) : Entries → Option Value
  | [] => none
  | (k, v) :: rest => if k = key then some v else find? key rest

/-- The value under a name. -/
def get? (name : String) (es : Entries) : Option Value := es.find? (.str name)

/-- There is a value under the name. -/
def has (name : String) (es : Entries) : Bool := (es.get? name).isSome

/-- Write a value under a key: in the place of the key if it is there already, else at the end. -/
def insert (key : Scalar) (value : Value) : Entries → Entries
  | [] => [(key, value)]
  | (k, v) :: rest => if k = key then (k, value) :: rest else (k, v) :: insert key value rest

/-- Write a value under a name. -/
def put (name : String) (value : Value) (es : Entries) : Entries := es.insert (.str name) value

/-- What was written under a name is found there. -/
@[simp] theorem get?_put (name : String) (value : Value) (es : Entries) :
    (es.put name value).get? name = some value := by
  rw [get?, put]
  induction es with
  | nil => exact if_pos rfl
  | cons e rest ih =>
    rw [insert]
    split
    · next h => exact if_pos h
    · next h => exact (if_neg h).trans ih

/-- What is written again under a name replaces what was written there. -/
@[simp] theorem put_put (name : String) (v w : Value) (es : Entries) :
    (es.put name v).put name w = es.put name w := by
  rw [put, put, put]
  induction es with
  | nil => exact if_pos rfl
  | cons e rest ih =>
    rw [insert, insert]
    split
    · next h => exact if_pos h
    · next h => rw [insert, if_neg h, ih]

/-- Writing what is there already changes nothing. -/
theorem put_self {name : String} {v : Value} {es : Entries} (h : es.get? name = some v) :
    es.put name v = es := by
  rw [get?] at h
  rw [put]
  induction es with
  | nil => cases h
  | cons e rest ih =>
    obtain ⟨k, w⟩ := e
    rw [find?] at h
    rw [insert]
    split
    · next hk =>
      rw [if_pos hk] at h
      rw [Option.some.inj h]
    · next hk =>
      rw [if_neg hk] at h
      rw [ih h]

/-- Entries written one after another. -/
def ofList (es : List (Scalar × Value)) : Entries :=
  es.foldl (fun acc e => insert e.1 e.2 acc) []

end Entries

namespace Value

/-! ## Comparing -/

mutual

/-- Whether two documents are the same. -/
def decEq : (v w : Value) → Decidable (v = w)
  | scalar s, scalar t => decidable_of_iff (s = t) (by rw [Value.scalar.injEq])
  | list xs, list ys =>
    have := decEqItems xs ys
    decidable_of_iff (xs = ys) (by rw [Value.list.injEq])
  | map es, map fs =>
    have := decEqEntries es fs
    decidable_of_iff (es = fs) (by rw [Value.map.injEq])
  | scalar _, list _ | scalar _, map _ | list _, scalar _ | list _, map _ | map _, scalar _
  | map _, list _ => isFalse nofun

/-- Whether two lists of items are the same. -/
def decEqItems : (xs ys : List Value) → Decidable (xs = ys)
  | [], [] => isTrue rfl
  | x :: xs, y :: ys =>
    have := decEq x y
    have := decEqItems xs ys
    decidable_of_iff (x = y ∧ xs = ys) (by rw [List.cons.injEq])
  | [], _ :: _ | _ :: _, [] => isFalse nofun

/-- Whether two lists of entries are the same. -/
def decEqEntries : (es fs : List (Scalar × Value)) → Decidable (es = fs)
  | [], [] => isTrue rfl
  | (k, v) :: es, (l, w) :: fs =>
    have := decEq v w
    have := decEqEntries es fs
    decidable_of_iff ((k = l ∧ v = w) ∧ es = fs) (by rw [List.cons.injEq, Prod.mk.injEq])
  | [], _ :: _ | _ :: _, [] => isFalse nofun

end

instance : DecidableEq Value := decEq

/-! ## Truth -/

/-- Everything but the absent value, falsehood, zero and what is empty. -/
def truthy : Value → Bool
  | null => false
  | bool b => b
  | int n => n != 0
  | float (.finite _ m _) => m != 0
  | str s => s != ""
  | list items => !items.isEmpty
  | map entries => !entries.isEmpty
  | _ => true

end Value

end DocTree
