/-!
# Names and what they are bound to

A list of bindings holds each name once, in the order in which the names were first bound; binding a
name again changes what it is bound to and not its place.
-/

namespace DocTree

/-- Names with what they are bound to. -/
abbrev Bindings (α : Type) := List (String × α)

namespace Bindings

variable {α : Type}

/-- What a name is bound to. -/
def get? (name : String) : Bindings α → Option α
  | [] => none
  | (n, a) :: rest => if n = name then some a else get? name rest

/-- Bind a name, in its place if it is bound already. -/
def set (name : String) (a : α) : Bindings α → Bindings α
  | [] => [(name, a)]
  | (n, b) :: rest => if n = name then (n, a) :: rest else (n, b) :: set name a rest

/-- Bind names one after another; the last binding of a name wins. -/
def setAll (bs : Bindings α) (start : Bindings α) : Bindings α :=
  bs.foldl (fun acc b => set b.1 b.2 acc) start

/-- Undo the binding of a name. -/
def erase (name : String) (bs : Bindings α) : Bindings α := bs.filter fun b => b.1 != name

/-- The names, in order. -/
def names (bs : Bindings α) : List String := bs.map (·.1)

end Bindings

end DocTree
