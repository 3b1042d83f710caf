/-!
# The console

Messages and tables are texts with marks of style, `[red]` to open one and `[/red]` to close it. The
console renders such a text to the one that it shows, or refuses it with a fault: a text from outside may
hold what reads as a mark, too. How it renders is not said here. A command works with any console, and
what is proved about commands relies on little of it, namely that it shows what the program itself writes
(`Console.Lawful`).
-/

namespace DocTree.Command

/-- What shows texts with marks of style. -/
structure Console where
  /-- The text that is shown for a text with marks, or the fault of its marks. -/
  render : String → Except String String

/-- The styles in which the program writes. -/
inductive Style where
  | red
  | yellow
  | green
  deriving DecidableEq, Repr

/-- The name of a style in a mark. -/
def Style.name : Style → String
  | .red => "red"
  | .yellow => "yellow"
  | .green => "green"

/-- A text between the marks of a style. -/
def styled (style : Style) (text : String) : String :=
  "[" ++ style.name ++ "]" ++ text ++ "[/" ++ style.name ++ "]"

namespace Console

end Console

end DocTree.Command
