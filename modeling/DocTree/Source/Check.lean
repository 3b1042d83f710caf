import DocTree.Source.Element

/-!
# Elements from documents

Each element of a dump is a mapping. Its fields are checked in the order in which they are declared,
those of the head first; an element ends on the line where it starts or later.
-/

namespace DocTree

open Schema

/-- A line number. -/
def lineNumber (v : Value) : Checked Nat := natAtLeast 1 v

/-- An element may not end before it starts. -/
def Head.orderRule (h : Head) : Option String :=
  match h.endLine with
  | some e => if e < h.line then some "end_line must be >= line" else none
  | none => none

/-- The fields of a head. -/
def Head.check (es : Entries) : Checked Head :=
  Head.mk <$> required es "name" nonEmptyText <*> required es "line" lineNumber <*>
    field es "end_line" none (optional lineNumber) <*>
    field es "docblock" none (optional Docblock.check)

/-- An argument from a document. -/
def Argument.check : Value → Checked Argument :=
  ofFields "Argument" fun es =>
    Argument.mk <$> required es "name" nonEmptyText <*> field es "default" none (optional text) <*>
      field es "type" none (optional text)

/-- A use from a document. -/
def Usage.check : Value → Checked Usage :=
  ofFields "UseReference" fun es =>
    (Usage.mk <$> Head.check es <*> field es "arguments" [] (listOf anything)).obeying
      (·.head.orderRule)

/-- A hook from a document. -/
def Hook.check : Value → Checked Hook :=
  ofFields "Hook" fun es =>
    (Hook.mk <$> Head.check es <*> required es "type" (choice HookKind.choices) <*>
      field es "arguments" [] (listOf text)).obeying (·.head.orderRule)

/-- An inclusion from a document. -/
def Inclusion.check : Value → Checked Inclusion :=
  ofFields "Include" fun es =>
    Inclusion.mk <$> required es "name" nonEmptyText <*> required es "line" lineNumber <*>
      field es "type" .required (choice IncludeKind.choices)

/-- A constant from a document. -/
def ConstantDecl.check : Value → Checked ConstantDecl :=
  ofFields "Constant" fun es =>
    ConstantDecl.mk <$> required es "name" nonEmptyText <*> required es "line" lineNumber <*>
      field es "value" none (optional text)

/-- Uses grouped by the kind of thing used. -/
def usesCheck : Value → Checked (List (String × List Usage)) := mapOf (listOf Usage.check)

/-- The fields of a body. -/
def Body.check (es : Entries) : Checked Body :=
  Body.mk <$> field es "arguments" [] (listOf Argument.check) <*> field es "uses" [] usesCheck <*>
    field es "hooks" [] (listOf Hook.check)

/-- A function from a document. -/
def FunctionDecl.check : Value → Checked FunctionDecl :=
  ofFields "Function" fun es =>
    (FunctionDecl.mk <$> Head.check es <*> Body.check es).obeying (·.head.orderRule)

/-- A method from a document. -/
def MethodDecl.check : Value → Checked MethodDecl :=
  ofFields "Method" fun es =>
    (MethodDecl.mk <$> Head.check es <*> Body.check es <*>
      field es "visibility" .everyone (choice Visibility.choices) <*>
      field es "static" false truth <*> field es "final" false truth <*>
      field es "abstract" false truth).obeying (·.head.orderRule)

/-- A property from a document. -/
def PropertyDecl.check : Value → Checked PropertyDecl :=
  ofFields "Property" fun es =>
    (PropertyDecl.mk <$> Head.check es <*> field es "default" none (optional text) <*>
      field es "visibility" .everyone (choice Visibility.choices) <*>
      field es "static" false truth).obeying (·.head.orderRule)

/-- A class from a document. -/
def ClassDecl.check : Value → Checked ClassDecl :=
  ofFields "ClassElement" fun es =>
    (ClassDecl.mk <$> Head.check es <*> field es "final" false truth <*>
      field es "abstract" false truth <*> field es "parent" none (optional text) <*>
      field es "interfaces" [] (fun v => (listOf text v).map List.eraseDups) <*>
      field es "properties" [] (listOf PropertyDecl.check) <*>
      field es "methods" [] (listOf MethodDecl.check)).obeying (·.head.orderRule)

/-- A source file from a document. -/
def SourceFile.check : Value → Checked SourceFile :=
  ofFields "ReflectedFile" fun es =>
    SourceFile.mk <$> required es "path" nonEmptyText <*>
      field es "docblock" none (optional Docblock.check) <*>
      field es "includes" [] (listOf Inclusion.check) <*>
      field es "constants" [] (listOf ConstantDecl.check) <*> field es "uses" [] usesCheck <*>
      field es "hooks" [] (listOf Hook.check) <*>
      field es "functions" [] (listOf FunctionDecl.check) <*>
      field es "classes" [] (listOf ClassDecl.check)

end DocTree
