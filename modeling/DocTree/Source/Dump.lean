import DocTree.Source.Element

/-!
# Elements as documents

Every element can be written back as a mapping with all its fields, also those that have their
default.
-/

namespace DocTree

/-- The fields of a head. -/
def Head.fields (h : Head) : List (String × Value) :=
  [("name", .str h.name), ("line", .nat h.line), ("end_line", .optNat h.endLine),
   ("docblock", Docblock.optToValue h.docblock)]

/-- An argument as a document. -/
def Argument.toValue (a : Argument) : Value :=
  .record [("name", .str a.name), ("default", .optStr a.default), ("type", .optStr a.type)]

/-- A use as a document. -/
def Usage.toValue (u : Usage) : Value :=
  .record (u.head.fields ++ [("arguments", .list u.arguments)])

/-- A hook as a document. -/
def Hook.toValue (h : Hook) : Value :=
  .record (h.head.fields ++ [("type", .str h.kind.name), ("arguments", .strs h.arguments)])

/-- An inclusion as a document. -/
def Inclusion.toValue (i : Inclusion) : Value :=
  .record [("name", .str i.name), ("line", .nat i.line), ("type", .str i.kind.name)]

/-- A constant as a document. -/
def ConstantDecl.toValue (c : ConstantDecl) : Value :=
  .record [("name", .str c.name), ("line", .nat c.line), ("value", .optStr c.value)]

/-- Grouped uses as a document. -/
def usesToValue (uses : List (String × List Usage)) : Value :=
  .record (uses.map fun g => (g.1, .list (g.2.map Usage.toValue)))

/-- The fields of a body. -/
def Body.fields (b : Body) : List (String × Value) :=
  [("arguments", .list (b.arguments.map Argument.toValue)), ("uses", usesToValue b.uses),
   ("hooks", .list (b.hooks.map Hook.toValue))]

/-- A function as a document. -/
def FunctionDecl.toValue (f : FunctionDecl) : Value := .record (f.head.fields ++ f.body.fields)

/-- A method as a document. -/
def MethodDecl.toValue (m : MethodDecl) : Value :=
  .record (m.head.fields ++ m.body.fields ++
    [("visibility", .str m.visibility.name), ("static", .bool m.isStatic),
     ("final", .bool m.isFinal), ("abstract", .bool m.isAbstract)])

/-- A property as a document. -/
def PropertyDecl.toValue (p : PropertyDecl) : Value :=
  .record (p.head.fields ++
    [("default", .optStr p.default), ("visibility", .str p.visibility.name),
     ("static", .bool p.isStatic)])

/-- A class as a document. -/
def ClassDecl.toValue (c : ClassDecl) : Value :=
  .record (c.head.fields ++
    [("final", .bool c.isFinal), ("abstract", .bool c.isAbstract), ("parent", .optStr c.parent),
     ("interfaces", .strs c.interfaces), ("properties", .list (c.properties.map PropertyDecl.toValue)),
     ("methods", .list (c.methods.map MethodDecl.toValue))])

/-- A source file as a document. -/
def SourceFile.toValue (f : SourceFile) : Value :=
  .record [("path", .str f.path), ("docblock", Docblock.optToValue f.docblock),
    ("includes", .list (f.includes.map Inclusion.toValue)),
    ("constants", .list (f.constants.map ConstantDecl.toValue)), ("uses", usesToValue f.uses),
    ("hooks", .list (f.hooks.map Hook.toValue)),
    ("functions", .list (f.functions.map FunctionDecl.toValue)),
    ("classes", .list (f.classes.map ClassDecl.toValue))]

end DocTree
