import DocTree.Proofs.Hash.Numbering

/-!
# The nodes of parsed trees are well formed

A tree is put together from texts that are written in many ways: escaped, in braces, across lines, with
bars and blanks to spare. None of this shows in the tree of a hash (`parse_wellFormed`). Each of its nodes
has types without bars and blanks and a description with single spaces, and its children are found under
different keys, of which the names are variables and nothing else. In particular no line feed stands behind
a name, although `isVariable` lets one pass, because a name is part of a word.

What is shown of every node is shown of what hashes write (`Written`), one level at a time.
-/

namespace DocTree.Hash

open Text (isBlank)

/-- The types, the description and the keys of a node are as they are meant to be. -/
structure Tree.WellFormed (t : Tree) : Prop where
  types_ne_nil : t.types ≠ []
  types : ∀ s ∈ t.types, s ≠ [] ∧ ∀ c ∈ s, isBlank c = false ∧ c ≠ '|'
  content : Text.SingleSpaced t.content
  names : ∀ w ∈ t.children, ∀ v, w.1 = .name v → VariableName v
  keys : (t.children.map (·.1)).Nodup

/-! ## Parts of a node -/

theorem types_default :
    defaultTypes ≠ [] ∧ ∀ s ∈ defaultTypes, s ≠ [] ∧ ∀ c ∈ s, isBlank c = false ∧ c ≠ '|' := by
  decide

/-- A leading text follows a description after one space. -/
theorem singleSpaced_withLead {description lead : List Char}
    (hdescription : Text.SingleSpaced description) (hlead : Text.SingleSpaced lead) :
    Text.SingleSpaced (withLead description lead) := by
  rw [withLead]
  split
  · exact hdescription
  · next hlead' =>
    split
    · exact hlead
    · next hdescription' =>
      exact hdescription.join hlead (by simpa using hdescription') (by simpa using hlead')

section Declares

variable {text : List Char} {d : Option Declaration}

theorem types_of_declares (h : Declares text d) :
    blockTypes d ≠ [] ∧ ∀ s ∈ blockTypes d, s ≠ [] ∧ ∀ c ∈ s, isBlank c = false ∧ c ≠ '|' := by
  cases h with
  | nothing => exact types_default
  | parameter hd => exact Declaration.types_of_parse hd

theorem singleSpaced_of_declares (h : Declares text d) :
    Text.SingleSpaced (blockDescription d) := by
  cases h with
  | nothing => exact Text.singleSpaced_nil
  | parameter hd => exact Declaration.singleSpaced_description hd

theorem variableName_of_declares (h : Declares text d) (hname : blockVariable d ≠ []) :
    VariableName (blockVariable d) := by
  cases h with
  | nothing => exact absurd rfl hname
  | parameter hd => exact Declaration.variableName_of_parse hd hname

end Declares

/-- A block has a name exactly if it is declared with a variable. -/
theorem blockKey_eq_name {shared : Bool} {opened numbered : Nat} {variableName v : List Char}
    (h : blockKey shared opened numbered variableName = .name v) :
    variableName ≠ [] ∧ variableName = v := by
  rw [blockKey] at h
  split at h
  · cases h
  · next hname =>
    cases h
    exact ⟨by simpa using hname, rfl⟩

/-! ## What hashes write -/

/-- A name under which a hash writes a child is a variable. -/
theorem Written.variableName {w : Key × Tree} (h : Written w) {v : List Char} (hv : w.1 = .name v) :
    VariableName v := by
  cases h with
  | leaf hd hname =>
    cases hv
    exact Declaration.variableName_of_parse hd hname
  | block shared opened numbered hd _ _ =>
    obtain ⟨hname, rfl⟩ := blockKey_eq_name hv
    exact variableName_of_declares hd hname

/-- A child that a hash writes is well formed, and its own children are written by the hash. -/
theorem Written.wellFormed {w : Key × Tree} (h : Written w) :
    w.2.WellFormed ∧ ∀ v ∈ w.2.children, Written v := by
  cases h with
  | leaf hd _ =>
    obtain ⟨htypes, hchars⟩ := Declaration.types_of_parse hd
    exact ⟨⟨htypes, hchars, Declaration.singleSpaced_description hd,
      fun v hv => absurd hv List.not_mem_nil, List.nodup_nil⟩, fun v hv => absurd hv List.not_mem_nil⟩
  | block _ _ _ hd hkeys hchildren =>
    obtain ⟨htypes, hchars⟩ := types_of_declares hd
    have hdescription := singleSpaced_of_declares hd
    exact ⟨⟨htypes, hchars, singleSpaced_withLead hdescription (Text.singleSpaced_squeeze _),
      fun v hv _ => (hchildren v hv).variableName, hkeys⟩, hchildren⟩

/-- Every node of the tree of a hash is well formed, and its children are written by the hash. -/
theorem wellFormed_of_hasNode {dialect : Dialect} {content : List Char} {t u : Tree}
    (h : parse dialect content = .ok t) (hu : t.HasNode u) :
    u.WellFormed ∧ ∀ w ∈ u.children, Written w := by
  induction hu with
  | root =>
    obtain ⟨text, children, rfl, hkeys, hchildren⟩ := exists_of_parse h
    exact ⟨⟨types_default.1, types_default.2, Text.singleSpaced_squeeze text,
      fun w hw _ => (hchildren w hw).variableName, hkeys⟩, hchildren⟩
  | child _ hv ih => exact (ih.2 _ hv).wellFormed

/-- **Every node of a parsed tree is well formed**, and the root is an array. -/
theorem parse_wellFormed {dialect : Dialect} {content : List Char} {t : Tree}
    (h : parse dialect content = .ok t) :
    t.types = ["array".toList] ∧ ∀ u, t.HasNode u → u.WellFormed := by
  refine ⟨?_, fun u hu => (wellFormed_of_hasNode h hu).1⟩
  obtain ⟨text, children, rfl, -, -⟩ := exists_of_parse h
  rfl

/-- A hash with superfluous bars and blanks of several kinds, and an escaped brace behind a name. -/
def untidyHash : List Char :=
  "\x7b a\t\n b @type x||y ...$v\x7b c \u00a0 d @type int &$w\\\x7b e\tf \x7d \x7d".toList

/-- The tree of that hash. -/
def tidyTree : Tree :=
  .node "a b".toList ["array".toList] [(.name "...$v".toList, .node "c d".toList ["x".toList, "y".toList]
    [(.name "&$w".toList, .node "\x7b e f".toList ["int".toList] [])])]

/-- Nothing untidy is left in its tree. -/
theorem parse_wellFormed_untidy :
    parse ⟨.standard, 3, true⟩ untidyHash = .ok tidyTree ∧
      tidyTree.types = ["array".toList] ∧ ∀ u, tidyTree.HasNode u → u.WellFormed := by
  have hinner : unbrace untidyHash =
      .ok " a\t\n b @type x||y ...$v\x7b c \u00a0 d @type int &$w\\\x7b e\tf \x7d ".toList := by
    decide +kernel
  have htokens : tokenize .standard
      " a\t\n b @type x||y ...$v\x7b c \u00a0 d @type int &$w\\\x7b e\tf \x7d ".toList =
      [⟨.text, " a\t\n b ".toList, 0⟩, ⟨.marker, "type".toList, 7⟩, ⟨.text, " x||y ...$v".toList, 12⟩,
        ⟨.opening, ['{'], 23⟩, ⟨.text, " c \u00a0 d ".toList, 24⟩, ⟨.marker, "type".toList, 31⟩,
        ⟨.text, " int &$w\x7b e\tf ".toList, 36⟩, ⟨.closing, ['}'], 51⟩, ⟨.text, " ".toList, 52⟩] := by
    decide +kernel
  have hparse : parse ⟨.standard, 3, true⟩ untidyHash = .ok tidyTree := by
    rw [parse_of_unbrace hinner, htokens]
    rfl
  exact ⟨hparse, parse_wellFormed hparse⟩

end DocTree.Hash
