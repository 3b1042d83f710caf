import DocTree.Proofs.Hash.Spacing
import DocTree.Proofs.Log.Outcome
import DocTree.Record.Docblock
import DocTree.Tag.Build

/-!
# From the text of a parameter to its exported tree

The text of a `@param` goes through three readers before it is exported: building the annotation takes
the types and the variable off it and squeezes the rest, exporting puts the rest on one line, and the
parser reads it as a hash. For a hash, the three come to reading the hash as it was written
(`outcome_tag_of_build`).

* `words_of_rawParameter` and `parse_of_rawParameter`: what building makes of the text, whether the
  brace of the hash is attached to the variable or not.
* `outcome_tagContent`: what exporting makes of a squeezed hash; space does not matter to the parser
  (`parse_squeeze_eq_ok_iff`), nor does the end of a line.
-/

namespace DocTree

open Text (isBlank startsNoWord words)

/-! ## The text of a parameter -/

/-- A word that gives types. -/
structure TypeWord (h : List Char) : Prop where
  not_blank : ∀ c ∈ h, isBlank c = false
  not_variable : isVariable h = false
  has_types : typesOfWord h ≠ []

/-- Space between two words. -/
structure Gap (s : List Char) : Prop where
  ne_nil : s ≠ []
  blank : Text.allBlank s = true

/-- The text of a parameter: a word of types, perhaps a variable, and a hash. The opening brace of the
hash may be attached to the variable if it stands alone. -/
inductive RawParameter (h : List Char) : List Char → List Char → List Char → Prop where
  | unnamed {gap c : List Char} (hgap : Gap gap) : RawParameter h [] c (h ++ gap ++ c)
  | named {v gap gap' c : List Char} (hv : isVariable v = true)
      (hvblank : ∀ d ∈ v, isBlank d = false) (hgap : Gap gap) (hgap' : Gap gap') :
      RawParameter h v c (h ++ gap ++ (v ++ gap' ++ c))
  | attached {v gap rest : List Char} (hv : isVariable v = true)
      (hvblank : ∀ d ∈ v, isBlank d = false) (hgap : Gap gap) (hrest : startsNoWord rest = true) :
      RawParameter h v ('{' :: rest) (h ++ gap ++ (v ++ '{' :: rest))

theorem TypeWord.ne_nil {h : List Char} (hh : TypeWord h) : h ≠ [] := by
  rintro rfl
  exact hh.has_types rfl

theorem words_of_gap {h gap : List Char} (hh : TypeWord h) (hgap : Gap gap) (s : List Char) :
    words (h ++ gap ++ s) = h :: words s :=
  Text.words_word_gap hh.ne_nil hh.not_blank hgap.ne_nil hgap.blank s

/-- A text that starts with a brace has a first word that starts with it and is no variable, with a
further brace at its end or without. -/
theorem bindWords_hash (types : List (List Char)) {c : List Char} (hc : c.head? = some '{') :
    Declaration.bindWords types (words c) = ⟨types, [], Text.squeeze c⟩ := by
  have hbrace : isBlank '{' = false := by decide
  obtain ⟨rest, rfl⟩ := List.head?_eq_some_iff.1 hc
  obtain ⟨w, ws, hw⟩ := Text.exists_words_cons hbrace rest
  have hnot : isVariable ('{' :: w) = false :=
    Bool.eq_false_iff.2 fun hv => brace_not_mem_of_isVariable hv List.mem_cons_self
  have hnot' : isVariable ('{' :: w).dropLast = false := by
    -- without its last character the word may be empty; else it still has the brace
    refine Bool.eq_false_iff.2 fun hv => ?_
    cases w with
    | nil => exact ne_nil_of_isVariable hv rfl
    | cons d w => exact brace_not_mem_of_isVariable hv List.mem_cons_self
  rw [Text.squeeze, hw, Declaration.bindWords, hnot, hnot', Bool.and_false,
    if_neg Bool.false_ne_true, if_neg Bool.false_ne_true]

/-- **The declaration of a parameter with a hash** has the types of its first word, its variable, and the
squeezed hash for a description. -/
theorem parse_of_rawParameter {h v c text : List Char} (hh : TypeWord h) (hc : c.head? = some '{')
    (htext : RawParameter h v c text) :
    Declaration.parse text = .ok ⟨typesOfWord h, v, Text.squeeze c⟩ := by
  cases htext with
  | unnamed hgap =>
    rw [Declaration.parse_of_words (words_of_gap hh hgap _) hh.not_variable hh.has_types,
      bindWords_hash _ hc]
  | named hv hvblank hgap hgap' =>
    rw [Declaration.parse_of_words (words_of_gap hh hgap _) hh.not_variable hh.has_types,
      Text.words_word_gap (ne_nil_of_isVariable hv) hvblank hgap'.ne_nil hgap'.blank,
      Declaration.bindWords_variable _ hv]
    rfl
  | @attached v gap rest hv hvblank hgap hrest =>
    have hbrace : isBlank '{' = false := by decide
    have hchars : ∀ d ∈ v ++ ['{'], isBlank d = false := by
      intro d hd
      rcases List.mem_append.1 hd with hd | hd
      · exact hvblank d hd
      · rw [List.mem_singleton.1 hd, hbrace]
    have hword : words (v ++ '{' :: rest) = (v ++ ['{']) :: words rest := by
      rw [← List.singleton_append, ← List.append_assoc,
        Text.words_word_boundary (by simp) hchars hrest]
    -- the variable and the brace are one word, and without the variable the brace is a word
    have hsqueeze : Text.squeeze ('{' :: rest) = Text.joinSpaced (['{'] :: words rest) := by
      rw [Text.squeeze, Text.words_cons_eq hbrace, if_pos hrest]
    rw [Declaration.parse_of_words (words_of_gap hh hgap _) hh.not_variable hh.has_types, hword,
      Declaration.bindWords_attached _ hv, hsqueeze]

/-! ## Building and exporting -/

/-- The annotation that a name and such a text denote. -/
theorem build_of_rawParameter {r : Registry} {h v c text : List Char}
    (hkind : r.kindOf "param" = .binding) (hh : TypeWord h) (hc : c.head? = some '{')
    (htext : RawParameter h v c text) :
    Tag.build r "param" (String.ofList text) =
      .ok ⟨"param", String.ofList (Text.squeeze c),
        .binding ((typesOfWord h).map String.ofList).eraseDups (String.ofList v)⟩ := by
  have hname : bareName "param" = "param" := by decide
  have hparse : Declaration.parse (Text.trim text) =
      .ok ⟨typesOfWord h, v, Text.squeeze c⟩ := by
    rw [Declaration.parse_congr (Text.words_trim text), parse_of_rawParameter hh hc htext]
  rw [Tag.build, hname, if_neg (by decide), String.toList_ofList, hkind, Tag.readText]
  dsimp only
  rw [hparse]

/-- What a hash is exported as: its tree, or its words if it cannot be read. -/
def hashValue (dialect : Hash.Dialect) (c : List Char) : Value :=
  match Hash.parse dialect c with
  | .ok t => t.toValue
  | .error _ => .str (String.ofList (Text.squeeze c))

theorem outcome_hashContent {n : Normalizer} (hraw : n.fallbackToRaw = true) (tag : Tag)
    (c : List Char) :
    (n.hashContent tag (String.ofList (Text.squeeze c))).outcome = .ok (hashValue n.dialect c) := by
  rw [Normalizer.hashContent, String.toList_ofList, hashValue]
  cases hparse : Hash.parse n.dialect c with
  | ok t =>
    rw [Hash.parse_squeeze_eq_ok_iff.2 hparse]
    rfl
  | error e =>
    -- squeezing makes no hash readable
    cases hsqueezed : Hash.parse n.dialect (Text.squeeze c) with
    | ok t =>
      rw [Hash.parse_squeeze_eq_ok_iff, hparse] at hsqueezed
      cases hsqueezed
    | error e' =>
      dsimp only
      rw [if_pos hraw]
      rfl

/-- Squeezing keeps a hash a hash. -/
theorem looksLikeHash_squeeze {c : List Char} (hc : c.head? = some '{') :
    Hash.looksLikeHash (Text.squeeze c) = true := by
  have hbrace : isBlank '{' = false := by decide
  obtain ⟨rest, rfl⟩ := List.head?_eq_some_iff.1 hc
  obtain ⟨t, ht⟩ := List.head?_eq_some_iff.1 (Text.head?_squeeze_cons hbrace rest)
  rw [ht, Hash.looksLikeHash, Text.trimLeft, List.dropWhile_cons_of_neg (by decide)]
  rfl

theorem outcome_tagContent {n : Normalizer} (hraw : n.fallbackToRaw = true) {c : List Char}
    (hc : c.head? = some '{') (detail : TagDetail) :
    (n.tagContent ⟨"param", String.ofList (Text.squeeze c), detail⟩).outcome =
      .ok (hashValue n.dialect c) := by
  have hline : oneLine (String.ofList (Text.squeeze c)) = String.ofList (Text.squeeze c) := by
    rw [oneLine, String.toList_ofList, Text.collapseBreaks_squeeze]
  have hhash : ("param" == hashTagName && Hash.looksLikeHash (Text.squeeze c)) = true := by
    rw [looksLikeHash_squeeze hc]
    rfl
  rw [Normalizer.tagContent, hline]
  dsimp only
  rw [String.toList_ofList, if_pos hhash, outcome_hashContent hraw]

/-- **The tree of a hash reaches the export intact.** An annotation that is built from the text of a
parameter with a hash is exported with the distinct types of its first word, its variable, and the tree
of the hash as it was written; a hash that cannot be read is kept as its words. -/
theorem outcome_tag_of_build (r : Registry) (n : Normalizer) {h v c text : List Char}
    (hkind : r.kindOf "param" = .binding) (hraw : n.fallbackToRaw = true) (hh : TypeWord h)
    (hc : c.head? = some '{') (htext : RawParameter h v c text) :
    ∃ tag, Tag.build r "param" (String.ofList text) = .ok tag ∧
      (n.tag tag).outcome = .ok (.record
        [("name", .str "param"), ("content", hashValue n.dialect c),
          ("types", .strs ((typesOfWord h).map String.ofList).eraseDups),
          ("variable", .str (String.ofList v))]) := by
  refine ⟨_, build_of_rawParameter hkind hh hc htext, ?_⟩
  rw [Normalizer.tag, Traced.outcome_bind_of_ok (outcome_tagContent hraw hc _)]
  rfl

/-- A hash whose brace is attached to the variable, after two equal types. -/
theorem outcome_tag_of_build_attached :
    ∃ tag, Tag.build .standard "param"
        (String.ofList "int|int $args\x7b @type int $x One. \x7d".toList) = .ok tag ∧
      (Normalizer.tag ⟨⟨.standard, 3, true⟩, true⟩ tag).outcome = .ok (.record
        [("name", .str "param"),
          ("content", hashValue ⟨.standard, 3, true⟩ "\x7b @type int $x One. \x7d".toList),
          ("types", .strs ["int"]), ("variable", .str "$args")]) := by
  have hword : TypeWord "int|int".toList := ⟨by decide, by decide +kernel, by decide⟩
  have htext : RawParameter "int|int".toList "$args".toList ('{' :: " @type int $x One. \x7d".toList)
      ("int|int".toList ++ [' '] ++ ("$args".toList ++ '{' :: " @type int $x One. \x7d".toList)) :=
    .attached (by decide +kernel) (by decide) ⟨by decide, by decide⟩ (by decide)
  exact outcome_tag_of_build .standard ⟨⟨.standard, 3, true⟩, true⟩ (by decide) rfl hword rfl htext

end DocTree
