import DocTree.Hash.Parser
import DocTree.Proofs.Tag.Declaration

/-!
# The grammar of hashes

The tokens of a hash are described without a machine: `Derives` says which tokens form a block, the
entries of a block, or one entry, and what they say (`Entry`). A block is optional text followed by
entries, and an entry is

* blank text,
* a marker and optional text that declares a variable, with no opening brace behind it (a *leaf*),
* a marker and optional text that declares nothing or a parameter, followed by a block in braces,
* a block in braces.

`Entry.writes` is the meaning of an entry: the key and the tree it puts among the children of its
block. The tree of a hash collects what its entries write, in the order in which they are written, so
a key that is written again keeps its place and takes the new tree (`putAll`).

Derivations look at a token only for its kind and its words (`Derives.congr`). Positions, and the
amount of space between words, do not matter.
-/

namespace DocTree.Hash

/-! ## Entries -/

/-- What an entry of a block says. -/
inductive Entry where
  /-- Nothing: blank text. -/
  | blank
  /-- An entry without a block. -/
  | leaf (d : Declaration)
  /-- An entry with a block: the declaration if there is one, the words of the leading text with one
  space between them, and the entries of the block. -/
  | block (d : Option Declaration) (lead : List Char) (entries : List Entry)

/-- The entry ends where its declaration ends. -/
def Entry.isLeaf : Entry → Bool
  | leaf _ => true
  | _ => false

/-- What tokens may be derived as; the depth is the number of blocks that are open around them. -/
inductive Phrase where
  | block (depth : Nat) (lead : List Char) (entries : List Entry)
  | entries (depth : Nat) (es : List Entry)
  | entry (depth : Nat) (e : Entry)

/-! ## Derivations -/

/-- No token, or one token of text. -/
inductive OptText : List Char → List Token → Prop where
  | absent : OptText [] []
  | present {t : Token} (ht : t.kind = .text) : OptText t.value [t]

/-- What a text declares for a block: nothing if it is blank, else a parameter. -/
inductive Declares (text : List Char) : Option Declaration → Prop where
  | nothing (h : Text.allBlank text = true) : Declares text none
  | parameter {d : Declaration} (h : Declaration.parse text = .ok d) : Declares text (some d)

/-- The next token opens a block. -/
def opensNext : List Token → Bool
  | t :: _ => t.kind == .opening
  | [] => false

/-- The tokens form the phrase, with at most `limit` blocks inside one another. -/
inductive Derives (limit : Nat) : Phrase → List Token → Prop where
  | block {depth : Nat} {text : List Char} {es : List Entry} {lead body : List Token}
      (hlead : OptText text lead) (hbody : Derives limit (.entries depth es) body) :
      Derives limit (.block depth (Text.squeeze text) es) (lead ++ body)
  | nil {depth : Nat} : Derives limit (.entries depth []) []
  | cons {depth : Nat} {e : Entry} {es : List Entry} {ts rest : List Token}
      (hentry : Derives limit (.entry depth e) ts) (hrest : Derives limit (.entries depth es) rest)
      (hnext : e.isLeaf = true → opensNext rest = false) :
      Derives limit (.entries depth (e :: es)) (ts ++ rest)
  | blank {depth : Nat} {t : Token} (ht : t.kind = .text) (hblank : Text.allBlank t.value = true) :
      Derives limit (.entry depth .blank) [t]
  | leaf {depth : Nat} {m : Token} {text : List Char} {ts : List Token} {d : Declaration}
      (hm : m.kind = .marker) (htext : OptText text ts) (hd : Declaration.parse text = .ok d)
      (hname : d.variableName ≠ []) :
      Derives limit (.entry depth (.leaf d)) (m :: ts)
  | announced {depth : Nat} {m o c : Token} {text lead : List Char} {ts inner : List Token}
      {d : Option Declaration} {es : List Entry} (hm : m.kind = .marker) (htext : OptText text ts)
      (hd : Declares text d) (hdepth : depth < limit) (ho : o.kind = .opening)
      (hinner : Derives limit (.block (depth + 1) lead es) inner) (hc : c.kind = .closing) :
      Derives limit (.entry depth (.block d lead es)) (m :: ts ++ o :: inner ++ [c])
  | bare {depth : Nat} {o c : Token} {lead : List Char} {inner : List Token} {es : List Entry}
      (hdepth : depth < limit) (ho : o.kind = .opening)
      (hinner : Derives limit (.block (depth + 1) lead es) inner) (hc : c.kind = .closing) :
      Derives limit (.entry depth (.block none lead es)) (o :: inner ++ [c])

/-! ## Meaning -/

/-- Put children under their keys, one after another. -/
def putAll (children written : List (Key × Tree)) : List (Key × Tree) :=
  written.foldl (fun acc w => putChild w.1 w.2 acc) children

/-- A description followed by the leading text of the block. -/
def withLead (description lead : List Char) : List Char :=
  if lead.isEmpty then description
  else if description.isEmpty then lead
  else description ++ ' ' :: lead

theorem withLead_nil (lead : List Char) : withLead [] lead = lead := by
  rw [withLead]
  split
  · next h => exact (List.isEmpty_iff.1 h).symm
  · rfl

/-- The variable that a block is declared under; empty where there is none. -/
def blockVariable (d : Option Declaration) : List Char := (d.map (·.variableName)).getD []

/-- The description that a block is declared with. -/
def blockDescription (d : Option Declaration) : List Char := (d.map (·.description)).getD []

/-- The types that a block is declared with. -/
def blockTypes (d : Option Declaration) : List (List Char) := (d.map (·.types)).getD defaultTypes

/-- The key of a block. One without a variable is numbered: with a shared index by the blocks opened
before it in the whole hash, else by the numbers given out before it in its own block. -/
def blockKey (shared : Bool) (opened numbered : Nat) (variableName : List Char) : Key :=
  if variableName.isEmpty then .index (if shared then opened else numbered) else .name variableName

/-- How many numbers of its own block an entry takes. -/
def Entry.numbers (shared : Bool) : Entry → Nat
  | block d _ _ => if (blockVariable d).isEmpty && !shared then 1 else 0
  | _ => 0

mutual

/-- How many blocks an entry opens. -/
def Entry.opens : Entry → Nat
  | .block _ _ entries => opensAll entries + 1
  | _ => 0

/-- How many blocks entries open. -/
def opensAll : List Entry → Nat
  | [] => 0
  | e :: es => e.opens + opensAll es

end

mutual

/-- What an entry writes into its block, `opened` blocks having been opened before it in the hash and
`numbered` numbers of its own block having been given out. -/
def Entry.writes (shared : Bool) (opened numbered : Nat) : Entry → List (Key × Tree)
  | .blank => []
  | .leaf d => [(.name d.variableName, .node d.description d.types [])]
  | .block d lead entries =>
    [(blockKey shared opened numbered (blockVariable d),
      .node (withLead (blockDescription d) lead) (blockTypes d)
        (putAll [] (writesAll shared (opened + 1) 0 entries)))]

/-- What entries write into their block, in order. -/
def writesAll (shared : Bool) (opened numbered : Nat) : List Entry → List (Key × Tree)
  | [] => []
  | e :: es =>
    e.writes shared opened numbered ++
      writesAll shared (opened + e.opens) (numbered + e.numbers shared) es

end

/-- The tree of a hash with a leading text and entries. -/
def meaning (shared : Bool) (lead : List Char) (es : List Entry) : Tree :=
  .node lead defaultTypes (putAll [] (writesAll shared 0 0 es))

/-! ## Derivations and spacing -/

/-- The kind of a token and its words: what a derivation looks at. -/
def Token.shape (t : Token) : TokenKind × List (List Char) := (t.kind, Text.words t.value)

/-- The tokens differ only in their positions and in the space between their words. -/
def Alike (ts us : List Token) : Prop := ts.map Token.shape = us.map Token.shape

theorem Alike.nil_iff {us : List Token} : Alike [] us ↔ us = [] := by
  rw [Alike, List.map_nil, eq_comm, List.map_eq_nil_iff]

theorem Alike.exists_cons {t : Token} {ts us : List Token} (h : Alike (t :: ts) us) :
    ∃ u us', us = u :: us' ∧ u.kind = t.kind ∧ Text.words u.value = Text.words t.value ∧
      Alike ts us' := by
  obtain ⟨u, us', rfl, hu, hus⟩ := List.map_eq_cons_iff.1 h.symm
  obtain ⟨hkind, hwords⟩ := Prod.mk.inj hu
  exact ⟨u, us', rfl, hkind, hwords, hus.symm⟩

theorem Alike.exists_append {ts rest us : List Token} (h : Alike (ts ++ rest) us) :
    ∃ us₁ us₂, us = us₁ ++ us₂ ∧ Alike ts us₁ ∧ Alike rest us₂ := by
  rw [Alike, List.map_append] at h
  obtain ⟨us₁, us₂, rfl, h₁, h₂⟩ := List.map_eq_append_iff.1 h.symm
  exact ⟨us₁, us₂, rfl, h₁.symm, h₂.symm⟩

theorem allBlank_congr {s t : List Char} (h : Text.words s = Text.words t) :
    Text.allBlank s = Text.allBlank t := by
  rw [Bool.eq_iff_iff, ← Text.words_eq_nil_iff, ← Text.words_eq_nil_iff, h]

theorem Declares.congr {s t : List Char} (h : Text.words t = Text.words s) {d : Option Declaration}
    (hd : Declares s d) : Declares t d := by
  cases hd with
  | nothing hs => exact .nothing (by rw [allBlank_congr h, hs])
  | parameter hs => exact .parameter (by rw [Declaration.parse_congr h, hs])

theorem opensNext_congr {ts us : List Token} (h : Alike ts us) : opensNext us = opensNext ts := by
  cases ts with
  | nil => rw [Alike.nil_iff.1 h]
  | cons t ts =>
    obtain ⟨u, us, rfl, hkind, -, -⟩ := h.exists_cons
    rw [opensNext, opensNext, hkind]

/-- Optional text goes over to tokens that are alike, and the words of the text stay. -/
theorem OptText.congr {text : List Char} {ts us : List Token} (h : OptText text ts)
    (halike : Alike ts us) : ∃ text', OptText text' us ∧ Text.words text' = Text.words text := by
  cases h with
  | absent => exact ⟨[], Alike.nil_iff.1 halike ▸ .absent, rfl⟩
  | present ht =>
    obtain ⟨u, us, rfl, hkind, hwords, hnil⟩ := halike.exists_cons
    exact ⟨u.value, Alike.nil_iff.1 hnil ▸ .present (hkind.trans ht), hwords⟩

/-- **A derivation looks at tokens only for their kinds and their words.** -/
theorem Derives.congr {limit : Nat} {φ : Phrase} {ts us : List Token} (h : Derives limit φ ts)
    (halike : Alike ts us) : Derives limit φ us := by
  -- in each case the other tokens are cut where the derivation cuts the given ones
  induction h generalizing us with
  | block hlead hbody ih =>
    obtain ⟨lead, body, rfl, hl, hb⟩ := halike.exists_append
    obtain ⟨text, htext, hwords⟩ := hlead.congr hl
    rw [← Text.squeeze_congr hwords]
    exact .block htext (ih hb)
  | nil => exact Alike.nil_iff.1 halike ▸ .nil
  | cons hentry hrest hnext ihe ihr =>
    obtain ⟨ts, rest, rfl, ht, hr⟩ := halike.exists_append
    exact .cons (ihe ht) (ihr hr) fun hleaf => (opensNext_congr hr).trans (hnext hleaf)
  | blank ht hblank =>
    obtain ⟨u, us, rfl, hkind, hwords, hnil⟩ := halike.exists_cons
    exact Alike.nil_iff.1 hnil ▸ .blank (hkind.trans ht) ((allBlank_congr hwords).trans hblank)
  | leaf hm htext hd hname =>
    obtain ⟨m, ts, rfl, hkind, -, ht⟩ := halike.exists_cons
    obtain ⟨text, htext, hwords⟩ := htext.congr ht
    exact .leaf (hkind.trans hm) htext ((Declaration.parse_congr hwords).trans hd) hname
  | announced hm htext hd hdepth ho hinner hc ih =>
    obtain ⟨front, last, rfl, hf, hl⟩ := halike.exists_append
    obtain ⟨head, back, rfl, hh, hb⟩ := hf.exists_append
    obtain ⟨m, ts, rfl, hkm, -, ht⟩ := hh.exists_cons
    obtain ⟨o, inner, rfl, hko, -, hi⟩ := hb.exists_cons
    obtain ⟨c, us, rfl, hkc, -, hnil⟩ := hl.exists_cons
    obtain ⟨text, htext, hwords⟩ := htext.congr ht
    exact Alike.nil_iff.1 hnil ▸ .announced (hkm.trans hm) htext (hd.congr hwords) hdepth
      (hko.trans ho) (ih hi) (hkc.trans hc)
  | bare hdepth ho hinner hc ih =>
    obtain ⟨head, last, rfl, hh, hl⟩ := halike.exists_append
    obtain ⟨o, inner, rfl, hko, -, hi⟩ := hh.exists_cons
    obtain ⟨c, us, rfl, hkc, -, hnil⟩ := hl.exists_cons
    exact Alike.nil_iff.1 hnil ▸ .bare hdepth (hko.trans ho) (ih hi) (hkc.trans hc)

end DocTree.Hash
