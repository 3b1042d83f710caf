import DocTree.Proofs.Hash.Parsing
import Mathlib.Data.List.Perm.Subperm

/-!
# Children put one after another

What a block holds is what its entries write, put under its keys in order (`putAll`): a key that is
new goes to the end, and a key that is written again takes the new tree in its old place. So a child
of a block was written by one of its entries (`mem_putAll`, `mem_writesAll`), and the children of
a block are some of what its entries write, in some order (`putAll_subperm`).

Whatever the hash, what its entries write is either a leaf that was declared or a block whose children
were written in turn (`Written`). What is to be shown of every node of every parsed tree is shown by
induction on this (`exists_of_parse`), with no tokens in sight.
-/

namespace DocTree.Hash

/-- What holds of no entries, and of an entry in front of further ones if it holds of the further ones
and of the entries inside, holds of all lists of entries. -/
@[elab_as_elim]
theorem entries_induction {motive : List Entry → Prop} (nil : motive [])
    (blank : ∀ es, motive es → motive (.blank :: es))
    (leaf : ∀ d es, motive es → motive (.leaf d :: es))
    (block : ∀ d lead inner es, motive inner → motive es → motive (.block d lead inner :: es)) :
    ∀ es, motive es
  | [] => nil
  | .blank :: es => blank es (entries_induction nil blank leaf block es)
  | .leaf d :: es => leaf d es (entries_induction nil blank leaf block es)
  | .block d lead inner :: es =>
    block d lead inner es (entries_induction nil blank leaf block inner)
      (entries_induction nil blank leaf block es)

/-! ## Putting -/

theorem putChild_of_not_mem {key : Key} {children : List (Key × Tree)}
    (h : key ∉ children.map (·.1)) (child : Tree) :
    putChild key child children = children ++ [(key, child)] := by
  induction children with
  | nil => rfl
  | cons other children ih =>
    obtain ⟨k, t⟩ := other
    rw [List.map_cons, List.mem_cons, not_or] at h
    rw [putChild, if_neg (Ne.symm h.1), ih h.2]; rfl

/-- Children under different keys are put one behind another. -/
theorem putAll_of_nodup {children written : List (Key × Tree)}
    (h : ((children ++ written).map (·.1)).Nodup) : putAll children written = children ++ written := by
  induction written generalizing children with
  | nil => rw [List.append_nil]; rfl
  | cons child written ih =>
    have hkey : child.1 ∉ children.map (·.1) := by
      rw [List.map_append, List.nodup_append] at h
      intro hmem
      exact h.2.2 _ hmem _ (List.mem_map_of_mem List.mem_cons_self) rfl
    have hsplit : children ++ child :: written = (children ++ [child]) ++ written := by
      rw [List.append_assoc, List.singleton_append]
    rw [hsplit] at h ⊢
    rw [← ih h, ← putChild_of_not_mem hkey child.2]
    rfl

theorem putAll_nil_of_nodup {written : List (Key × Tree)} (h : (written.map (·.1)).Nodup) :
    putAll [] written = written := by
  rw [putAll_of_nodup (by rwa [List.nil_append]), List.nil_append]

theorem mem_putChild {key : Key} {child : Tree} {children : List (Key × Tree)} {w : Key × Tree}
    (h : w ∈ putChild key child children) : w = (key, child) ∨ w ∈ children := by
  induction children with
  | nil => exact .inl (List.mem_singleton.1 h)
  | cons other children ih =>
    obtain ⟨k, t⟩ := other
    rw [putChild] at h
    split at h
    · next hk =>
      rw [hk, List.mem_cons] at h
      exact h.imp_right (List.mem_cons_of_mem _)
    · rcases List.mem_cons.1 h with rfl | h
      · exact .inr List.mem_cons_self
      · exact (ih h).imp_right (List.mem_cons_of_mem _)

theorem mem_putAll {children written : List (Key × Tree)} {w : Key × Tree}
    (h : w ∈ putAll children written) : w ∈ children ∨ w ∈ written := by
  induction written generalizing children with
  | nil => exact .inl h
  | cons v written ih =>
    rcases ih h with h | h
    · rcases mem_putChild h with rfl | h
      · exact .inr List.mem_cons_self
      · exact .inl h
    · exact .inr (List.mem_cons_of_mem v h)

/-- Putting a child adds it, and at most replaces another one. -/
theorem putChild_subperm (key : Key) (child : Tree) (children : List (Key × Tree)) :
    (putChild key child children).Subperm (children ++ [(key, child)]) := by
  induction children with
  | nil => exact List.Subperm.refl _
  | cons other children ih =>
    obtain ⟨k, t⟩ := other
    rw [putChild]
    split
    · next hk =>
      rw [hk]
      have hperm : ((key, child) :: children).Perm (children ++ [(key, child)]) :=
        (List.perm_append_singleton _ _).symm
      exact hperm.subperm.trans (List.sublist_cons_self _ _).subperm
    · exact (List.subperm_cons _).2 ih

/-- **The children of a block are some of those written**, in some order. -/
theorem putAll_subperm (children written : List (Key × Tree)) :
    (putAll children written).Subperm (children ++ written) := by
  induction written generalizing children with
  | nil => rw [List.append_nil]; exact List.Subperm.refl _
  | cons w written ih =>
    have hput := (List.subperm_append_right written).2 (putChild_subperm w.1 w.2 children)
    rw [List.append_assoc, List.singleton_append] at hput
    exact (ih _).trans hput

/-- Children that are put under their keys have different ones. -/
theorem nodup_keys_putChild {key : Key} {child : Tree} {children : List (Key × Tree)}
    (h : (children.map (·.1)).Nodup) : ((putChild key child children).map (·.1)).Nodup := by
  induction children with
  | nil => exact List.nodup_cons.2 ⟨List.not_mem_nil, List.nodup_nil⟩
  | cons other children ih =>
    obtain ⟨k, t⟩ := other
    rw [List.map_cons, List.nodup_cons] at h
    rw [putChild]
    split
    · exact List.nodup_cons.2 h
    · next hk =>
      refine List.nodup_cons.2 ⟨fun hmem => ?_, ih h.2⟩
      obtain ⟨w, hw, hkey⟩ := List.mem_map.1 hmem
      rcases mem_putChild hw with rfl | hw
      · exact hk hkey.symm
      · exact h.1 (List.mem_map.2 ⟨w, hw, hkey⟩)

theorem nodup_keys_putAll {children : List (Key × Tree)} (h : (children.map (·.1)).Nodup)
    (written : List (Key × Tree)) : ((putAll children written).map (·.1)).Nodup := by
  induction written generalizing children with
  | nil => exact h
  | cons w written ih => exact ih (nodup_keys_putChild h)

/-! ## Writing -/

theorem opensAll_append (es fs : List Entry) : opensAll (es ++ fs) = opensAll es + opensAll fs := by
  induction es with
  | nil => rw [List.nil_append, opensAll, Nat.zero_add]
  | cons e es ih => rw [List.cons_append, opensAll, opensAll, ih, Nat.add_assoc]

theorem writesAll_append (shared : Bool) (opened numbered : Nat) (es fs : List Entry) :
    writesAll shared opened numbered (es ++ fs) =
      writesAll shared opened numbered es ++
        writesAll shared (opened + opensAll es) (numbered + numbersAll shared es) fs := by
  induction es generalizing opened numbered with
  | nil => rfl
  | cons e es ih =>
    rw [List.cons_append, writesAll, writesAll, ih, opensAll, numbersAll, List.append_assoc,
      Nat.add_assoc, Nat.add_assoc]

/-- What entries write is written by one of them, behind what the entries before it opened and
numbered. -/
theorem mem_writesAll {shared : Bool} {opened numbered : Nat} {es : List Entry} {w : Key × Tree}
    (h : w ∈ writesAll shared opened numbered es) :
    ∃ es₁ e es₂, es = es₁ ++ e :: es₂ ∧
      w ∈ e.writes shared (opened + opensAll es₁) (numbered + numbersAll shared es₁) := by
  induction es generalizing opened numbered with
  | nil => exact absurd h List.not_mem_nil
  | cons e es ih =>
    rw [writesAll, List.mem_append] at h
    rcases h with h | h
    · exact ⟨[], e, es, rfl, h⟩
    · obtain ⟨es₁, f, es₂, rfl, hf⟩ := ih h
      refine ⟨e :: es₁, f, es₂, rfl, ?_⟩
      rwa [Nat.add_assoc, Nat.add_assoc] at hf

/-! ## What hashes write -/

/-- A child that some hash writes: a declared leaf, or a block with children under different keys. -/
inductive Written : Key × Tree → Prop where
  | leaf {text : List Char} {d : Declaration} (hd : Declaration.parse text = .ok d)
      (hname : d.variableName ≠ []) :
      Written (.name d.variableName, .node d.description d.types [])
  | block {text lead : List Char} {d : Option Declaration} {children : List (Key × Tree)}
      (shared : Bool) (opened numbered : Nat) (hd : Declares text d)
      (hkeys : (children.map (·.1)).Nodup) (hchildren : ∀ w ∈ children, Written w) :
      Written (blockKey shared opened numbered (blockVariable d),
        .node (withLead (blockDescription d) (Text.squeeze lead)) (blockTypes d) children)

/-- What the phrase writes is written by a hash, whatever was opened or numbered before. -/
def Phrase.Writes : Phrase → Prop
  | .block _ lead es => (∃ text, lead = Text.squeeze text) ∧
      ∀ shared opened numbered, ∀ w ∈ writesAll shared opened numbered es, Written w
  | .entries _ es => ∀ shared opened numbered, ∀ w ∈ writesAll shared opened numbered es, Written w
  | .entry _ e => ∀ shared opened numbered, ∀ w ∈ e.writes shared opened numbered, Written w

/-- The children of a block are written by its entries, under different keys. -/
theorem Phrase.Writes.children {depth : Nat} {lead : List Char} {es : List Entry}
    (h : (Phrase.block depth lead es).Writes) (shared : Bool) (opened numbered : Nat) :
    ((putAll [] (writesAll shared opened numbered es)).map (·.1)).Nodup ∧
      ∀ w ∈ putAll [] (writesAll shared opened numbered es), Written w := by
  have hnil : (([] : List (Key × Tree)).map (·.1)).Nodup := List.nodup_nil
  refine ⟨nodup_keys_putAll hnil _, fun w hw => ?_⟩
  rcases mem_putAll hw with hw | hw
  · exact absurd hw List.not_mem_nil
  · exact h.2 shared opened numbered w hw

theorem Phrase.Writes.entry {depth : Nat} {text lead : List Char} {d : Option Declaration}
    {es : List Entry} (hd : Declares text d) (h : (Phrase.block (depth + 1) lead es).Writes) :
    (Phrase.entry depth (.block d lead es)).Writes := by
  intro shared opened numbered w hw
  obtain ⟨text, rfl⟩ := h.1
  obtain ⟨hkeys, hchildren⟩ := h.children shared (opened + 1) 0
  rw [Entry.writes, List.mem_singleton] at hw
  rw [hw]
  exact .block shared opened numbered hd hkeys hchildren

/-- **What a derivation says is written by a hash.** -/
theorem Derives.writes {limit : Nat} {φ : Phrase} {ts : List Token} (h : Derives limit φ ts) :
    φ.Writes := by
  induction h with
  | block _ _ ih => exact ⟨⟨_, rfl⟩, ih⟩
  | nil =>
    intro shared opened numbered w hw
    rw [writesAll] at hw
    exact absurd hw List.not_mem_nil
  | cons _ _ _ ihe ihr =>
    intro shared opened numbered w hw
    rw [writesAll, List.mem_append] at hw
    exact hw.elim (ihe _ _ _ w) (ihr _ _ _ w)
  | blank =>
    intro shared opened numbered w hw
    rw [Entry.writes] at hw
    exact absurd hw List.not_mem_nil
  | leaf _ _ hd hname =>
    intro shared opened numbered w hw
    rw [Entry.writes, List.mem_singleton] at hw
    rw [hw]
    exact .leaf hd hname
  | announced _ _ hd _ _ _ _ ih => exact ih.entry hd
  | bare _ _ _ _ ih =>
    have hnothing : Declares [] none := .nothing rfl
    exact ih.entry hnothing

/-- A hash is parsed to a node with the default types and with children that a hash writes. -/
theorem exists_of_parse {dialect : Dialect} {content : List Char} {t : Tree}
    (h : parse dialect content = .ok t) :
    ∃ text children, t = .node (Text.squeeze text) defaultTypes children ∧
      (children.map (·.1)).Nodup ∧ ∀ w ∈ children, Written w := by
  obtain ⟨inner, -, htokens⟩ := bind_eq_ok_iff.1 h
  obtain ⟨lead, es, hblock, rfl⟩ := parseTokens_eq_ok_iff.1 htokens
  have hwrites := hblock.writes
  obtain ⟨text, rfl⟩ := hwrites.1
  exact ⟨text, _, rfl, hwrites.children dialect.sharedIndex 0 0⟩

end DocTree.Hash
