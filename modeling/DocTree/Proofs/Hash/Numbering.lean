import DocTree.Proofs.Hash.Children
import Mathlib.Data.List.Flatten

/-!
# The numbers of blocks without a variable

A block without a variable is a child of its block under a number. With a shared index the number is
how many tokens open a block before the brace of the block itself; so no number stands twice in a tree,
and the numbers of a node increase. Otherwise the numbers of a node are `0`, `1` and so on, one for each
such block written directly in it. In both modes such a block keeps its place: no later entry of the
same block is put where it is (`parse_numbered`).

## Shape of the proof

`Stands` locates every block of the tokens: behind which tokens its entries begin, and which tree it
becomes. The tokens of a derivation open as many blocks as its entries (`Derives.openings`), so the
counter of the meaning (`Entry.writes`) is the number of opening tokens before a brace
(`Opens.openings_eq`).

What entries write under numbers stays when children are put one after another, because these numbers
differ (`positional_putAll`). For the whole tree, the numbers in what an entry writes lie between the
blocks opened before it and those opened with it (`within_writesAll`), and putting children only
leaves some of what is written (`putAll_subperm`).
-/

namespace DocTree.Hash

/-! ## Numbers in a tree -/

/-- The number that a key is, if it is one. -/
def Key.number? : Key → Option Nat
  | index n => some n
  | name _ => none

/-- The children that have a number for a key, in order. -/
def positional (children : List (Key × Tree)) : List (Nat × Tree) :=
  children.filterMap fun w => w.1.number?.map fun n => (n, w.2)

/-- The numbers among the keys of children, in order. -/
def indices (children : List (Key × Tree)) : List Nat := (positional children).map (·.1)

mutual

/-- The numbers among the keys below a node, at every depth. -/
def Tree.allIndices : Tree → List Nat
  | .node _ _ children => allIndicesOf children

/-- The numbers among the keys of children and below them. -/
def allIndicesOf : List (Key × Tree) → List Nat
  | [] => []
  | (k, t) :: rest => k.number?.toList ++ t.allIndices ++ allIndicesOf rest

end

/-- The nodes of a tree. -/
inductive Tree.HasNode (t : Tree) : Tree → Prop
  | root : t.HasNode t
  | child {u v : Tree} {k : Key} (hu : t.HasNode u) (hv : (k, v) ∈ u.children) : t.HasNode v

/-! ## Blocks among the tokens -/

/-- How many tokens open a block. -/
def openings (ts : List Token) : Nat := ts.countP (·.kind == .opening)

/-- The entry is a block without a variable. -/
def Entry.isUnnamed : Entry → Bool
  | block d _ _ => (blockVariable d).isEmpty
  | _ => false

/-- How many of the entries are blocks without a variable. -/
def unnamed (es : List Entry) : Nat := es.countP Entry.isUnnamed

/-- What stands before the brace of a block: nothing, or a marker and the text that declares it. -/
inductive Announces : Option Declaration → List Token → Prop where
  | bare : Announces none []
  | marked {m : Token} {text : List Char} {ts : List Token} {d : Option Declaration}
      (hm : m.kind = .marker) (htext : OptText text ts) (hd : Declares text d) : Announces d (m :: ts)

/-- In a block of the tokens `T` whose entries begin behind `before`, the entry behind `es₁` is a block
with the text `lead` and the entries `inner`, declared by `d`; its brace `o` stands behind the tokens
`behind`. -/
inductive Opens (limit : Nat) (T before : List Token) (es₁ : List Entry) (d : Option Declaration)
    (lead : List Char) (inner : List Entry) : List Token → Token → Prop where
  | intro {depth : Nat} {text : List Char} {front head body after : List Token} {o c : Token}
      (hT : T = before ++ front ++ head ++ o :: body ++ c :: after)
      (hfront : Derives limit (.block depth text es₁) front) (hhead : Announces d head)
      (ho : o.kind = .opening) (hbody : Derives limit (.block (depth + 1) lead inner) body)
      (hc : c.kind = .closing) : Opens limit T before es₁ d lead inner (before ++ front ++ head) o

/-- The tree of a block whose entries begin when `opened` blocks have been opened. -/
def blockTree (shared : Bool) (opened : Nat) (d : Option Declaration) (lead : List Char)
    (es : List Entry) : Tree :=
  .node (withLead (blockDescription d) lead) (blockTypes d) (putAll [] (writesAll shared opened 0 es))

/-- The blocks of the tokens `T`: the entries of each, the tokens behind which they begin, and the tree
that they make. -/
inductive Stands (limit : Nat) (shared : Bool) (T : List Token) :
    List Token → List Entry → Tree → Prop where
  | root {lead : List Char} {es : List Entry} (h : Derives limit (.block 0 lead es) T) :
      Stands limit shared T [] es (meaning shared lead es)
  | inner {before behind : List Token} {es₁ es₂ inner : List Entry} {d : Option Declaration}
      {lead : List Char} {u : Tree} {o : Token}
      (h : Stands limit shared T before (es₁ ++ .block d lead inner :: es₂) u)
      (ho : Opens limit T before es₁ d lead inner behind o) :
      Stands limit shared T (behind ++ [o]) inner
        (blockTree shared (openings behind + 1) d lead inner)

/-- The number of a block without a variable: with a shared index the tokens before its brace that open
a block, otherwise the entries before it that are such blocks. -/
def numberOf (shared : Bool) (behind : List Token) (es₁ : List Entry) : Nat :=
  if shared then openings behind else unnamed es₁

/-- How the entries of a block with the tree `u` are numbered. -/
structure Numbered (limit : Nat) (shared : Bool) (T before : List Token) (es : List Entry)
    (u : Tree) : Prop where
  /-- Every entry with a block has its brace among the tokens. -/
  opens {es₁ es₂ inner : List Entry} {d : Option Declaration} {lead : List Char}
      (hes : es = es₁ ++ .block d lead inner :: es₂) :
    ∃ behind o, Opens limit T before es₁ d lead inner behind o
  /-- A block without a variable is a child under its number: no later entry took its place. -/
  kept {es₁ es₂ inner : List Entry} {d : Option Declaration} {lead : List Char}
      {behind : List Token} {o : Token} (hes : es = es₁ ++ .block d lead inner :: es₂)
      (hd : blockVariable d = []) (ho : Opens limit T before es₁ d lead inner behind o) :
    ∃ v, Stands limit shared T (behind ++ [o]) inner v ∧
      (.index (numberOf shared behind es₁), v) ∈ u.children
  /-- A child under a number is a block without a variable, and the number is that of the block. -/
  given {n : Nat} {v : Tree} (hv : (.index n, v) ∈ u.children) :
    ∃ es₁ d lead inner es₂ behind o, es = es₁ ++ .block d lead inner :: es₂ ∧ blockVariable d = [] ∧
      Opens limit T before es₁ d lead inner behind o ∧
      Stands limit shared T (behind ++ [o]) inner v ∧ n = numberOf shared behind es₁
  /-- There are as many numbers as blocks without a variable. -/
  count : (indices u.children).length = unnamed es
  /-- The numbers increase. -/
  increasing : (indices u.children).Pairwise (· < ·)
  /-- Without a shared index, no number is left out. -/
  consecutive (h : shared = false) : indices u.children = List.range (unnamed es)

/-- How a tree with the tokens `T` is numbered. -/
structure Numbering (limit : Nat) (shared : Bool) (T : List Token) (t : Tree) : Prop where
  /-- The tree is the outermost block. -/
  root : ∃ es, Stands limit shared T [] es t
  /-- Each node of the tree is a leaf or one of the blocks. -/
  nodes {u : Tree} (hu : t.HasNode u) : u.children = [] ∨ ∃ before es, Stands limit shared T before es u
  /-- The entries of each block, also of one that was replaced, are numbered. -/
  blocks {before : List Token} {es : List Entry} {u : Tree} (h : Stands limit shared T before es u) :
    Numbered limit shared T before es u
  /-- With a shared index, no number stands twice in the tree. -/
  distinct (h : shared = true) : t.allIndices.Nodup

/-! ## Tokens that open a block -/

@[simp] theorem openings_nil : openings [] = 0 := rfl

@[simp] theorem openings_append (ts us : List Token) :
    openings (ts ++ us) = openings ts + openings us := List.countP_append

theorem openings_cons (t : Token) (ts : List Token) :
    openings (t :: ts) = (if t.kind = .opening then 1 else 0) + openings ts := by
  rw [openings, List.countP_cons, Nat.add_comm]
  simp only [beq_iff_eq]
  rfl

theorem openings_cons_of_ne {t : Token} (ht : t.kind ≠ .opening) (ts : List Token) :
    openings (t :: ts) = openings ts := by
  rw [openings_cons, if_neg ht, Nat.zero_add]

theorem openings_cons_of_opening {t : Token} (ht : t.kind = .opening) (ts : List Token) :
    openings (t :: ts) = openings ts + 1 := by
  rw [openings_cons, if_pos ht, Nat.add_comm]

theorem OptText.openings_eq {text : List Char} {ts : List Token} (h : OptText text ts) :
    openings ts = 0 := by
  cases h with
  | absent => rfl
  | present ht => rw [openings_cons_of_ne (by rw [ht]; decide), openings_nil]

theorem Announces.openings_eq {d : Option Declaration} {ts : List Token} (h : Announces d ts) :
    openings ts = 0 := by
  cases h with
  | bare => rfl
  | marked hm htext hd => rw [openings_cons_of_ne (by rw [hm]; decide), htext.openings_eq]

/-- How many blocks a phrase opens. -/
def Phrase.opens : Phrase → Nat
  | .block _ _ es => opensAll es
  | .entries _ es => opensAll es
  | .entry _ e => e.opens

/-- A brace that opens, a block and a brace that closes. -/
theorem openings_braces {o c : Token} {inner : List Token} (ho : o.kind = .opening)
    (hc : c.kind = .closing) : openings (o :: inner ++ [c]) = openings inner + 1 := by
  have hclosing : openings [c] = 0 := openings_cons_of_ne (by rw [hc]; decide) []
  rw [openings_append, hclosing, openings_cons_of_opening ho]

/-- **The tokens of a phrase open as many blocks as the phrase.** -/
theorem Derives.openings_eq {limit : Nat} {φ : Phrase} {ts : List Token} (h : Derives limit φ ts) :
    openings ts = φ.opens := by
  induction h with
  | block hlead _ ih =>
    rw [openings_append, hlead.openings_eq, ih, Nat.zero_add]
    rfl
  | nil => rfl
  | cons _ _ _ ihe ihr =>
    rw [openings_append, ihe, ihr]
    rfl
  | blank ht _ =>
    rw [openings_cons_of_ne (by rw [ht]; decide)]
    rfl
  | leaf hm htext _ _ =>
    rw [openings_cons_of_ne (by rw [hm]; decide), htext.openings_eq]
    rfl
  | announced hm htext _ _ ho _ hc ih =>
    rw [List.append_assoc, openings_append, openings_braces ho hc, ih,
      openings_cons_of_ne (by rw [hm]; decide), htext.openings_eq, Nat.zero_add]
    rfl
  | bare _ ho _ hc ih =>
    rw [openings_braces ho hc, ih]
    rfl

/-- The blocks opened before a brace are those opened before the block around it and those opened by
the entries before it. -/
theorem Opens.openings_eq {limit : Nat} {T before behind : List Token} {es₁ inner : List Entry}
    {d : Option Declaration} {lead : List Char} {o : Token}
    (h : Opens limit T before es₁ d lead inner behind o) :
    openings behind = openings before + opensAll es₁ := by
  obtain ⟨-, hfront, hhead, -, -, -⟩ := h
  rw [openings_append, openings_append, hfront.openings_eq, hhead.openings_eq]
  rfl

theorem Opens.openings_brace {limit : Nat} {T before behind : List Token} {es₁ inner : List Entry}
    {d : Option Declaration} {lead : List Char} {o : Token}
    (h : Opens limit T before es₁ d lead inner behind o) :
    openings (behind ++ [o]) = openings behind + 1 := by
  obtain ⟨-, -, -, ho, -, -⟩ := h
  rw [openings_append _ [o], openings_cons_of_opening ho, openings_nil]

/-! ## Where blocks stand -/

/-- The tokens of entries are those of the entries before an entry, its own, and those behind it. -/
theorem Derives.split {limit depth : Nat} {es₁ es₂ : List Entry} {e : Entry} {ts : List Token}
    (h : Derives limit (.entries depth (es₁ ++ e :: es₂)) ts) :
    ∃ front mid back, ts = front ++ (mid ++ back) ∧ Derives limit (.entries depth es₁) front ∧
      Derives limit (.entry depth e) mid := by
  induction es₁ generalizing ts with
  | nil =>
    cases h with
    | cons hentry hrest hnext => exact ⟨[], _, _, rfl, .nil, hentry⟩
  | cons f es₁ ih =>
    cases h with
    | cons hentry hrest hnext =>
      obtain ⟨front, mid, back, rfl, hfront, hmid⟩ := ih hrest
      refine ⟨_, mid, back, (List.append_assoc ..).symm, .cons hentry hfront fun hleaf => ?_, hmid⟩
      cases front with
      | nil => rfl
      | cons t front => exact hnext hleaf

/-- The tokens of an entry with a block: its announcement, and the block in braces. -/
theorem Derives.braces {limit depth : Nat} {d : Option Declaration} {lead : List Char}
    {inner : List Entry} {ts : List Token} (h : Derives limit (.entry depth (.block d lead inner)) ts) :
    ∃ head o body c, ts = head ++ o :: body ++ [c] ∧ Announces d head ∧ o.kind = .opening ∧
      Derives limit (.block (depth + 1) lead inner) body ∧ c.kind = .closing := by
  cases h with
  | announced hm htext hd _ ho hinner hc => exact ⟨_, _, _, _, rfl, .marked hm htext hd, ho, hinner, hc⟩
  | bare _ ho hinner hc => exact ⟨[], _, _, _, rfl, .bare, ho, hinner, hc⟩

/-- An entry with a block has its brace among the tokens. -/
theorem Derives.exists_opens {limit depth : Nat} {text lead : List Char} {es₁ es₂ inner : List Entry}
    {d : Option Declaration} {T before ts after : List Token}
    (h : Derives limit (.block depth text (es₁ ++ .block d lead inner :: es₂)) ts)
    (hT : T = before ++ ts ++ after) : ∃ behind o, Opens limit T before es₁ d lead inner behind o := by
  cases h with
  | @block _ _ _ leadTokens _ hlead hentries =>
    obtain ⟨front, mid, back, rfl, hfront, hmid⟩ := hentries.split
    obtain ⟨head, o, body, c, rfl, hhead, ho, hbody, hc⟩ := hmid.braces
    have hplace : T =
        before ++ (leadTokens ++ front) ++ head ++ o :: body ++ c :: (back ++ after) := by
      rw [hT]
      simp only [List.append_assoc, List.cons_append, List.nil_append]
    exact ⟨_, o, .intro hplace (.block hlead hfront) hhead ho hbody hc⟩

section Stands

variable {limit : Nat} {shared : Bool} {T before : List Token} {es : List Entry} {u : Tree}

/-- The tokens of a block are found where the block stands. -/
theorem Stands.exists_derives (h : Stands limit shared T before es u) :
    ∃ depth lead ts after, T = before ++ ts ++ after ∧ Derives limit (.block depth lead es) ts := by
  cases h with
  | root h => exact ⟨0, _, T, [], (List.append_nil _).symm, h⟩
  | inner _ ho =>
    cases ho with
    | @intro depth text front head body after o c hT hfront hhead ho hbody hc =>
      refine ⟨_, _, body, c :: after, ?_, hbody⟩
      rw [hT]
      simp only [List.append_assoc, List.cons_append, List.nil_append]

/-- The children of a block are what its entries write, behind the blocks opened before them. -/
theorem Stands.children_eq (h : Stands limit shared T before es u) :
    u.children = putAll [] (writesAll shared (openings before) 0 es) := by
  cases h with
  | root h => rfl
  | inner _ ho =>
    rw [ho.openings_brace]
    rfl

end Stands

/-! ## What is put under numbers -/

@[simp] theorem positional_append (cs ds : List (Key × Tree)) :
    positional (cs ++ ds) = positional cs ++ positional ds := List.filterMap_append

@[simp] theorem indices_append (cs ds : List (Key × Tree)) :
    indices (cs ++ ds) = indices cs ++ indices ds := by
  rw [indices, positional_append, List.map_append]
  rfl

theorem mem_positional {cs : List (Key × Tree)} {n : Nat} {v : Tree} :
    (n, v) ∈ positional cs ↔ (Key.index n, v) ∈ cs := by
  rw [positional, List.mem_filterMap]
  constructor
  · rintro ⟨⟨k, t⟩, hmem, heq⟩
    cases k with
    | index m =>
      cases heq
      exact hmem
    | name s => cases heq
  · intro hmem
    exact ⟨_, hmem, rfl⟩

theorem mem_indices {cs : List (Key × Tree)} {n : Nat} :
    n ∈ indices cs ↔ Key.index n ∈ cs.map (·.1) := by
  rw [indices, List.mem_map, List.mem_map]
  constructor
  · rintro ⟨⟨m, v⟩, hmem, rfl⟩
    exact ⟨_, mem_positional.1 hmem, rfl⟩
  · rintro ⟨⟨k, v⟩, hmem, rfl⟩
    exact ⟨_, mem_positional.2 hmem, rfl⟩

/-- A child put under a variable leaves the children under numbers as they are. -/
theorem positional_putChild_name (s : List Char) (child : Tree) (cs : List (Key × Tree)) :
    positional (putChild (.name s) child cs) = positional cs := by
  induction cs with
  | nil => rfl
  | cons other cs ih =>
    obtain ⟨k, t⟩ := other
    rw [putChild]
    split
    · next hk =>
      rw [hk]
      rfl
    · rw [← List.singleton_append, positional_append, ih, ← positional_append]
      rfl

/-- **Children under numbers stay**, as long as each of them has a number of its own. -/
theorem positional_putAll {cs ws : List (Key × Tree)} (h : (indices (cs ++ ws)).Nodup) :
    positional (putAll cs ws) = positional cs ++ positional ws := by
  induction ws generalizing cs with
  | nil => exact (List.append_nil _).symm
  | cons w ws ih =>
    obtain ⟨k, v⟩ := w
    rw [← List.singleton_append, ← List.append_assoc] at h
    cases k with
    | name s =>
      have hsame : positional (putChild (.name s) v cs) = positional cs :=
        positional_putChild_name s v cs
      have hindices : indices (putChild (.name s) v cs ++ ws) = indices (cs ++ [(.name s, v)] ++ ws) := by
        rw [indices_append, indices_append, indices_append, indices, hsame]
        exact congrArg (· ++ indices ws) (List.append_nil _).symm
      rw [← hindices] at h
      rw [putAll, List.foldl_cons]
      exact (ih h).trans (congrArg (· ++ positional ws) hsame)
    | index n =>
      have hnew : Key.index n ∉ cs.map (·.1) := by
        rw [← mem_indices]
        intro hmem
        rw [indices_append, indices_append] at h
        exact (List.nodup_append.1 (List.nodup_append.1 h).1).2.2 n hmem n List.mem_cons_self rfl
      rw [putAll, List.foldl_cons, putChild_of_not_mem hnew]
      refine (ih h).trans ?_
      rw [positional_append, List.append_assoc]
      rfl

/-! ## The numbers that entries write -/

theorem numbersAll_eq (es : List Entry) : numbersAll false es = unnamed es := by
  induction es with
  | nil => rfl
  | cons e es ih =>
    rw [numbersAll, ih, unnamed, unnamed, List.countP_cons, Nat.add_comm]
    congr 1
    cases e with
    | blank => rfl
    | leaf d => rfl
    | block d lead inner => simp [Entry.numbers, Entry.isUnnamed]

/-- The number that an entry writes under, if it does. -/
theorem indices_writes (shared : Bool) (opened numbered : Nat) (e : Entry) :
    indices (e.writes shared opened numbered) =
      if e.isUnnamed then [if shared then opened else numbered] else [] := by
  cases e with
  | blank => rfl
  | leaf d => rfl
  | block d lead inner =>
    rw [Entry.writes, Entry.isUnnamed, blockKey]
    split <;> rfl

theorem indices_writesAll_cons (shared : Bool) (opened numbered : Nat) (e : Entry) (es : List Entry) :
    indices (writesAll shared opened numbered (e :: es)) =
      (if e.isUnnamed then [if shared then opened else numbered] else []) ++
        indices (writesAll shared (opened + e.opens) (numbered + e.numbers shared) es) := by
  rw [writesAll, indices_append, indices_writes]

theorem length_indices_writesAll (shared : Bool) (opened numbered : Nat) (es : List Entry) :
    (indices (writesAll shared opened numbered es)).length = unnamed es := by
  induction es generalizing opened numbered with
  | nil => rfl
  | cons e es ih =>
    rw [indices_writesAll_cons, List.length_append, ih, unnamed, unnamed, List.countP_cons, Nat.add_comm]
    congr 1
    split <;> rfl

/-- Without a shared index, the numbers follow one another. -/
theorem indices_writesAll_of_not_shared (opened numbered : Nat) (es : List Entry) :
    indices (writesAll false opened numbered es) = List.range' numbered (unnamed es) := by
  induction es generalizing opened numbered with
  | nil => rfl
  | cons e es ih =>
    have hnumbers : e.numbers false = if e.isUnnamed then 1 else 0 := by
      cases e with
      | blank => rfl
      | leaf d => rfl
      | block d lead inner => simp [Entry.numbers, Entry.isUnnamed]
    rw [indices_writesAll_cons, ih, unnamed, unnamed, List.countP_cons, hnumbers]
    split
    · rw [List.range'_succ]
      rfl
    · rfl

/-- With a shared index, a number is at least that of the blocks opened before. -/
theorem le_of_mem_indices_writesAll {opened numbered : Nat} {es : List Entry} {i : Nat}
    (hi : i ∈ indices (writesAll true opened numbered es)) : opened ≤ i := by
  induction es generalizing opened numbered with
  | nil => exact absurd hi List.not_mem_nil
  | cons e es ih =>
    rw [indices_writesAll_cons, List.mem_append] at hi
    rcases hi with hi | hi
    · split at hi
      · exact Nat.le_of_eq (List.mem_singleton.1 hi).symm
      · exact absurd hi List.not_mem_nil
    · exact Nat.le_trans (Nat.le_add_right _ _) (ih hi)

/-- The numbers that entries write under increase. -/
theorem increasing_indices_writesAll (shared : Bool) (opened numbered : Nat) (es : List Entry) :
    (indices (writesAll shared opened numbered es)).Pairwise (· < ·) := by
  cases shared with
  | false =>
    rw [indices_writesAll_of_not_shared]
    exact List.pairwise_lt_range'
  | true =>
    induction es generalizing opened numbered with
    | nil => exact .nil
    | cons e es ih =>
      rw [indices_writesAll_cons, List.pairwise_append]
      refine ⟨?_, ih _ _, ?_⟩
      · split
        · exact List.pairwise_singleton _ _
        · exact .nil
      · intro i hi j hj
        have hj := le_of_mem_indices_writesAll hj
        -- the entry that takes a number opens a block, so what follows starts above it
        cases e with
        | blank => exact absurd hi List.not_mem_nil
        | leaf d => exact absurd hi List.not_mem_nil
        | block d lead inner =>
          split at hi
          · rw [List.mem_singleton.1 hi, if_pos rfl]
            rw [Entry.opens] at hj
            omega
          · exact absurd hi List.not_mem_nil

theorem nodup_indices_writesAll (shared : Bool) (opened numbered : Nat) (es : List Entry) :
    (indices (writesAll shared opened numbered es)).Nodup :=
  (increasing_indices_writesAll shared opened numbered es).imp Nat.ne_of_lt

/-- The children of a block under numbers are those that its entries write. -/
theorem Stands.positional_eq {limit : Nat} {shared : Bool} {T before : List Token} {es : List Entry}
    {u : Tree} (h : Stands limit shared T before es u) :
    positional u.children = positional (writesAll shared (openings before) 0 es) := by
  have hnodup := nodup_indices_writesAll shared (openings before) 0 es
  rw [h.children_eq, positional_putAll (by rwa [List.nil_append])]
  rfl

/-! ## All numbers of a tree -/

/-- The numbers are different and lie between the bounds. -/
def Within (lo hi : Nat) (ns : List Nat) : Prop := ns.Nodup ∧ ∀ n ∈ ns, lo ≤ n ∧ n < hi

theorem within_nil {lo hi : Nat} : Within lo hi [] := ⟨List.nodup_nil, fun _ h => absurd h List.not_mem_nil⟩

theorem within_singleton (n : Nat) : Within n (n + 1) [n] := by
  refine ⟨List.pairwise_singleton _ n, fun m hm => ?_⟩
  rw [List.mem_singleton.1 hm]
  exact ⟨Nat.le_refl n, Nat.lt_succ_self n⟩

theorem Within.append {lo mid hi : Nat} {ns ms : List Nat} (hlo : lo ≤ mid) (hhi : mid ≤ hi)
    (hn : Within lo mid ns) (hm : Within mid hi ms) : Within lo hi (ns ++ ms) := by
  refine ⟨List.nodup_append.2 ⟨hn.1, hm.1, fun n hnmem m hmmem heq => ?_⟩, fun n h => ?_⟩
  · have hlt := (hn.2 n hnmem).2
    have hle := (hm.2 m hmmem).1
    omega
  · rcases List.mem_append.1 h with h | h
    · exact ⟨(hn.2 n h).1, Nat.lt_of_lt_of_le (hn.2 n h).2 hhi⟩
    · exact ⟨Nat.le_trans hlo (hm.2 n h).1, (hm.2 n h).2⟩

theorem Within.subperm {lo hi : Nat} {ns ms : List Nat} (h : Within lo hi ms) (hsub : ns.Subperm ms) :
    Within lo hi ns := by
  have hsubset := hsub.subset
  obtain ⟨l, hperm, hsublist⟩ := hsub
  exact ⟨hperm.nodup_iff.1 (h.1.sublist hsublist), fun n hn => h.2 n (hsubset hn)⟩

theorem allIndicesOf_eq (cs : List (Key × Tree)) :
    allIndicesOf cs = cs.flatMap fun w => w.1.number?.toList ++ w.2.allIndices := by
  induction cs with
  | nil => rfl
  | cons w cs ih =>
    obtain ⟨k, t⟩ := w
    rw [allIndicesOf, ih]
    rfl

theorem allIndicesOf_append (cs ds : List (Key × Tree)) :
    allIndicesOf (cs ++ ds) = allIndicesOf cs ++ allIndicesOf ds := by
  rw [allIndicesOf_eq, List.flatMap_append, ← allIndicesOf_eq, ← allIndicesOf_eq]

/-- Fewer children have fewer numbers. -/
theorem allIndicesOf_subperm {cs ds : List (Key × Tree)} (h : cs.Subperm ds) :
    (allIndicesOf cs).Subperm (allIndicesOf ds) := by
  obtain ⟨es, hperm, hsublist⟩ := h
  rw [allIndicesOf_eq, allIndicesOf_eq]
  exact ((hperm.symm.flatMap_right _).subperm).trans (hsublist.flatMap _).subperm

/-- **The numbers in what entries write are different**, and lie between the blocks opened before the
entries and those opened with them. -/
theorem within_writesAll (es : List Entry) (opened numbered : Nat) :
    Within opened (opened + opensAll es) (allIndicesOf (writesAll true opened numbered es)) := by
  induction es using entries_induction generalizing opened numbered with
  | nil => exact within_nil
  | blank es ih =>
    have hopens : opensAll (.blank :: es) = opensAll es := Nat.zero_add _
    rw [hopens]
    exact ih opened numbered
  | leaf d es ih =>
    have hopens : opensAll (.leaf d :: es) = opensAll es := Nat.zero_add _
    rw [hopens]
    exact ih opened numbered
  | block d lead inner es ihi ihe =>
    have hbelow : Within (opened + 1) (opened + 1 + opensAll inner)
        (allIndicesOf (putAll [] (writesAll true (opened + 1) 0 inner))) :=
      (ihi (opened + 1) 0).subperm (allIndicesOf_subperm (putAll_subperm _ _))
    have hkey : Within opened (opened + 1)
        (blockKey true opened numbered (blockVariable d)).number?.toList := by
      rw [blockKey]
      split
      · exact within_singleton opened
      · exact within_nil
    have hbound : opened + 1 + opensAll inner = opened + (Entry.block d lead inner).opens := by
      rw [Entry.opens]
      omega
    have hentry : Within opened (opened + (Entry.block d lead inner).opens)
        (allIndicesOf ((Entry.block d lead inner).writes true opened numbered)) := by
      rw [Entry.writes, allIndicesOf, allIndicesOf, List.append_nil, Tree.allIndices, ← hbound]
      exact hkey.append (by omega) (by omega) hbelow
    rw [writesAll, allIndicesOf_append, opensAll, ← Nat.add_assoc]
    exact hentry.append (by omega) (by omega) (ihe _ _)

/-! ## The numbering of a tree -/

section Numbering

variable {limit : Nat} {shared : Bool} {T before : List Token} {es : List Entry} {u : Tree}

theorem Stands.exists_opens (h : Stands limit shared T before es u) {es₁ es₂ inner : List Entry}
    {d : Option Declaration} {lead : List Char} (hes : es = es₁ ++ .block d lead inner :: es₂) :
    ∃ behind o, Opens limit T before es₁ d lead inner behind o := by
  obtain ⟨depth, text, ts, after, hT, hderives⟩ := h.exists_derives
  subst hes
  exact hderives.exists_opens hT

/-- What a block of entries writes, by its place among the tokens. -/
theorem Opens.writes_eq (shared : Bool) {es₁ inner : List Entry} {d : Option Declaration} {lead : List Char}
    {behind : List Token} {o : Token} (ho : Opens limit T before es₁ d lead inner behind o) :
    (Entry.block d lead inner).writes shared (openings before + opensAll es₁)
        (0 + numbersAll shared es₁) =
      [(blockKey shared (openings behind) (unnamed es₁) (blockVariable d),
        blockTree shared (openings behind + 1) d lead inner)] := by
  rw [Entry.writes, ← ho.openings_eq, blockTree]
  cases shared with
  | true => rfl
  | false => rw [numbersAll_eq, Nat.zero_add]

theorem blockKey_eq_index_iff {shared : Bool} {opened numbered n : Nat} {s : List Char} :
    blockKey shared opened numbered s = .index n ↔
      s = [] ∧ n = if shared then opened else numbered := by
  rw [blockKey]
  split
  · next h =>
    rw [Key.index.injEq, eq_comm, List.isEmpty_iff.1 h]
    exact (and_iff_right rfl).symm
  · next h =>
    constructor
    · intro heq
      cases heq
    · rintro ⟨rfl, -⟩
      exact absurd rfl h

/-- A child of a block is a leaf, or one of the blocks inside. -/
theorem Stands.exists_of_mem (h : Stands limit shared T before es u) {k : Key} {v : Tree}
    (hv : (k, v) ∈ u.children) :
    (∃ s, k = .name s ∧ v.children = []) ∨
      ∃ es₁ d lead inner es₂ behind o, es = es₁ ++ .block d lead inner :: es₂ ∧
        Opens limit T before es₁ d lead inner behind o ∧ Stands limit shared T (behind ++ [o]) inner v ∧
        k = blockKey shared (openings behind) (unnamed es₁) (blockVariable d) := by
  rw [h.children_eq] at hv
  rcases mem_putAll hv with hv | hv
  · exact absurd hv List.not_mem_nil
  obtain ⟨es₁, e, es₂, hes, hw⟩ := mem_writesAll hv
  cases e with
  | blank => exact absurd hw List.not_mem_nil
  | leaf d =>
    rw [Entry.writes, List.mem_singleton] at hw
    cases hw
    exact .inl ⟨_, rfl, rfl⟩
  | block d lead inner =>
    obtain ⟨behind, o, ho⟩ := h.exists_opens hes
    rw [ho.writes_eq, List.mem_singleton] at hw
    cases hw
    exact .inr ⟨es₁, d, lead, inner, es₂, behind, o, hes, ho, (hes ▸ h).inner ho, rfl⟩

/-- **The entries of every block are numbered.** -/
theorem Stands.numbered (h : Stands limit shared T before es u) :
    Numbered limit shared T before es u where
  opens := h.exists_opens
  kept := by
    intro es₁ es₂ inner d lead behind o hes hd ho
    refine ⟨_, (hes ▸ h).inner ho, ?_⟩
    have hwrites := ho.writes_eq shared
    rw [blockKey_eq_index_iff.2 ⟨hd, rfl⟩] at hwrites
    rw [← mem_positional, h.positional_eq, mem_positional, hes, writesAll_append, writesAll, hwrites]
    exact List.mem_append_right _ List.mem_cons_self
  given := by
    intro n v hv
    rcases h.exists_of_mem hv with ⟨s, hk, -⟩ | ⟨es₁, d, lead, inner, es₂, behind, o, hes, ho, hv, hk⟩
    · cases hk
    · obtain ⟨hd, hn⟩ := blockKey_eq_index_iff.1 hk.symm
      exact ⟨es₁, d, lead, inner, es₂, behind, o, hes, hd, ho, hv, hn⟩
  count := by
    rw [indices, h.positional_eq]
    exact length_indices_writesAll shared _ _ es
  increasing := by
    rw [indices, h.positional_eq]
    exact increasing_indices_writesAll shared _ _ es
  consecutive := by
    rintro rfl
    rw [indices, h.positional_eq, List.range_eq_range']
    exact indices_writesAll_of_not_shared _ _ es

/-- The nodes of the tree of a block are leaves and trees of blocks. -/
theorem Stands.node (h : Stands limit shared T before es u) {v : Tree} (hv : u.HasNode v) :
    v.children = [] ∨ ∃ before es, Stands limit shared T before es v := by
  induction hv with
  | root => exact .inr ⟨before, es, h⟩
  | child _ hmem ih =>
    rcases ih with hleaf | ⟨before, es, hstands⟩
    · rw [hleaf] at hmem
      exact absurd hmem List.not_mem_nil
    · rcases hstands.exists_of_mem hmem with ⟨s, -, hleaf⟩ | ⟨es₁, d, lead, inner, es₂, behind, o, -, -, hv, -⟩
      · exact .inl hleaf
      · exact .inr ⟨_, _, hv⟩

/-- **The tree of a hash is numbered by its tokens.** -/
theorem parse_numbered (dialect : Dialect) {content : List Char} {t : Tree}
    (h : parse dialect content = .ok t) :
    ∃ inner, unbrace content = .ok inner ∧
      Numbering dialect.maxDepth dialect.sharedIndex (tokenize dialect.registry inner) t := by
  obtain ⟨inner, hinner, htokens⟩ := bind_eq_ok_iff.1 h
  obtain ⟨lead, es, hderives, rfl⟩ := parseTokens_eq_ok_iff.1 htokens
  have hroot : Stands dialect.maxDepth dialect.sharedIndex (tokenize dialect.registry inner) [] es
      (meaning dialect.sharedIndex lead es) := .root hderives
  refine ⟨inner, hinner, ⟨es, hroot⟩, hroot.node, Stands.numbered, fun hshared => ?_⟩
  rw [hshared, meaning, Tree.allIndices]
  exact ((within_writesAll es 0 0).subperm (allIndicesOf_subperm (putAll_subperm _ _))).1

/-- A named block with a block inside, a block without a variable, and a leaf that replaces the first. -/
def replacedHash : List Char := "\x7b @type a $x \x7b \x7b \x7d \x7d \x7b \x7d @type a $x \x7d".toList

/-- The tree of that hash, with a shared index. -/
def replacedTree : Tree :=
  .node [] defaultTypes
    [(.name "$x".toList, .node [] ["a".toList] []), (.index 2, .node [] defaultTypes [])]

theorem tokenize_replacedHash :
    tokenize .standard " @type a $x \x7b \x7b \x7d \x7d \x7b \x7d @type a $x ".toList =
      [⟨.text, [' '], 0⟩, ⟨.marker, "type".toList, 1⟩, ⟨.text, " a $x ".toList, 6⟩,
        ⟨.opening, ['{'], 12⟩, ⟨.text, [' '], 13⟩, ⟨.opening, ['{'], 14⟩, ⟨.text, [' '], 15⟩,
        ⟨.closing, ['}'], 16⟩, ⟨.text, [' '], 17⟩, ⟨.closing, ['}'], 18⟩, ⟨.text, [' '], 19⟩,
        ⟨.opening, ['{'], 20⟩, ⟨.text, [' '], 21⟩, ⟨.closing, ['}'], 22⟩, ⟨.text, [' '], 23⟩,
        ⟨.marker, "type".toList, 24⟩, ⟨.text, " a $x ".toList, 29⟩] := by
  decide +kernel

/-- The block that stays has the number 2, because both replaced blocks were opened before it. -/
theorem parse_numbered_replaced :
    parse ⟨.standard, 2, true⟩ replacedHash = .ok replacedTree ∧
      ∃ inner, unbrace replacedHash = .ok inner ∧
        Numbering 2 true (tokenize .standard inner) replacedTree := by
  have hinner : unbrace replacedHash =
      .ok " @type a $x \x7b \x7b \x7d \x7d \x7b \x7d @type a $x ".toList := by decide +kernel
  have hparse : parse ⟨.standard, 2, true⟩ replacedHash = .ok replacedTree := by
    refine bind_eq_ok_iff.2 ⟨_, hinner, ?_⟩
    show parseTokens _ (tokenize .standard _) = _
    rw [tokenize_replacedHash]
    rfl
  exact ⟨hparse, parse_numbered ⟨.standard, 2, true⟩ hparse⟩

end Numbering

end DocTree.Hash
