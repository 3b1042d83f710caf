import DocTree.Proofs.Hash.Numbering

/-!
# The two ways to number blocks

Blocks without a variable are numbered over the whole hash or within their own block. Which of the two
it is changes nothing but the numbers (`parse_agrees`): a hash is read in both ways or in none; if in
none, then because of the same fault in the same place; and if in both, then counting the numbers of
each node from zero turns the tree with a shared index into the other one (`Tree.renumber`).

## Shape of the proof

For faults, the two machines are run side by side. After the same tokens they have the same phase, and
the same blocks are open, up to the numbers among their keys (`Lockstep`). Each operation of the machine
keeps this or ends with the same fault (`Agree`), so each token does (`agree_step`) and a run does
(`agree_foldlM`).

For trees, the machine is not needed: both are the meaning of the same entries. A named entry is put in
the same place on both sides. A block without a variable goes to the end on both sides, because its
number is new: with a shared index, it is above all numbers so far, and without, it is their number
(`renumberFrom_putAll`).
-/

namespace DocTree.Hash

/-! ## Counting anew -/

mutual

/-- The tree in which the numbers of each node are counted from zero. -/
def Tree.renumber : Tree → Tree
  | .node content types children => .node content types (renumberFrom 0 children)

/-- The children in which the numbers are counted from `j`. -/
def renumberFrom (j : Nat) : List (Key × Tree) → List (Key × Tree)
  | [] => []
  | (.index _, t) :: rest => (.index j, t.renumber) :: renumberFrom (j + 1) rest
  | (.name s, t) :: rest => (.name s, t.renumber) :: renumberFrom j rest

end

/-- A key without its number. -/
def Key.unnumbered : Key → Key
  | index _ => index 0
  | name s => name s

/-- A fault without the number of the block that it is about. -/
def Fault.unnumbered : Fault → Fault
  | unclosed key => unclosed key.unnumbered
  | fault => fault

/-- Both outcomes are values that are related, or both are the same fault in the same place and inside
the same blocks, up to the numbers of the blocks. -/
inductive Agree {α β : Type} (R : α → β → Prop) : Except Error α → Except Error β → Prop where
  | ok {a : α} {b : β} (h : R a b) : Agree R (.ok a) (.ok b)
  | error {e f : Error} (hposition : e.position = f.position)
      (hfault : e.fault.unnumbered = f.fault.unnumbered)
      (hpath : e.path.map Key.unnumbered = f.path.map Key.unnumbered) : Agree R (.error e) (.error f)

namespace Agree

variable {α β γ δ : Type} {R : α → β → Prop} {S : γ → δ → Prop}

/-- Steps that agree, one after another. -/
theorem bind {x : Except Error α} {y : Except Error β} {f : α → Except Error γ}
    {g : β → Except Error δ} (h : Agree R x y) (hfg : ∀ a b, R a b → Agree S (f a) (g b)) :
    Agree S (x >>= f) (y >>= g) := by
  cases h with
  | ok h => exact hfg _ _ h
  | error hposition hfault hpath => exact .error hposition hfault hpath

theorem mono {R' : α → β → Prop} {x : Except Error α} {y : Except Error β} (h : Agree R x y)
    (hvalues : ∀ a b, x = .ok a → y = .ok b → R' a b) : Agree R' x y := by
  cases h with
  | ok _ => exact .ok (hvalues _ _ rfl rfl)
  | error hposition hfault hpath => exact .error hposition hfault hpath

/-- The same outcome on both sides. -/
theorem refl {Q : α → α → Prop} {x : Except Error α} (h : ∀ a, x = .ok a → Q a a) : Agree Q x x := by
  cases x with
  | ok a => exact .ok (h a rfl)
  | error e => exact .error rfl rfl rfl

end Agree

/-! ## Machines side by side -/

/-- What a fault tells about an open block, without the number of the block. -/
def OpenBlock.place (b : OpenBlock) : Key × Nat := (b.key.unnumbered, b.position)

namespace State

/-- The states have the same phase, and the same blocks are open, up to their numbers. -/
structure Lockstep (s s' : State) : Prop where
  phase : s.phase = s'.phase
  nested : s.nested.map OpenBlock.place = s'.nested.map OpenBlock.place

@[simp] theorem phase_mapCurrent (f : Block → Block) (s : State) :
    (s.mapCurrent f).phase = s.phase := by
  rcases s with ⟨root, _ | ⟨b, outer⟩, opened, phase⟩ <;> rfl

@[simp] theorem places_mapCurrent (f : Block → Block) (s : State) :
    (s.mapCurrent f).nested.map OpenBlock.place = s.nested.map OpenBlock.place := by
  rcases s with ⟨root, _ | ⟨b, outer⟩, opened, phase⟩ <;> rfl

namespace Lockstep

variable {s s' : State}

theorem length_eq (h : Lockstep s s') : s.nested.length = s'.nested.length := by
  have hlen := congrArg List.length h.nested
  rwa [List.length_map, List.length_map] at hlen

theorem path_eq (h : Lockstep s s') :
    s.path.map Key.unnumbered = s'.path.map Key.unnumbered := by
  have hkeys := congrArg (List.map Prod.fst) h.nested
  rw [List.map_map, List.map_map] at hkeys
  rw [path, path, List.map_reverse, List.map_reverse, List.map_map, List.map_map]
  exact congrArg List.reverse hkeys

theorem withPhase (h : Lockstep s s') (p : Phase) :
    Lockstep { s with phase := p } { s' with phase := p } :=
  ⟨rfl, h.nested⟩

/-- What the blocks hold does not matter. -/
theorem mapCurrent (h : Lockstep s s') (f g : Block → Block) :
    Lockstep (s.mapCurrent f) (s'.mapCurrent g) :=
  ⟨by rw [phase_mapCurrent, phase_mapCurrent, h.phase],
    by rw [places_mapCurrent, places_mapCurrent, h.nested]⟩

/-- States that go on together stop at a fault together. -/
theorem fail (h : Lockstep s s') {α β : Type} {R : α → β → Prop} (fault : Fault) (position : Nat) :
    Agree R (s.fail fault position) (s'.fail fault position) :=
  .error rfl rfl h.path_eq

theorem declare (h : Lockstep s s') (text : List Char) (position : Nat) :
    Agree (· = ·) (s.declare text position) (s'.declare text position) := by
  rw [State.declare, State.declare]
  split
  · exact .ok rfl
  · exact h.fail _ _

theorem addLeaf (h : Lockstep s s') (text : List Char) (position : Nat) :
    Agree Lockstep (s.addLeaf text position) (s'.addLeaf text position) := by
  refine (h.declare text position).bind fun d d' hd => ?_
  subst hd
  split
  · exact h.fail _ _
  · exact .ok (h.mapCurrent _ _)

theorem settle (h : Lockstep s s') : Agree Lockstep s.settle s'.settle := by
  rw [State.settle, State.settle, ← h.phase]
  split
  · exact (h.addLeaf _ _).bind fun _ _ h => .ok (h.withPhase _)
  · exact .ok (h.withPhase _)

variable {dialect dialect' : Dialect}

/-- The number of a block is all that the two ways to number give it differently. -/
theorem pushBlock (h : Lockstep s s') (variableName : List Char) (b : Block) (position : Nat) :
    Lockstep (s.pushBlock dialect variableName b position)
      (s'.pushBlock dialect' variableName b position) := by
  have hnested (d : Dialect) (r : State) :
      (r.pushBlock d variableName b position).nested.map OpenBlock.place =
        ((if variableName.isEmpty then Key.index 0 else .name variableName), position) ::
          r.nested.map OpenBlock.place := by
    rw [State.pushBlock]
    cases hnamed : variableName.isEmpty <;> cases d.sharedIndex <;>
      simp [OpenBlock.place, Key.unnumbered]
  exact ⟨rfl, by rw [hnested, hnested, h.nested]⟩

theorem openBlock (hdepth : dialect.maxDepth = dialect'.maxDepth) (h : Lockstep s s')
    (text : List Char) (position : Nat) :
    Agree Lockstep (s.openBlock dialect text position) (s'.openBlock dialect' text position) := by
  rw [State.openBlock, State.openBlock, ← hdepth, ← h.length_eq]
  split
  · exact h.fail _ _
  · split
    · exact .ok (h.pushBlock _ _ _)
    · refine (h.declare text position).bind fun d d' hd => ?_
      subst hd
      exact .ok (h.pushBlock _ _ _)

theorem closeBlock (h : Lockstep s s') (position : Nat) :
    Agree Lockstep (s.closeBlock position) (s'.closeBlock position) := by
  have hnested := h.nested
  rw [State.closeBlock, State.closeBlock]
  cases hs : s.nested with
  | nil =>
    rw [hs, List.map_nil, eq_comm, List.map_eq_nil_iff] at hnested
    rw [hnested]
    exact h.fail _ _
  | cons b outer =>
    rw [hs, List.map_cons, eq_comm, List.map_eq_cons_iff] at hnested
    obtain ⟨b', outer', hs', -, houter⟩ := hnested
    rw [hs']
    have hrest : Lockstep { s with nested := outer } { s' with nested := outer' } :=
      ⟨h.phase, houter.symm⟩
    exact .ok (hrest.mapCurrent _ _)

/-- **A token keeps machines together**, or stops them at the same fault. -/
theorem step (hdepth : dialect.maxDepth = dialect'.maxDepth) (h : Lockstep s s') (t : Token) :
    Agree Lockstep (s.step dialect t) (s'.step dialect' t) := by
  rw [State.step, State.step]
  cases t.kind with
  | marker => exact h.settle.bind fun _ _ h => .ok (h.withPhase _)
  | opening =>
    dsimp only
    rw [← h.phase]
    split
    · exact h.openBlock hdepth _ _
    · exact h.openBlock hdepth _ _
  | closing => exact h.settle.bind fun _ _ h => h.closeBlock _
  | text =>
    dsimp only
    rw [← h.phase]
    split
    · exact .ok ((h.mapCurrent _ _).withPhase _)
    · exact .ok (h.withPhase _)
    · refine h.settle.bind fun _ _ h => ?_
      split
      · exact .ok h
      · exact h.fail _ _

/-- Machines that read the same tokens stay together. -/
theorem foldlM (hdepth : dialect.maxDepth = dialect'.maxDepth) (ts : List Token)
    (h : Lockstep s s') :
    Agree Lockstep (ts.foldlM (State.step dialect) s) (ts.foldlM (State.step dialect') s') := by
  induction ts generalizing s s' with
  | nil => exact .ok h
  | cons t ts ih =>
    rw [List.foldlM_cons, List.foldlM_cons]
    exact (h.step hdepth t).bind fun _ _ h => ih h

/-- Machines that end together find the same block unclosed, or none. -/
theorem finish (h : Lockstep s s') : Agree (fun _ _ => True) s.finish s'.finish := by
  refine h.settle.bind fun s s' h => ?_
  have hnested := h.nested
  cases hs : s.nested with
  | nil =>
    rw [hs, List.map_nil, eq_comm, List.map_eq_nil_iff] at hnested
    rw [hnested]
    exact .ok trivial
  | cons b outer =>
    rw [hs, List.map_cons, eq_comm, List.map_eq_cons_iff] at hnested
    obtain ⟨b', outer', hs', hb, -⟩ := hnested
    obtain ⟨hkey, hposition⟩ := Prod.mk.inj hb
    rw [hs']
    exact .error hposition.symm (congrArg Fault.unclosed hkey.symm) h.path_eq

end Lockstep

end State

/-- Tokens are read in both ways, or the same fault is found in both. -/
theorem agree_parseTokens (dialect dialect' : Dialect) (hdepth : dialect.maxDepth = dialect'.maxDepth)
    (ts : List Token) :
    Agree (fun _ _ => True) (parseTokens dialect ts) (parseTokens dialect' ts) := by
  have hstart : State.Lockstep .initial .initial := ⟨rfl, rfl⟩
  exact (hstart.foldlM hdepth ts).bind fun _ _ h => h.finish

/-! ## Trees side by side -/

theorem renumberFrom_append (j : Nat) (cs ds : List (Key × Tree)) :
    renumberFrom j (cs ++ ds) =
      renumberFrom j cs ++ renumberFrom (j + (indices cs).length) ds := by
  induction cs generalizing j with
  | nil => rfl
  | cons w cs ih =>
    obtain ⟨k, t⟩ := w
    cases k with
    | index n =>
      have hcount : (indices ((.index n, t) :: cs)).length = 1 + (indices cs).length :=
        Nat.add_comm _ _
      rw [List.cons_append, renumberFrom, renumberFrom, ih, hcount, Nat.add_assoc]
      rfl
    | name s =>
      rw [List.cons_append, renumberFrom, renumberFrom, ih]
      rfl

/-- Counted anew, the numbers follow one another. -/
theorem indices_renumberFrom (j : Nat) (cs : List (Key × Tree)) :
    indices (renumberFrom j cs) = List.range' j (indices cs).length := by
  induction cs generalizing j with
  | nil => rfl
  | cons w cs ih =>
    obtain ⟨k, t⟩ := w
    cases k with
    | index n =>
      rw [renumberFrom]
      exact congrArg (j :: ·) (ih (j + 1))
    | name s =>
      rw [renumberFrom]
      exact ih j

/-- A child under a variable is put in the same place. -/
theorem renumberFrom_putChild_name (j : Nat) (s : List Char) (child : Tree) (cs : List (Key × Tree)) :
    renumberFrom j (putChild (.name s) child cs) =
      putChild (.name s) child.renumber (renumberFrom j cs) := by
  induction cs generalizing j with
  | nil => rfl
  | cons w cs ih =>
    obtain ⟨k, t⟩ := w
    cases k with
    | index n => exact congrArg ((Key.index j, t.renumber) :: ·) (ih (j + 1))
    | name s' =>
      rw [renumberFrom, putChild, putChild]
      split
      · rfl
      · exact congrArg ((Key.name s', t.renumber) :: ·) (ih j)

/-- A child under a new number goes to the end, and is counted there. -/
theorem renumberFrom_putChild_index {n : Nat} {cs : List (Key × Tree)} (hn : n ∉ indices cs)
    (child : Tree) :
    renumberFrom 0 (putChild (.index n) child cs) =
      putChild (.index (indices cs).length) child.renumber (renumberFrom 0 cs) := by
  have hcount : (indices cs).length ∉ indices (renumberFrom 0 cs) := by
    rw [indices_renumberFrom, List.mem_range'_1]
    omega
  rw [putChild_of_not_mem (mt mem_indices.2 hn), putChild_of_not_mem (mt mem_indices.2 hcount),
    renumberFrom_append, Nat.zero_add]
  rfl

/-- **Entries write the same in both ways**, once the numbers are counted anew. The numbers so far are
below the blocks opened so far, and there are as many of them as were given out. -/
theorem renumberFrom_putAll (es : List Entry) (cs : List (Key × Tree)) (opened opened' numbered : Nat)
    (hcs : ∀ i ∈ indices cs, i < opened) :
    renumberFrom 0 (putAll cs (writesAll true opened numbered es)) =
      putAll (renumberFrom 0 cs) (writesAll false opened' (indices cs).length es) := by
  induction es using entries_induction generalizing cs opened opened' numbered with
  | nil => rfl
  | blank es ih => exact ih cs opened opened' numbered hcs
  | leaf d es ih =>
    have hsame : indices (putChild (.name d.variableName) (.node d.description d.types []) cs) =
        indices cs := congrArg (List.map _) (positional_putChild_name _ _ cs)
    have hrest := ih (putChild (.name d.variableName) (.node d.description d.types []) cs) opened
      opened' numbered (by rwa [hsame])
    rw [hsame, renumberFrom_putChild_name] at hrest
    exact hrest
  | block d lead inner es ihi ihe =>
    let child := blockTree true (opened + 1) d lead inner
    have hchild : child.renumber = blockTree false (opened' + 1) d lead inner := by
      show Tree.node _ _ (renumberFrom 0 _) = Tree.node _ _ _
      rw [ihi [] (opened + 1) (opened' + 1) 0 fun _ h => absurd h List.not_mem_nil]
      rfl
    have hopens : opened < opened + (opensAll inner + 1) := by omega
    cases hname : (blockVariable d).isEmpty with
    | false =>
      have hsame : indices (putChild (.name (blockVariable d)) child cs) = indices cs :=
        congrArg (List.map _) (positional_putChild_name _ _ cs)
      have hrest := ihe (putChild (.name (blockVariable d)) child cs) (opened + (opensAll inner + 1))
        (opened' + (opensAll inner + 1)) numbered fun i hi => by
          rw [hsame] at hi
          exact Nat.lt_trans (hcs i hi) hopens
      rw [hsame, renumberFrom_putChild_name, hchild] at hrest
      rw [writesAll, writesAll, Entry.writes, Entry.writes, Entry.numbers, Entry.numbers, blockKey,
        blockKey, hname]
      exact hrest
    | true =>
      have hnew : opened ∉ indices cs := fun hmem => Nat.lt_irrefl _ (hcs opened hmem)
      have hadded : indices (putChild (.index opened) child cs) = indices cs ++ [opened] := by
        rw [putChild_of_not_mem (mt mem_indices.2 hnew), indices_append]
        rfl
      have hrest := ihe (putChild (.index opened) child cs) (opened + (opensAll inner + 1))
        (opened' + (opensAll inner + 1)) numbered fun i hi => by
          rw [hadded, List.mem_append, List.mem_singleton] at hi
          exact Nat.lt_of_le_of_lt (hi.elim (fun hi => Nat.le_of_lt (hcs i hi)) Nat.le_of_eq) hopens
      rw [hadded, List.length_append, renumberFrom_putChild_index hnew, hchild] at hrest
      rw [writesAll, writesAll, Entry.writes, Entry.writes, Entry.numbers, Entry.numbers, blockKey,
        blockKey, hname]
      exact hrest

/-- The meaning of a block, counted anew. -/
theorem renumber_meaning (lead : List Char) (es : List Entry) :
    (meaning true lead es).renumber = meaning false lead es := by
  rw [meaning, Tree.renumber, renumberFrom_putAll es [] 0 0 0 fun _ h => absurd h List.not_mem_nil]
  rfl

/-- **The two ways to number blocks differ in nothing but the numbers**: they read the same hashes, to
the same trees once the numbers of each node are counted from zero, and find the same faults. -/
theorem parse_agrees (r : Registry) (maxDepth : Nat) (content : List Char) :
    Agree (fun t u => t.renumber = u) (parse ⟨r, maxDepth, true⟩ content)
      (parse ⟨r, maxDepth, false⟩ content) := by
  have hinner : Agree (· = ·) (unbrace content) (unbrace content) := .refl fun _ _ => rfl
  refine hinner.bind fun inner inner' h => ?_
  subst h
  have htokens := agree_parseTokens ⟨r, maxDepth, true⟩ ⟨r, maxDepth, false⟩ rfl (tokenize r inner)
  refine htokens.mono fun t u ht hu => ?_
  obtain ⟨lead, es, hderives, rfl⟩ := parseTokens_eq_ok_iff.1 ht
  have hu' : parseTokens ⟨r, maxDepth, false⟩ (tokenize r inner) = .ok (meaning false lead es) :=
    parseTokens_eq_ok_iff.2 ⟨lead, es, hderives, rfl⟩
  rw [renumber_meaning]
  exact Except.ok.inj (hu'.symm.trans hu)

end DocTree.Hash
