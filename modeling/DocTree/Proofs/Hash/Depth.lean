import DocTree.Proofs.Hash.Locating

/-!
# The depth of a hash

A dialect limits how many blocks may be open inside one another. The limit is exact: a hash that can be
read under a higher limit can be read under a lower one precisely if none of its braces opens a block
inside that many others, and otherwise the first such brace is reported. All else is the same under both
limits, the tree as well as the faults (`parse_limited`). The tree of a hash has one level more than the
limit, because leaves of the innermost blocks lie below them.

## Shape of the proof

The limit is looked at in one place, where a block is opened. So a token leads a state to the same
outcome under both limits, or it opens a block that is too deep under the lower one (`step_limit`), and
then the run stops there (`foldlM_limit`). What is open at that token follows from `reads_of_foldlM`.
For the depth of the tree, no machine is needed: a derivation nests blocks up to the limit
(`Derives.shallow`).
-/

namespace DocTree.Hash

/-! ## Nodes by their distance -/

/-- The nodes at a distance from the root of a tree. -/
inductive Tree.NodeAt (t : Tree) : Nat → Tree → Prop
  | root : t.NodeAt 0 t
  | child {n : Nat} {u v : Tree} {k : Key} (hu : t.NodeAt n u) (hv : (k, v) ∈ u.children) :
    t.NodeAt (n + 1) v

theorem childrenDepth_le_iff {children : List (Key × Tree)} {n : Nat} :
    childrenDepth children ≤ n ↔ ∀ w ∈ children, w.2.depth + 1 ≤ n := by
  induction children with
  | nil => exact ⟨fun _ _ h => absurd h List.not_mem_nil, fun _ => Nat.zero_le n⟩
  | cons w children ih =>
    obtain ⟨k, t⟩ := w
    rw [childrenDepth, Nat.max_le, ih, List.forall_mem_cons]

theorem childrenDepth_append (cs ds : List (Key × Tree)) :
    childrenDepth (cs ++ ds) = max (childrenDepth cs) (childrenDepth ds) := by
  induction cs with
  | nil => exact (Nat.zero_max _).symm
  | cons w cs ih =>
    obtain ⟨k, t⟩ := w
    rw [List.cons_append, childrenDepth, childrenDepth, ih, Nat.max_assoc]

/-- Each child is a level of its own. -/
theorem eq_nil_of_childrenDepth_eq_zero {children : List (Key × Tree)}
    (h : childrenDepth children = 0) : children = [] := by
  cases children with
  | nil => rfl
  | cons w children =>
    have hw := childrenDepth_le_iff.1 h.le w List.mem_cons_self
    exact absurd hw (Nat.not_succ_le_zero _)

theorem Tree.depth_eq (t : Tree) : t.depth = childrenDepth t.children := by
  cases t
  rw [Tree.depth, Tree.children]

theorem Tree.NodeAt.depth_le {t u : Tree} {n : Nat} (h : t.NodeAt n u) : n + u.depth ≤ t.depth := by
  induction h with
  | root => exact (Nat.zero_add _).le
  | @child n u v k hu hv ih =>
    have hchild : v.depth + 1 ≤ u.depth := by
      rw [u.depth_eq]
      exact childrenDepth_le_iff.1 (Nat.le_refl _) _ hv
    omega

/-! ## Derivations are shallow -/

theorem childrenDepth_putAll_le (written : List (Key × Tree)) :
    childrenDepth (putAll [] written) ≤ childrenDepth written := by
  rw [childrenDepth_le_iff]
  intro w hw
  rcases mem_putAll hw with hw | hw
  · exact absurd hw List.not_mem_nil
  · exact childrenDepth_le_iff.1 (Nat.le_refl _) w hw

/-- What a phrase writes stays within the limit: its own depth and that of its trees together, with one
level more for leaves. -/
def Phrase.Shallow (limit : Nat) : Phrase → Prop
  | .block depth _ es => depth ≤ limit → ∀ shared opened numbered,
      depth + childrenDepth (writesAll shared opened numbered es) ≤ limit + 1
  | .entries depth es => depth ≤ limit → ∀ shared opened numbered,
      depth + childrenDepth (writesAll shared opened numbered es) ≤ limit + 1
  | .entry depth e => depth ≤ limit → ∀ shared opened numbered,
      depth + childrenDepth (e.writes shared opened numbered) ≤ limit + 1

/-- A block is one level around what is in it. -/
theorem shallow_block {limit depth : Nat} {d : Option Declaration} {lead : List Char} {es : List Entry}
    (hdepth : depth < limit) (h : (Phrase.block (depth + 1) lead es).Shallow limit) :
    (Phrase.entry depth (.block d lead es)).Shallow limit := by
  intro _ shared opened numbered
  have hinner := h hdepth shared (opened + 1) 0
  have hput := childrenDepth_putAll_le (writesAll shared (opened + 1) 0 es)
  rw [Entry.writes, childrenDepth, childrenDepth, Tree.depth, Nat.max_zero]
  omega

/-- **A derivation nests blocks up to the limit.** -/
theorem Derives.shallow {limit : Nat} {φ : Phrase} {ts : List Token} (h : Derives limit φ ts) :
    φ.Shallow limit := by
  induction h with
  | block _ _ ih => exact ih
  | nil =>
    intro hdepth shared opened numbered
    rw [writesAll, childrenDepth]
    omega
  | @cons depth e es ts rest _ _ _ ihe ihr =>
    intro hdepth shared opened numbered
    rw [writesAll, childrenDepth_append]
    have hentry := ihe hdepth shared opened numbered
    have hrest := ihr hdepth shared (opened + e.opens) (numbered + e.numbers shared)
    omega
  | blank _ _ =>
    intro hdepth shared opened numbered
    rw [Entry.writes, childrenDepth]
    omega
  | leaf _ _ _ _ =>
    intro hdepth shared opened numbered
    rw [Entry.writes, childrenDepth, childrenDepth, Tree.depth, childrenDepth]
    omega
  | announced _ _ _ hdepth _ _ _ ih => exact shallow_block hdepth ih
  | bare hdepth _ _ _ ih => exact shallow_block hdepth ih

theorem depth_le_of_parseTokens {dialect : Dialect} {ts : List Token} {t : Tree}
    (h : parseTokens dialect ts = .ok t) : t.depth ≤ dialect.maxDepth + 1 := by
  obtain ⟨lead, es, hderives, rfl⟩ := parseTokens_eq_ok_iff.1 h
  have hwritten := hderives.shallow (Nat.zero_le _) dialect.sharedIndex 0 0
  rw [Nat.zero_add] at hwritten
  rw [meaning, Tree.depth]
  exact (childrenDepth_putAll_le _).trans hwritten

/-! ## Two limits -/

/-- The brace `o` behind the tokens `before` opens a block inside `limit` others. -/
def TooDeep (limit : Nat) (before : List Token) (o : Token) : Prop :=
  o.kind = .opening ∧ limit ≤ (openBraces before).length

/-- The brace `o` behind the tokens `before` is the first of the tokens `T` to open a block inside
`limit` others. -/
structure FirstTooDeep (limit : Nat) (T before : List Token) (o : Token) : Prop where
  tokens : ∃ after, T = before ++ o :: after
  opening : o.kind = .opening
  depth : (openBraces before).length = limit
  first {before' : List Token} {o' : Token} {after' : List Token} (h : before = before' ++ o' :: after') :
    ¬TooDeep limit before' o'

/-- What a hash is read as under two limits `d` and `d'`, the lower one first. -/
structure Limited (r : Registry) (shared : Bool) (content : List Char) (d d' : Nat) : Prop where
  /-- The tree has at most one level more than blocks may be nested. -/
  depth {t : Tree} (h : parse ⟨r, d, shared⟩ content = .ok t) : t.depth ≤ d + 1
  /-- What lies below the innermost blocks has no children. -/
  deepest {t u : Tree} (h : parse ⟨r, d, shared⟩ content = .ok t) (hu : t.NodeAt (d + 1) u) :
    u.children = []
  /-- No brace opens a block that is too deep. -/
  fits {t : Tree} (h : parse ⟨r, d, shared⟩ content = .ok t) :
    ∃ inner, unbrace content = .ok inner ∧
      ∀ before o after, tokenize r inner = before ++ o :: after → ¬TooDeep d before o
  /-- A tree is the same under the higher limit. -/
  sameTree {t : Tree} (h : parse ⟨r, d, shared⟩ content = .ok t) :
    parse ⟨r, d', shared⟩ content = .ok t
  /-- A fault that is not about the limit is the same under the higher limit. -/
  sameFault {e : Error} (h : parse ⟨r, d, shared⟩ content = .error e)
      (hfault : ∀ limit, e.fault ≠ .tooDeep limit) :
    parse ⟨r, d', shared⟩ content = .error e
  /-- A hash that can only be read under the higher limit has a block that is too deep under the lower
  one, and the first such block is reported at its brace. -/
  tooDeep {e : Error} {t : Tree} (h : parse ⟨r, d, shared⟩ content = .error e)
      (h' : parse ⟨r, d', shared⟩ content = .ok t) :
    ∃ inner before o, unbrace content = .ok inner ∧ FirstTooDeep d (tokenize r inner) before o ∧
      e = ⟨.tooDeep d, o.position, pathAt shared before⟩ ∧ e.path.length = d

namespace State

variable {d d' : Nat}

/-- A token leads to the same outcome under a higher limit, unless it opens a block that is too deep. -/
theorem step_limit (r : Registry) (shared : Bool) (h : d ≤ d') (s : State) (t : Token) :
    s.step ⟨r, d, shared⟩ t = s.step ⟨r, d', shared⟩ t ∨
      t.kind = .opening ∧ d ≤ s.nested.length ∧
        s.step ⟨r, d, shared⟩ t = s.fail (.tooDeep d) t.position := by
  cases hkind : t.kind with
  | opening =>
    rw [step_opening hkind, step_opening hkind, openBlock, openBlock]
    by_cases hdepth : d ≤ s.nested.length
    · exact .inr ⟨rfl, hdepth, if_pos hdepth⟩
    · rw [if_neg hdepth, if_neg fun hdepth' => hdepth (h.trans hdepth')]
      exact .inl rfl
  | _ =>
    left
    rw [step, step, hkind]

/-- A run ends the same under a higher limit, unless it stops at a block that is too deep. -/
theorem foldlM_limit (r : Registry) (shared : Bool) (h : d ≤ d') (s : State) (ts : List Token) :
    ts.foldlM (step ⟨r, d, shared⟩) s = ts.foldlM (step ⟨r, d', shared⟩) s ∨
      ∃ before o after s', ts = before ++ o :: after ∧ before.foldlM (step ⟨r, d, shared⟩) s = .ok s' ∧
        o.kind = .opening ∧ d ≤ s'.nested.length ∧
        ts.foldlM (step ⟨r, d, shared⟩) s = s'.fail (.tooDeep d) o.position := by
  induction ts generalizing s with
  | nil => exact .inl rfl
  | cons t ts ih =>
    simp only [List.foldlM_cons]
    rcases step_limit r shared h s t with hstep | ⟨ht, hdepth, hstep⟩
    · rw [← hstep]
      cases hs : s.step ⟨r, d, shared⟩ t with
      | error e => exact .inl rfl
      | ok s₁ =>
        rcases ih s₁ with hrest | ⟨before, o, after, s', rfl, hbefore, ho, hdepth, hrest⟩
        · exact .inl hrest
        · refine .inr ⟨t :: before, o, after, s', rfl, ?_, ho, hdepth, hrest⟩
          rw [List.foldlM_cons, hs]
          exact hbefore
    · rw [hstep]
      exact .inr ⟨[], t, ts, s, rfl, rfl, ht, hdepth, rfl⟩

/-- A run that goes on opens no block that is too deep. -/
theorem not_tooDeep_of_foldlM {dialect : Dialect} {s : State} {before after : List Token} {o : Token}
    (h : (before ++ o :: after).foldlM (step dialect) initial = .ok s) :
    ¬TooDeep dialect.maxDepth before o := by
  rintro ⟨ho, hdepth⟩
  rw [List.foldlM_append, bind_eq_ok_iff] at h
  obtain ⟨s₁, hbefore, h⟩ := h
  rw [List.foldlM_cons, bind_eq_ok_iff] at h
  obtain ⟨s₂, hstep, -⟩ := h
  rw [step_opening ho, openBlock_eq_ok_iff, (reads_of_foldlM hbefore).tracks.length_eq] at hstep
  exact absurd hstep.1 (Nat.not_lt.2 hdepth)

end State

section Parse

variable {d d' : Nat}

/-- Tokens are read alike under a higher limit, unless one opens a block that is too deep. -/
theorem parseTokens_limit (r : Registry) (shared : Bool) (h : d ≤ d') (ts : List Token) :
    parseTokens ⟨r, d, shared⟩ ts = parseTokens ⟨r, d', shared⟩ ts ∨
      ∃ before o, FirstTooDeep d ts before o ∧
        parseTokens ⟨r, d, shared⟩ ts = .error ⟨.tooDeep d, o.position, pathAt shared before⟩ := by
  rw [parseTokens, parseTokens]
  rcases State.foldlM_limit r shared h .initial ts with
    hrun | ⟨before, o, after, s, rfl, hbefore, ho, hdepth, hrun⟩
  · rw [hrun]
    exact .inl rfl
  · have htracks := (reads_of_foldlM hbefore).tracks
    have hlength : (openBraces before).length = d :=
      Nat.le_antisymm (htracks.length_eq ▸ htracks.room) (htracks.length_eq ▸ hdepth)
    refine .inr ⟨before, o, ⟨⟨after, rfl⟩, ho, hlength, ?_⟩, ?_⟩
    · rintro before' o' after' rfl
      exact State.not_tooDeep_of_foldlM hbefore
    · rw [hrun, ← htracks.path_eq]
      rfl

/-- **A higher limit changes nothing but which blocks are too deep.** -/
theorem parse_limited (r : Registry) (shared : Bool) (content : List Char) {d d' : Nat} (h : d ≤ d') :
    Limited r shared content d d' := by
  have hdepth : ∀ {t}, parse ⟨r, d, shared⟩ content = .ok t → t.depth ≤ d + 1 := by
    intro t ht
    obtain ⟨inner, -, htokens⟩ := bind_eq_ok_iff.1 ht
    exact depth_le_of_parseTokens htokens
  -- both limits give the same outcome, or the lower one is the limit that is reported
  have hcases : parse ⟨r, d, shared⟩ content = parse ⟨r, d', shared⟩ content ∨
      ∃ inner before o, unbrace content = .ok inner ∧ FirstTooDeep d (tokenize r inner) before o ∧
        parse ⟨r, d, shared⟩ content = .error ⟨.tooDeep d, o.position, pathAt shared before⟩ := by
    cases hinner : unbrace content with
    | error e =>
      rw [parse, parse, hinner]
      exact .inl rfl
    | ok inner =>
      rw [parse_of_unbrace hinner, parse_of_unbrace hinner]
      rcases parseTokens_limit r shared h (tokenize r inner) with
        hsame | ⟨before, o, hfirst, hfault⟩
      · exact .inl hsame
      · exact .inr ⟨inner, before, o, rfl, hfirst, hfault⟩
  exact {
    depth := hdepth
    deepest := by
      intro t u ht hu
      have hbelow := hu.depth_le
      have htree := hdepth ht
      have hleaf : childrenDepth u.children = 0 := by
        rw [← u.depth_eq]
        omega
      exact eq_nil_of_childrenDepth_eq_zero hleaf
    fits := by
      intro t ht
      obtain ⟨inner, hinner, htokens⟩ := bind_eq_ok_iff.1 ht
      obtain ⟨s, hrun, -⟩ := bind_eq_ok_iff.1 htokens
      refine ⟨inner, hinner, fun before o after hsplit => ?_⟩
      change (tokenize r inner).foldlM _ _ = _ at hrun
      rw [hsplit] at hrun
      exact State.not_tooDeep_of_foldlM hrun
    sameTree := by
      intro t ht
      rcases hcases with hsame | ⟨inner, before, o, -, -, hfault⟩
      · rw [← hsame, ht]
      · rw [ht] at hfault
        cases hfault
    sameFault := by
      intro e he hother
      rcases hcases with hsame | ⟨inner, before, o, -, -, hfault⟩
      · rw [← hsame, he]
      · rw [he] at hfault
        cases hfault
        exact absurd rfl (hother d)
    tooDeep := by
      intro e t he ht
      rcases hcases with hsame | ⟨inner, before, o, hinner, hfirst, hfault⟩
      · rw [he, ht] at hsame
        cases hsame
      · rw [he] at hfault
        cases hfault
        refine ⟨inner, before, o, hinner, hfirst, rfl, ?_⟩
        show (pathAt shared before).length = d
        rw [pathAt, List.length_reverse, List.length_map, hfirst.depth] }

/-- A block in a block. -/
def nestedHash : List Char := "\x7b \x7b \x7b \x7d \x7d \x7d".toList

/-- The inner block is too deep where blocks may not be nested, and not where one may be in another. -/
theorem parse_limited_nested :
    1 ≤ 2 ∧ parse ⟨.standard, 1, true⟩ nestedHash = .error ⟨.tooDeep 1, 3, [.index 0]⟩ ∧
      (∃ t, parse ⟨.standard, 2, true⟩ nestedHash = .ok t) ∧
      Limited .standard true nestedHash 1 2 := by
  have hinner : unbrace nestedHash = .ok " \x7b \x7b \x7d \x7d ".toList := by decide +kernel
  have htokens : tokenize .standard " \x7b \x7b \x7d \x7d ".toList =
      [⟨.text, [' '], 0⟩, ⟨.opening, ['{'], 1⟩, ⟨.text, [' '], 2⟩, ⟨.opening, ['{'], 3⟩,
        ⟨.text, [' '], 4⟩, ⟨.closing, ['}'], 5⟩, ⟨.text, [' '], 6⟩, ⟨.closing, ['}'], 7⟩,
        ⟨.text, [' '], 8⟩] := by decide +kernel
  refine ⟨by decide, ?_, ?_, parse_limited .standard true nestedHash (by decide)⟩
  · rw [parse_of_unbrace hinner, htokens]
    rfl
  · rw [parse_of_unbrace hinner, htokens]
    exact ⟨_, rfl⟩

end Parse

end DocTree.Hash
