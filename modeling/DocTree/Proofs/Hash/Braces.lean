import DocTree.Proofs.Hash.Numbering

/-!
# The blocks open behind tokens

Which blocks are open somewhere in a hash, and under which keys, can be read off the tokens before that
place, whether or not a hash can be read there at all. A brace that closes a block closes the innermost
one (`openBraces`). The key of a block is the variable that stands before its brace, or else its number
(`keyAt`): with a shared index the braces before it that open a block, otherwise those among them that
open a block without a variable right inside the same block.

Where every closing brace closes a block (`Matched`), there are as many open blocks as opening braces
without a closing one (`openings_eq`). A block that is open has around it what was open at its brace
(`openBraces_behind`).
-/

namespace DocTree.Hash

/-! ## Braces -/

/-- How many tokens close a block. -/
def closings (ts : List Token) : Nat := ts.countP (·.kind == .closing)

/-- A brace that opens a block, and the tokens it stands behind. -/
structure Brace where
  behind : List Token
  token : Token
  deriving DecidableEq

/-- The braces among `ts` that open a block, in order, `before` standing before `ts`. -/
def bracesFrom (before : List Token) : List Token → List Brace
  | [] => []
  | t :: ts =>
    if t.kind = .opening then ⟨before, t⟩ :: bracesFrom (before ++ [t]) ts
    else bracesFrom (before ++ [t]) ts

/-- The braces that open a block, in order. -/
def braces (ts : List Token) : List Brace := bracesFrom [] ts

/-- The open blocks, innermost first, when `t` stands behind the tokens `before` and in the blocks
`stack`. -/
def nextStack (before : List Token) (stack : List Brace) (t : Token) : List Brace :=
  match t.kind with
  | .opening => ⟨before, t⟩ :: stack
  | .closing => stack.tail
  | _ => stack

/-- The blocks open behind `ts`, when `ts` stands behind the tokens `before` and in the blocks `stack`. -/
def openBracesFrom (before : List Token) (stack : List Brace) : List Token → List Brace
  | [] => stack
  | t :: ts => openBracesFrom (before ++ [t]) (nextStack before stack t) ts

/-- The braces of the blocks that are open behind tokens, innermost first. -/
def openBraces (ts : List Token) : List Brace := openBracesFrom [] [] ts

/-- Every closing brace closes a block. -/
def Matched (ts : List Token) : Prop :=
  ∀ before c after, ts = before ++ c :: after → c.kind = .closing → openBraces before ≠ []

/-! ## Keys -/

/-- The variable that a text declares; empty where it declares none. -/
def declaredVariable (text : List Char) : List Char :=
  match Declaration.parse text with
  | .ok d => d.variableName
  | .error _ => []

/-- The variable of a block whose brace stands behind tokens: the text right behind a marker declares
it. -/
def variableAt (before : List Token) : List Char :=
  match before.reverse with
  | t :: m :: _ => if t.kind = .text ∧ m.kind = .marker then declaredVariable t.value else []
  | _ => []

/-- The brace opens a block without a variable, right inside the blocks `stack`. -/
def Brace.isUnnamedIn (stack : List Brace) (b : Brace) : Bool :=
  openBraces b.behind == stack && (variableAt b.behind).isEmpty

/-- How many blocks without a variable the tokens open right inside the blocks `stack`. -/
def unnamedIn (ts : List Token) (stack : List Brace) : Nat := (braces ts).countP (·.isUnnamedIn stack)

/-- The key of a block whose brace stands behind tokens. -/
def keyAt (shared : Bool) (before : List Token) : Key :=
  blockKey shared (openings before) (unnamedIn before (openBraces before)) (variableAt before)

/-- The keys of the blocks open behind tokens, outermost first. -/
def pathAt (shared : Bool) (before : List Token) : List Key :=
  ((openBraces before).map fun b => keyAt shared b.behind).reverse

/-! ## One more token -/

section Concat

variable {ts : List Token} {t : Token}

theorem closings_concat : closings (ts ++ [t]) = closings ts + if t.kind = .closing then 1 else 0 := by
  rw [closings, List.countP_append, List.countP_singleton]
  simp only [beq_iff_eq]
  rfl

theorem openings_concat : openings (ts ++ [t]) = openings ts + if t.kind = .opening then 1 else 0 := by
  rw [openings, List.countP_append, List.countP_singleton]
  simp only [beq_iff_eq]
  rfl

theorem bracesFrom_concat (before : List Token) :
    bracesFrom before (ts ++ [t]) =
      bracesFrom before ts ++ if t.kind = .opening then [⟨before ++ ts, t⟩] else [] := by
  induction ts generalizing before with
  | nil => rw [List.nil_append, bracesFrom, bracesFrom, bracesFrom, List.append_nil]; rfl
  | cons u ts ih =>
    rw [List.cons_append, bracesFrom, bracesFrom, ih, List.append_assoc, List.singleton_append]
    split
    · rfl
    · rfl

theorem braces_concat_of_opening (ht : t.kind = .opening) : braces (ts ++ [t]) = braces ts ++ [⟨ts, t⟩] := by
  rw [braces, bracesFrom_concat, if_pos ht]
  rfl

theorem braces_concat_of_ne (ht : t.kind ≠ .opening) : braces (ts ++ [t]) = braces ts := by
  rw [braces, bracesFrom_concat, if_neg ht, List.append_nil]
  rfl

theorem openBracesFrom_concat (before : List Token) (stack : List Brace) :
    openBracesFrom before stack (ts ++ [t]) =
      nextStack (before ++ ts) (openBracesFrom before stack ts) t := by
  induction ts generalizing before stack with
  | nil =>
    rw [List.append_nil]
    rfl
  | cons u ts ih =>
    rw [List.cons_append, openBracesFrom, ih, List.append_assoc, List.singleton_append]
    rfl

theorem openBraces_concat : openBraces (ts ++ [t]) = nextStack ts (openBraces ts) t :=
  openBracesFrom_concat [] []

theorem openBraces_concat_of_opening (ht : t.kind = .opening) :
    openBraces (ts ++ [t]) = ⟨ts, t⟩ :: openBraces ts := by
  rw [openBraces_concat, nextStack, ht]

theorem openBraces_concat_of_closing (ht : t.kind = .closing) :
    openBraces (ts ++ [t]) = (openBraces ts).tail := by
  rw [openBraces_concat, nextStack, ht]

/-- A token that is no brace leaves the open blocks as they are. -/
theorem openBraces_concat_of_ne (ho : t.kind ≠ .opening) (hc : t.kind ≠ .closing) :
    openBraces (ts ++ [t]) = openBraces ts := by
  rw [openBraces_concat, nextStack]
  cases hkind : t.kind with
  | opening => exact absurd hkind ho
  | closing => exact absurd hkind hc
  | marker => rfl
  | text => rfl

theorem unnamedIn_concat_of_ne (ht : t.kind ≠ .opening) (stack : List Brace) :
    unnamedIn (ts ++ [t]) stack = unnamedIn ts stack := by
  rw [unnamedIn, braces_concat_of_ne ht]
  rfl

theorem unnamedIn_concat_of_opening (ht : t.kind = .opening) (stack : List Brace) :
    unnamedIn (ts ++ [t]) stack =
      unnamedIn ts stack + if openBraces ts = stack ∧ variableAt ts = [] then 1 else 0 := by
  rw [unnamedIn, braces_concat_of_opening ht, List.countP_append, List.countP_singleton]
  simp only [Brace.isUnnamedIn, Bool.and_eq_true, beq_iff_eq, List.isEmpty_iff]
  rfl

theorem matched_nil : Matched [] := by
  intro before c after h
  exact absurd h.symm (by simp)

/-- Tokens stay matched unless a brace closes nothing. -/
theorem Matched.concat (h : Matched ts) (ht : t.kind = .closing → openBraces ts ≠ []) :
    Matched (ts ++ [t]) := by
  intro before c after hsplit hc
  rcases List.eq_nil_or_concat after with rfl | ⟨after, u, rfl⟩
  · obtain ⟨rfl, hlast⟩ := List.append_inj' hsplit rfl
    cases hlast
    exact ht hc
  · rw [List.concat_eq_append, ← List.cons_append, ← List.append_assoc] at hsplit
    exact h _ _ _ (List.append_inj' hsplit rfl).1 hc

/-- A variable is declared by text. -/
theorem variableAt_concat_of_ne (ht : t.kind ≠ .text) : variableAt (ts ++ [t]) = [] := by
  rw [variableAt, List.reverse_concat]
  split
  · next u m rest h =>
    obtain ⟨rfl, -⟩ := List.cons.inj h
    exact if_neg fun hkinds => ht hkinds.1
  · rfl

/-- A variable is declared behind a marker. -/
theorem variableAt_concat_of_last (h : ∀ m, ts.getLast? = some m → m.kind ≠ .marker) :
    variableAt (ts ++ [t]) = [] := by
  rw [variableAt, List.reverse_concat]
  split
  · next u m rest heq =>
    obtain ⟨-, hts⟩ := List.cons.inj heq
    have hlast : ts.getLast? = some m := by rw [← List.head?_reverse, hts]; rfl
    exact if_neg fun hkinds => h m hlast hkinds.2
  · rfl

theorem variableAt_declared {m : Token} (hm : m.kind = .marker) (ht : t.kind = .text) :
    variableAt (ts ++ [m, t]) = declaredVariable t.value := by
  rw [variableAt, List.reverse_append]
  exact if_pos ⟨ht, hm⟩

end Concat

/-! ## Open blocks -/

/-- A block is opened by one of the tokens. -/
theorem exists_of_mem_braces {ts : List Token} {b : Brace} (h : b ∈ braces ts) :
    ∃ after, ts = b.behind ++ b.token :: after ∧ b.token.kind = .opening := by
  induction ts using List.reverseRecOn with
  | nil => exact absurd h List.not_mem_nil
  | append_singleton ts t ih =>
    by_cases ht : t.kind = .opening
    · rw [braces_concat_of_opening ht, List.mem_append, List.mem_singleton] at h
      rcases h with h | rfl
      · obtain ⟨after, hts, hb⟩ := ih h
        exact ⟨after ++ [t], by rw [hts, List.append_assoc, List.cons_append], hb⟩
      · exact ⟨[], rfl, ht⟩
    · rw [braces_concat_of_ne ht] at h
      obtain ⟨after, hts, hb⟩ := ih h
      exact ⟨after ++ [t], by rw [hts, List.append_assoc, List.cons_append], hb⟩

theorem mem_braces_of_mem_openBraces {ts : List Token} {b : Brace} (h : b ∈ openBraces ts) :
    b ∈ braces ts := by
  induction ts using List.reverseRecOn with
  | nil => exact absurd h List.not_mem_nil
  | append_singleton ts t ih =>
    by_cases ht : t.kind = .opening
    · rw [openBraces_concat_of_opening ht, List.mem_cons] at h
      rw [braces_concat_of_opening ht, List.mem_append, List.mem_singleton]
      exact h.symm.imp_left ih
    · rw [braces_concat_of_ne ht]
      by_cases hc : t.kind = .closing
      · rw [openBraces_concat_of_closing hc] at h
        exact ih (List.mem_of_mem_tail h)
      · rw [openBraces_concat_of_ne ht hc] at h
        exact ih h

theorem length_behind_lt {ts : List Token} {b : Brace} (h : b ∈ braces ts) :
    b.behind.length < ts.length := by
  obtain ⟨after, hts, -⟩ := exists_of_mem_braces h
  rw [hts, List.length_append, List.length_cons]
  omega

/-- The tokens open nothing inside a block that is opened behind them. -/
theorem unnamedIn_eq_zero {ts : List Token} {b : Brace} (hb : ts.length ≤ b.behind.length)
    (stack : List Brace) : unnamedIn ts (b :: stack) = 0 := by
  rw [unnamedIn, List.countP_eq_zero]
  intro b' hb' hunnamed
  rw [Brace.isUnnamedIn, Bool.and_eq_true, beq_iff_eq] at hunnamed
  -- the block would be open at a brace that stands before it
  have hopen : b ∈ openBraces b'.behind := by
    rw [hunnamed.1]
    exact List.mem_cons_self
  have hlt := length_behind_lt (mem_braces_of_mem_openBraces hopen)
  have hlt' := length_behind_lt hb'
  omega

/-- **Around an open block is what was open at its brace.** -/
theorem openBraces_behind {ts : List Token} {b : Brace} {stack : List Brace}
    (h : b :: stack <:+ openBraces ts) : openBraces b.behind = stack := by
  induction ts using List.reverseRecOn with
  | nil => exact absurd (List.suffix_nil.1 h) (List.cons_ne_nil b stack)
  | append_singleton ts t ih =>
    by_cases ht : t.kind = .opening
    · rw [openBraces_concat_of_opening ht, List.suffix_cons_iff] at h
      rcases h with h | h
      · obtain ⟨rfl, rfl⟩ := List.cons.inj h
        rfl
      · exact ih h
    · by_cases hc : t.kind = .closing
      · rw [openBraces_concat_of_closing hc] at h
        exact ih (h.trans (List.tail_suffix _))
      · rw [openBraces_concat_of_ne ht hc] at h
        exact ih h

/-- The innermost open block adds its key to the path at its brace. -/
theorem pathAt_eq_concat (shared : Bool) {ts : List Token} {b : Brace} {stack : List Brace}
    (h : openBraces ts = b :: stack) :
    pathAt shared ts = pathAt shared b.behind ++ [keyAt shared b.behind] := by
  have hsuffix : b :: stack <:+ openBraces ts := ⟨[], h.symm⟩
  have hstack : openBraces b.behind = stack := openBraces_behind hsuffix
  rw [pathAt, h, List.map_cons, List.reverse_cons, ← hstack]
  rfl

/-- **Where every closing brace closes a block, the open blocks are the opening braces less the closing
ones.** -/
theorem Matched.openings_eq {ts : List Token} (h : Matched ts) :
    openings ts = closings ts + (openBraces ts).length := by
  induction ts using List.reverseRecOn with
  | nil => rfl
  | append_singleton ts t ih =>
    have hts : Matched ts := fun before c after hsplit =>
      h before c (after ++ [t]) (by rw [hsplit, List.append_assoc, List.cons_append])
    have ih := ih hts
    rw [openings_concat, closings_concat, ih]
    by_cases ho : t.kind = .opening
    · rw [openBraces_concat_of_opening ho, if_pos ho, if_neg (by rw [ho]; decide), List.length_cons]
      omega
    · by_cases hc : t.kind = .closing
      · have hopen : 0 < (openBraces ts).length := List.length_pos_of_ne_nil (h ts t [] rfl hc)
        rw [openBraces_concat_of_closing hc, if_neg ho, if_pos hc, List.length_tail]
        omega
      · rw [openBraces_concat_of_ne ho hc, if_neg ho, if_neg hc, Nat.add_zero, Nat.add_zero]

end DocTree.Hash
