import DocTree.Proofs.Hash.Braces
import DocTree.Proofs.Hash.Lexing
import Mathlib.Data.List.Infix

/-!
# Where the faults of a hash lie

A fault is reported with the position of a token and the keys of the blocks that are open there. Both
are right for every hash that has its outer braces and cannot be read (`parse_error_located`): behind the
tokens before that position, the blocks of the path are open and no others, and the token is of the kind
that the fault is about. A block that is never closed is reported at its own brace, with its own key
behind those of the blocks around it; it is the innermost block open at the end. A closing brace that
closes nothing is reported where no block is open, and every closing brace before it closes a block.

## Shape of the proof

`openBraces`, `keyAt` and `pathAt` say what is open behind tokens without running the machine of the
parser. `Tracks` ties a state of the machine to the tokens it has read: the same blocks are open, and
they have given out the same numbers. `Leads` ties its phase to the last tokens. One token keeps both, or
ends in a fault that lies among the tokens read so far (`Reads.step`); so does a run (`covers_foldlM`).
-/

namespace DocTree.Hash

/-! ## Faults and tokens -/

/-- The kind of token at which a fault lies. -/
def Fault.LiesAt : Fault → TokenKind → Prop
  | unbalanced, kind => kind = .closing
  | strayText _, kind => kind = .text
  | tooDeep _, kind => kind = .opening
  | unclosed _, kind => kind = .opening
  | badDeclaration _, kind => kind = .marker ∨ kind = .opening
  | unnamedEntry _, kind => kind = .marker
  | _, _ => False

/-- The tokens before a position. -/
def tokensBefore (position : Nat) (ts : List Token) : List Token := ts.filter (·.position < position)

/-- The place of a fault among the tokens `T`. -/
structure Located (dialect : Dialect) (T : List Token) (e : Error) : Prop where
  /-- A token stands at the position, and it is of a kind to have the fault. -/
  token : ∃ t after, T = tokensBefore e.position T ++ t :: after ∧ t.position = e.position ∧
    e.fault.LiesAt t.kind
  /-- The blocks open there are the opening braces less the closing ones. -/
  count : openings (tokensBefore e.position T) =
    closings (tokensBefore e.position T) + (openBraces (tokensBefore e.position T)).length
  /-- The path consists of the keys of the blocks open there, unless a block is not closed. -/
  path (h : ∀ key, e.fault ≠ .unclosed key) :
    e.path = pathAt dialect.sharedIndex (tokensBefore e.position T)
  /-- A block that is not closed is the innermost one open at the end; it adds its key to the path. -/
  unclosed {key : Key} (h : e.fault = .unclosed key) :
    (∃ o, (openBraces T).head? = some ⟨tokensBefore e.position T, o⟩ ∧ o.position = e.position) ∧
      key = keyAt dialect.sharedIndex (tokensBefore e.position T) ∧
      e.path = pathAt dialect.sharedIndex (tokensBefore e.position T) ++ [key]
  /-- A closing brace that closes nothing stands outside of all blocks, and is the first such brace. -/
  unbalanced (h : e.fault = .unbalanced) :
    openBraces (tokensBefore e.position T) = [] ∧ e.path = [] ∧ Matched (tokensBefore e.position T)
  /-- The path is no longer than blocks may be nested. -/
  bounded : e.path.length ≤ dialect.maxDepth

/-- Of tokens whose positions increase, those before a token are the ones that stand before its
position. -/
theorem tokensBefore_eq {T before after : List Token} {t : Token}
    (h : T.Pairwise fun t u => t.position < u.position) (hT : T = before ++ t :: after) :
    tokensBefore t.position T = before := by
  subst hT
  obtain ⟨-, hafter, hbefore⟩ := List.pairwise_append.1 h
  rw [tokensBefore, List.filter_append, List.filter_eq_self.2, List.filter_eq_nil_iff.2,
    List.append_nil]
  · intro u hu
    rw [decide_eq_true_eq, Nat.not_lt]
    rcases List.mem_cons.1 hu with rfl | hu
    · exact Nat.le_refl _
    · exact Nat.le_of_lt ((List.pairwise_cons.1 hafter).1 u hu)
  · exact fun u hu => decide_eq_true (hbefore u hu t List.mem_cons_self)

theorem Matched.of_append {ts us : List Token} (h : Matched (ts ++ us)) : Matched ts :=
  fun before c after hsplit =>
    h before c (after ++ us) (by rw [hsplit, List.append_assoc, List.cons_append])

/-! ## States and the tokens they have read -/

/-- What is reported about an open block. -/
def OpenBlock.label (b : OpenBlock) : Key × Nat := (b.key, b.position)

/-- What is reported about a block, by its brace. -/
def Brace.label (shared : Bool) (b : Brace) : Key × Nat := (keyAt shared b.behind, b.token.position)

/-- The declaration that the phase has for a block that opens now. -/
def Phase.declaration : Phase → List Char
  | announced _ text => text.getD []
  | _ => []

/-- No entry is announced at the end of the tokens. -/
structure Unannounced (before : List Token) : Prop where
  last : ∀ m, before.getLast? = some m → m.kind ≠ .marker
  unnamed : variableAt before = []

/-- The last of the tokens lead up to the phase. -/
inductive Leads : List Token → Phase → Prop
  | leading {before : List Token} (h : Unannounced before) : Leads before .leading
  | between {before : List Token} (h : Unannounced before) : Leads before .between
  | marker {before : List Token} {m : Token} (hm : m.kind = .marker) :
    Leads (before ++ [m]) (.announced m.position none)
  | declared {before : List Token} {m t : Token} (hm : m.kind = .marker) (ht : t.kind = .text) :
    Leads (before ++ [m, t]) (.announced m.position (some t.value))

/-- How many numbers each open block has given out, the innermost first and the root last. -/
def State.numbers (s : State) : List Nat := s.nested.map (·.block.numbered) ++ [s.root.numbered]

/-- The blocks of the state are those open behind the tokens. -/
structure Tracks (dialect : Dialect) (before : List Token) (s : State) : Prop where
  opened : s.opened = openings before
  nested : s.nested.map OpenBlock.label =
    (openBraces before).map (Brace.label dialect.sharedIndex)
  numbers : dialect.sharedIndex = false →
    s.numbers = (openBraces before).tails.map (unnamedIn before)
  room : s.nested.length ≤ dialect.maxDepth
  matched : Matched before

/-- The state has read the tokens. -/
structure Reads (dialect : Dialect) (before : List Token) (s : State) : Prop where
  tracks : Tracks dialect before s
  leads : Leads before s.phase

/-- The fault lies at `t`, behind the tokens `before`. -/
structure FoundAt (dialect : Dialect) (before : List Token) (t : Token) (e : Error) : Prop where
  position : e.position = t.position
  kind : e.fault.LiesAt t.kind
  path : e.path = pathAt dialect.sharedIndex before
  closed : ∀ key, e.fault ≠ .unclosed key
  unbalanced : e.fault = .unbalanced → openBraces before = []
  bounded : e.path.length ≤ dialect.maxDepth
  matched : Matched before

/-- The fault lies at one of the tokens. -/
def FoundIn (dialect : Dialect) (ts : List Token) (e : Error) : Prop :=
  ∃ before t after, ts = before ++ t :: after ∧ FoundAt dialect before t e

theorem FoundIn.append {dialect : Dialect} {ts : List Token} {e : Error} (h : FoundIn dialect ts e)
    (us : List Token) : FoundIn dialect (ts ++ us) e := by
  obtain ⟨before, t, after, rfl, hfound⟩ := h
  exact ⟨before, t, after ++ us, by rw [List.append_assoc, List.cons_append], hfound⟩

/-- The outcome is a state that has read the tokens, or a fault that lies at one of them. -/
inductive Covers (dialect : Dialect) (ts : List Token) : Except Error State → Prop
  | ok {s : State} (h : Reads dialect ts s) : Covers dialect ts (.ok s)
  | error {e : Error} (h : FoundIn dialect ts e) : Covers dialect ts (.error e)

/-! ## Phases -/

namespace Leads

variable {before : List Token} {phase : Phase}

/-- A block that opens now is declared by what the phase holds. -/
theorem variableAt_eq (h : Leads before phase) :
    variableAt before = declaredVariable phase.declaration := by
  cases h with
  | leading h => exact h.unnamed
  | between h => exact h.unnamed
  | marker hm => exact variableAt_concat_of_ne (by rw [hm]; decide)
  | declared hm ht => exact variableAt_declared hm ht

/-- Behind a marker and its text no further text declares anything. -/
theorem last_ne_marker (h : Leads before phase) (hphase : ∀ position, phase ≠ .announced position none) :
    ∀ m, before.getLast? = some m → m.kind ≠ .marker := by
  cases h with
  | leading h => exact h.last
  | between h => exact h.last
  | marker hm => exact absurd rfl (hphase _)
  | @declared before m t hm ht =>
    intro u hu
    obtain rfl : t = u := by simpa using hu
    rw [ht]
    decide

end Leads

/-- A brace ends what was announced. -/
theorem unannounced_concat_of_brace (before : List Token) {t : Token}
    (ht : t.kind = .opening ∨ t.kind = .closing) : Unannounced (before ++ [t]) where
  last := by
    intro m hm
    rw [List.getLast?_concat] at hm
    cases hm
    rcases ht with ht | ht <;> rw [ht] <;> decide
  unnamed := variableAt_concat_of_ne (by rcases ht with ht | ht <;> rw [ht] <;> decide)

/-- Text that stands behind no marker announces nothing. -/
theorem unannounced_concat_of_text {before : List Token} {t : Token} (ht : t.kind = .text)
    (h : ∀ m, before.getLast? = some m → m.kind ≠ .marker) : Unannounced (before ++ [t]) where
  last := by
    intro m hm
    rw [List.getLast?_concat] at hm
    cases hm
    rw [ht]
    decide
  unnamed := variableAt_concat_of_last h

/-! ## Blocks -/

theorem blockVariable_of_declares {text : List Char} {d : Option Declaration} (h : Declares text d) :
    blockVariable d = declaredVariable text := by
  cases h with
  | nothing h => rw [declaredVariable, Declaration.parse_of_allBlank h]; rfl
  | parameter h => rw [declaredVariable, h]; rfl

/-- A block that opens takes a number of the block around it, if it has no variable. -/
theorem map_unnamedIn_concat {before : List Token} {o : Token} (ho : o.kind = .opening) :
    (openBraces before).tails.map (unnamedIn (before ++ [o])) =
      ((openBraces before).tails.map (unnamedIn before)).modifyHead
        (· + if variableAt before = [] then 1 else 0) := by
  have hhead : unnamedIn (before ++ [o]) (openBraces before) =
      unnamedIn before (openBraces before) + if variableAt before = [] then 1 else 0 := by
    rw [unnamedIn_concat_of_opening ho]
    simp only [true_and]
  cases hstack : openBraces before with
  | nil =>
    rw [hstack] at hhead
    exact congrArg (· :: []) hhead
  | cons b stack =>
    rw [hstack] at hhead
    rw [List.tails, List.map_cons, List.map_cons, List.modifyHead_cons, hhead]
    refine congrArg (_ :: ·) (List.map_congr_left fun outer houter => ?_)
    -- the blocks further out are fewer, so the new block is not right inside them
    have hlength := ((List.mem_tails _ _).1 houter).length_le
    have hne : openBraces before ≠ outer := by
      rw [hstack]
      rintro rfl
      rw [List.length_cons] at hlength
      omega
    rw [unnamedIn_concat_of_opening ho, if_neg fun h => hne h.1, Nat.add_zero]

namespace State

/-- A change of the innermost block that gives out no number. -/
theorem numbers_mapCurrent {f : Block → Block} (hf : ∀ b, (f b).numbered = b.numbered) (s : State) :
    (s.mapCurrent f).numbers = s.numbers := by
  rcases s with ⟨root, _ | ⟨b, outer⟩, opened, phase⟩ <;> simp [mapCurrent, numbers, hf]

theorem label_mapCurrent (f : Block → Block) (s : State) :
    (s.mapCurrent f).nested.map OpenBlock.label = s.nested.map OpenBlock.label := by
  rcases s with ⟨root, _ | ⟨b, outer⟩, opened, phase⟩ <;> rfl

theorem opened_mapCurrent (f : Block → Block) (s : State) : (s.mapCurrent f).opened = s.opened := by
  rcases s with ⟨root, _ | ⟨b, outer⟩, opened, phase⟩ <;> rfl

/-- The numbers given out once a block is opened. -/
theorem numbers_pushBlock {dialect : Dialect} (hshared : dialect.sharedIndex = false) (s : State)
    (variableName : List Char) (b : Block) (position : Nat) :
    (s.pushBlock dialect variableName b position).numbers =
      b.numbered :: s.numbers.modifyHead (· + if variableName = [] then 1 else 0) := by
  rcases s with ⟨root, _ | ⟨b', outer⟩, opened, phase⟩ <;>
    cases variableName <;>
    simp [pushBlock, numbers, mapCurrent, hshared]

/-- The key of a block that is opened. -/
theorem label_pushBlock {dialect : Dialect} (s : State) (variableName : List Char) (b : Block)
    (position : Nat) :
    (s.pushBlock dialect variableName b position).nested.map OpenBlock.label =
      (blockKey dialect.sharedIndex s.opened s.current.numbered variableName, position) ::
        s.nested.map OpenBlock.label := by
  rcases s with ⟨root, _ | ⟨b', outer⟩, opened, phase⟩ <;>
    cases variableName <;> cases hshared : dialect.sharedIndex <;>
    simp [pushBlock, mapCurrent, current, OpenBlock.label, blockKey, hshared]

/-- The innermost block has given out the first of the numbers. -/
theorem head?_numbers (s : State) : s.numbers.head? = some s.current.numbered := by
  rcases s with ⟨root, _ | ⟨b, outer⟩, opened, phase⟩ <;> rfl

end State

namespace Tracks

open State

variable {dialect : Dialect} {before : List Token} {s s' : State}

theorem length_eq (h : Tracks dialect before s) : s.nested.length = (openBraces before).length := by
  have hlen := congrArg List.length h.nested
  rwa [List.length_map, List.length_map] at hlen

theorem path_eq (h : Tracks dialect before s) : s.path = pathAt dialect.sharedIndex before := by
  have hkeys := congrArg (List.map Prod.fst) h.nested
  rw [List.map_map, List.map_map] at hkeys
  exact congrArg List.reverse hkeys

theorem withPhase (h : Tracks dialect before s) (p : Phase) :
    Tracks dialect before { s with phase := p } :=
  ⟨h.opened, h.nested, h.numbers, h.room, h.matched⟩

theorem mapCurrent (h : Tracks dialect before s) {f : Block → Block}
    (hf : ∀ b, (f b).numbered = b.numbered) : Tracks dialect before (s.mapCurrent f) where
  opened := (opened_mapCurrent f s).trans h.opened
  nested := (label_mapCurrent f s).trans h.nested
  numbers hshared := (numbers_mapCurrent hf s).trans (h.numbers hshared)
  room := (length_nested_mapCurrent f s).trans_le h.room
  matched := h.matched

/-- A token that is no brace opens and closes nothing. -/
theorem concat (h : Tracks dialect before s) {t : Token} (ho : t.kind ≠ .opening)
    (hc : t.kind ≠ .closing) : Tracks dialect (before ++ [t]) s where
  opened := by rw [openings_concat, if_neg ho, h.opened, Nat.add_zero]
  nested := by rw [openBraces_concat_of_ne ho hc, h.nested]
  numbers hshared := by
    rw [openBraces_concat_of_ne ho hc, h.numbers hshared, funext (unnamedIn_concat_of_ne ho)]
  room := h.room
  matched := h.matched.concat fun hkind => absurd hkind hc

theorem settle (h : Tracks dialect before s) (hs : s.settle = .ok s') :
    Tracks dialect before s' ∧ s'.phase = .between := by
  cases hphase : s.phase with
  | announced position text =>
    obtain ⟨d, -, -, rfl⟩ := (settle_eq_ok_iff dialect.sharedIndex hphase).1 hs
    have hput : Tracks dialect before
        (s.mapCurrent (.put (.name d.variableName) (.node d.description d.types []))) :=
      h.mapCurrent fun _ => rfl
    rw [enter_leaf]
    exact ⟨hput.withPhase .between, rfl⟩
  | leading =>
    rw [settle_of_idle (idle_of_leading hphase)] at hs
    cases hs
    exact ⟨h.withPhase .between, rfl⟩
  | between =>
    rw [settle_of_idle (idle_of_between hphase)] at hs
    cases hs
    exact ⟨h.withPhase .between, rfl⟩

/-- The key of the block that opens is read off the tokens. -/
theorem blockKey_eq (h : Tracks dialect before s) :
    blockKey dialect.sharedIndex s.opened s.current.numbered (variableAt before) =
      keyAt dialect.sharedIndex before := by
  rw [keyAt, h.opened, blockKey, blockKey]
  cases hshared : dialect.sharedIndex with
  | true => rfl
  | false =>
    have hfirst : (openBraces before).tails.head? = some (openBraces before) := by
      cases openBraces before <;> rfl
    have hhead := head?_numbers s
    rw [h.numbers hshared, List.head?_map, hfirst, Option.map_some, Option.some.injEq] at hhead
    rw [hhead]

theorem pushBlock (h : Tracks dialect before s) (hroom : s.nested.length < dialect.maxDepth) {o : Token}
    (ho : o.kind = .opening) {b : Block} (hb : b.numbered = 0) :
    Tracks dialect (before ++ [o]) (s.pushBlock dialect (variableAt before) b o.position) where
  opened := by
    rw [openings_concat, if_pos ho, ← h.opened]
    rcases s with ⟨root, _ | ⟨b', outer⟩, opened, phase⟩ <;>
      cases hown : (variableAt before).isEmpty && !dialect.sharedIndex <;>
      simp [State.pushBlock, State.mapCurrent, hown]
  nested := by
    rw [label_pushBlock, openBraces_concat_of_opening ho, List.map_cons, h.blockKey_eq, h.nested]
    rfl
  numbers hshared := by
    have hself : openBraces before ≠ ⟨before, o⟩ :: openBraces before :=
      (List.cons_ne_self _ _).symm
    -- nothing was opened yet inside the new block
    have hinside : unnamedIn (before ++ [o]) (⟨before, o⟩ :: openBraces before) = 0 := by
      rw [unnamedIn_concat_of_opening ho, unnamedIn_eq_zero (Nat.le_refl before.length),
        if_neg fun heq => hself heq.1]
    rw [numbers_pushBlock hshared, openBraces_concat_of_opening ho, List.tails, List.map_cons,
      map_unnamedIn_concat ho, h.numbers hshared, hb, hinside]
  room := by rw [length_nested_pushBlock]; exact hroom
  matched := h.matched.concat fun hkind => by rw [ho] at hkind; cases hkind

theorem closeBlock (h : Tracks dialect before s) {c : Token} (hc : c.kind = .closing) {position : Nat}
    (hs : s.closeBlock position = .ok s') : Tracks dialect (before ++ [c]) s' := by
  have ho : c.kind ≠ .opening := by rw [hc]; decide
  rw [State.closeBlock] at hs
  split at hs
  · cases hs
  · next b outer hnested =>
    cases hs
    have hlabels := h.nested
    rw [hnested] at hlabels
    obtain ⟨brace, stack, hstack, -, houter⟩ := List.map_eq_cons_iff.1 hlabels.symm
    have htracks : Tracks dialect (before ++ [c]) { s with nested := outer } := {
      opened := by rw [openings_concat, if_neg ho, Nat.add_zero]; exact h.opened
      nested := by rw [openBraces_concat_of_closing hc, hstack]; exact houter.symm
      numbers := by
        intro hshared
        have hnumbers := h.numbers hshared
        rw [hstack, List.tails, List.map_cons, State.numbers, hnested] at hnumbers
        rw [openBraces_concat_of_closing hc, hstack, funext (unnamedIn_concat_of_ne ho)]
        exact (List.cons.inj hnumbers).2
      room := by
        have hroom := h.room
        rw [hnested, List.length_cons] at hroom
        exact Nat.le_of_succ_le hroom
      matched := h.matched.concat fun _ => by rw [hstack]; exact List.cons_ne_nil _ _ }
    exact htracks.mapCurrent fun _ => rfl

/-- Where the state stops, the path is right. -/
theorem foundAt (h : Tracks dialect before s) {t : Token} {e : Error} (hposition : e.position = t.position)
    (hpath : e.path = s.path) (hkind : e.fault.LiesAt t.kind) (hclosed : ∀ key, e.fault ≠ .unclosed key)
    (hbalanced : e.fault = .unbalanced → openBraces before = []) :
    FoundAt dialect before t e where
  position := hposition
  kind := hkind
  path := hpath.trans h.path_eq
  closed := hclosed
  unbalanced := hbalanced
  bounded := by
    rw [hpath, path, List.length_reverse, List.length_map]
    exact h.room
  matched := h.matched

end Tracks

/-! ## Faults of the machine -/

namespace State

variable {dialect : Dialect} {s : State} {e : Error}

theorem declare_eq_error {text : List Char} {position : Nat} (h : s.declare text position = .error e) :
    ∃ cause, e = ⟨.badDeclaration cause, position, s.path⟩ := by
  rw [declare] at h
  split at h
  · cases h
  · cases h
    exact ⟨_, rfl⟩

/-- Settling finds a fault in the entry announced last. -/
theorem settle_eq_error (h : s.settle = .error e) :
    ∃ position text, s.phase = .announced position text ∧ e.position = position ∧ e.path = s.path ∧
      ((∃ cause, e.fault = .badDeclaration cause) ∨ ∃ text, e.fault = .unnamedEntry text) := by
  rw [settle] at h
  split at h
  · next position text hphase =>
    refine ⟨position, text, hphase, ?_⟩
    cases hleaf : s.addLeaf (text.getD []) position with
    | ok s' => rw [hleaf] at h; cases h
    | error e' =>
      rw [hleaf] at h
      cases h
      rw [addLeaf] at hleaf
      cases hdeclare : s.declare (text.getD []) position with
      | error e' =>
        obtain ⟨cause, rfl⟩ := declare_eq_error hdeclare
        rw [hdeclare] at hleaf
        cases hleaf
        exact ⟨rfl, rfl, .inl ⟨cause, rfl⟩⟩
      | ok d =>
        rw [hdeclare] at hleaf
        change (if d.variableName.isEmpty = true then _ else _) = _ at hleaf
        split at hleaf
        · cases hleaf
          exact ⟨rfl, rfl, .inr ⟨_, rfl⟩⟩
        · cases hleaf
  · cases h

/-- Opening finds a fault in the depth of the block or in its declaration. -/
theorem openBlock_eq_error {text : List Char} {position : Nat}
    (h : s.openBlock dialect text position = .error e) :
    e.position = position ∧ e.path = s.path ∧
      (e.fault = .tooDeep dialect.maxDepth ∨ ∃ cause, e.fault = .badDeclaration cause) := by
  rw [openBlock] at h
  split at h
  · cases h
    exact ⟨rfl, rfl, .inl rfl⟩
  · split at h
    · cases h
    · cases hdeclare : s.declare text position with
      | error e' =>
        obtain ⟨cause, rfl⟩ := declare_eq_error hdeclare
        rw [hdeclare] at h
        cases h
        exact ⟨rfl, rfl, .inr ⟨cause, rfl⟩⟩
      | ok d => rw [hdeclare] at h; cases h

/-- Closing finds a fault outside of all blocks. -/
theorem closeBlock_eq_error {position : Nat} (h : s.closeBlock position = .error e) :
    s.nested = [] ∧ e = ⟨.unbalanced, position, s.path⟩ := by
  rw [closeBlock] at h
  split at h
  · next hnested =>
    cases h
    exact ⟨hnested, rfl⟩
  · cases h

theorem phase_of_closeBlock {s' : State} {position : Nat} (h : s.closeBlock position = .ok s') :
    s'.phase = s.phase := by
  rw [closeBlock] at h
  split at h
  · cases h
  · next b outer hnested =>
    cases h
    cases outer <;> rfl

theorem step_opening {o : Token} (ho : o.kind = .opening) (s : State) :
    s.step dialect o = s.openBlock dialect s.phase.declaration o.position := by
  rw [step, ho]
  cases s.phase <;> rfl

end State

namespace Reads

open State

variable {dialect : Dialect} {before : List Token} {s : State} {e : Error}

theorem initial (dialect : Dialect) : Reads dialect [] State.initial where
  tracks := ⟨rfl, rfl, fun _ => rfl, Nat.zero_le _, matched_nil⟩
  leads := .leading ⟨fun _ h => (Option.some_ne_none _ h.symm).elim, rfl⟩

/-- A fault in the entry announced last lies at its marker. -/
theorem foundIn_of_settle (h : Reads dialect before s) (hs : s.settle = .error e) :
    FoundIn dialect before e := by
  obtain ⟨position, text, hphase, hposition, hpath, hfault⟩ := settle_eq_error hs
  have hmarker : ∀ m : Token, m.kind = .marker → e.fault.LiesAt m.kind := by
    intro m hm
    rw [hm]
    rcases hfault with ⟨cause, hfault⟩ | ⟨text, hfault⟩ <;> rw [hfault]
    · exact .inl rfl
    · rfl
  have hclosed : ∀ key, e.fault ≠ .unclosed key := by
    rcases hfault with ⟨cause, hfault⟩ | ⟨text, hfault⟩ <;> rw [hfault] <;> exact nofun
  have hbalanced : e.fault ≠ .unbalanced := by
    rcases hfault with ⟨cause, hfault⟩ | ⟨text, hfault⟩ <;> rw [hfault] <;> exact nofun
  have hfound := h.tracks.foundAt (t := ⟨.marker, [], position⟩) hposition hpath (hmarker _ rfl) hclosed
    fun h => absurd h hbalanced
  have hleads := h.leads
  rw [hphase] at hleads
  -- nothing is opened or closed between the marker and the end of its text
  cases hleads with
  | @marker front m hm =>
    have hsame : openBraces (front ++ [m]) = openBraces front :=
      openBraces_concat_of_ne (by rw [hm]; decide) (by rw [hm]; decide)
    refine ⟨front, m, [], rfl, hposition, hmarker m hm, ?_, hclosed, fun h => absurd h hbalanced,
      hfound.bounded, hfound.matched.of_append⟩
    rw [hfound.path, pathAt, hsame, pathAt]
  | @declared front m t hm ht =>
    have hsame : openBraces (front ++ [m, t]) = openBraces front := by
      rw [List.append_cons, openBraces_concat_of_ne (by rw [ht]; decide) (by rw [ht]; decide),
        openBraces_concat_of_ne (by rw [hm]; decide) (by rw [hm]; decide)]
    refine ⟨front, m, [t], rfl, hposition, hmarker m hm, ?_, hclosed, fun h => absurd h hbalanced,
      hfound.bounded, hfound.matched.of_append⟩
    rw [hfound.path, pathAt, hsame, pathAt]

/-- A marker settles what was announced before it. -/
theorem step_marker (h : Reads dialect before s) {m : Token} (hm : m.kind = .marker) :
    Covers dialect (before ++ [m]) (s.step dialect m) := by
  rw [State.step_marker hm]
  cases hsettle : s.settle with
  | error e => exact .error ((h.foundIn_of_settle hsettle).append [m])
  | ok s' =>
    have htracks := (h.tracks.settle hsettle).1
    exact .ok ⟨(htracks.concat (by rw [hm]; decide) (by rw [hm]; decide)).withPhase _, .marker hm⟩

theorem step_opening (h : Reads dialect before s) {o : Token} (ho : o.kind = .opening) :
    Covers dialect (before ++ [o]) (s.step dialect o) := by
  rw [State.step_opening ho]
  cases hopen : s.openBlock dialect s.phase.declaration o.position with
  | error e =>
    obtain ⟨hposition, hpath, hfault⟩ := openBlock_eq_error hopen
    refine .error ⟨before, o, [], rfl, h.tracks.foundAt hposition hpath ?_ ?_ ?_⟩
    · rw [ho]
      rcases hfault with hfault | ⟨cause, hfault⟩ <;> rw [hfault]
      · rfl
      · exact .inr rfl
    · rcases hfault with hfault | ⟨cause, hfault⟩ <;> rw [hfault] <;> exact nofun
    · rcases hfault with hfault | ⟨cause, hfault⟩ <;> rw [hfault] <;> exact nofun
  | ok s' =>
    obtain ⟨hroom, d, hd, rfl⟩ := openBlock_eq_ok_iff.1 hopen
    rw [blockVariable_of_declares hd, ← h.leads.variableAt_eq]
    exact .ok ⟨h.tracks.pushBlock hroom ho rfl,
      .leading (unannounced_concat_of_brace before (.inl ho))⟩

theorem step_closing (h : Reads dialect before s) {c : Token} (hc : c.kind = .closing) :
    Covers dialect (before ++ [c]) (s.step dialect c) := by
  rw [State.step_closing hc]
  cases hsettle : s.settle with
  | error e => exact .error ((h.foundIn_of_settle hsettle).append [c])
  | ok s' =>
    obtain ⟨htracks, hphase⟩ := h.tracks.settle hsettle
    show Covers dialect (before ++ [c]) (s'.closeBlock c.position)
    cases hclose : s'.closeBlock c.position with
    | ok s'' =>
      refine .ok ⟨htracks.closeBlock hc hclose, ?_⟩
      rw [phase_of_closeBlock hclose, hphase]
      exact .between (unannounced_concat_of_brace before (.inr hc))
    | error e =>
      obtain ⟨hnested, rfl⟩ := closeBlock_eq_error hclose
      have hopen : openBraces before = [] := by
        rw [← List.length_eq_zero_iff, ← htracks.length_eq, hnested, List.length_nil]
      exact .error ⟨before, c, [], rfl, htracks.foundAt rfl rfl hc nofun fun _ => hopen⟩

/-- Text behind an entry, or behind a marker and its text, has to be blank. -/
theorem step_text_settled (h : Reads dialect before s) {t : Token} (ht : t.kind = .text)
    (hphase : ∀ position, s.phase ≠ .announced position none) :
    Covers dialect (before ++ [t]) (s.settle >>= fun s =>
      if Text.allBlank t.value then pure s else s.fail (.strayText (Text.trim t.value)) t.position) := by
  cases hsettle : s.settle with
  | error e => exact .error ((h.foundIn_of_settle hsettle).append [t])
  | ok s' =>
    obtain ⟨htracks, hbetween⟩ := h.tracks.settle hsettle
    show Covers dialect (before ++ [t])
      (if Text.allBlank t.value then pure s' else s'.fail (.strayText (Text.trim t.value)) t.position)
    split
    · refine .ok ⟨htracks.concat (by rw [ht]; decide) (by rw [ht]; decide), ?_⟩
      rw [hbetween]
      exact .between (unannounced_concat_of_text ht (h.leads.last_ne_marker hphase))
    · exact .error ⟨before, t, [], rfl, htracks.foundAt rfl rfl ht nofun nofun⟩

theorem step_text (h : Reads dialect before s) {t : Token} (ht : t.kind = .text) :
    Covers dialect (before ++ [t]) (s.step dialect t) := by
  have ho : t.kind ≠ .opening := by rw [ht]; decide
  have hc : t.kind ≠ .closing := by rw [ht]; decide
  cases hphase : s.phase with
  | leading =>
    rw [step_text_of_leading ht hphase]
    have hlead : Tracks dialect before (s.mapCurrent (.lead (Text.squeeze t.value))) :=
      h.tracks.mapCurrent fun _ => rfl
    have hlast := h.leads.last_ne_marker (by simp [hphase])
    exact .ok ⟨(hlead.concat ho hc).withPhase .between, .between (unannounced_concat_of_text ht hlast)⟩
  | between =>
    rw [step, ht, hphase]
    exact h.step_text_settled ht (by simp [hphase])
  | announced position text =>
    cases text with
    | none =>
      rw [step_text_of_announced ht hphase]
      refine .ok ⟨(h.tracks.concat ho hc).withPhase _, ?_⟩
      have hleads := h.leads
      rw [hphase] at hleads
      cases hleads with
      | @marker front m hm =>
        rw [List.append_assoc]
        exact .declared hm ht
    | some value =>
      rw [step, ht, hphase]
      exact h.step_text_settled ht (by simp [hphase])

/-- **A token is read, or a fault lies among the tokens read so far.** -/
theorem step (h : Reads dialect before s) (t : Token) :
    Covers dialect (before ++ [t]) (s.step dialect t) := by
  cases hkind : t.kind with
  | marker => exact h.step_marker hkind
  | opening => exact h.step_opening hkind
  | closing => exact h.step_closing hkind
  | text => exact h.step_text hkind

end Reads

/-- A run reads its tokens, or stops at a fault that lies among them. -/
theorem covers_foldlM (dialect : Dialect) (ts : List Token) :
    Covers dialect ts (ts.foldlM (State.step dialect) .initial) := by
  induction ts using List.reverseRecOn with
  | nil => exact .ok (Reads.initial dialect)
  | append_singleton ts t ih =>
    rw [List.foldlM_append]
    cases hrun : ts.foldlM (State.step dialect) State.initial with
    | error e =>
      rw [hrun] at ih
      cases ih with
      | error hfound => exact .error (hfound.append [t])
    | ok s =>
      rw [hrun] at ih
      cases ih with
      | ok hreads =>
        show Covers dialect (ts ++ [t]) ([t].foldlM (State.step dialect) s)
        rw [List.foldlM_cons]
        have hstep := hreads.step t
        cases hs : s.step dialect t with
        | ok s' => rw [hs] at hstep; exact hstep
        | error e => rw [hs] at hstep; exact hstep

/-- Tokens that are read leave a state that has read them. -/
theorem reads_of_foldlM {dialect : Dialect} {ts : List Token} {s : State}
    (h : ts.foldlM (State.step dialect) .initial = .ok s) : Reads dialect ts s := by
  have hcovers := covers_foldlM dialect ts
  rw [h] at hcovers
  cases hcovers with
  | ok hreads => exact hreads

/-! ## Faults of a hash -/

section Parse

variable {dialect : Dialect} {T : List Token} {e : Error}

/-- A fault found at a token is located there. -/
theorem located_of_foundIn (hT : T.Pairwise fun t u => t.position < u.position)
    (h : FoundIn dialect T e) : Located dialect T e := by
  obtain ⟨before, t, after, hsplit, hfound⟩ := h
  have hbefore : tokensBefore e.position T = before := by
    rw [hfound.position]
    exact tokensBefore_eq hT hsplit
  exact {
    token := ⟨t, after, by rw [hbefore, hsplit], hfound.position.symm, hfound.kind⟩
    count := by rw [hbefore]; exact hfound.matched.openings_eq
    path := fun _ => by rw [hbefore]; exact hfound.path
    unclosed := fun h => absurd h (hfound.closed _)
    unbalanced := fun h => by
      rw [hbefore]
      have hopen := hfound.unbalanced h
      exact ⟨hopen, by rw [hfound.path, pathAt, hopen]; rfl, hfound.matched⟩
    bounded := hfound.bounded }

/-- A block that is open at the end is located at its brace. -/
theorem located_of_unclosed (hT : T.Pairwise fun t u => t.position < u.position) {s : State}
    (h : Tracks dialect T s) {b : OpenBlock} {outer : List OpenBlock} (hnested : s.nested = b :: outer) :
    Located dialect T ⟨.unclosed b.key, b.position, s.path⟩ := by
  have hlabels := h.nested
  rw [hnested] at hlabels
  obtain ⟨⟨before, o⟩, stack, hstack, hlabel, -⟩ := List.map_eq_cons_iff.1 hlabels.symm
  obtain ⟨hkey, hposition⟩ := Prod.mk.inj hlabel
  obtain ⟨after, hsplit, ho⟩ := exists_of_mem_braces
    (mem_braces_of_mem_openBraces (hstack ▸ List.mem_cons_self))
  have hbefore : tokensBefore b.position T = before := by
    rw [← hposition]
    exact tokensBefore_eq hT hsplit
  have hmatched : Matched before := (hsplit ▸ h.matched).of_append
  exact {
    token := ⟨o, after, by rw [hbefore, hsplit], hposition, ho⟩
    count := by rw [hbefore]; exact hmatched.openings_eq
    path := fun h => absurd rfl (h b.key)
    unclosed := fun hfault => by
      cases hfault
      rw [hbefore, hstack]
      exact ⟨⟨o, rfl, hposition⟩, hkey.symm, by rw [h.path_eq, pathAt_eq_concat _ hstack, ← hkey]⟩
    unbalanced := nofun
    bounded := by
      show s.path.length ≤ _
      rw [State.path, List.length_reverse, List.length_map]
      exact h.room }

theorem located_of_parseTokens (hT : T.Pairwise fun t u => t.position < u.position)
    (h : parseTokens dialect T = .error e) : Located dialect T e := by
  rw [parseTokens] at h
  have hcovers := covers_foldlM dialect T
  cases hrun : T.foldlM (State.step dialect) State.initial with
  | error e' =>
    rw [hrun] at h hcovers
    cases h
    cases hcovers with
    | error hfound => exact located_of_foundIn hT hfound
  | ok s =>
    have hreads := reads_of_foldlM hrun
    rw [hrun] at h
    change s.finish = .error e at h
    rw [State.finish] at h
    cases hsettle : s.settle with
    | error e' =>
      rw [hsettle] at h
      cases h
      exact located_of_foundIn hT (hreads.foundIn_of_settle hsettle)
    | ok s' =>
      obtain ⟨htracks, -⟩ := hreads.tracks.settle hsettle
      rw [hsettle] at h
      cases hnested : s'.nested with
      | nil =>
        simp only [bind, Except.bind, hnested] at h
        cases h
      | cons b outer =>
        simp only [bind, Except.bind, hnested] at h
        cases h
        exact located_of_unclosed hT htracks hnested

/-- **A fault is reported at the right token, with the blocks that are open there.** -/
theorem parse_error_located (dialect : Dialect) {content inner : List Char} {e : Error}
    (hinner : unbrace content = .ok inner) (h : parse dialect content = .error e) :
    Located dialect (tokenize dialect.registry inner) e := by
  rw [parse_of_unbrace hinner] at h
  exact located_of_parseTokens (pairwise_position_tokenize dialect.registry inner) h

/-- An entry without a declaration, in a block without a variable, in a block with one. -/
def undeclaredHash : List Char := "\x7b @type a $x \x7b \x7b \x7d \x7b @type \x7d".toList

/-- The entry is reported at its marker. Its block has the number 2: two braces open a block before. -/
theorem parse_error_located_nested :
    ∃ inner e, unbrace undeclaredHash = .ok inner ∧ parse ⟨.standard, 3, true⟩ undeclaredHash = .error e ∧
      e = ⟨.badDeclaration .empty, 20, [.name "$x".toList, .index 2]⟩ ∧
      Located ⟨.standard, 3, true⟩ (tokenize .standard inner) e := by
  have hinner : unbrace undeclaredHash =
      .ok " @type a $x \x7b \x7b \x7d \x7b @type ".toList := by decide +kernel
  have htokens : tokenize .standard " @type a $x \x7b \x7b \x7d \x7b @type ".toList =
      [⟨.text, [' '], 0⟩, ⟨.marker, "type".toList, 1⟩, ⟨.text, " a $x ".toList, 6⟩,
        ⟨.opening, ['{'], 12⟩, ⟨.text, [' '], 13⟩, ⟨.opening, ['{'], 14⟩, ⟨.text, [' '], 15⟩,
        ⟨.closing, ['}'], 16⟩, ⟨.text, [' '], 17⟩, ⟨.opening, ['{'], 18⟩, ⟨.text, [' '], 19⟩,
        ⟨.marker, "type".toList, 20⟩, ⟨.text, [' '], 25⟩] := by decide +kernel
  have hparse : parse ⟨.standard, 3, true⟩ undeclaredHash =
      .error ⟨.badDeclaration .empty, 20, [.name "$x".toList, .index 2]⟩ := by
    rw [parse_of_unbrace hinner, htokens]
    rfl
  exact ⟨_, _, hinner, hparse, rfl, parse_error_located ⟨.standard, 3, true⟩ hinner hparse⟩

end Parse

end DocTree.Hash
