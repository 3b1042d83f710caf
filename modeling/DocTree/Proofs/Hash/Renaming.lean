import DocTree.Hash.Parser
import DocTree.Proofs.Hash.Lexing
import DocTree.Proofs.Tag.Declaration
import DocTree.Proofs.Text.Renaming

/-!
# Hashes are parsed whatever their characters stand for

A parser of hashes looks at characters for what they mean to it: braces, blanks, markers, variables. The
characters without such a meaning may be renamed. Then the tree of the hash is the same tree with renamed
texts, and a hash that is refused is refused with the same fault in the same place (`parse_map`). In
particular, any alphabet of code points will do to parse a hash (`parse_recoding`).

## Shape of the proof

Each stage takes renamed text to its renamed result: a declaration (`Declaration.parse_map`), the first
lexeme of a text (`First.map`) and from it the tokens (`tokenize_map`), a step of the machine
(`State.step_rename`) and from it the run. Where a stage may fail, its outcome is renamed as a whole
(`renamed`).
-/

namespace DocTree

open Text (Renaming Blind isFixed)

variable (ρ : Renaming)

/-! ## Declarations -/

theorem isFixed_of_isVariable {v : List Char} (hv : isVariable v = true) :
    ∀ c ∈ v, isFixed c = true := by
  intro c hc
  rcases mem_of_isVariable hv hc with rfl | rfl | rfl | hword | rfl
  · decide
  · decide
  · decide
  · rw [isFixed, hword, Bool.or_true]
  · decide

theorem isVariable_map (s : List Char) : isVariable (s.map ρ) = isVariable s :=
  ρ.apply_of_texts (fun _ h => isFixed_of_isVariable h) s

theorem typesOfWord_map (w : List Char) : typesOfWord (w.map ρ) = (typesOfWord w).map (List.map ρ) :=
  ρ.pieces_map (Text.blind_eq (by decide)) w

/-- A declaration with renamed texts. -/
def Declaration.rename (d : Declaration) : Declaration :=
  ⟨d.types.map (List.map ρ), d.variableName, d.description.map ρ⟩

/-- What is said of renamed text that declares nothing. -/
def DeclarationError.rename : DeclarationError → DeclarationError
  | empty => empty
  | missingType v => missingType v
  | invalidType w => invalidType (w.map ρ)

namespace Declaration

theorem bindText_map (types : List (List Char)) (rest : List Char) :
    bindText (types.map (List.map ρ)) (rest.map ρ) = (bindText types rest).rename ρ := by
  have hbrace : ρ '{' = '{' := ρ.eq_of_fixed _ (by decide)
  have hspace : ρ ' ' = ' ' := ρ.eq_of_fixed _ (by decide)
  rw [bindText, bindText, ρ.splitHead_map]
  dsimp only
  rw [List.getLast?_map, ρ.map_beq_some (by decide), ← List.map_dropLast, isVariable_map,
    isVariable_map]
  split
  · next h =>
    rw [Bool.and_eq_true] at h
    rw [ρ.map_eq_self (isFixed_of_isVariable h.2), rename, ← ρ.trim_map, List.map_cons, List.map_cons,
      hbrace, hspace]
  · split
    · next h => rw [ρ.map_eq_self (isFixed_of_isVariable h), rename]
    · rfl

/-- **A renamed declaration is read as the declaration, renamed.** -/
theorem parse_map (text : List Char) :
    parse (text.map ρ) = ((parse text).mapError (.rename ρ)).map (rename ρ) := by
  rw [parse, parse, ρ.squeeze_map, ρ.splitHead_map]
  dsimp only
  rw [List.isEmpty_map, isVariable_map, typesOfWord_map, List.isEmpty_map]
  split
  · rfl
  · split
    · next h => rw [ρ.map_eq_self (isFixed_of_isVariable h)]; rfl
    · split
      · rfl
      · rw [bindText_map]; rfl

end Declaration

namespace Hash

mutual

/-- The tree with its descriptions and types changed, under the same keys. -/
def Tree.mapTexts (f : List Char → List Char) : Tree → Tree
  | .node content types children => .node (f content) (types.map f) (mapChildren f children)

/-- Children with their descriptions and types changed, under the same keys. -/
def mapChildren (f : List Char → List Char) : List (Key × Tree) → List (Key × Tree)
  | [] => []
  | (k, t) :: rest => (k, t.mapTexts f) :: mapChildren f rest

end

theorem mapChildren_putChild (f : List Char → List Char) (key : Key) (child : Tree)
    (children : List (Key × Tree)) :
    mapChildren f (putChild key child children) =
      putChild key (child.mapTexts f) (mapChildren f children) := by
  induction children with
  | nil => rfl
  | cons w rest ih =>
    obtain ⟨k, t⟩ := w
    rw [putChild, mapChildren, putChild]
    split
    · rw [mapChildren]
    · rw [mapChildren, ih]

/-! ## Lexemes -/

/-- A lexeme of renamed text. -/
def Lexeme.rename : Lexeme → Lexeme
  | opening => opening
  | closing => closing
  | marker name => marker (name.map ρ)
  | escaped brace => escaped (ρ brace)
  | inline text => inline (text.map ρ)
  | plain c => plain (ρ c)

theorem Lexeme.source_rename (l : Lexeme) : (l.rename ρ).source = l.source.map ρ := by
  cases l with
  | opening => exact (ρ.map_singleton (by decide)).symm
  | closing => exact (ρ.map_singleton (by decide)).symm
  | marker name =>
    have hat : ρ '@' = '@' := ρ.eq_of_fixed _ (by decide)
    rw [rename, source, source, List.map_cons, hat]
  | escaped brace =>
    have hback : ρ '\\' = '\\' := ρ.eq_of_fixed _ (by decide)
    rw [rename, source, source, List.map_cons, List.map_singleton, hback]
  | inline text => rfl
  | plain c => rfl

theorem isFixed_of_isNameChar {c : Char} (hc : isNameChar c = true) : isFixed c = true := by
  rw [isNameChar, Bool.or_eq_true] at hc
  rcases hc with hword | hdash
  · rw [isFixed, hword, Bool.or_true]
  · rw [eq_of_beq hdash]
    decide

theorem blind_isNameChar : Blind isNameChar := Text.blind_of_fixed fun _ => isFixed_of_isNameChar

theorem blind_isBrace : Blind isBrace := Text.blind_of_fixed fun c hc => by
  rcases isBrace_iff.1 hc with rfl | rfl <;> decide

theorem atBoundary_map (c? : Option Char) : atBoundary (c?.map ρ) = atBoundary c? := by
  cases c? with
  | none => rfl
  | some c => exact ρ.apply_of_blind Text.blind_isBlank c

theorem cutInline_map (s : List Char) :
    cutInline (s.map ρ) = ((cutInline s).1.map ρ, (cutInline s).2.map ρ) := by
  induction s with
  | nil => rfl
  | cons c s ih =>
    have hbrace : (ρ c == '}') = (c == '}') := ρ.apply_of_blind (Text.blind_eq (by decide)) c
    rw [List.map_cons, cutInline, cutInline, hbrace, ih]
    split <;> rfl

theorem announces_map (r : Registry) (s : List Char) : announces r (s.map ρ) = announces r s := by
  have hname : (s.takeWhile isNameChar).map ρ = s.takeWhile isNameChar :=
    ρ.map_eq_self fun c hc => isFixed_of_isNameChar (List.mem_takeWhile_imp hc)
  rw [announces, announces, ρ.takeWhile_map blind_isNameChar, ρ.dropWhile_map blind_isNameChar, hname,
    List.head?_map, atBoundary_map]

/-- The first lexeme of renamed text is the first lexeme of the text, renamed. -/
theorem First.map {r : Registry} {before : Option Char} {c : Char} {rest after : List Char} {l : Lexeme}
    (h : First r before c rest l after) :
    First r (before.map ρ) (ρ c) (rest.map ρ) (l.rename ρ) (after.map ρ) := by
  have hsign : ∀ d ∈ ['\\', '{', '}', '@'], isFixed d = true := by decide
  have hback := ρ.apply_eq_iff (c := c) (hsign '\\' (by decide))
  have hleft := ρ.apply_eq_iff (c := c) (hsign '{' (by decide))
  have hright := ρ.apply_eq_iff (c := c) (hsign '}' (by decide))
  have hat := ρ.apply_eq_iff (c := c) (hsign '@' (by decide))
  have hhead : (rest.map ρ).head? = some '@' ↔ rest.head? = some '@' := by
    rw [List.head?_map, ← beq_iff_eq, ρ.map_beq_some (hsign '@' (by decide)), beq_iff_eq]
  have hstart := atBoundary_map ρ before
  have hend := atBoundary_map ρ rest.head?
  rw [← List.head?_map] at hend
  cases h with
  | escaped hc hbrace hrest =>
    refine .escaped (hback.2 hc) ?_ (by rw [hrest, List.map_cons])
    rwa [ρ.apply_of_blind blind_isBrace]
  | inline hc hat =>
    have hfirst : First r (before.map ρ) (ρ c) (rest.map ρ) _ _ := .inline (hleft.2 hc) (hhead.2 hat)
    rw [cutInline_map] at hfirst
    rw [Lexeme.rename, List.map_cons, (ρ.apply_eq_iff (hsign '{' (by decide))).2 rfl]
    exact hfirst
  | opening hc hopen => exact .opening (hleft.2 hc) (hend.trans hopen)
  | closing hc hclose => exact .closing (hright.2 hc) (hstart.trans hclose)
  | marker hc hclose hname =>
    rw [Lexeme.rename, ← ρ.takeWhile_map blind_isNameChar, ← ρ.dropWhile_map blind_isNameChar]
    exact .marker (hat.2 hc) (hstart.trans hclose) ((announces_map ρ r rest).trans hname)
  | plain hescape hopen hclose hmarker =>
    refine .plain (fun hc d hd => ?_) (fun hc => ?_) (fun hc => ?_) fun hc hs => ?_
    · rw [List.head?_map, Option.map_eq_some_iff] at hd
      obtain ⟨d, hd, rfl⟩ := hd
      rw [ρ.apply_of_blind blind_isBrace]
      exact hescape (hback.1 hc) d hd
    · obtain ⟨hnone, hopen⟩ := hopen (hleft.1 hc)
      exact ⟨fun h => hnone (hhead.1 h), hend.trans hopen⟩
    · exact hstart.trans (hclose (hright.1 hc))
    · exact (announces_map ρ r rest).trans (hmarker (hat.1 hc) (hstart.symm.trans hs))

theorem lexemes_map (r : Registry) (before : Option Char) (s : List Char) :
    lexemes r (before.map ρ) (s.map ρ) = (lexemes r before s).map (.rename ρ) := by
  induction before, s using lexemes.induct r with
  | case1 before => rw [List.map_nil, lexemes, lexemes, List.map_nil]
  | case2 before c rest first ih =>
    have hfirst : First r before c rest first.1 first.2 := firstLexeme_eq_iff.1 rfl
    rw [List.map_cons, hfirst.lexemes_eq, (hfirst.map ρ).lexemes_eq, Lexeme.source_rename,
      List.getLast?_map, ih, List.map_cons]

/-! ## Tokens -/

/-- A token of renamed text. -/
def Token.rename (t : Token) : Token := { t with value := t.value.map ρ }

theorem joinText_map (text : List Char) (position : Nat) (ts : List Token) :
    joinText (text.map ρ) position (ts.map (.rename ρ)) =
      (joinText text position ts).map (.rename ρ) := by
  cases ts with
  | nil => rfl
  | cons t ts =>
    rw [List.map_cons, joinText, joinText]
    have hkind : (t.rename ρ).kind = t.kind := rfl
    rw [hkind]
    split
    · rw [List.map_cons, Token.rename, Token.rename, List.map_append]
    · rfl

theorem tokensAt_map (position : Nat) (ls : List Lexeme) :
    tokensAt position (ls.map (.rename ρ)) = (tokensAt position ls).map (.rename ρ) := by
  induction ls generalizing position with
  | nil => rfl
  | cons l ls ih =>
    have hrest := ih (position + l.source.length)
    have hlength : (l.rename ρ).source.length = l.source.length := by
      rw [Lexeme.source_rename, List.length_map]
    rw [List.map_cons]
    cases l with
    | opening =>
      rw [Lexeme.rename, tokensAt, tokensAt, hrest, List.map_cons, Token.rename,
        ρ.map_singleton (by decide)]
    | closing =>
      rw [Lexeme.rename, tokensAt, tokensAt, hrest, List.map_cons, Token.rename,
        ρ.map_singleton (by decide)]
    | marker name =>
      rw [Lexeme.rename] at hlength ⊢
      rw [tokensAt, tokensAt, hlength, hrest]
      rfl
    | escaped brace =>
      rw [Lexeme.rename, tokensAt, tokensAt, ← joinText_map, ← hrest]
      rfl
    | inline text =>
      rw [Lexeme.rename] at hlength ⊢
      rw [tokensAt, tokensAt, hlength, hrest, joinText_map]
    | plain c =>
      rw [Lexeme.rename, tokensAt, tokensAt, ← joinText_map, ← hrest]
      rfl

/-- **Renamed text has the tokens of the text, renamed.** -/
theorem tokenize_map (r : Registry) (text : List Char) :
    tokenize r (text.map ρ) = (tokenize r text).map (.rename ρ) := by
  have hlexemes := lexemes_map ρ r none text
  rw [Option.map_none] at hlexemes
  rw [tokenize, tokenize, hlexemes, tokensAt_map]

/-! ## The machine -/

/-- What is wrong with renamed text. -/
def Fault.rename : Fault → Fault
  | strayText text => strayText (text.map ρ)
  | unnamedEntry text => unnamedEntry (text.map ρ)
  | badDeclaration cause => badDeclaration (cause.rename ρ)
  | fault => fault

/-- The error of renamed text, in the same place. -/
def Error.rename (e : Error) : Error := { e with fault := e.fault.rename ρ }

/-- A block of renamed text. -/
def Block.rename (b : Block) : Block :=
  ⟨b.content.map ρ, b.types.map (List.map ρ), mapChildren (List.map ρ) b.children, b.numbered⟩

/-- An open block of renamed text. -/
def OpenBlock.rename (b : OpenBlock) : OpenBlock := { b with block := b.block.rename ρ }

/-- What the tokens of renamed text lead up to. -/
def Phase.rename : Phase → Phase
  | announced position text => announced position (text.map (List.map ρ))
  | phase => phase

/-- The blocks that are open in renamed text. -/
def State.rename (s : State) : State :=
  ⟨s.root.rename ρ, s.nested.map (.rename ρ), s.opened, s.phase.rename ρ⟩

/-- The outcome of a stage on renamed text. -/
def renamed {α β : Type} (f : α → β) (x : Except Error α) : Except Error β :=
  (x.mapError (.rename ρ)).map f

variable {ρ}

/-- Stages one after another. -/
theorem renamed_bind {α β α' β' : Type} {f : α → α'} {g : β → β'} {x : Except Error α}
    {k : α → Except Error β} {k' : α' → Except Error β'} (h : ∀ a, k' (f a) = renamed ρ g (k a)) :
    renamed ρ f x >>= k' = renamed ρ g (x >>= k) := by
  cases x with
  | error e => rfl
  | ok a => exact h a

namespace Block

theorem rename_put (key : Key) (child : Tree) (b : Block) :
    (b.put key child).rename ρ = (b.rename ρ).put key (child.mapTexts (List.map ρ)) := by
  rw [put, put, rename, rename, mapChildren_putChild]

theorem rename_toTree (b : Block) : b.toTree.mapTexts (List.map ρ) = (b.rename ρ).toTree := by
  rw [toTree, toTree, Tree.mapTexts, rename]

theorem rename_describe (text : List Char) (b : Block) :
    (b.describe text).rename ρ = (b.rename ρ).describe (text.map ρ) := by
  have hspace : ρ ' ' = ' ' := ρ.eq_of_fixed _ (by decide)
  rw [describe, describe, ρ.squeeze_map]
  cases Text.squeeze text with
  | nil => rfl
  | cons c words =>
    rcases b with ⟨_ | ⟨d, content⟩, types, children, numbered⟩
    · rfl
    · have hjoined : (d :: content ++ ' ' :: c :: words).map ρ =
          (d :: content).map ρ ++ ' ' :: (c :: words).map ρ := by
        rw [List.map_append, List.map_cons (l := c :: words), hspace]
      exact congrArg (Block.mk · _ _ _) hjoined

end Block

theorem rename_defaultTypes : defaultTypes.map (List.map ρ) = defaultTypes := by
  have harray : "array".toList.map ρ = "array".toList := ρ.map_eq_self (by decide)
  rw [defaultTypes, List.map_singleton, harray]

namespace State

variable {s : State}

theorem path_rename (s : State) : (s.rename ρ).path = s.path := by
  rw [path, path, rename, List.map_map]
  rfl

theorem rename_mapCurrent {f f' : Block → Block} (h : ∀ b, (f b).rename ρ = f' (b.rename ρ))
    (s : State) : (s.mapCurrent f).rename ρ = (s.rename ρ).mapCurrent f' := by
  rcases s with ⟨root, _ | ⟨⟨key, position, block⟩, outer⟩, opened, phase⟩
  · exact congrArg (State.mk · _ _ _) (h root)
  · exact congrArg (fun block => State.mk _ (⟨key, position, block⟩ :: _) _ _) (h block)

theorem fail_rename {α β : Type} (f : α → β) (s : State) (fault : Fault) (position : Nat) :
    (s.rename ρ).fail (fault.rename ρ) position = renamed ρ f (s.fail fault position) := by
  rw [fail, fail, path_rename]
  rfl

theorem declare_rename (s : State) (text : List Char) (position : Nat) :
    (s.rename ρ).declare (text.map ρ) position =
      renamed ρ (Declaration.rename ρ) (s.declare text position) := by
  rw [declare, declare, Declaration.parse_map]
  cases Declaration.parse text with
  | ok d => rfl
  | error cause => exact fail_rename _ s (.badDeclaration cause) position

theorem addLeaf_rename (s : State) (text : List Char) (position : Nat) :
    (s.rename ρ).addLeaf (text.map ρ) position = renamed ρ (rename ρ) (s.addLeaf text position) := by
  rw [addLeaf, addLeaf, declare_rename]
  refine renamed_bind fun d => ?_
  have hname : (d.rename ρ).variableName = d.variableName := rfl
  rw [hname, ρ.trim_map]
  split
  · exact fail_rename _ s (.unnamedEntry _) position
  · have hput := Block.rename_put (ρ := ρ) (.name d.variableName) (.node d.description d.types [])
    exact congrArg Except.ok (rename_mapCurrent hput s).symm

theorem getD_map (text : Option (List Char)) :
    (text.map (List.map ρ)).getD [] = (text.getD []).map ρ := by
  cases text <;> rfl

theorem settle_rename (s : State) : (s.rename ρ).settle = renamed ρ (rename ρ) s.settle := by
  rcases s with ⟨root, nested, opened, _ | _ | ⟨position, text⟩⟩
  · rfl
  · rfl
  · show (State.rename ρ _).addLeaf ((text.map (List.map ρ)).getD []) position >>= _ = _
    rw [getD_map, addLeaf_rename]
    exact renamed_bind fun s => rfl

theorem pushBlock_rename (dialect : Dialect) (s : State) (variableName : List Char) (b : Block)
    (position : Nat) :
    (s.rename ρ).pushBlock dialect variableName (b.rename ρ) position =
      (s.pushBlock dialect variableName b position).rename ρ := by
  unfold pushBlock
  rcases s with ⟨root, _ | ⟨outermost, outer⟩, opened, phase⟩
  · cases variableName.isEmpty && !dialect.sharedIndex <;> rfl
  · cases variableName.isEmpty && !dialect.sharedIndex <;> rfl

theorem openBlock_rename (dialect : Dialect) (s : State) (text : List Char) (position : Nat) :
    (s.rename ρ).openBlock dialect (text.map ρ) position =
      renamed ρ (rename ρ) (s.openBlock dialect text position) := by
  have hstart : ∀ content types, (Block.start content types).rename ρ =
      .start (content.map ρ) (types.map (List.map ρ)) := fun _ _ => rfl
  have hnested : (s.rename ρ).nested.length = s.nested.length := List.length_map ..
  rw [openBlock, openBlock, hnested, ρ.allBlank_map]
  split
  · exact fail_rename _ s (.tooDeep dialect.maxDepth) position
  · split
    · have hpush := pushBlock_rename (ρ := ρ) dialect s [] (.start [] defaultTypes) position
      rw [hstart, rename_defaultTypes] at hpush
      exact congrArg Except.ok hpush
    · rw [declare_rename]
      refine renamed_bind fun d => ?_
      exact congrArg Except.ok
        (pushBlock_rename dialect s d.variableName (.start d.description d.types) position)

theorem closeBlock_rename (s : State) (position : Nat) :
    (s.rename ρ).closeBlock position = renamed ρ (rename ρ) (s.closeBlock position) := by
  rcases s with ⟨root, _ | ⟨b, outer⟩, opened, phase⟩
  · exact fail_rename _ _ .unbalanced position
  · have hput : ∀ c : Block, (c.put b.key b.block.toTree).rename ρ =
        (c.rename ρ).put b.key (b.block.rename ρ).toTree := fun c => by
      rw [Block.rename_put, Block.rename_toTree]
    exact congrArg Except.ok (rename_mapCurrent hput ⟨root, outer, opened, phase⟩).symm

/-- **A step on renamed text is the step on the text, renamed.** -/
theorem step_rename (dialect : Dialect) (s : State) (t : Token) :
    (s.rename ρ).step dialect (t.rename ρ) = renamed ρ (rename ρ) (s.step dialect t) := by
  rcases t with ⟨_ | _ | _ | _, value, position⟩
  · show State.step dialect (s.rename ρ) ⟨.opening, value.map ρ, position⟩ = _
    rcases s with ⟨root, nested, opened, _ | _ | ⟨place, text⟩⟩
    · exact openBlock_rename dialect _ [] position
    · exact openBlock_rename dialect _ [] position
    · show openBlock dialect (State.rename ρ _) ((text.map (List.map ρ)).getD []) position = _
      rw [getD_map, openBlock_rename]
      rfl
  · show (s.rename ρ).settle >>= _ = _
    rw [settle_rename]
    exact renamed_bind fun s => closeBlock_rename s position
  · show (s.rename ρ).settle >>= _ = _
    rw [settle_rename]
    exact renamed_bind fun s => rfl
  · -- text that neither describes a block nor declares an entry
    have hother : ((s.rename ρ).settle >>= fun s => if Text.allBlank (value.map ρ) then return s
        else s.fail (.strayText (Text.trim (value.map ρ))) position) =
        renamed ρ (rename ρ) (s.settle >>= fun s => if Text.allBlank value then return s
          else s.fail (.strayText (Text.trim value)) position) := by
      rw [settle_rename, ρ.allBlank_map, ρ.trim_map]
      refine renamed_bind fun s => ?_
      split
      · rfl
      · exact fail_rename _ s (.strayText _) position
    rcases s with ⟨root, nested, opened, _ | _ | ⟨place, _ | text⟩⟩
    · have hdescribe := rename_mapCurrent (Block.rename_describe (ρ := ρ) value)
        ⟨root, nested, opened, .leading⟩
      exact congrArg (fun s : State => Except.ok { s with phase := .between }) hdescribe.symm
    · exact hother
    · rfl
    · exact hother

/-- A run over renamed tokens is the run over the tokens, renamed. -/
theorem foldlM_step_rename (dialect : Dialect) (s : State) (ts : List Token) :
    (ts.map (.rename ρ)).foldlM (step dialect) (s.rename ρ) =
      renamed ρ (rename ρ) (ts.foldlM (step dialect) s) := by
  induction ts generalizing s with
  | nil => rfl
  | cons t ts ih =>
    rw [List.map_cons, List.foldlM_cons, List.foldlM_cons, step_rename]
    exact renamed_bind ih

theorem finish_rename (s : State) :
    (s.rename ρ).finish = renamed ρ (Tree.mapTexts (List.map ρ)) s.finish := by
  rw [finish, finish, settle_rename]
  refine renamed_bind fun s => ?_
  rcases s with ⟨root, _ | ⟨b, outer⟩, opened, phase⟩
  · exact congrArg Except.ok (Block.rename_toTree root).symm
  · exact fail_rename _ _ (.unclosed b.key) b.position

end State

/-! ## Hashes -/

theorem parseTokens_map (dialect : Dialect) (ts : List Token) :
    parseTokens dialect (ts.map (.rename ρ)) =
      renamed ρ (Tree.mapTexts (List.map ρ)) (parseTokens dialect ts) := by
  have hinitial : State.initial.rename ρ = State.initial := by
    rw [State.initial, State.rename, Block.rename, Block.start, rename_defaultTypes]
    rfl
  have hrun := State.foldlM_step_rename (ρ := ρ) dialect .initial ts
  rw [hinitial] at hrun
  rw [parseTokens, parseTokens, hrun]
  exact renamed_bind State.finish_rename

theorem unbrace_map (content : List Char) :
    unbrace (content.map ρ) = renamed ρ (List.map ρ) (unbrace content) := by
  rw [unbrace, unbrace, ρ.trim_map, bne, bne, bne, bne, List.head?_map, List.getLast?_map,
    ρ.map_beq_some (by decide), ρ.map_beq_some (by decide), List.length_map, ← List.map_drop,
    ← List.map_dropLast]
  split
  · rfl
  · split <;> rfl

/-- **A renamed hash is parsed to the renamed tree**, or refused with the same fault in the same place. -/
theorem parse_map (dialect : Dialect) (content : List Char) :
    parse dialect (content.map ρ) = renamed ρ (Tree.mapTexts (List.map ρ)) (parse dialect content) := by
  rw [parse, parse, unbrace_map]
  refine renamed_bind fun inner => ?_
  rw [tokenize_map, parseTokens_map]

/-- It does not matter which alphabet a hash is given in: over another one, in which each of its code
points has a character, its tree is the tree over that alphabet. -/
theorem parse_recoding {a b : Text.Alphabet} (h : ∀ c, b.point (b.letter (a.point c)) = a.point c)
    (dialect : Dialect) (content : List Char) :
    (content.map (a.recoding b h)).map b.point = content.map a.point ∧
      parse dialect (content.map (a.recoding b h)) =
        renamed (a.recoding b h) (Tree.mapTexts (List.map (a.recoding b h))) (parse dialect content) :=
  ⟨Text.Alphabet.map_point_recoding h content, parse_map dialect content⟩

end Hash

end DocTree
