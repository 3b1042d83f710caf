import DocTree.Proofs.Fault
import DocTree.Proofs.Hash.Grammar
import Mathlib.Data.List.Basic

/-!
# The parser accepts exactly the grammar

The machine of the parser (`State.step`) reads one token at a time and remembers the open blocks; the
grammar (`Derives`) knows neither. They meet in `State.enter`, what entries do to a state: they write
into its innermost block and count the blocks they open.

## Shape of the proof

* `Derives.runs`: the tokens of a phrase, whatever follows them, take the machine from a state to the
  state that the phrase enters. This is an induction on the derivation; what follows is quantified,
  because a leaf is settled only by the token behind it.
* `splits`: from a state that leads to success, the tokens start with entries, up to the brace that
  closes the block or the end. This is an induction on the number of tokens, and `Derives.runs` gives
  the state after an inner block.
* `parseTokens_eq_ok_iff` puts the two together; `unbrace_eq_ok_iff` adds the outer braces.
-/

namespace DocTree.Hash

/-- How many numbers of their own block entries take. -/
def numbersAll (shared : Bool) : List Entry → Nat
  | [] => 0
  | e :: es => e.numbers shared + numbersAll shared es

/-- What follows ends the block: the closing brace, or nothing. -/
def endsBlock : List Token → Bool
  | t :: _ => t.kind == .closing
  | [] => true

theorem opensNext_of_endsBlock {ts : List Token} (h : endsBlock ts = true) :
    opensNext ts = false := by
  cases ts with
  | nil => rfl
  | cons t ts =>
    have ht : t.kind = .closing := by simpa [endsBlock] using h
    rw [opensNext, ht]; rfl

theorem putAll_append (children ws vs : List (Key × Tree)) :
    putAll children (ws ++ vs) = putAll (putAll children ws) vs :=
  List.foldl_append

namespace Block

/-- A block whose description goes on with a leading text. -/
def lead (text : List Char) (b : Block) : Block := { b with content := withLead b.content text }

/-- A text describes a block by its words. -/
theorem describe_eq (text : List Char) (b : Block) : b.describe text = b.lead (Text.squeeze text) := by
  rw [describe, lead]
  split
  · next h => rw [h]; rfl
  · next h => rw [withLead, List.isEmpty_eq_false_iff.2 h]; rfl

end Block

namespace State

/-! ## Changing the innermost block -/

@[simp] theorem length_nested_mapCurrent (f : Block → Block) (s : State) :
    (s.mapCurrent f).nested.length = s.nested.length := by
  rcases s with ⟨root, _ | ⟨b, outer⟩, opened, phase⟩ <;> rfl

theorem mapCurrent_id (s : State) : s.mapCurrent (fun b => b) = s := by
  rcases s with ⟨root, _ | ⟨b, outer⟩, opened, phase⟩ <;> rfl

/-! ## What entries do to a state -/

/-- The state after entries of its innermost block. -/
def enter (shared : Bool) (s : State) (es : List Entry) : State :=
  { s.mapCurrent fun b => { b with
      children := putAll b.children (writesAll shared s.opened b.numbered es)
      numbered := b.numbered + numbersAll shared es } with
    opened := s.opened + opensAll es
    phase := .between }

variable {shared : Bool}

@[simp] theorem length_nested_enter (s : State) (es : List Entry) :
    (s.enter shared es).nested.length = s.nested.length :=
  length_nested_mapCurrent _ s

@[simp] theorem phase_enter (s : State) (es : List Entry) :
    (s.enter shared es).phase = .between := rfl

theorem enter_nil (s : State) : s.enter shared [] = { s with phase := .between } := by
  rcases s with ⟨root, _ | ⟨b, outer⟩, opened, phase⟩ <;> rfl

/-- Entries act one after another. -/
theorem enter_cons (s : State) (e : Entry) (es : List Entry) :
    s.enter shared (e :: es) = (s.enter shared [e]).enter shared es := by
  rcases s with ⟨root, _ | ⟨b, outer⟩, opened, phase⟩ <;>
    simp [enter, mapCurrent, writesAll, opensAll, numbersAll, putAll_append, Nat.add_assoc]

/-- Blank text does nothing. -/
theorem enter_blank (s : State) : s.enter shared [.blank] = { s with phase := .between } := by
  rcases s with ⟨root, _ | ⟨b, outer⟩, opened, phase⟩ <;> rfl

/-- A leaf is put into the innermost block. -/
theorem enter_leaf (s : State) (d : Declaration) :
    s.enter shared [.leaf d] =
      { s.mapCurrent (.put (.name d.variableName) (.node d.description d.types [])) with
        phase := .between } := by
  rcases s with ⟨root, _ | ⟨b, outer⟩, opened, phase⟩ <;> rfl

/-- A block that is opened, described, filled and closed is one entry of the block around it. -/
theorem closeBlock_enter (dialect : Dialect) (s : State) (d : Option Declaration)
    (lead : List Char) (es : List Entry) (opening closing : Nat) :
    (((s.pushBlock dialect (blockVariable d) (.start (blockDescription d) (blockTypes d))
      opening).mapCurrent (.lead lead)).enter dialect.sharedIndex es).closeBlock closing =
        .ok (s.enter dialect.sharedIndex [.block d lead es]) := by
  rcases s with ⟨root, _ | ⟨b, outer⟩, opened, phase⟩ <;>
    cases hnamed : (blockVariable d).isEmpty <;> cases hshared : dialect.sharedIndex <;>
    simp [pushBlock, mapCurrent, enter, closeBlock, current, Block.lead, Block.start,
      Block.put, Block.toTree, writesAll, Entry.writes, opensAll, Entry.opens, numbersAll,
      Entry.numbers, putAll, blockKey, hnamed, hshared, Nat.add_assoc, Nat.add_comm 1]

/-! ## The machine over tokens -/

/-- No entry is announced. -/
def Idle (s : State) : Prop := ∀ position text, s.phase ≠ .announced position text

theorem idle_of_leading {s : State} (h : s.phase = .leading) : s.Idle := by
  intro position text
  rw [h]
  intro hphase
  cases hphase

theorem idle_of_between {s : State} (h : s.phase = .between) : s.Idle := by
  intro position text
  rw [h]
  intro hphase
  cases hphase

/-- Where nothing is announced, nothing is left to settle. -/
theorem settle_of_idle {s : State} (h : s.Idle) : s.settle = .ok { s with phase := .between } := by
  rw [settle]
  split
  · next hphase => exact absurd hphase (h _ _)
  · rfl

theorem settle_of_between {s : State} (h : s.phase = .between) : s.settle = .ok s := by
  rw [settle_of_idle (idle_of_between h), ← h]

theorem declare_eq_ok_iff {s : State} {text : List Char} {position : Nat} {d : Declaration} :
    s.declare text position = .ok d ↔ Declaration.parse text = .ok d := by
  rw [declare]
  split
  · next h => rw [h, Except.ok.injEq, Except.ok.injEq]
  · next h =>
    rw [h]
    constructor
    · intro h
      cases h
    · intro h
      cases h

/-- An announced entry is settled as a leaf exactly when its text declares a variable. -/
theorem settle_eq_ok_iff (shared : Bool) {s s' : State} {position : Nat} {text : Option (List Char)}
    (h : s.phase = .announced position text) :
    s.settle = .ok s' ↔ ∃ d, Declaration.parse (text.getD []) = .ok d ∧ d.variableName ≠ [] ∧
      s' = s.enter shared [.leaf d] := by
  rw [settle, h]
  simp only [addLeaf, bind_eq_ok_iff, declare_eq_ok_iff, enter_leaf]
  constructor
  · rintro ⟨s₁, ⟨d, hd, hs₁⟩, hs'⟩
    by_cases hname : d.variableName = []
    · rw [hname] at hs₁
      cases hs₁
    · rw [if_neg (by simpa using hname)] at hs₁
      cases hs₁
      cases hs'
      exact ⟨d, hd, hname, rfl⟩
  · rintro ⟨d, hd, hname, rfl⟩
    refine ⟨_, ⟨d, hd, ?_⟩, rfl⟩
    rw [if_neg (by simpa using hname)]
    rfl

/-- The block that is opened does not depend on the phase. -/
theorem pushBlock_phase (dialect : Dialect) (s : State) (p : Phase) (variableName : List Char)
    (b : Block) (position : Nat) :
    pushBlock dialect { s with phase := p } variableName b position =
      s.pushBlock dialect variableName b position := by
  rcases s with ⟨root, _ | ⟨b, outer⟩, opened, phase⟩ <;>
    cases hown : variableName.isEmpty && !dialect.sharedIndex <;>
    simp [pushBlock, mapCurrent, current, hown]

theorem length_nested_pushBlock (dialect : Dialect) (s : State) (variableName : List Char)
    (b : Block) (position : Nat) :
    (s.pushBlock dialect variableName b position).nested.length = s.nested.length + 1 := by
  rcases s with ⟨root, _ | ⟨b, outer⟩, opened, phase⟩ <;>
    cases hown : variableName.isEmpty && !dialect.sharedIndex <;>
    simp [pushBlock, mapCurrent, hown]

/-- A block is opened exactly when there is room for it and its text declares it. -/
theorem openBlock_eq_ok_iff {dialect : Dialect} {s s' : State} {text : List Char} {position : Nat} :
    s.openBlock dialect text position = .ok s' ↔ s.nested.length < dialect.maxDepth ∧
      ∃ d, Declares text d ∧ s' = s.pushBlock dialect (blockVariable d)
        (.start (blockDescription d) (blockTypes d)) position := by
  rw [openBlock]
  by_cases hdepth : dialect.maxDepth ≤ s.nested.length
  · rw [if_pos hdepth]
    constructor
    · intro h
      cases h
    · intro h
      exact absurd h.1 (Nat.not_lt.2 hdepth)
  rw [if_neg hdepth]
  by_cases hblank : Text.allBlank text = true
  · rw [if_pos hblank]
    constructor
    · intro h
      cases h
      exact ⟨Nat.lt_of_not_le hdepth, none, .nothing hblank, rfl⟩
    · rintro ⟨-, d, hd, rfl⟩
      cases hd with
      | nothing h => rfl
      | parameter h => rw [Declaration.parse_of_allBlank hblank] at h; cases h
  · rw [if_neg hblank, bind_eq_ok_iff]
    simp only [declare_eq_ok_iff]
    constructor
    · rintro ⟨d, hd, hs'⟩
      cases hs'
      exact ⟨Nat.lt_of_not_le hdepth, some d, .parameter hd, rfl⟩
    · rintro ⟨-, d, hd, rfl⟩
      cases hd with
      | nothing h => exact absurd h hblank
      | parameter h => exact ⟨_, h, rfl⟩

theorem openBlock_phase (dialect : Dialect) (s : State) (p : Phase) (text : List Char)
    (position : Nat) :
    openBlock dialect { s with phase := p } text position = s.openBlock dialect text position := by
  rw [openBlock, openBlock]
  simp only [pushBlock_phase]
  rfl

/-- Read tokens, and settle what they announce last. -/
def feed (dialect : Dialect) (s : State) (ts : List Token) : Except Error State := do
  let s ← ts.foldlM (State.step dialect) s
  s.settle

variable {dialect : Dialect}

theorem feed_nil (s : State) : s.feed dialect [] = s.settle := rfl

theorem feed_cons (s : State) (t : Token) (ts : List Token) :
    s.feed dialect (t :: ts) = s.step dialect t >>= fun s' => s'.feed dialect ts := by
  rw [feed, List.foldlM_cons]
  cases s.step dialect t <;> rfl

theorem feed_cons_of_step {s s' : State} {t : Token} (h : s.step dialect t = .ok s')
    (ts : List Token) : s.feed dialect (t :: ts) = s'.feed dialect ts := by
  rw [feed_cons, h]; rfl

/-! ## One token -/

theorem step_marker {s : State} {m : Token} (hm : m.kind = .marker) :
    s.step dialect m = s.settle >>= fun s => .ok { s with phase := .announced m.position none } := by
  rw [step, hm]; rfl

theorem step_closing {s : State} {c : Token} (hc : c.kind = .closing) :
    s.step dialect c = s.settle >>= fun s => s.closeBlock c.position := by
  rw [step, hc]

theorem step_opening_of_idle {s : State} {o : Token} (ho : o.kind = .opening) (hs : s.Idle) :
    s.step dialect o = s.openBlock dialect [] o.position := by
  rw [step, ho]
  dsimp only
  split
  · next h => exact absurd h (hs _ _)
  · rfl

theorem step_opening_of_announced {s : State} {o : Token} {position : Nat}
    {text : Option (List Char)} (ho : o.kind = .opening) (hs : s.phase = .announced position text) :
    s.step dialect o = s.openBlock dialect (text.getD []) o.position := by
  rw [step, ho, hs]

theorem step_text_of_leading {s : State} {t : Token} (ht : t.kind = .text)
    (hs : s.phase = .leading) :
    s.step dialect t =
      .ok { s.mapCurrent (.lead (Text.squeeze t.value)) with phase := .between } := by
  rw [step, ht, hs, funext (Block.describe_eq t.value)]

theorem step_text_of_announced {s : State} {t : Token} {position : Nat} (ht : t.kind = .text)
    (hs : s.phase = .announced position none) :
    s.step dialect t = .ok { s with phase := .announced position (some t.value) } := by
  rw [step, ht, hs]

/-- Between entries there may only be blank text. -/
theorem step_text_of_between {s s' : State} {t : Token} (ht : t.kind = .text)
    (hs : s.phase = .between) :
    s.step dialect t = .ok s' ↔ Text.allBlank t.value = true ∧ s' = s := by
  rw [step, ht, hs]
  show (s.settle >>= fun s => if Text.allBlank t.value = true then pure s else
    s.fail (.strayText (Text.trim t.value)) t.position) = .ok s' ↔ _
  rw [settle_of_between hs]
  show (if Text.allBlank t.value = true then (.ok s : Except Error State) else
    s.fail (.strayText (Text.trim t.value)) t.position) = .ok s' ↔ _
  split
  · next h =>
    constructor
    · intro h'
      cases h'
      exact ⟨h, rfl⟩
    · rintro ⟨-, rfl⟩
      rfl
  · next h =>
    constructor
    · intro h'
      cases h'
    · intro h'
      exact absurd h'.1 h

/-- A token other than a brace that opens settles an entry with its text before it is read. -/
theorem step_settle {s s' : State} {t : Token} {position : Nat} {text : List Char}
    (hs : s.phase = .announced position (some text)) (ht : t.kind ≠ .opening)
    (hsettle : s.settle = .ok s') (hs' : s'.phase = .between) :
    s.step dialect t = s'.step dialect t := by
  have hagain : s'.settle = s.settle := by rw [settle_of_between hs', hsettle]
  rw [step, step]
  split
  · rw [hagain]
  · next h => exact absurd h ht
  · rw [hagain]
  · rw [hs, hs', hagain]

/-- An entry with a text that no block follows is settled at once. -/
theorem feed_settle {s s' : State} {ts : List Token} {position : Nat} {text : List Char}
    (hs : s.phase = .announced position (some text)) (hts : opensNext ts = false)
    (hsettle : s.settle = .ok s') (hs' : s'.phase = .between) :
    s.feed dialect ts = s'.feed dialect ts := by
  cases ts with
  | nil => rw [feed_nil, feed_nil, hsettle, settle_of_between hs']
  | cons t ts =>
    have ht : t.kind ≠ .opening := by simpa [opensNext] using hts
    rw [feed_cons, feed_cons, step_settle hs ht hsettle hs']

/-- A block without a leading text goes on like a block that has had it. -/
theorem feed_leading {s : State} {ts : List Token} (hs : s.phase = .leading)
    (hts : ∀ t, ts.head? = some t → t.kind ≠ .text) :
    s.feed dialect ts = State.feed dialect { s with phase := .between } ts := by
  have hsettle := settle_of_idle (idle_of_leading hs)
  have hbetween : ({ s with phase := .between } : State).phase = .between := rfl
  cases ts with
  | nil => rw [feed_nil, feed_nil, hsettle, settle_of_between hbetween]
  | cons t ts =>
    rw [feed_cons, feed_cons]
    congr 1
    cases hkind : t.kind with
    | marker => rw [step_marker hkind, step_marker hkind, hsettle, settle_of_between hbetween]
    | opening =>
      rw [step_opening_of_idle hkind (idle_of_leading hs),
        step_opening_of_idle hkind (idle_of_between hbetween)]
      exact (openBlock_phase dialect s .between [] t.position).symm
    | closing => rw [step_closing hkind, step_closing hkind, hsettle, settle_of_between hbetween]
    | text => exact absurd hkind (hts t rfl)

end State

/-! ## From derivations to runs -/

/-- The tokens of a phrase, whatever follows them, take the machine to the state that the phrase
enters. -/
def Runs (dialect : Dialect) (ts : List Token) : Phrase → Prop
  | .block depth lead es => ∀ (s : State) (rest : List Token), s.nested.length = depth →
      s.phase = .leading → endsBlock rest = true →
      s.feed dialect (ts ++ rest) =
        ((s.mapCurrent (.lead lead)).enter dialect.sharedIndex es).feed dialect rest
  | .entries depth es => ∀ (s : State) (rest : List Token), s.nested.length = depth → s.Idle →
      endsBlock rest = true →
      s.feed dialect (ts ++ rest) = (s.enter dialect.sharedIndex es).feed dialect rest
  | .entry depth e => ∀ (s : State) (rest : List Token), s.nested.length = depth → s.Idle →
      (e.isLeaf = true → opensNext rest = false) →
      s.feed dialect (ts ++ rest) = (s.enter dialect.sharedIndex [e]).feed dialect rest

section Runs

open State

variable {dialect : Dialect} {depth : Nat}

theorem runs_block {text : List Char} {es : List Entry} {lead body : List Token}
    (hlead : OptText text lead) (hbody : Runs dialect body (.entries depth es)) :
    Runs dialect (lead ++ body) (.block depth (Text.squeeze text) es) := by
  intro s rest hlen hphase hrest
  cases hlead with
  | absent =>
    -- no text reads like an empty one
    have hsame : s.mapCurrent (.lead (Text.squeeze [])) = s := mapCurrent_id s
    rw [hsame]
    exact hbody s rest hlen (idle_of_leading hphase) hrest
  | @present t ht =>
    rw [List.append_assoc, List.singleton_append,
      feed_cons_of_step (step_text_of_leading ht hphase),
      hbody _ rest (by simpa using hlen) (idle_of_between rfl) hrest]
    rcases s with ⟨root, _ | ⟨b, outer⟩, opened, phase⟩ <;> rfl

/-- Where a block ends, nothing is left to settle. -/
theorem runs_nil : Runs dialect [] (.entries depth []) := by
  intro s rest hlen hidle hrest
  have hsettle := settle_of_idle hidle
  have hagain : State.settle { s with phase := .between } = .ok { s with phase := .between } :=
    settle_of_between rfl
  rw [List.nil_append, enter_nil]
  cases rest with
  | nil => rw [feed_nil, feed_nil, hsettle, hagain]
  | cons c rest =>
    have hc : c.kind = .closing := by simpa [endsBlock] using hrest
    rw [feed_cons, feed_cons, step_closing hc, step_closing hc, hsettle, hagain]

theorem runs_cons {e : Entry} {es : List Entry} {ts rest : List Token}
    (hentry : Runs dialect ts (.entry depth e)) (hrest : Runs dialect rest (.entries depth es))
    (hnext : e.isLeaf = true → opensNext rest = false) :
    Runs dialect (ts ++ rest) (.entries depth (e :: es)) := by
  intro s after hlen hidle hafter
  -- what follows the first entry is the rest of the entries, or what follows all of them
  have hnext' : e.isLeaf = true → opensNext (rest ++ after) = false := by
    intro hleaf
    cases rest with
    | nil => exact opensNext_of_endsBlock hafter
    | cons t rest => exact hnext hleaf
  rw [List.append_assoc, hentry s _ hlen hidle hnext',
    hrest _ after (by rw [length_nested_enter, hlen]) (idle_of_between rfl) hafter, ← enter_cons]

theorem runs_blank {t : Token} (ht : t.kind = .text) (hblank : Text.allBlank t.value = true) :
    Runs dialect [t] (.entry depth .blank) := by
  intro s rest hlen hidle _
  rw [List.singleton_append, enter_blank]
  apply feed_cons_of_step
  cases hphase : s.phase with
  | leading =>
    rw [step_text_of_leading ht hphase, Text.squeeze_eq_nil_iff.2 hblank]
    exact congrArg (fun s' : State => Except.ok { s' with phase := .between }) (mapCurrent_id s)
  | between => exact (step_text_of_between ht hphase).2 ⟨hblank, by rw [← hphase]⟩
  | announced position text => exact absurd hphase (hidle position text)

/-- A marker announces an entry. -/
theorem feed_marker {s : State} {m : Token} (hm : m.kind = .marker) (hidle : s.Idle)
    (ts : List Token) : s.feed dialect (m :: ts) =
      State.feed dialect { s with phase := .announced m.position none } ts := by
  apply feed_cons_of_step
  rw [step_marker hm, settle_of_idle hidle]; rfl

/-- The text behind a marker declares the entry. -/
theorem feed_marker_text {s : State} {m t : Token} (hm : m.kind = .marker) (ht : t.kind = .text)
    (hidle : s.Idle) (ts : List Token) : s.feed dialect (m :: t :: ts) =
      State.feed dialect { s with phase := .announced m.position (some t.value) } ts := by
  rw [feed_marker hm hidle]
  exact feed_cons_of_step (step_text_of_announced ht rfl) ts

theorem enter_phase (s : State) (p : Phase) (es : List Entry) :
    State.enter dialect.sharedIndex { s with phase := p } es =
      s.enter dialect.sharedIndex es := by
  rcases s with ⟨root, _ | ⟨b, outer⟩, opened, phase⟩ <;> rfl

theorem runs_leaf {m : Token} {text : List Char} {ts : List Token} {d : Declaration}
    (hm : m.kind = .marker) (htext : OptText text ts) (hd : Declaration.parse text = .ok d)
    (hname : d.variableName ≠ []) : Runs dialect (m :: ts) (.entry depth (.leaf d)) := by
  intro s rest hlen hidle hnext
  cases htext with
  | absent => cases hd
  | @present t ht =>
    have hphase : ({ s with phase := .announced m.position (some t.value) } : State).phase =
        .announced m.position (some t.value) := rfl
    have hsettle := (settle_eq_ok_iff dialect.sharedIndex hphase).2 ⟨d, hd, hname, rfl⟩
    rw [List.cons_append, List.singleton_append, feed_marker_text hm ht hidle,
      feed_settle hphase (hnext rfl) hsettle rfl, enter_phase]

/-- A brace behind what an entry declares opens its block. -/
theorem feed_opening (text : Option (List Char)) {s : State} {o : Token} {position : Nat}
    {d : Option Declaration} (ho : o.kind = .opening) (hroom : s.nested.length < dialect.maxDepth)
    (hd : Declares (text.getD []) d) (ts : List Token) :
    State.feed dialect { s with phase := .announced position text } (o :: ts) =
      (s.pushBlock dialect (blockVariable d) (.start (blockDescription d) (blockTypes d))
        o.position).feed dialect ts := by
  have hphase : ({ s with phase := .announced position text } : State).phase =
      .announced position text := rfl
  apply feed_cons_of_step
  rw [step_opening_of_announced ho hphase, openBlock_phase]
  exact openBlock_eq_ok_iff.2 ⟨hroom, d, hd, rfl⟩

/-- A block in braces, once it is opened, is read to its end. -/
theorem feed_block {s : State} {d : Option Declaration} {lead : List Char} {es : List Entry}
    {inner : List Token} {c : Token} (hlen : s.nested.length = depth)
    (hinner : Runs dialect inner (.block (depth + 1) lead es)) (hc : c.kind = .closing)
    (position : Nat) (rest : List Token) :
    (s.pushBlock dialect (blockVariable d) (.start (blockDescription d) (blockTypes d))
      position).feed dialect (inner ++ c :: rest) =
        (s.enter dialect.sharedIndex [.block d lead es]).feed dialect rest := by
  have hpushed : (s.pushBlock dialect (blockVariable d)
      (.start (blockDescription d) (blockTypes d)) position).nested.length = depth + 1 := by
    rw [length_nested_pushBlock, hlen]
  rw [hinner _ (c :: rest) hpushed rfl (by rw [endsBlock, hc]; rfl)]
  apply feed_cons_of_step
  rw [step_closing hc, settle_of_between (phase_enter _ _)]
  exact closeBlock_enter dialect s d lead es position c.position

theorem runs_announced {m o c : Token} {text lead : List Char} {ts inner : List Token}
    {d : Option Declaration} {es : List Entry} (hm : m.kind = .marker) (htext : OptText text ts)
    (hd : Declares text d) (hdepth : depth < dialect.maxDepth) (ho : o.kind = .opening)
    (hinner : Runs dialect inner (.block (depth + 1) lead es)) (hc : c.kind = .closing) :
    Runs dialect (m :: ts ++ o :: inner ++ [c]) (.entry depth (.block d lead es)) := by
  intro s rest hlen hidle _
  have hroom : s.nested.length < dialect.maxDepth := by omega
  have hshape : m :: ts ++ o :: inner ++ [c] ++ rest = m :: (ts ++ o :: (inner ++ c :: rest)) := by
    simp
  rw [hshape]
  cases htext with
  | absent =>
    rw [List.nil_append, feed_marker hm hidle, feed_opening none ho hroom hd]
    exact feed_block hlen hinner hc o.position rest
  | @present t ht =>
    rw [List.singleton_append, feed_marker_text hm ht hidle,
      feed_opening (some t.value) ho hroom hd]
    exact feed_block hlen hinner hc o.position rest

theorem runs_bare {o c : Token} {lead : List Char} {inner : List Token} {es : List Entry}
    (hdepth : depth < dialect.maxDepth) (ho : o.kind = .opening)
    (hinner : Runs dialect inner (.block (depth + 1) lead es)) (hc : c.kind = .closing) :
    Runs dialect (o :: inner ++ [c]) (.entry depth (.block none lead es)) := by
  intro s rest hlen hidle _
  have hroom : s.nested.length < dialect.maxDepth := by omega
  have hopen : s.openBlock dialect [] o.position = _ :=
    openBlock_eq_ok_iff.2 ⟨hroom, none, .nothing rfl, rfl⟩
  rw [List.append_assoc, List.cons_append, List.singleton_append,
    feed_cons_of_step ((step_opening_of_idle ho hidle).trans hopen)]
  exact feed_block hlen hinner hc o.position rest

/-- **The tokens of a derivation take the machine where the derivation says.** -/
theorem Derives.runs {φ : Phrase} {ts : List Token} (h : Derives dialect.maxDepth φ ts) :
    Runs dialect ts φ := by
  induction h with
  | block hlead _ ih => exact runs_block hlead ih
  | nil => exact runs_nil
  | cons _ _ hnext ihe ihr => exact runs_cons ihe ihr hnext
  | blank ht hblank => exact runs_blank ht hblank
  | leaf hm htext hd hname => exact runs_leaf hm htext hd hname
  | announced hm htext hd hdepth ho _ hc ih => exact runs_announced hm htext hd hdepth ho ih hc
  | bare hdepth ho _ hc ih => exact runs_bare hdepth ho ih hc

end Runs

/-! ## From runs to derivations -/

section Splits

open State

variable {dialect : Dialect}

/-- Up to `n` tokens that lead to success with every block closed start with entries, up to the end of
the block. -/
def Splits (dialect : Dialect) (n : Nat) : Prop :=
  ∀ (s s' : State) (ts : List Token), ts.length ≤ n → s.phase = .between →
    s.feed dialect ts = .ok s' → s'.nested = [] →
    ∃ es front rest, ts = front ++ rest ∧ endsBlock rest = true ∧
      Derives dialect.maxDepth (.entries s.nested.length es) front

/-- Behind an opening brace the tokens start with a block. -/
theorem Splits.block {n : Nat} (h : Splits dialect n) {s s' : State} {ts : List Token}
    (hn : ts.length ≤ n) (hs : s.phase = .leading) (hrun : s.feed dialect ts = .ok s')
    (hclosed : s'.nested = []) :
    ∃ lead es front rest, ts = front ++ rest ∧ endsBlock rest = true ∧
      Derives dialect.maxDepth (.block s.nested.length lead es) front := by
  by_cases htext : ∃ t us, ts = t :: us ∧ t.kind = .text
  · obtain ⟨t, us, rfl, ht⟩ := htext
    rw [feed_cons_of_step (step_text_of_leading ht hs)] at hrun
    obtain ⟨es, front, rest, rfl, hrest, hes⟩ :=
      h _ s' us (by simp at hn; omega) rfl hrun hclosed
    refine ⟨_, es, t :: front, rest, rfl, hrest, .block (.present ht) ?_⟩
    simpa using hes
  · have hhead : ∀ t, ts.head? = some t → t.kind ≠ .text := by
      intro t ht hkind
      obtain ⟨us, rfl⟩ := List.head?_eq_some_iff.1 ht
      exact htext ⟨t, us, rfl, hkind⟩
    rw [feed_leading hs hhead] at hrun
    obtain ⟨es, front, rest, rfl, hrest, hes⟩ := h _ s' ts hn rfl hrun hclosed
    exact ⟨_, es, front, rest, rfl, hrest, .block .absent hes⟩

/-- Behind a brace that opens, the tokens start with a block and the brace that closes it. -/
theorem Splits.braces {n : Nat} (h : Splits dialect n) {s s' : State} {ts : List Token}
    {d : Option Declaration} {position : Nat} (hn : ts.length ≤ n)
    (hrun : (s.pushBlock dialect (blockVariable d) (.start (blockDescription d) (blockTypes d))
      position).feed dialect ts = .ok s') (hclosed : s'.nested = []) :
    ∃ lead es inner c rest, ts = inner ++ c :: rest ∧ c.kind = .closing ∧
      Derives dialect.maxDepth (.block (s.nested.length + 1) lead es) inner ∧
      (s.enter dialect.sharedIndex [.block d lead es]).feed dialect rest = .ok s' := by
  obtain ⟨lead, es, inner, rest, rfl, hrest, hinner⟩ := h.block hn rfl hrun hclosed
  rw [length_nested_pushBlock] at hinner
  cases rest with
  | nil =>
    -- without a brace that closes it, the block is still open at the end
    rw [hinner.runs _ [] (length_nested_pushBlock ..) rfl rfl, feed_nil,
      settle_of_between (phase_enter _ _)] at hrun
    cases hrun
    have hlen := congrArg List.length hclosed
    rw [length_nested_enter, length_nested_mapCurrent, length_nested_pushBlock] at hlen
    cases hlen
  | cons c rest =>
    have hc : c.kind = .closing := by simpa [endsBlock] using hrest
    rw [feed_block rfl hinner.runs hc] at hrun
    exact ⟨lead, es, inner, c, rest, rfl, hc, hinner, hrun⟩

/-- Behind an entry the tokens go on with entries. -/
theorem Splits.cons {n : Nat} (h : Splits dialect n) {s s' : State} {e : Entry}
    {front rest : List Token} (hn : rest.length ≤ n)
    (hentry : Derives dialect.maxDepth (.entry s.nested.length e) front)
    (hrun : (s.enter dialect.sharedIndex [e]).feed dialect rest = .ok s') (hclosed : s'.nested = [])
    (hnext : e.isLeaf = true → opensNext rest = false) :
    ∃ es front' rest', front ++ rest = front' ++ rest' ∧ endsBlock rest' = true ∧
      Derives dialect.maxDepth (.entries s.nested.length es) front' := by
  obtain ⟨es, body, after, rfl, hafter, hes⟩ := h _ s' rest hn (phase_enter _ _) hrun hclosed
  rw [length_nested_enter] at hes
  refine ⟨e :: es, front ++ body, after, (List.append_assoc ..).symm, hafter, .cons hentry hes ?_⟩
  intro hleaf
  cases body with
  | nil => rfl
  | cons t body => exact hnext hleaf

/-- An entry that no block follows has been settled if the tokens lead to success. -/
theorem exists_settle {s s' : State} {position : Nat} {text : Option (List Char)}
    {ts : List Token} (hs : s.phase = .announced position text) (hopens : opensNext ts = false)
    (hstuck : text = none → ∀ t, ts.head? = some t → t.kind ≠ .text)
    (hrun : s.feed dialect ts = .ok s') : ∃ s₁, s.settle = .ok s₁ := by
  cases ts with
  | nil => exact ⟨s', hrun⟩
  | cons t ts =>
    rw [feed_cons, bind_eq_ok_iff] at hrun
    obtain ⟨s₂, hstep, -⟩ := hrun
    cases hkind : t.kind with
    | marker =>
      rw [step_marker hkind, bind_eq_ok_iff] at hstep
      exact ⟨_, hstep.choose_spec.1⟩
    | closing =>
      rw [step_closing hkind, bind_eq_ok_iff] at hstep
      exact ⟨_, hstep.choose_spec.1⟩
    | opening => exact absurd hkind (by simpa [opensNext] using hopens)
    | text =>
      cases text with
      | none => exact absurd hkind (hstuck rfl t rfl)
      | some v =>
        rw [step, hkind, hs] at hstep
        exact ⟨_, (bind_eq_ok_iff.1 hstep).choose_spec.1⟩

/-- Behind a marker with an optional text, the tokens start with what is left of an entry, and
entries follow it. -/
theorem Splits.announced {n : Nat} (h : Splits dialect n) (text : Option (List Char))
    {s s' : State} {m : Token} {front ts : List Token} (hn : ts.length ≤ n)
    (hm : m.kind = .marker) (htext : OptText (text.getD []) front)
    (hstuck : text = none → ∀ t, ts.head? = some t → t.kind ≠ .text)
    (hrun : State.feed dialect { s with phase := .announced m.position text } ts = .ok s')
    (hclosed : s'.nested = []) :
    ∃ es front' rest, m :: front ++ ts = front' ++ rest ∧ endsBlock rest = true ∧
      Derives dialect.maxDepth (.entries s.nested.length es) front' := by
  have hphase : ({ s with phase := .announced m.position text } : State).phase =
      .announced m.position text := rfl
  -- a brace behind the text makes the entry a block, anything else a leaf
  by_cases hopens : opensNext ts = true
  · cases ts with
    | nil => cases hopens
    | cons o ts =>
      have ho : o.kind = .opening := by simpa [opensNext] using hopens
      rw [feed_cons, bind_eq_ok_iff] at hrun
      obtain ⟨s₁, hstep, hrun⟩ := hrun
      rw [step_opening_of_announced ho hphase, openBlock_phase, openBlock_eq_ok_iff] at hstep
      obtain ⟨hroom, d, hd, rfl⟩ := hstep
      obtain ⟨lead, es, inner, c, rest, rfl, hc, hinner, hrun⟩ :=
        h.braces (by simp at hn; omega) hrun hclosed
      have hentry := Derives.announced hm htext hd hroom ho hinner hc
      have hn' : rest.length ≤ n := by simp at hn; omega
      simpa using h.cons hn' hentry hrun hclosed fun hleaf => absurd hleaf Bool.false_ne_true
  · have hopens := Bool.eq_false_iff.2 hopens
    obtain ⟨s₁, hsettle⟩ := exists_settle hphase hopens hstuck hrun
    obtain ⟨d, hd, hname, hs₁⟩ := (settle_eq_ok_iff dialect.sharedIndex hphase).1 hsettle
    rw [enter_phase] at hs₁
    subst hs₁
    cases text with
    | none => cases hd
    | some v =>
      rw [feed_settle hphase hopens hsettle (phase_enter _ _)] at hrun
      exact h.cons hn (.leaf hm htext hd hname) hrun hclosed fun _ => hopens

/-- **Tokens that lead to success start with entries, up to the end of the block.** -/
theorem splits (n : Nat) : Splits dialect n := by
  induction n with
  | zero =>
    intro s s' ts hn hs hrun hclosed
    rw [List.eq_nil_of_length_eq_zero (Nat.le_zero.1 hn)]
    exact ⟨[], [], [], rfl, rfl, .nil⟩
  | succ n ih =>
    intro s s' ts hn hs hrun hclosed
    cases ts with
    | nil => exact ⟨[], [], [], rfl, rfl, .nil⟩
    | cons t ts =>
      have hn : ts.length ≤ n := by simpa using hn
      have hidle := idle_of_between hs
      cases hkind : t.kind with
      | closing => exact ⟨[], [], t :: ts, rfl, by rw [endsBlock, hkind]; rfl, .nil⟩
      | text =>
        rw [feed_cons, bind_eq_ok_iff] at hrun
        obtain ⟨s₁, hstep, hrun⟩ := hrun
        obtain ⟨hblank, rfl⟩ := (step_text_of_between hkind hs).1 hstep
        -- blank text leaves the state alone, so it is an entry that does nothing
        have hsame : s₁.enter dialect.sharedIndex [.blank] = s₁ := by rw [enter_blank, ← hs]
        rw [← hsame] at hrun
        exact ih.cons hn (.blank hkind hblank) hrun hclosed
          fun hleaf => absurd hleaf Bool.false_ne_true
      | opening =>
        rw [feed_cons, bind_eq_ok_iff] at hrun
        obtain ⟨s₁, hstep, hrun⟩ := hrun
        rw [step_opening_of_idle hkind hidle, openBlock_eq_ok_iff] at hstep
        obtain ⟨hroom, d, hd, rfl⟩ := hstep
        cases hd with
        | parameter hd => cases hd
        | nothing _ =>
          obtain ⟨lead, es, inner, c, rest, rfl, hc, hinner, hrun⟩ := ih.braces hn hrun hclosed
          have hn' : rest.length ≤ n := by simp at hn; omega
          simpa using ih.cons hn' (.bare hroom hkind hinner hc) hrun hclosed
            fun hleaf => absurd hleaf Bool.false_ne_true
      | marker =>
        -- the text behind a marker belongs to the entry
        by_cases htext : ∃ v us, ts = v :: us ∧ v.kind = .text
        · obtain ⟨v, us, rfl, hv⟩ := htext
          rw [feed_marker_text hkind hv hidle] at hrun
          have hn' : us.length ≤ n := by simp at hn; omega
          simpa using ih.announced (some v.value) hn' hkind (.present hv)
            (fun hnone => absurd hnone (Option.some_ne_none _)) hrun hclosed
        · rw [feed_marker hkind hidle] at hrun
          refine ih.announced none hn hkind .absent (fun _ v hv hvkind => ?_) hrun hclosed
          obtain ⟨us, rfl⟩ := List.head?_eq_some_iff.1 hv
          exact htext ⟨v, us, rfl, hvkind⟩

end Splits

/-! ## The tree of a hash -/

section Parse

open State

variable {dialect : Dialect}

theorem toTree_root_enter (lead : List Char) (es : List Entry) :
    ((State.initial.mapCurrent (.lead lead)).enter dialect.sharedIndex es).root.toTree =
      meaning dialect.sharedIndex lead es := by
  show Tree.node (withLead [] lead) _ _ = _
  rw [withLead_nil]; rfl

theorem finish_eq_ok_iff {s : State} {t : Tree} :
    s.finish = .ok t ↔ ∃ s', s.settle = .ok s' ∧ s'.nested = [] ∧ s'.root.toTree = t := by
  rw [finish, bind_eq_ok_iff]
  constructor
  · rintro ⟨s', hsettle, h⟩
    split at h
    · next hnested =>
      cases h
      exact ⟨s', hsettle, hnested, rfl⟩
    · cases h
  · rintro ⟨s', hsettle, hnested, rfl⟩
    refine ⟨s', hsettle, ?_⟩
    rw [hnested]; rfl

theorem parseTokens_eq_ok_iff_feed {ts : List Token} {t : Tree} :
    parseTokens dialect ts = .ok t ↔
      ∃ s, State.initial.feed dialect ts = .ok s ∧ s.nested = [] ∧ s.root.toTree = t := by
  simp only [parseTokens, feed, bind_eq_ok_iff, finish_eq_ok_iff]
  constructor
  · rintro ⟨s, hrun, s', hsettle, hnested, ht⟩
    exact ⟨s', ⟨s, hrun, hsettle⟩, hnested, ht⟩
  · rintro ⟨s', ⟨s, hrun, hsettle⟩, hnested, ht⟩
    exact ⟨s, hrun, s', hsettle, hnested, ht⟩

/-- **Tokens are parsed exactly when they form a block, and to what the block says.** -/
theorem parseTokens_eq_ok_iff {ts : List Token} {t : Tree} :
    parseTokens dialect ts = .ok t ↔ ∃ lead es,
      Derives dialect.maxDepth (.block 0 lead es) ts ∧ t = meaning dialect.sharedIndex lead es := by
  rw [parseTokens_eq_ok_iff_feed]
  constructor
  · rintro ⟨s, hrun, hclosed, rfl⟩
    obtain ⟨lead, es, front, rest, rfl, hrest, hblock⟩ :=
      (splits ts.length).block (Nat.le_refl _) rfl hrun hclosed
    rw [hblock.runs _ rest rfl rfl hrest] at hrun
    -- outside of every block there is no brace to close, so nothing is left behind the block
    cases rest with
    | nil =>
      rw [feed_nil, settle_of_between (phase_enter _ _)] at hrun
      cases hrun
      rw [List.append_nil]
      exact ⟨lead, es, hblock, toTree_root_enter lead es⟩
    | cons c rest =>
      have hc : c.kind = .closing := by simpa [endsBlock] using hrest
      rw [feed_cons, step_closing hc, settle_of_between (phase_enter _ _)] at hrun
      cases hrun
  · rintro ⟨lead, es, hblock, rfl⟩
    have hrun := hblock.runs State.initial [] rfl rfl rfl
    rw [List.append_nil, feed_nil, settle_of_between (phase_enter _ _)] at hrun
    exact ⟨_, hrun, rfl, toTree_root_enter lead es⟩

/-- The text between the outer braces is what stands between them once the text is trimmed. -/
theorem unbrace_eq_ok_iff {content inner : List Char} :
    unbrace content = .ok inner ↔ (Text.trim content).head? = some '{' ∧
      (Text.trim content).getLast? = some '}' ∧ 2 ≤ (Text.trim content).length ∧
      inner = ((Text.trim content).drop 1).dropLast := by
  rw [unbrace]
  generalize Text.trim content = text
  by_cases hhead : text.head? = some '{'
  · rw [hhead]
    by_cases hlast : text.getLast? = some '}'
    · rw [hlast]
      by_cases hlen : 2 ≤ text.length
      · simp [hlen, Nat.not_lt.2 hlen, eq_comm]
      · simp [hlen, Nat.not_le.1 hlen]
    · simp [hlast]
  · simp [hhead]

/-- The text between the outer braces, once more: the trimmed text is it in braces. -/
theorem unbrace_eq_ok_iff_trim {content inner : List Char} :
    unbrace content = .ok inner ↔ Text.trim content = '{' :: inner ++ ['}'] := by
  rw [unbrace_eq_ok_iff]
  generalize Text.trim content = text
  constructor
  · rintro ⟨hhead, hlast, hlen, rfl⟩
    obtain ⟨t, rfl⟩ := List.head?_eq_some_iff.1 hhead
    have ht : t ≠ [] := by
      rintro rfl
      exact absurd hlen (by decide)
    rw [List.getLast?_cons_of_ne_nil ht] at hlast
    obtain ⟨inner, rfl⟩ := List.getLast?_eq_some_iff.1 hlast
    rw [List.drop_one, List.tail_cons, List.dropLast_concat, List.cons_append]
  · rintro rfl
    refine ⟨rfl, List.getLast?_concat, by simp, ?_⟩
    show inner = (inner ++ ['}']).dropLast
    rw [List.dropLast_concat]

/-- What stands between the outer braces is read by its tokens. -/
theorem parse_of_unbrace {content inner : List Char} (h : unbrace content = .ok inner) :
    parse dialect content = parseTokens dialect (tokenize dialect.registry inner) := by
  rw [parse, h]
  rfl

/-- **A hash is parsed exactly when it has its outer braces and the tokens between them form a block;
its tree is what the block says.** -/
theorem parse_eq_ok_iff_derives (dialect : Dialect) (content : List Char) (t : Tree) :
    parse dialect content = .ok t ↔
      (Text.trim content).head? = some '{' ∧ (Text.trim content).getLast? = some '}' ∧
      2 ≤ (Text.trim content).length ∧
      ∃ lead es, Derives dialect.maxDepth (.block 0 lead es)
          (tokenize dialect.registry ((Text.trim content).drop 1).dropLast) ∧
        t = meaning dialect.sharedIndex lead es := by
  rw [parse, bind_eq_ok_iff]
  simp only [unbrace_eq_ok_iff, parseTokens_eq_ok_iff]
  constructor
  · rintro ⟨_, ⟨hhead, hlast, hlen, rfl⟩, hblock⟩
    exact ⟨hhead, hlast, hlen, hblock⟩
  · rintro ⟨hhead, hlast, hlen, hblock⟩
    exact ⟨_, ⟨hhead, hlast, hlen, rfl⟩, hblock⟩

end Parse

end DocTree.Hash
