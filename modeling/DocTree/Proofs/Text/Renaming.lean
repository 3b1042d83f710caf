import DocTree.Text.Alphabet

/-!
# Characters without a meaning of their own

A reader of a text tells its blanks, its word characters and the characters of ASCII apart. The others have
no meaning of their own, and a predicate that a reader uses does not tell them apart (`Blind`). So it does
not matter which of them stand for what: a `Renaming` moves them and leaves the rest alone, and a renamed
text is read as the text itself, with the parts that are left of it renamed. This is shown here of the
functions on texts.
-/

namespace DocTree.Text

/-- The predicate does not tell characters without a meaning of their own apart. -/
def Blind (p : Char → Bool) : Prop := ∀ c d, isFixed c = false → isFixed d = false → p c = p d

/-- A map of characters that leaves alone those that have a meaning of their own, and only those have it
afterwards. -/
structure Renaming where
  toFun : Char → Char
  eq_of_fixed : ∀ c, isFixed c = true → toFun c = c
  isFixed_apply : ∀ c, isFixed (toFun c) = isFixed c

instance : CoeFun Renaming fun _ => Char → Char := ⟨Renaming.toFun⟩

/-! ## Blind predicates -/

theorem blind_of_fixed {p : Char → Bool} (h : ∀ c, p c = true → isFixed c = true) : Blind p := by
  have hnone : ∀ c, isFixed c = false → p c = false := fun c hc =>
    Bool.eq_false_iff.2 fun hp => Bool.false_ne_true (hc.symm.trans (h c hp))
  exact fun c d hc hd => (hnone c hc).trans (hnone d hd).symm

theorem Blind.not {p : Char → Bool} (h : Blind p) : Blind fun c => !p c :=
  fun c d hc hd => congrArg Bool.not (h c d hc hd)

theorem blind_isBlank : Blind isBlank :=
  blind_of_fixed fun c hc => by rw [isFixed, hc, Bool.or_true, Bool.true_or]

theorem blind_eq {d : Char} (hd : isFixed d = true) : Blind (· == d) :=
  blind_of_fixed fun _ hc => eq_of_beq hc ▸ hd

theorem blind_ne {d : Char} (hd : isFixed d = true) : Blind (· != d) := (blind_eq hd).not

namespace Renaming

variable (ρ : Renaming) {p : Char → Bool}

theorem apply_of_blind (hp : Blind p) (c : Char) : p (ρ c) = p c := by
  cases hc : isFixed c with
  | true => rw [ρ.eq_of_fixed c hc]
  | false => exact hp _ _ ((ρ.isFixed_apply c).trans hc) hc

theorem apply_eq_iff {c d : Char} (hd : isFixed d = true) : ρ c = d ↔ c = d := by
  rw [← beq_iff_eq, ρ.apply_of_blind (blind_eq hd), beq_iff_eq]

theorem comp_of_blind (hp : Blind p) : p ∘ ρ = p := funext (ρ.apply_of_blind hp)

/-- A text is left as it is if its characters have a meaning of their own. -/
theorem map_eq_self {s : List Char} (h : ∀ c ∈ s, isFixed c = true) : s.map ρ = s :=
  (List.map_congr_left fun c hc => ρ.eq_of_fixed c (h c hc)).trans s.map_id

theorem map_singleton {c : Char} (hc : isFixed c = true) : [c].map ρ = [c] := by
  rw [List.map_singleton, ρ.eq_of_fixed c hc]

/-- What holds of no text but of characters with a meaning of their own holds of a renamed text only if it
holds of the text. -/
theorem apply_of_texts {q : List Char → Bool} (hq : ∀ s, q s = true → ∀ c ∈ s, isFixed c = true)
    (s : List Char) : q (s.map ρ) = q s := by
  rw [Bool.eq_iff_iff]
  constructor
  · intro h
    have hfixed : ∀ c ∈ s, isFixed c = true := fun c hc =>
      (ρ.isFixed_apply c).symm.trans (hq _ h _ (List.mem_map_of_mem hc))
    rwa [ρ.map_eq_self hfixed] at h
  · intro h
    rwa [ρ.map_eq_self (hq s h)]

theorem map_beq_some {d : Char} (hd : isFixed d = true) (c? : Option Char) :
    (c?.map ρ == some d) = (c? == some d) := by
  cases c? with
  | none => rfl
  | some c => exact ρ.apply_of_blind (blind_eq hd) c

/-! ## Ends of a text -/

theorem takeWhile_map (hp : Blind p) (s : List Char) :
    (s.map ρ).takeWhile p = (s.takeWhile p).map ρ := by
  rw [List.takeWhile_map, ρ.comp_of_blind hp]

theorem dropWhile_map (hp : Blind p) (s : List Char) :
    (s.map ρ).dropWhile p = (s.dropWhile p).map ρ := by
  rw [List.dropWhile_map, ρ.comp_of_blind hp]

theorem trim_map (s : List Char) : trim (s.map ρ) = (trim s).map ρ := by
  rw [trim, trim, trimLeft, trimLeft, dropEndWhile, dropEndWhile, ρ.dropWhile_map blind_isBlank,
    ← List.map_reverse, ρ.dropWhile_map blind_isBlank, List.map_reverse]

theorem allBlank_map (s : List Char) : allBlank (s.map ρ) = allBlank s := by
  rw [allBlank, allBlank, List.all_map, ρ.comp_of_blind blind_isBlank]

/-! ## Words -/

theorem splitWhere_map (hp : Blind p) (s : List Char) :
    splitWhere p (s.map ρ) = (splitWhere p s).map (List.map ρ) := by
  induction s with
  | nil => rfl
  | cons c s ih =>
    rw [List.map_cons, splitWhere, splitWhere, ih, ρ.apply_of_blind hp]
    split
    · rfl
    · cases splitWhere p s <;> rfl

theorem pieces_map (hp : Blind p) (s : List Char) :
    pieces p (s.map ρ) = (pieces p s).map (List.map ρ) := by
  have hempty : (fun w : List Char => !w.isEmpty) ∘ List.map ρ = fun w => !w.isEmpty :=
    funext fun w => congrArg Bool.not List.isEmpty_map
  rw [pieces, pieces, ρ.splitWhere_map hp, List.filter_map, hempty]

theorem joinSpaced_map (ws : List (List Char)) :
    joinSpaced (ws.map (List.map ρ)) = (joinSpaced ws).map ρ := by
  have hspace : [' '].map ρ = [' '] := ρ.map_singleton (by decide)
  rw [joinSpaced, joinSpaced]
  induction ws with
  | nil => rfl
  | cons w ws ih =>
    cases ws with
    | nil => rw [List.map_singleton, List.intercalate_singleton, List.intercalate_singleton]
    | cons v ws =>
      rw [List.map_cons] at ih
      rw [List.map_cons, List.map_cons, List.intercalate_cons_cons, List.intercalate_cons_cons, ih,
        List.map_append, List.map_append, hspace]

theorem squeeze_map (s : List Char) : squeeze (s.map ρ) = (squeeze s).map ρ := by
  rw [squeeze, squeeze, words, words, ρ.pieces_map blind_isBlank, ρ.joinSpaced_map]

theorem splitHead_map (s : List Char) :
    splitHead (s.map ρ) = ((splitHead s).1.map ρ, (splitHead s).2.map ρ) := by
  have hspace : Blind (· != ' ') := blind_ne (by decide)
  rw [splitHead, splitHead, ρ.trim_map]
  dsimp only
  rw [ρ.takeWhile_map hspace, ρ.dropWhile_map hspace, ← List.map_drop, ρ.trim_map]

end Renaming

/-! ## Alphabets -/

namespace Alphabet

variable {a b : Alphabet}

/-- A character with a meaning of its own stands for itself alone. -/
theorem eq_of_point_eq {c d : Char} (hd : isFixed d = true) (h : b.point d = a.point c) : d = c := by
  rw [b.point_of_fixed d hd, ← a.point_of_fixed d hd] at h
  rw [← a.letter_point d, h, a.letter_point]

/-- The renaming of the characters of an alphabet to those that stand for the same in another one, which
has a character for each of its code points. -/
def recoding (a b : Alphabet) (h : ∀ c, b.point (b.letter (a.point c)) = a.point c) : Renaming where
  toFun c := b.letter (a.point c)
  eq_of_fixed c hc := by rw [a.point_of_fixed c hc, ← b.point_of_fixed c hc, b.letter_point]
  isFixed_apply c := by
    rw [Bool.eq_iff_iff]
    constructor
    · intro hd
      rwa [eq_of_point_eq hd (h c)] at hd
    · intro hc
      rwa [a.point_of_fixed c hc, ← b.point_of_fixed c hc, b.letter_point]

/-- The renamed text stands for the same code points. -/
theorem map_point_recoding (h : ∀ c, b.point (b.letter (a.point c)) = a.point c) (s : List Char) :
    (s.map (a.recoding b h)).map b.point = s.map a.point := by
  rw [List.map_map]
  exact List.map_congr_left fun c _ => h c

end Alphabet

end DocTree.Text
