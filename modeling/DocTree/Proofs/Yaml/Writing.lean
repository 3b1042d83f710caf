import DocTree.Proofs.Text.Words
import DocTree.Yaml.Write
import Mathlib.Data.Nat.Digits.Defs

/-!
# Line breaks in documents written as YAML

A document is written with line feeds only: a carriage return in a text is written by its escape
(`return_not_mem_write`). So a document that was written to a file is the same when its line breaks are
unified on reading (`unifyBreaks_write`). This holds of documents whose scalars are texts, integers,
truth values or absent (`Value.Elementary`).
-/

namespace DocTree

theorem Text.unifyBreaks_eq_self {s : List Char} (h : '\r' ∉ s) : unifyBreaks s = s := by
  induction s with
  | nil => rfl
  | cons c rest ih =>
    rw [List.mem_cons, not_or] at h
    have hc : (c == '\r') = false := beq_eq_false_iff_ne.2 (Ne.symm h.1)
    rw [unifyBreaks, hc, if_neg Bool.false_ne_true, ih h.2]
    rintro rest' rfl
    exact absurd rfl h.1

/-- A scalar that is a text, an integer, a truth value or absent. -/
def Scalar.isElementary : Scalar → Bool
  | .float _ => false
  | .time _ => false
  | _ => true

/-- All scalars in the document are elementary, the keys too. -/
inductive Value.Elementary : Value → Prop where
  | scalar {s : Scalar} (h : s.isElementary = true) : Elementary (.scalar s)
  | list {items : List Value} (hitems : ∀ v ∈ items, v.Elementary) : Elementary (.list items)
  | map {es : Entries} (hkeys : ∀ e ∈ es, e.1.isElementary = true)
      (hvalues : ∀ e ∈ es, e.2.Elementary) : Elementary (.map es)

namespace Yaml

/-! ## Runs -/

theorem mem_word_addToRuns {c b : Char} {runs : List Run} {cs : List Char}
    (h : .word cs ∈ addToRuns c runs) (hb : b ∈ cs) :
    b = c ∨ ∃ ds, .word ds ∈ runs ∧ b ∈ ds := by
  have hold : .word cs ∈ runs → b = c ∨ ∃ ds, .word ds ∈ runs ∧ b ∈ ds := fun h => .inr ⟨cs, h, hb⟩
  unfold addToRuns at h
  split at h
  · split at h
    · rcases List.mem_cons.1 h with h | h
      · cases h
      · exact hold (List.mem_cons_of_mem _ h)
    · rcases List.mem_cons.1 h with h | h
      · cases h
      · exact hold h
  · split at h
    · split at h
      · rcases List.mem_cons.1 h with h | h
        · cases h
        · exact hold (List.mem_cons_of_mem _ h)
      · rcases List.mem_cons.1 h with h | h
        · cases h
        · exact hold h
    · split at h
      · next ds rest =>
        rcases List.mem_cons.1 h with h | h
        · cases h
          rcases List.mem_cons.1 hb with hb | hb
          · exact .inl hb
          · exact .inr ⟨ds, List.mem_cons_self, hb⟩
        · exact hold (List.mem_cons_of_mem _ h)
      · rcases List.mem_cons.1 h with h | h
        · cases h
          exact .inl (List.mem_singleton.1 hb)
        · exact hold h

/-- The words among the runs of a text are made of its characters. -/
theorem mem_of_mem_runsOf {s cs : List Char} {b : Char} (h : .word cs ∈ runsOf s) (hb : b ∈ cs) :
    b ∈ s := by
  induction s generalizing cs with
  | nil => exact absurd h List.not_mem_nil
  | cons c rest ih =>
    rw [runsOf, List.foldr_cons] at h
    rcases mem_word_addToRuns h hb with rfl | ⟨ds, hds, hb⟩
    · exact List.mem_cons_self
    · exact List.mem_cons_of_mem c (ih hds hb)

theorem return_not_mem_newLine (indent : Nat) : '\r' ∉ newLine indent := by
  rw [newLine, List.mem_cons, List.mem_replicate]
  rintro (h | ⟨-, h⟩)
  · exact absurd h (by decide)
  · exact absurd h (by decide)

theorem return_not_mem_replicate {c : Char} (hc : '\r' ≠ c) (n : Nat) : '\r' ∉ List.replicate n c :=
  fun h => hc (List.mem_replicate.1 h).2

/-- What is written for runs is their words, spaces and line feeds. -/
theorem return_not_mem_writeRuns (indent : Nat) (split first : Bool) (column : Nat)
    {runs : List Run} (h : ∀ cs, .word cs ∈ runs → '\r' ∉ cs) :
    '\r' ∉ writeRuns indent split first column runs := by
  have hspace : '\r' ≠ ' ' := by decide
  have hfeed : '\r' ≠ '\n' := by decide
  induction runs generalizing first column with
  | nil => exact List.not_mem_nil
  | cons run rest ih =>
    have hrest : ∀ cs, .word cs ∈ rest → '\r' ∉ cs := fun cs hcs => h cs (List.mem_cons_of_mem _ hcs)
    cases run with
    | spaces n =>
      rw [writeRuns]
      split
      · exact List.not_mem_append (return_not_mem_newLine indent) (ih _ _ hrest)
      · exact List.not_mem_append (return_not_mem_replicate hspace n) (ih _ _ hrest)
    | breaks n =>
      rw [writeRuns]
      exact List.not_mem_append (List.not_mem_append (return_not_mem_replicate hfeed n)
        (return_not_mem_newLine indent)) (ih _ _ hrest)
    | word cs =>
      rw [writeRuns]
      exact List.not_mem_append (h cs List.mem_cons_self) (ih _ _ hrest)

/-! ## Escapes -/

/-- A capital digit is no carriage return. -/
theorem return_not_mem_capitalHex (width n : Nat) : '\r' ∉ capitalHex width n := by
  have hdigit : ∀ k, k < 16 → (Nat.digitChar k).toUpper ≠ '\r' := by decide
  have hdigits : ∀ m, ∀ c ∈ Nat.toDigits 16 m, c.toUpper ≠ '\r' := by
    intro m
    induction m using Nat.strongRecOn with
    | ind m ih =>
      by_cases hm : m < 16
      · rw [Nat.toDigits_of_lt_base hm]
        exact List.forall_mem_singleton.2 (hdigit m hm)
      · rw [Nat.toDigits_of_base_le (by decide) (Nat.not_lt.1 hm), List.forall_mem_append]
        exact ⟨ih _ (Nat.div_lt_self (by omega) (by decide)),
          List.forall_mem_singleton.2 (hdigit _ (Nat.mod_lt _ (by decide)))⟩
  rw [capitalHex, List.mem_map]
  rintro ⟨c, hc, hreturn⟩
  rw [Text.hexDigits, List.mem_append, List.mem_replicate] at hc
  rcases hc with ⟨-, rfl⟩ | hc
  · exact absurd hreturn (by decide)
  · exact hdigits n c hc hreturn

theorem return_not_mem_escapeOf? {c : Char} {e : List Char} (h : escapeOf? c = some e) : '\r' ∉ e := by
  have hback : '\r' ≠ '\\' := by decide
  rw [escapeOf?] at h
  split at h
  · next found hfound =>
    have hletters : ∀ e ∈ escapeLetters, '\r' ≠ e.2 := by decide
    cases h
    exact List.not_mem_cons_of_ne_of_not_mem hback
      (List.not_mem_cons_of_ne_of_not_mem (hletters found (List.mem_of_find?_eq_some hfound))
        List.not_mem_nil)
  · have hcode : ∀ (letter : Char) (width : Nat), '\r' ≠ letter →
        '\r' ∉ '\\' :: letter :: capitalHex width c.toNat := fun letter width hletter =>
      List.not_mem_cons_of_ne_of_not_mem hback
        (List.not_mem_cons_of_ne_of_not_mem hletter (return_not_mem_capitalHex _ _))
    split at h
    · cases h
    · split at h
      · cases h
        exact hcode 'x' 2 (by decide)
      · split at h
        · cases h
          exact hcode 'u' 4 (by decide)
        · cases h
          exact hcode 'U' 8 (by decide)

/-- A carriage return has an escape. -/
theorem ne_return_of_escapeOf? {c : Char} (h : escapeOf? c = none) : '\r' ≠ c := by
  rintro rfl
  exact absurd h (by decide)

theorem return_not_mem_guardSpace (c : Option Char) : '\r' ∉ guardSpace c := by
  rw [guardSpace]
  split
  · decide
  · exact List.not_mem_nil

/-- Between double quotes, a carriage return is written by its escape. -/
theorem return_not_mem_writeEscaped (indent : Nat) (split first : Bool) (column : Nat)
    {pending : List Char} (hpending : '\r' ∉ pending) (s : List Char) :
    '\r' ∉ writeEscaped indent split first column pending s := by
  have hback : '\r' ∉ '\\' :: newLine indent :=
    List.not_mem_cons_of_ne_of_not_mem (by decide) (return_not_mem_newLine indent)
  induction s generalizing first column pending with
  | nil => rwa [writeEscaped, List.mem_reverse]
  | cons c rest ih =>
    have hreverse : '\r' ∉ pending.reverse := by rwa [List.mem_reverse]
    rw [writeEscaped]
    split
    · next e he =>
      have hwritten := List.not_mem_append hreverse (return_not_mem_escapeOf? he)
      dsimp only
      split
      · exact List.not_mem_append
          (List.not_mem_append (List.not_mem_append hwritten hback) (return_not_mem_guardSpace _))
          (ih _ _ List.not_mem_nil)
      · exact List.not_mem_append hwritten (ih _ _ List.not_mem_nil)
    · next he =>
      have hc := ne_return_of_escapeOf? he
      dsimp only
      split
      · exact List.not_mem_append
          (List.not_mem_append (List.not_mem_append hreverse hback) (return_not_mem_guardSpace _))
          (ih _ _ (List.not_mem_cons_of_ne_of_not_mem hc List.not_mem_nil))
      · exact ih _ _ (List.not_mem_cons_of_ne_of_not_mem hc hpending)

/-! ## Scalars -/

theorem return_not_mem_of_canBePlain {s : List Char} (h : canBePlain s = true) : '\r' ∉ s := by
  simp only [canBePlain, Bool.and_eq_true, List.all_eq_true] at h
  exact fun hmem => absurd (h.1.1.1.1.1.2 _ hmem) (by decide)

theorem return_not_mem_of_canBeSingle {s : List Char} (h : canBeSingle s = true) : '\r' ∉ s := by
  simp only [canBeSingle, Bool.and_eq_true, List.all_eq_true] at h
  exact fun hmem => absurd (h.1 _ hmem) (by decide)

theorem return_not_mem_doubleQuotes {s : List Char} (h : '\r' ∉ s) : '\r' ∉ doubleQuotes s := by
  rw [doubleQuotes, List.mem_flatMap]
  rintro ⟨c, hc, hmem⟩
  split at hmem
  · exact absurd hmem (by decide)
  · exact h (List.mem_singleton.1 hmem ▸ hc)

theorem return_not_mem_writeText (indent : Nat) (split : Bool) (column : Nat) (s : List Char) :
    '\r' ∉ writeText indent split column s := by
  rw [writeText]
  split
  · next h =>
    exact return_not_mem_writeRuns _ _ _ _ fun cs hcs hmem =>
      return_not_mem_of_canBePlain h (mem_of_mem_runsOf hcs hmem)
  · split
    · next h =>
      have hquotes := return_not_mem_doubleQuotes (return_not_mem_of_canBeSingle h)
      refine List.not_mem_append (List.not_mem_cons_of_ne_of_not_mem (by decide) ?_) (by decide)
      exact return_not_mem_writeRuns _ _ _ _ fun cs hcs hmem => hquotes (mem_of_mem_runsOf hcs hmem)
    · refine List.not_mem_append (List.not_mem_cons_of_ne_of_not_mem (by decide) ?_) (by decide)
      exact return_not_mem_writeEscaped _ _ _ _ List.not_mem_nil s

theorem return_not_mem_toString (n : Int) : '\r' ∉ (toString n).toList := by
  have hnat : ∀ m : Nat, '\r' ∉ m.repr.toList := by
    intro m hmem
    rw [Nat.toList_repr] at hmem
    exact absurd (Nat.isDigit_of_mem_toDigits (by decide) (by decide) hmem) (by decide)
  rw [Int.toString_eq_repr, Int.repr_eq_if]
  split
  · exact hnat _
  · rw [String.toList_append]
    exact List.not_mem_append (by decide) (hnat _)

theorem return_not_mem_writeScalar (indent : Nat) (split : Bool) (column : Nat) {s : Scalar}
    (h : s.isElementary = true) : '\r' ∉ writeScalar indent split column s := by
  cases s with
  | null =>
    show '\r' ∉ "null".toList
    decide
  | bool b =>
    show '\r' ∉ (if b then "true" else "false").toList
    cases b <;> decide
  | int n => exact return_not_mem_toString n
  | float x => cases h
  | str s => exact return_not_mem_writeText _ _ _ _
  | time text => cases h

/-! ## Collections -/

theorem return_not_mem_onLines (indent : Nat) {pieces : List (List Char)}
    (h : ∀ piece ∈ pieces, '\r' ∉ piece) : '\r' ∉ onLines indent pieces := by
  rw [onLines]
  induction pieces with
  | nil => exact List.not_mem_nil
  | cons piece rest ih =>
    rw [List.forall_mem_cons] at h
    cases rest with
    | nil =>
      rw [List.intercalate_singleton]
      exact h.1
    | cons next rest =>
      rw [List.intercalate_cons_cons]
      exact List.not_mem_append (List.not_mem_append h.1 (return_not_mem_newLine indent)) (ih h.2)

mutual

theorem return_not_mem_writeValue (indent column : Nat) :
    (v : Value) → v.Elementary → '\r' ∉ writeValue indent column v
  | .scalar s, .scalar h => by
    rw [writeValue]
    exact List.not_mem_cons_of_ne_of_not_mem (by decide) (return_not_mem_writeScalar _ _ _ h)
  | .list items, .list hitems => by
    rw [writeValue]
    split
    · decide
    · exact List.not_mem_append (return_not_mem_newLine _)
        (return_not_mem_onLines _ (return_not_mem_writeItems _ items hitems))
  | .map es, .map hkeys hvalues => by
    rw [writeValue]
    split
    · decide
    · exact List.not_mem_append (return_not_mem_newLine _)
        (return_not_mem_onLines _ (return_not_mem_writeEntries _ es hkeys hvalues))

theorem return_not_mem_writeInline (indent : Nat) :
    (v : Value) → v.Elementary → '\r' ∉ writeInline indent v
  | .scalar s, .scalar h => by
    rw [writeInline]
    exact List.not_mem_cons_of_ne_of_not_mem (by decide) (return_not_mem_writeScalar _ _ _ h)
  | .list items, .list hitems => by
    rw [writeInline]
    split
    · decide
    · exact List.not_mem_cons_of_ne_of_not_mem (by decide)
        (return_not_mem_onLines _ (return_not_mem_writeItems _ items hitems))
  | .map es, .map hkeys hvalues => by
    rw [writeInline]
    split
    · decide
    · exact List.not_mem_cons_of_ne_of_not_mem (by decide)
        (return_not_mem_onLines _ (return_not_mem_writeEntries _ es hkeys hvalues))

theorem return_not_mem_writeItems (indent : Nat) :
    (items : List Value) → (∀ v ∈ items, v.Elementary) →
      ∀ piece ∈ writeItems indent items, '\r' ∉ piece
  | [], _ => fun _ h => absurd h List.not_mem_nil
  | v :: rest, h => by
    rw [List.forall_mem_cons] at h
    rw [writeItems, List.forall_mem_cons]
    exact ⟨List.not_mem_cons_of_ne_of_not_mem (by decide) (return_not_mem_writeInline indent v h.1),
      return_not_mem_writeItems indent rest h.2⟩

theorem return_not_mem_writeEntries (indent : Nat) :
    (es : List (Scalar × Value)) → (∀ e ∈ es, e.1.isElementary = true) →
      (∀ e ∈ es, e.2.Elementary) → ∀ piece ∈ writeEntries indent es, '\r' ∉ piece
  | [], _, _ => fun _ h => absurd h List.not_mem_nil
  | (k, v) :: rest, hkeys, hvalues => by
    rw [List.forall_mem_cons] at hkeys hvalues
    rw [writeEntries, List.forall_mem_cons]
    refine ⟨?_, return_not_mem_writeEntries indent rest hkeys.2 hvalues.2⟩
    split
    · exact List.not_mem_append (return_not_mem_writeScalar _ _ _ hkeys.1)
        (List.not_mem_cons_of_ne_of_not_mem (by decide)
          (return_not_mem_writeValue _ _ v hvalues.1))
    · refine List.not_mem_append (List.not_mem_append ?_ (return_not_mem_newLine _)) ?_
      · exact List.not_mem_cons_of_ne_of_not_mem (by decide)
          (List.not_mem_cons_of_ne_of_not_mem (by decide) (return_not_mem_writeScalar _ _ _ hkeys.1))
      · exact List.not_mem_cons_of_ne_of_not_mem (by decide)
          (return_not_mem_writeInline indent v hvalues.1)

end

/-- **A document is written without carriage returns.** -/
theorem return_not_mem_write {es : Entries} (h : (Value.map es).Elementary) :
    '\r' ∉ (write es).toList := by
  cases h with
  | map hkeys hvalues =>
    rw [write, String.toList_ofList]
    refine List.not_mem_append ?_ (by decide)
    split
    · decide
    · exact return_not_mem_onLines 0 (return_not_mem_writeEntries 0 es hkeys hvalues)

/-- A document that was written keeps its text when line breaks are unified. -/
theorem unifyBreaks_write {es : Entries} (h : (Value.map es).Elementary) :
    Text.unifyBreaks (write es).toList = (write es).toList :=
  Text.unifyBreaks_eq_self (return_not_mem_write h)

end Yaml

end DocTree
