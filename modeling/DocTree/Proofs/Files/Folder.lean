import DocTree.Files.Folder
import DocTree.Proofs.Fault
import Mathlib.Data.List.Infix

/-!
# Written files

A file that is written has the text that was written (`textAt?_setAt_self`), and every other file keeps
its own (`textAt?_setAt_of_ne`). Writing makes no folder, since the folder of a file has to be there
before, so names lead to the same places as before (`locate_setAt`), and the file is found again under its
name (`read_of_write`).
-/

namespace DocTree.Folder

variable {d d' : Folder} {p q : Place} {path text : String}

/-! ## Texts -/

/-- Setting a text moves no file. -/
theorem fst_setText (p : Place) (text : String) (f : Place × String) :
    (if f.1 == p then (p, text) else f).1 = f.1 := by
  cases hf : f.1 == p
  · rw [if_neg Bool.false_ne_true]
  · rw [if_pos rfl, eq_of_beq hf]

/-- Where a text is set among the files, it is found there. -/
theorem find?_setText (files : List (Place × String)) (p q : Place) (text : String) :
    (files.map fun f => if f.1 == p then (p, text) else f).find? (fun f => f.1 == q) =
      (files.find? fun f => f.1 == q).map fun f => if f.1 == p then (p, text) else f := by
  rw [List.find?_map, Function.comp_def]
  simp only [fst_setText]

@[simp] theorem textAt?_setAt_self (d : Folder) (p : Place) (text : String) :
    (d.setAt p text).textAt? p = some text := by
  rw [setAt]
  cases hfound : d.files.find? fun f => f.1 == p with
  | none =>
    have hnone : d.textAt? p = none := by rw [textAt?, hfound, Option.map_none]
    rw [hnone, if_neg (by decide), textAt?, List.find?_append, hfound, Option.none_or,
      List.find?_singleton, beq_self_eq_true]
    rfl
  | some f =>
    have hplace : (f.1 == p) = true := by simpa using List.find?_some hfound
    have hsome : d.textAt? p = some f.2 := by rw [textAt?, hfound, Option.map_some]
    rw [hsome, Option.isSome_some, if_pos rfl, textAt?, find?_setText, hfound, Option.map_some,
      Option.map_some, hplace, if_pos rfl]

/-- The folders around a folder are there. -/
theorem hasFolder_of_prefix (h : d.hasFolder p = true) (hq : q <+: p) : d.hasFolder q = true := by
  simp only [hasFolder, Bool.or_eq_true, List.any_eq_true, Bool.and_eq_true, List.isPrefixOf_iff_prefix,
    decide_eq_true_eq] at h ⊢
  rcases h with (h | ⟨m, hm, h⟩) | ⟨f, hf, h, hlen⟩
  · exact .inl (.inl (hq.trans h))
  · exact .inl (.inr ⟨m, hm, hq.trans h⟩)
  · exact .inr ⟨f, hf, hq.trans h, Nat.lt_of_le_of_lt hq.length_le hlen⟩

/-- Setting a file in a folder makes no folder. -/
theorem hasFolder_setAt (h : d.hasFolder p.dropLast = true) (q : Place) :
    (d.setAt p text).hasFolder q = d.hasFolder q := by
  rw [setAt]
  split
  · rw [hasFolder, hasFolder, List.any_map, Function.comp_def]
    simp only [fst_setText]
  · rw [hasFolder, hasFolder, List.any_append, ← Bool.or_assoc]
    cases hin : q.isPrefixOf p && decide (q.length < p.length) with
    | false => simp only [List.any_cons, List.any_nil, hin, Bool.or_false]
    | true =>
      -- a folder on the way to the file is a folder on the way to the folder of the file
      rw [Bool.and_eq_true, List.isPrefixOf_iff_prefix, decide_eq_true_eq] at hin
      have hway : q <+: p.dropLast := by
        rw [List.dropLast_eq_take, List.prefix_take_iff]
        exact ⟨hin.1, Nat.le_sub_one_of_lt hin.2⟩
      have hq : d.hasFolder q = true := hasFolder_of_prefix h hway
      rw [hasFolder] at hq
      rw [hq, Bool.true_or]

/-! ## Names -/

/-- Where the same folders are, names lead to the same places. -/
theorem follow_eq_ok_iff (h : ∀ q, d'.hasFolder q = d.hasFolder q) {parts : List (List Char)}
    {r : Place} : d'.follow path p parts = .ok r ↔ d.follow path p parts = .ok r := by
  induction parts generalizing p with
  | nil => rfl
  | cons part rest ih =>
    rw [follow, follow]
    split
    · exact ih
    · simp only [h]
      split
      · exact ih
      · constructor
        · intro hfault
          split at hfault <;> cases hfault
        · intro hfault
          split at hfault <;> cases hfault

@[simp] theorem home_setAt (d : Folder) (p : Place) (text : String) : (d.setAt p text).home = d.home := by
  rw [setAt]
  split <;> rfl

/-- Where a file is set in a folder, names lead to the same places as before. -/
theorem locate_setAt (h : d.hasFolder p.dropLast = true) {name : String} {r : Place} :
    (d.setAt p text).locate name = .ok r ↔ d.locate name = .ok r := by
  rw [locate, locate, origin, origin, home_setAt]
  exact follow_eq_ok_iff (hasFolder_setAt h)

/-- A file is written where its name leads, if its folder is there and it is not a folder itself. -/
theorem write_eq_ok_iff : d.write path text = .ok d' ↔
    ∃ p, d.locate path = .ok p ∧ d.hasFolder p = false ∧ d.hasFolder p.dropLast = true ∧
      d' = d.setAt p text := by
  rw [write, bind_eq_ok_iff]
  refine exists_congr fun p => and_congr_right fun _ => ?_
  cases hp : d.hasFolder p with
  | true =>
    rw [if_pos rfl]
    constructor
    · intro h
      cases h
    · rintro ⟨h, -⟩
      cases h
  | false =>
    rw [if_neg Bool.false_ne_true]
    cases hparent : d.hasFolder p.dropLast with
    | true =>
      rw [if_pos rfl, Except.ok.injEq, eq_comm]
      exact ⟨fun h => ⟨rfl, rfl, h⟩, fun h => h.2.2⟩
    | false =>
      rw [if_neg Bool.false_ne_true]
      constructor
      · intro h
        split at h <;> cases h
      · rintro ⟨-, h, -⟩
        cases h

/-- **A file that was written is read back.** -/
theorem read_of_write (h : d.write path text = .ok d') : d'.read path = .ok text := by
  obtain ⟨p, hp, -, hparent, rfl⟩ := write_eq_ok_iff.1 h
  rw [read, bind_eq_ok_iff]
  exact ⟨p, (locate_setAt hparent).2 hp, by rw [textAt?_setAt_self]⟩

/-- A file that was written is there. -/
theorem has_of_write (h : d.write path text = .ok d') : d'.has path = true := by
  obtain ⟨p, hp, -, hparent, rfl⟩ := write_eq_ok_iff.1 h
  rw [has, isFile, (locate_setAt hparent).2 hp]
  dsimp only
  rw [textAt?_setAt_self]
  rfl

end DocTree.Folder
