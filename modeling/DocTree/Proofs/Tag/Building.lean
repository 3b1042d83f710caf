import DocTree.Proofs.Tag.Declaration
import DocTree.Proofs.Tag.Version

/-!
# Annotations and the first word of their text

Types, references and versions are to be read off the first word of a text (`HeadedBy`). What is read is
the head of the text, which ends at a space. So a squeezed text is always read by its first word, and a
text as it was written is read like that exactly if its first blank is a space, or if it is read for a
version and its first word is none (`build_headedBy_iff`). A text whose first line has only one word is
read wrongly (`build_beyond_first_line`).
-/

namespace DocTree

open Text (isBlank firstWord SpacedHead takeWhile_run)

/-! ## Names -/

theorem bareName_bareName (name : String) : bareName (bareName name) = bareName name := by
  rw [bareName, bareName, String.toList_ofList, List.dropWhile_idempotent]

theorem Registry.kindOf_bareName (r : Registry) (name : String) :
    r.kindOf (bareName name) = r.kindOf name := by
  rw [kindOf, kindOf, lookupName, lookupName, bareName_bareName]

/-! ## Details of a word -/

/-- The detail is what its kind takes from the word: the distinct types in it, the word as a reference,
or the word as a version, which it may fail to be. -/
inductive HeadedBy (w : List Char) : TagDetail → Prop where
  | typed : HeadedBy w (.typed ((((w.splitOn '|').filter (· ≠ [])).map String.ofList).eraseDups))
  | reference : HeadedBy w (.reference (String.ofList w))
  | version (h : VersionForm w) : HeadedBy w (.version (String.ofList w))
  | unversioned (h : ¬VersionForm w) : HeadedBy w (.version "")

section Details

variable {w : List Char}

theorem headedBy_typed_iff {types : List String} : HeadedBy w (.typed types) ↔
    types = ((typesOfWord w).map String.ofList).eraseDups := by
  rw [typesOfWord_eq]
  constructor
  · rintro ⟨⟩
    rfl
  · rintro rfl
    exact .typed

theorem headedBy_reference_iff {target : String} :
    HeadedBy w (.reference target) ↔ target = String.ofList w := by
  constructor
  · rintro ⟨⟩
    rfl
  · rintro rfl
    exact .reference

theorem headedBy_version_iff {number : String} : HeadedBy w (.version number) ↔
    VersionForm w ∧ number = String.ofList w ∨ ¬VersionForm w ∧ number = "" := by
  constructor
  · intro h
    cases h with
    | version h => exact .inl ⟨h, rfl⟩
    | unversioned h => exact .inr ⟨h, rfl⟩
  · rintro (⟨h, rfl⟩ | ⟨h, rfl⟩)
    · exact .version h
    · exact .unversioned h

/-- There is one such detail of each kind. -/
theorem HeadedBy.unique {d d' : TagDetail} (h : HeadedBy w d) (h' : HeadedBy w d')
    (hkind : d.kind = d'.kind) : d = d' := by
  cases h <;> cases h' <;> first | rfl | contradiction

end Details

/-! ## The head of a text -/

section Heads

variable {s : List Char}

theorem isBlank_firstWord (s : List Char) : ∀ c ∈ firstWord s, isBlank c = false := by
  intro c hc
  rw [Text.firstWord_eq] at hc
  simpa using List.all_eq_true.1 List.all_takeWhile c hc

theorem splitHead_trim (s : List Char) : Text.splitHead (Text.trim s) = Text.splitHead s := by
  rw [Text.splitHead, Text.splitHead, Text.trim_trim]

theorem head_eq_firstWord_iff : (Text.splitHead s).1 = firstWord s ↔ SpacedHead s := by
  obtain ⟨tail, hhead, htail, -⟩ := Text.exists_head_eq s
  rw [hhead, List.append_right_eq_self, htail]

/-- A head that goes on behind the first word has a blank. -/
theorem exists_blank_of_not_spacedHead (h : ¬SpacedHead s) :
    ∃ c ∈ (Text.splitHead s).1, isBlank c = true := by
  obtain ⟨tail, hhead, htail, hblank⟩ := Text.exists_head_eq s
  obtain ⟨c, tail, rfl⟩ := List.exists_cons_of_ne_nil (mt htail.1 h)
  exact ⟨c, hhead ▸ List.mem_append_right _ List.mem_cons_self, hblank c rfl⟩

/-- Words that give the same distinct types have the same characters but for bars. -/
theorem mem_of_types_eq {v w : List Char}
    (h : ((typesOfWord v).map String.ofList).eraseDups = ((typesOfWord w).map String.ofList).eraseDups)
    {c : Char} (hc : c ∈ v) (hbar : c ≠ '|') : c ∈ w := by
  obtain ⟨t, ht, hct⟩ := Text.exists_mem_pieces (p := (· == '|')) hc (by simpa using hbar)
  have hmem : String.ofList t ∈ ((typesOfWord v).map String.ofList).eraseDups :=
    List.mem_eraseDups.2 (List.mem_map_of_mem ht)
  rw [h, List.mem_eraseDups, List.mem_map] at hmem
  obtain ⟨u, hu, htu⟩ := hmem
  rw [String.ofList_inj] at htu
  exact Text.mem_of_mem_pieces (htu ▸ hu) hct

/-- The head of a text is read as a version exactly if the first word is one and nothing but a line feed
follows it in the head. -/
theorem isVersion_head_iff : isVersion (Text.splitHead s).1 = true ↔
    VersionForm (firstWord s) ∧
      ((Text.splitHead s).1 = firstWord s ∨ (Text.splitHead s).1 = firstWord s ++ ['\n']) := by
  rw [isVersion_iff]
  constructor
  · rintro ⟨v, e, hsplit, hform, he⟩
    obtain ⟨tail, hhead, -, hblank⟩ := Text.exists_head_eq s
    -- both the version and the first word end at the first blank of the head
    have hfirst : (Text.splitHead s).1.takeWhile (fun c => !isBlank c) = firstWord s := by
      rw [hhead]
      refine takeWhile_run (fun c hc => ?_) fun c hc => ?_
      · rw [isBlank_firstWord s c hc, Bool.not_false]
      · rw [hblank c hc, Bool.not_true]
    have hversion : (Text.splitHead s).1.takeWhile (fun c => !isBlank c) = v := by
      rw [hsplit]
      refine takeWhile_run (fun c hc => ?_) fun c hc => ?_
      · rw [hform.isBlank c hc, Bool.not_false]
      · rcases he with rfl | rfl
        · exact absurd hc (Option.not_mem_none c)
        · obtain rfl := Option.some.inj hc
          decide
    obtain rfl := hversion.symm.trans hfirst
    rw [hsplit]
    refine ⟨hform, ?_⟩
    rcases he with rfl | rfl
    · exact .inl (List.append_nil _)
    · exact .inr rfl
  · rintro ⟨hform, hhead | hhead⟩
    · exact ⟨_, [], by rw [hhead, List.append_nil], hform, .inl rfl⟩
    · exact ⟨_, ['\n'], hhead, hform, .inr rfl⟩

end Heads

/-! ## Reading -/

theorem headedBy_readText_iff {kind : TagKind} (hkind : kind ∈ [TagKind.typed, .reference, .version])
    (s : List Char) : HeadedBy (firstWord s) (Tag.readText kind (Text.trim s)).2 ↔
      SpacedHead s ∨ kind = .version ∧ ¬VersionForm (firstWord s) := by
  simp only [List.mem_cons, List.not_mem_nil, or_false] at hkind
  rcases hkind with rfl | rfl | rfl
  · have hdetail : (Tag.readText .typed (Text.trim s)).2 =
        .typed ((typesOfWord (Text.splitHead s).1).map String.ofList).eraseDups := by
      rw [← splitHead_trim]
      rfl
    rw [hdetail, headedBy_typed_iff]
    constructor
    · intro h
      by_contra hnot
      obtain ⟨c, hc, hblank⟩ := exists_blank_of_not_spacedHead fun hs => hnot (.inl hs)
      have hbar : c ≠ '|' := by
        rintro rfl
        exact absurd hblank (by decide)
      rw [isBlank_firstWord s c (mem_of_types_eq h hc hbar)] at hblank
      exact Bool.false_ne_true hblank
    · rintro (h | ⟨h, -⟩)
      · rw [head_eq_firstWord_iff.2 h]
      · cases h
  · have hdetail : (Tag.readText .reference (Text.trim s)).2 =
        .reference (String.ofList (Text.splitHead s).1) := by
      rw [← splitHead_trim]
      rfl
    rw [hdetail, headedBy_reference_iff, String.ofList_inj, head_eq_firstWord_iff]
    simp
  · have hdetail : (Tag.readText .version (Text.trim s)).2 = .version
        (if isVersion (Text.splitHead s).1 then String.ofList (Text.splitHead s).1 else "") := by
      rw [← splitHead_trim, Tag.readText]
      dsimp only
      split <;> rfl
    rw [hdetail, headedBy_version_iff]
    by_cases hform : VersionForm (firstWord s)
    · -- the empty text is no version, so the head has to be read, and to be the first word
      have hne : "" ≠ String.ofList (firstWord s) := by
        rw [Ne, eq_comm, String.ofList_eq_empty_iff]
        exact hform.ne_nil
      by_cases hversion : isVersion (Text.splitHead s).1 = true
      · simp [hversion, hform, head_eq_firstWord_iff, String.ofList_inj]
      · have hhead : ¬SpacedHead s := fun h =>
          hversion (isVersion_head_iff.2 ⟨hform, .inl (head_eq_firstWord_iff.2 h)⟩)
        simp [hversion, hform, hne, hhead]
    · have hversion : ¬isVersion (Text.splitHead s).1 = true := fun h =>
        hform (isVersion_head_iff.1 h).1
      simp [hversion, hform]

theorem kind_readText (kind : TagKind) (s : List Char) : (Tag.readText kind s).2.kind = kind := by
  cases kind with
  | binding =>
    rw [Tag.readText]
    dsimp only
    split <;> rfl
  | version =>
    rw [Tag.readText]
    dsimp only
    split <;> rfl
  | _ => rfl

/-- What building makes of a text. -/
theorem build_eq_ok (r : Registry) {name : String} (text : String) (hname : bareName name ≠ "") :
    ∃ content, Tag.build r name text = .ok ⟨bareName name, content,
      (Tag.readText (r.kindOf name) (Text.trim text.toList)).2⟩ := by
  rw [Tag.build]
  dsimp only
  have hne : ¬(bareName name == "") = true := by simpa using hname
  rw [if_neg hne, r.kindOf_bareName]
  exact ⟨_, rfl⟩

namespace Tag

variable {r : Registry} {name text : String} {t : Tag}

/-- What is built has the name without its `@`, and the detail that its kind takes from the text. -/
theorem exists_of_build (h : build r name text = .ok t) : bareName name ≠ "" ∧
    ∃ content, t = ⟨bareName name, content, (readText (r.kindOf name) (Text.trim text.toList)).2⟩ := by
  by_cases hname : bareName name = ""
  · rw [build, hname] at h
    cases h
  · obtain ⟨content, hbuild⟩ := build_eq_ok r text hname
    exact ⟨hname, content, Except.ok.inj (h.symm.trans hbuild)⟩

/-- What is built has the kind that the registry gives to its name. -/
theorem kind_of_build (h : build r name text = .ok t) : t.kind = r.kindOf name := by
  obtain ⟨-, content, rfl⟩ := exists_of_build h
  exact kind_readText _ _

end Tag

theorem firstWord_squeeze (s : List Char) : firstWord (Text.squeeze s) = firstWord s := by
  rw [firstWord, firstWord, Text.words_squeeze]

/-- All blanks of a squeezed text are spaces. -/
theorem spacedHead_squeeze (s : List Char) : SpacedHead (Text.squeeze s) := by
  intro c hc
  rw [Text.trim_squeeze] at hc
  refine (Text.mem_squeeze (List.mem_of_find?_eq_some hc)).resolve_right fun hnot => ?_
  have hblank : isBlank c = true := List.find?_some hc
  rw [hnot] at hblank
  exact Bool.false_ne_true hblank

/-- **Annotations are read by the head of their text.** Where the kind of an annotation takes a type
list, a reference or a version, building it from a squeezed text takes them from the first word. From the
text as it was written they are taken from the first word, and so as from the squeezed text, exactly if
the first blank is a space, or if a version is asked for and the first word is none. -/
theorem build_headedBy_iff (r : Registry) {name : String} (text : String)
    (hname : bareName name ≠ "") (hkind : r.kindOf name ∈ [TagKind.typed, .reference, .version]) :
    ∃ tag tag', Tag.build r name text = .ok tag ∧
      Tag.build r name (String.ofList (Text.squeeze text.toList)) = .ok tag' ∧
      tag.kind = r.kindOf name ∧ tag'.kind = r.kindOf name ∧
      HeadedBy (firstWord text.toList) tag'.detail ∧
      (HeadedBy (firstWord text.toList) tag.detail ↔ SpacedHead text.toList ∨
        r.kindOf name = .version ∧ ¬VersionForm (firstWord text.toList)) ∧
      (tag.detail = tag'.detail ↔ SpacedHead text.toList ∨
        r.kindOf name = .version ∧ ¬VersionForm (firstWord text.toList)) := by
  obtain ⟨content, hbuild⟩ := build_eq_ok r text hname
  obtain ⟨content', hbuild'⟩ :=
    build_eq_ok r (String.ofList (Text.squeeze text.toList)) hname
  have hheaded := headedBy_readText_iff hkind text.toList
  have hheaded' : HeadedBy (firstWord text.toList)
      (Tag.readText (r.kindOf name) (Text.trim (Text.squeeze text.toList))).2 := by
    rw [← firstWord_squeeze]
    exact (headedBy_readText_iff hkind _).2 (.inl (spacedHead_squeeze _))
  rw [String.toList_ofList] at hbuild'
  refine ⟨_, _, hbuild, hbuild', kind_readText _ _, kind_readText _ _, hheaded', hheaded, ?_⟩
  rw [← hheaded]
  constructor
  · rintro (h : (Tag.readText _ _).2 = (Tag.readText _ _).2)
    rw [h]
    exact hheaded'
  · intro h
    exact h.unique hheaded' ((kind_readText _ _).trans (kind_readText _ _).symm)

/-- A version at the end of its line, with a blank before the next line begins. -/
theorem build_headedBy_iff_since :
    bareName "@since" ≠ "" ∧
    Registry.standard.kindOf "@since" ∈ [TagKind.typed, .reference, .version] ∧
    ∃ tag tag', Tag.build .standard "@since" "1.0\n Added." = .ok tag ∧
      Tag.build .standard "@since" (String.ofList (Text.squeeze "1.0\n Added.".toList)) = .ok tag' ∧
      tag.kind = Registry.standard.kindOf "@since" ∧
      tag'.kind = Registry.standard.kindOf "@since" ∧
      HeadedBy (firstWord "1.0\n Added.".toList) tag'.detail ∧
      (HeadedBy (firstWord "1.0\n Added.".toList) tag.detail ↔ SpacedHead "1.0\n Added.".toList ∨
        Registry.standard.kindOf "@since" = .version ∧
          ¬VersionForm (firstWord "1.0\n Added.".toList)) ∧
      (tag.detail = tag'.detail ↔ SpacedHead "1.0\n Added.".toList ∨
        Registry.standard.kindOf "@since" = .version ∧
          ¬VersionForm (firstWord "1.0\n Added.".toList)) :=
  ⟨by decide, by decide, build_headedBy_iff .standard "1.0\n Added." (by decide) (by decide)⟩

/-- **The head may go on behind the first line.** The type of a text whose first line has one word is
read together with the word of the next line, and not as from the squeezed text. -/
theorem build_beyond_first_line :
    ∃ tag tag', Tag.build .standard "return" "int\nThe value." = .ok tag ∧
      Tag.build .standard "return" (String.ofList (Text.squeeze "int\nThe value.".toList)) = .ok tag' ∧
      tag.detail = .typed ["int\nThe"] ∧ tag'.detail = .typed ["int"] ∧
      ¬HeadedBy (firstWord "int\nThe value.".toList) tag.detail := by
  refine ⟨⟨"return", "value.", .typed ["int\nThe"]⟩, ⟨"return", "The value.", .typed ["int"]⟩,
    by decide +kernel, by decide +kernel, rfl, rfl, ?_⟩
  rw [headedBy_typed_iff]
  decide

end DocTree
