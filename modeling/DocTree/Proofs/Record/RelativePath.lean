import DocTree.Proofs.Text.Words
import DocTree.Record.Path

/-!
# Paths below a root

Both separators become slashes, and the slashes at the end of the root are taken off. What is then left
of the root is cut off a path that is this root or goes on behind it with a slash (`Below`), together
with all slashes that follow, and of any other path nothing is cut off (`relativePath_below_root`).

A path is always the bare root, some slashes and what is exported of it, so the cut loses nothing but
slashes. It is by parts of the path and not by characters: `/srv` is no root of `/srv2/a.php`.
-/

namespace DocTree

/-- One of the two characters between the parts of a path. -/
def IsSeparator (c : Char) : Prop := c = '/' ∨ c = '\\'

instance : DecidablePred IsSeparator := fun c => inferInstanceAs (Decidable (c = '/' ∨ c = '\\'))

/-- The path is the root or goes on behind it with a slash. -/
def Below (p r : List Char) : Prop := p = r ∨ r ++ ['/'] <+: p

/-! ## Slashes for separators -/

section Slashed

variable {s : List Char}

theorem slashed_eq (s : List Char) : slashed s = s.map fun c => if c = '\\' then '/' else c := by
  simp only [slashed, beq_iff_eq]

theorem slashed_append (s t : List Char) : slashed (s ++ t) = slashed s ++ slashed t :=
  List.map_append

theorem backslash_not_mem_slashed (s : List Char) : '\\' ∉ slashed s := by
  rw [slashed_eq, List.mem_map]
  rintro ⟨c, -, hc⟩
  split at hc
  · exact absurd hc (by decide)
  · next hne => exact hne hc

/-- Separators of either kind are as many slashes. -/
theorem slashed_separators (h : ∀ c ∈ s, IsSeparator c) :
    slashed s = List.replicate s.length '/' := by
  rw [List.eq_replicate_iff]
  refine ⟨List.length_map _, fun b hb => ?_⟩
  rw [slashed_eq, List.mem_map] at hb
  obtain ⟨c, hc, rfl⟩ := hb
  rcases h c hc with rfl | rfl
  · rfl
  · rfl

/-- A slash at the start was a separator. -/
theorem head?_slashed_ne (h : ∀ c ∈ s.head?, ¬IsSeparator c) : (slashed s).head? ≠ some '/' := by
  rw [slashed_eq, List.head?_map, Ne, Option.map_eq_some_iff]
  rintro ⟨c, hc, hslash⟩
  refine h c hc ?_
  split at hslash
  · next hback => exact .inr hback
  · exact .inl hslash

end Slashed

/-! ## Slashes that are dropped -/

/-- What is dropped from the start are slashes. -/
theorem exists_replicate_append_dropWhile (s : List Char) :
    ∃ k, s = List.replicate k '/' ++ s.dropWhile (· == '/') := by
  refine ⟨(s.takeWhile (· == '/')).length, ?_⟩
  have hrun : s.takeWhile (· == '/') = List.replicate (s.takeWhile (· == '/')).length '/' :=
    List.eq_replicate_of_mem fun c hc => by simpa using List.mem_takeWhile_imp hc
  rw [← hrun, List.takeWhile_append_dropWhile]

theorem head?_dropWhile_slash (s : List Char) : (s.dropWhile (· == '/')).head? ≠ some '/' := by
  intro h
  have hnot := List.head?_dropWhile_not (· == '/') s
  rw [h] at hnot
  exact absurd hnot (by decide)

/-- Slashes in front of what does not start with one are all dropped. -/
theorem dropWhile_replicate_append {s : List Char} (h : s.head? ≠ some '/') (k : Nat) :
    (List.replicate k '/' ++ s).dropWhile (· == '/') = s := by
  refine Text.dropWhile_run (fun c hc => beq_iff_eq.2 (List.eq_of_mem_replicate hc)) fun c hc => ?_
  rw [beq_eq_false_iff_ne]
  rintro rfl
  exact h hc

/-- A root is its bare form with slashes behind it. -/
theorem exists_slashed_root (root : List Char) :
    ∃ k, slashed root = bareRoot root ++ List.replicate k '/' := by
  obtain ⟨k, hk⟩ := exists_replicate_append_dropWhile (slashed root).reverse
  refine ⟨k, ?_⟩
  rw [bareRoot, ← List.reverse_replicate, ← List.reverse_append, ← hk, List.reverse_reverse]

/-! ## The part of a path below a root -/

section Relative

variable {path root : List Char}

theorem liesBelow_iff {p r : List Char} : liesBelow p r = true ↔ Below p r := by
  rw [liesBelow, Bool.or_eq_true, beq_iff_eq, List.isPrefixOf_iff_prefix, Below]

theorem relativeChars_of_no_root (h : bareRoot root = []) :
    relativeChars path root = (slashed path).dropWhile (· == '/') := by
  rw [relativeChars]
  exact if_pos (List.isEmpty_iff.2 h)

theorem relativeChars_of_below (hroot : bareRoot root ≠ [])
    (h : Below (slashed path) (bareRoot root)) : relativeChars path root =
      ((slashed path).drop (bareRoot root).length).dropWhile (· == '/') := by
  rw [relativeChars, if_neg (mt List.isEmpty_iff.1 hroot), if_pos (liesBelow_iff.2 h)]

theorem relativeChars_of_not_below (hroot : bareRoot root ≠ [])
    (h : ¬Below (slashed path) (bareRoot root)) : relativeChars path root = slashed path := by
  rw [relativeChars, if_neg (mt List.isEmpty_iff.1 hroot), if_neg (mt liesBelow_iff.1 h)]

theorem Below.isPrefix {p r : List Char} (h : Below p r) : r <+: p := by
  rcases h with rfl | h
  · exact List.prefix_rfl
  · exact (List.prefix_append r ['/']).trans h

/-- Below the root, the path is the bare root, slashes and the part below the root. -/
theorem exists_eq_of_below (h : Below (slashed path) (bareRoot root)) :
    (relativeChars path root).head? ≠ some '/' ∧
      ∃ k, slashed path = bareRoot root ++ List.replicate k '/' ++ relativeChars path root := by
  by_cases hroot : bareRoot root = []
  · rw [relativeChars_of_no_root hroot, hroot]
    exact ⟨head?_dropWhile_slash _, exists_replicate_append_dropWhile _⟩
  · rw [relativeChars_of_below hroot h]
    obtain ⟨rest, hrest⟩ := h.isPrefix
    rw [← hrest, List.drop_left]
    refine ⟨head?_dropWhile_slash rest, ?_⟩
    obtain ⟨k, hk⟩ := exists_replicate_append_dropWhile rest
    exact ⟨k, by rw [List.append_assoc, ← hk]⟩

/-- Behind the root and separators, a path is exported whole. -/
theorem relativeChars_append (hroot : bareRoot root ≠ []) {seps q : List Char} (hne : seps ≠ [])
    (hseps : ∀ c ∈ seps, IsSeparator c) (hq : ∀ c ∈ q.head?, ¬IsSeparator c) :
    relativeChars (root ++ seps ++ q) root = slashed q := by
  obtain ⟨k, hk⟩ := exists_slashed_root root
  have hpath : slashed (root ++ seps ++ q) =
      bareRoot root ++ (List.replicate (k + seps.length) '/' ++ slashed q) := by
    rw [slashed_append, slashed_append, hk, slashed_separators hseps, List.replicate_add]
    simp only [List.append_assoc]
  have hbelow : Below (slashed (root ++ seps ++ q)) (bareRoot root) := by
    -- there is at least one slash
    obtain ⟨n, hn⟩ := Nat.exists_eq_add_one.2 (List.length_pos_iff.2 hne)
    rw [hpath, hn, ← Nat.add_assoc, List.replicate_succ]
    exact .inr ⟨List.replicate (k + n) '/' ++ slashed q, by simp only [List.append_assoc]; rfl⟩
  rw [relativeChars_of_below hroot hbelow, hpath, List.drop_left,
    dropWhile_replicate_append (head?_slashed_ne hq)]

theorem backslash_not_mem_relativeChars (path root : List Char) :
    '\\' ∉ relativeChars path root := by
  refine fun h => backslash_not_mem_slashed path ?_
  by_cases hroot : bareRoot root = []
  · rw [relativeChars_of_no_root hroot] at h
    exact (List.dropWhile_sublist _).mem h
  · by_cases hbelow : Below (slashed path) (bareRoot root)
    · rw [relativeChars_of_below hroot hbelow] at h
      exact List.mem_of_mem_drop ((List.dropWhile_sublist _).mem h)
    · rwa [relativeChars_of_not_below hroot hbelow] at h

end Relative

/-- **Only a root is cut off a path.** Let `p` be the path and `r` the root with slashes for
backslashes, `r` without the slashes at its end. No backslash is left. Without a root, the slashes at
the start are dropped. Below the root, the path is the root, slashes and what is left of it, which does
not start with a slash. Any other path is kept. So what stands behind the root and separators is
exported whole, and a root that ends within a part of the path is not cut off. -/
theorem relativePath_below_root (path root : String) :
    let withSlashes := List.map fun c => if c = '\\' then '/' else c
    let p := withSlashes path.toList
    let r := (withSlashes root.toList).rdropWhile (· == '/')
    let s := (relativePath path root).toList
    '\\' ∉ s ∧
    (r = [] → s = p.dropWhile (· == '/')) ∧
    (Below p r → s.head? ≠ some '/' ∧ ∃ k, p = r ++ List.replicate k '/' ++ s) ∧
    (r ≠ [] → ¬Below p r → s = p) ∧
    (r ≠ [] → ∀ seps q : String, seps ≠ "" → (∀ c ∈ seps.toList, IsSeparator c) →
      (∀ c ∈ q.toList.head?, ¬IsSeparator c) →
      (relativePath (root ++ seps ++ q) root).toList = withSlashes q.toList) ∧
    (r ≠ [] → ∀ c rest, c ≠ '/' → p = r ++ c :: rest → s = p) := by
  intro withSlashes p r s
  have hp : slashed path.toList = p := slashed_eq _
  have hr : bareRoot root.toList = r := congrArg (List.rdropWhile _) (slashed_eq _)
  have hs : relativeChars path.toList root.toList = s := String.toList_ofList.symm
  rw [← hp, ← hr, ← hs]
  have houtside : bareRoot root.toList ≠ [] →
      ¬Below (slashed path.toList) (bareRoot root.toList) →
      relativeChars path.toList root.toList = slashed path.toList := relativeChars_of_not_below
  refine ⟨backslash_not_mem_relativeChars _ _, relativeChars_of_no_root, exists_eq_of_below, houtside,
    fun hroot seps q hne hseps hq => ?_, fun hroot c rest hc hpath => houtside hroot ?_⟩
  · rw [relativePath, String.toList_ofList, String.toList_append, String.toList_append]
    exact (relativeChars_append hroot (by simpa using hne) hseps hq).trans (slashed_eq _)
  · rw [hpath]
    rintro (h | h)
    · exact absurd (List.append_right_eq_self.1 h) (List.cons_ne_nil c rest)
    · rw [List.prefix_append_right_inj, List.singleton_prefix_cons_iff] at h
      exact hc h.symm

/-- Separators of both kinds behind the root and in the path, and a sibling of the root. -/
theorem relativePath_below_root_samples :
    (relativePath ("C:/src\\" ++ "\\/" ++ "a\\b.php") "C:/src\\").toList = "a/b.php".toList ∧
      (relativePath "/srv2/a.php" "/srv/").toList = "/srv2/a.php".toList := by
  obtain ⟨-, -, -, -, hwhole, -⟩ := relativePath_below_root "" "C:/src\\"
  obtain ⟨-, -, -, -, -, hsibling⟩ := relativePath_below_root "/srv2/a.php" "/srv/"
  have hfirst : ∀ c ∈ "a\\b.php".toList.head?, ¬IsSeparator c := by
    intro c hc
    obtain rfl : 'a' = c := by simpa using hc
    decide
  have hpath := hwhole (by decide +kernel) "\\/" "a\\b.php" (by decide +kernel) (by decide +kernel) hfirst
  have hkept := hsibling (by decide +kernel) '2' "/a.php".toList (by decide) (by decide +kernel)
  exact ⟨hpath.trans (by decide +kernel), hkept.trans (by decide +kernel)⟩

end DocTree
