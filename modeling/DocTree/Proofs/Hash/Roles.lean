import DocTree.Proofs.Hash.Lexing

/-!
# The role of each character

A reader who goes through a hash from left to right knows of each character whether it may be structure.
A backslash before a brace is dropped and makes the brace text, and from `{@` to the next closing brace
everything is text; what is left is *plain*. `roles` says so of a text without cutting it into lexemes:
the reader looks one character ahead and remembers only what it is in the middle of.

The characters of a lexeme have the roles that the lexeme gives them, whatever stands before it and
however much of what follows it is read (`First.roles_append`).
-/

namespace DocTree.Hash

/-! ## Roles -/

/-- What a reader takes a character for. -/
inductive Role where
  /-- A backslash before a brace. -/
  | backslash
  /-- A brace behind such a backslash. -/
  | escaped
  /-- A character of an inline annotation, its braces among them. -/
  | inline
  /-- Any other character. -/
  | plain
  deriving DecidableEq, Repr

/-- What a reader is in the middle of. -/
inductive Inside where
  | nothing
  | escape
  | inline

/-- The roles of the characters that a reader has before it. -/
def rolesInside : Inside → List Char → List Role
  | _, [] => []
  | .escape, _ :: rest => .escaped :: rolesInside .nothing rest
  | .inline, c :: rest => .inline :: rolesInside (if c = '}' then .nothing else .inline) rest
  | .nothing, c :: rest =>
    if c = '\\' ∧ rest.head?.any isBrace = true then .backslash :: rolesInside .escape rest
    else if c = '{' ∧ rest.head? = some '@' then .inline :: rolesInside .inline rest
    else .plain :: rolesInside .nothing rest

/-- The roles of the characters of a text, in order. -/
def roles (text : List Char) : List Role := rolesInside .nothing text

/-- The text for which a stretch of text stands: the stretch without the backslashes before braces. -/
def unescape (s : List Char) : List Char :=
  ((s.zip (roles s)).filter fun p => p.2 != .backslash).map (·.1)

@[simp] theorem roles_nil : roles [] = [] := rfl

theorem length_rolesInside (i : Inside) (s : List Char) : (rolesInside i s).length = s.length := by
  induction s generalizing i with
  | nil => cases i <;> rfl
  | cons c rest ih =>
    cases i with
    | escape => rw [rolesInside, List.length_cons, ih, List.length_cons]
    | inline => rw [rolesInside, List.length_cons, ih, List.length_cons]
    | nothing =>
      rw [rolesInside]
      split
      · rw [List.length_cons, ih, List.length_cons]
      · split
        · rw [List.length_cons, ih, List.length_cons]
        · rw [List.length_cons, ih, List.length_cons]

/-- Every character has a role. -/
theorem length_roles (s : List Char) : (roles s).length = s.length := length_rolesInside .nothing s

/-- A character is plain if it starts neither an escape nor an inline annotation. -/
theorem roles_plain {c : Char} {rest : List Char}
    (hescape : c = '\\' → ∀ d, rest.head? = some d → isBrace d = false)
    (hopen : c = '{' → rest.head? ≠ some '@') : roles (c :: rest) = .plain :: roles rest := by
  have hback : ¬(c = '\\' ∧ rest.head?.any isBrace = true) := by
    rintro ⟨hc, hany⟩
    obtain ⟨d, hd, hbrace⟩ := (Option.any_eq_true _ _).1 hany
    rw [hescape hc d hd] at hbrace
    exact Bool.false_ne_true hbrace
  rw [roles, rolesInside, if_neg hback, if_neg fun h => hopen h.1 h.2]
  rfl

/-- The characters of a name are plain. -/
theorem roles_name {name : List Char} (hname : ∀ c ∈ name, isNameChar c = true) (rest : List Char) :
    roles (name ++ rest) = (name.map fun _ => Role.plain) ++ roles rest := by
  induction name with
  | nil => rfl
  | cons c name ih =>
    have hc := hname c List.mem_cons_self
    have hback : c ≠ '\\' := by
      rintro rfl
      rw [isNameChar_backslash] at hc
      exact Bool.false_ne_true hc
    have hleft : c ≠ '{' := by
      rintro rfl
      exact absurd (isBrace_of_isNameChar hc) (by decide)
    rw [List.cons_append, roles_plain (fun h => absurd h hback) (fun h => absurd h hleft),
      ih fun d hd => hname d (List.mem_cons_of_mem c hd)]
    rfl

/-- An inline annotation that a reader is in the middle of goes up to its closing brace. -/
theorem rolesInside_cutInline {s part : List Char} (hpart : part <+: (cutInline s).2) :
    rolesInside .inline ((cutInline s).1 ++ part) =
      ((cutInline s).1.map fun _ => Role.inline) ++ roles part := by
  induction s with
  | nil =>
    obtain rfl : part = [] := List.prefix_nil.1 hpart
    rfl
  | cons c s ih =>
    rw [cutInline] at hpart ⊢
    split at hpart
    · next hc =>
      rw [if_pos hc, List.singleton_append, rolesInside, if_pos (beq_iff_eq.1 hc)]
      rfl
    · next hc =>
      rw [if_neg hc]
      dsimp only at hpart ⊢
      rw [List.cons_append, rolesInside, if_neg (mt beq_iff_eq.2 hc), ih hpart]
      rfl

example : roles ['{', '@', 'a', '\\', '}', '}'] =
    [.inline, .inline, .inline, .inline, .inline, .plain] := by decide

/-! ## Roles in a lexeme -/

/-- The roles of the characters from which a lexeme is read. -/
def Lexeme.roles : Lexeme → List Role
  | escaped _ => [.backslash, .escaped]
  | inline text => text.map fun _ => .inline
  | l => l.source.map fun _ => .plain

theorem cutInline_fst_append_snd (s : List Char) : (cutInline s).1 ++ (cutInline s).2 = s := by
  induction s with
  | nil => rfl
  | cons c s ih =>
    rw [cutInline]
    split
    · rfl
    · dsimp only
      rw [List.cons_append, ih]

variable {r : Registry} {before : Option Char} {c : Char} {rest after : List Char} {l : Lexeme}

/-- A lexeme is read from the start of the text, and what is left is the rest of it. -/
theorem First.source_append (h : First r before c rest l after) : l.source ++ after = c :: rest := by
  cases h with
  | escaped hc hbrace hrest =>
    rw [hc, hrest]
    rfl
  | inline hc hat =>
    rw [hc, Lexeme.source, List.cons_append, cutInline_fst_append_snd]
  | opening hc hend =>
    rw [hc]
    rfl
  | closing hc hstart =>
    rw [hc]
    rfl
  | marker hc hstart hname =>
    rw [hc, Lexeme.source, List.cons_append, List.takeWhile_append_dropWhile]
  | plain hescape hopen hclose hmarker => rfl

/-- **The characters of a lexeme have its roles**, however much of what is left is read. -/
theorem First.roles_append (h : First r before c rest l after) {part : List Char}
    (hpart : part <+: after) : roles (l.source ++ part) = l.roles ++ roles part := by
  -- what is read of the rest starts as the rest does
  have hhead : ∀ {s : List Char}, part <+: s → ∀ d, part.head? = some d → s.head? = some d := by
    rintro s ⟨t, rfl⟩ d hd
    rw [List.head?_append, hd]
    rfl
  cases h with
  | @escaped brace after hc hbrace hrest =>
    show roles ('\\' :: brace :: part) = _
    rw [roles, rolesInside, if_pos ⟨rfl, hbrace⟩]
    rfl
  | inline hc hat =>
    obtain ⟨s, rfl⟩ := List.head?_eq_some_iff.1 hat
    have hcut : cutInline ('@' :: s) = ('@' :: (cutInline s).1, (cutInline s).2) := rfl
    show roles ('{' :: (cutInline ('@' :: s)).1 ++ part) = _
    rw [List.cons_append, roles, rolesInside, if_neg fun h => absurd h.1 (by decide), if_pos]
    · rw [rolesInside_cutInline hpart]
      rfl
    · rw [hcut]
      exact ⟨rfl, rfl⟩
  | opening hc hend =>
    refine roles_plain (fun h => absurd h (by decide)) fun _ hat => ?_
    rw [hhead hpart '@' hat] at hend
    exact absurd hend (by decide)
  | closing hc hstart =>
    exact roles_plain (fun h => absurd h (by decide)) fun h => absurd h (by decide)
  | marker hc hstart hname =>
    show roles ('@' :: (_ ++ part)) = _
    rw [roles_plain (fun h => absurd h (by decide)) fun h => absurd h (by decide),
      roles_name fun d hd => List.all_eq_true.1 List.all_takeWhile d hd]
    rfl
  | plain hescape hopen hclose hmarker =>
    exact roles_plain (fun hc d hd => hescape hc d (hhead hpart d hd))
      fun hc hat => (hopen hc).1 (hhead hpart '@' hat)

theorem First.length_roles (h : First r before c rest l after) :
    l.roles.length = l.source.length := by
  have := congrArg List.length (h.roles_append (List.nil_prefix))
  rw [List.append_nil, roles_nil, List.append_nil, Hash.length_roles] at this
  exact this.symm

end DocTree.Hash
