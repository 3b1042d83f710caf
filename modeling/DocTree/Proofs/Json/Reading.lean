import DocTree.Json.Read
import DocTree.Json.Write
import DocTree.Proofs.Text.Halves
import DocTree.Proofs.Value.Keys

/-!
# Documents are read back from JSON

A document whose only scalars are texts is written as JSON and read back (`readIn?_writeIn`). What comes
back has names as keys: JSON has no others, so a key is read as the text that it is written as. And a high
half with a low half behind it comes back as the one code point that they write together (`reread`). For
nothing else to be lost, the keys of a mapping have to be read as different names (`OfTexts`).

## Shape of the proof

Writer and reader meet in `Spells`, which says how a document may be written and leaves open the space
between its pieces. What is written spells the document, whatever the indentation (`spells_writeAt`, by
induction on the document). What spells a document is read to it, whatever follows (`Spells.readOff`, by
induction on the spelling); the length of the text is fuel enough. A code point takes one step to read
however it is written (`PointForm`, `readString_writePoint`), also where it is written as two units; so
does a pair of halves (`readString_pair`), and the induction on a string takes the code points as they are
joined (`readString_points`).
-/

namespace DocTree

/-! ## Digits -/

theorem digitValueOf?_digitChar : ∀ d < 16, digitValueOf? (Nat.digitChar d) = some d := by
  decide

section Digits

variable {b : Nat}

/-- A number is read back from its digits. -/
theorem ofRadix_toDigits (hb : 1 < b) (hb' : b ≤ 16) (n : Nat) :
    ofRadix b (Nat.toDigits b n) = n := by
  induction n using Nat.strongRecOn with
  | ind n ih =>
    by_cases hn : n < b
    · have hdigit := digitValueOf?_digitChar n (by omega)
      rw [Nat.toDigits_of_lt_base hn, ofRadix, List.foldl_cons, List.foldl_nil, hdigit]
      exact Nat.zero_add n
    · have hmod := Nat.mod_lt n (by omega : 0 < b)
      rw [Nat.toDigits_of_base_le hb (Nat.not_lt.1 hn), ofRadix_append_singleton,
        ih _ (Nat.div_lt_self (by omega) hb), digitValueOf?_digitChar _ (by omega), Option.getD_some,
        Nat.div_add_mod]

theorem digitIn_of_mem_toDigits (hb : 1 < b) (hb' : b ≤ 16) (n : Nat) :
    ∀ c ∈ Nat.toDigits b n, digitIn b c = true := by
  have hdigit : ∀ d < b, digitIn b (Nat.digitChar d) = true := by
    intro d hd
    rw [digitIn, digitValueOf?_digitChar d (by omega)]
    exact decide_eq_true hd
  induction n using Nat.strongRecOn with
  | ind n ih =>
    by_cases hn : n < b
    · rw [Nat.toDigits_of_lt_base hn]
      exact List.forall_mem_singleton.2 (hdigit n hn)
    · rw [Nat.toDigits_of_base_le hb (Nat.not_lt.1 hn), List.forall_mem_append]
      exact ⟨ih _ (Nat.div_lt_self (by omega) hb),
        List.forall_mem_singleton.2 (hdigit _ (Nat.mod_lt _ (by omega)))⟩

/-- Zeros in front of a number change nothing. -/
theorem ofRadix_replicate_append (k : Nat) (ds : List Char) :
    ofRadix b (List.replicate k '0' ++ ds) = ofRadix b ds := by
  induction k with
  | zero => rfl
  | succ k ih =>
    have hzero : ofRadix b ('0' :: (List.replicate k '0' ++ ds)) =
        ofRadix b (List.replicate k '0' ++ ds) := by
      rw [ofRadix, ofRadix, List.foldl_cons]
      rfl
    rw [List.replicate_succ, List.cons_append, hzero, ih]

end Digits

theorem ofRadix_hexDigits (width n : Nat) : ofRadix 16 (Text.hexDigits width n) = n := by
  rw [Text.hexDigits, ofRadix_replicate_append, ofRadix_toDigits (by decide) (by decide)]

theorem digitIn_of_mem_hexDigits (width n : Nat) :
    ∀ c ∈ Text.hexDigits width n, digitIn 16 c = true := by
  rw [Text.hexDigits, List.forall_mem_append]
  refine ⟨fun c hc => ?_, digitIn_of_mem_toDigits (by decide) (by decide) n⟩
  rw [(List.mem_replicate.1 hc).2]
  decide

theorem length_hexDigits_four {n : Nat} (h : n < 0x10000) : (Text.hexDigits 4 n).length = 4 := by
  have hlength : (Nat.toDigits 16 n).length ≤ 4 :=
    (Nat.length_toDigits_le_iff (by decide) (by decide)).2 h
  rw [Text.hexDigits, List.length_append, List.length_replicate, Nat.sub_add_cancel hlength]

namespace Json

open Text (isHighHalf isLowHalf highHalf lowHalf joinHalves joinPairs)

/-! ## Units -/

theorem hex4?_hexDigits {n : Nat} (h : n < 0x10000) (rest : List Char) :
    hex4? (Text.hexDigits 4 n ++ rest) = some (n, rest) := by
  obtain ⟨a, b, c, d, hds⟩ := List.length_eq_four.1 (length_hexDigits_four h)
  have hall : [a, b, c, d].all (digitIn 16) = true := by
    rw [← hds, List.all_eq_true]
    exact digitIn_of_mem_hexDigits 4 n
  have hvalue : ofRadix 16 [a, b, c, d] = n := by rw [← hds, ofRadix_hexDigits]
  rw [hds]
  show (if [a, b, c, d].all (digitIn 16) then some (ofRadix 16 [a, b, c, d], rest) else none) = _
  rw [if_pos hall, hvalue]

theorem unit?_unitEscape {n : Nat} (h : n < 0x10000) (rest : List Char) :
    unit? (unitEscape n ++ rest) = some (n, rest) :=
  hex4?_hexDigits h rest

theorem unit?_of_ne {e : Char} (h : ('u' == e) = false) (rest : List Char) :
    unit? ('\\' :: e :: rest) = none := by
  have hback : ('\\' == '\\') = true := rfl
  rw [unit?, after?, after?, hback, h]
  rfl

/-- Two halves that follow one another are joined. -/
theorem joinUnits_of_pair {high low : Nat} (hhigh : isHighHalf high = true)
    (hlow : isLowHalf low = true) (rest : List Char) :
    joinUnits high (unitEscape low ++ rest) = (joinHalves high low, rest) := by
  have hbound := Text.isLowHalf_iff.1 hlow
  rw [joinUnits, if_pos hhigh, unit?_unitEscape (by omega)]
  exact if_pos hlow

/-- A unit that no low half follows, or that is no high half, is a code point. -/
theorem joinUnits_of_single {n : Nat} {rest : List Char}
    (h : isHighHalf n = true → ∀ m rest', unit? rest = some (m, rest') → isLowHalf m = false) :
    joinUnits n rest = (n, rest) := by
  rw [joinUnits]
  split
  · next hhigh =>
    split
    · next m rest' hunit => rw [if_neg (by rw [h hhigh m rest' hunit]; exact Bool.false_ne_true)]
    · rfl
  · rfl

/-! ## Code points -/

theorem ne_ofNat {n : Nat} {c : Char} (h : n < 0xD800) (hne : (n == c.toNat) ≠ true) :
    Char.ofNat n ≠ c := by
  rintro rfl
  rw [Text.toNat_ofNat (.inl h)] at hne
  exact hne (beq_self_eq_true n)

/-- The ways in which a code point is written. -/
inductive PointForm (n : Nat) : List Char → Prop
  | letter {e : Char} (hn : escape? e = some n) (hsmall : n < 0x80) : PointForm n ['\\', e]
  | plain {c : Char} (hc : c.toNat = n) (hquote : c ≠ '"') (hback : c ≠ '\\') (hcontrol : 0x20 ≤ n) :
      PointForm n [c]
  | unit (hn : n < 0x10000) : PointForm n (unitEscape n)
  | pair (hn : 0x10000 ≤ n) : PointForm n (unitEscape (highHalf n) ++ unitEscape (lowHalf n))

theorem exists_pointForm (n : Nat) : ∃ s, writePoint n = s ∧ PointForm n s := by
  refine ⟨_, rfl, ?_⟩
  rw [writePoint]
  split
  · next hquote => rw [eq_of_beq hquote]; exact .letter rfl (by decide)
  split
  · next hback => rw [eq_of_beq hback]; exact .letter rfl (by decide)
  split
  · next hfeed => rw [eq_of_beq hfeed]; exact .letter rfl (by decide)
  split
  · next hreturn => rw [eq_of_beq hreturn]; exact .letter rfl (by decide)
  split
  · next htab => rw [eq_of_beq htab]; exact .letter rfl (by decide)
  split
  · next hbackspace => rw [eq_of_beq hbackspace]; exact .letter rfl (by decide)
  split
  · next hform => rw [eq_of_beq hform]; exact .letter rfl (by decide)
  split
  · next hquote hback _ _ _ _ _ hplain =>
    rw [Bool.and_eq_true, decide_eq_true_eq, decide_eq_true_eq] at hplain
    have hsmall : n < 0xD800 := by omega
    exact .plain (Text.toNat_ofNat (.inl hsmall)) (ne_ofNat hsmall hquote) (ne_ofNat hsmall hback)
      hplain.1
  split
  · next hunit => exact .unit hunit
  · next hunit => exact .pair (Nat.not_lt.1 hunit)

/-- A letter that stands for a code point does not announce a unit. -/
theorem ne_of_escape? {e : Char} {n : Nat} (h : escape? e = some n) : e ≠ 'u' := by
  rintro rfl
  cases h

/-- A half is written as one unit. -/
theorem writePoint_of_half {n : Nat} (h : 0xD800 ≤ n ∧ n < 0xE000) : writePoint n = unitEscape n := by
  obtain ⟨s, hs, hform⟩ := exists_pointForm n
  rw [hs]
  cases hform with
  | letter _ hsmall => omega
  | @plain c hc =>
    have hchar : c.toNat < 0xD800 ∨ 0xDFFF < c.toNat ∧ c.toNat < 0x110000 := c.valid
    omega
  | unit => rfl
  | pair hn => omega

/-- A code point that is no low half is not written with a low half first. -/
theorem isLowHalf_of_unit?_writePoint {n m : Nat} {rest rest' : List Char}
    (hn : isLowHalf n = false) (hlt : n < 0x110000)
    (h : unit? (writePoint n ++ rest) = some (m, rest')) : isLowHalf m = false := by
  obtain ⟨s, hs, hform⟩ := exists_pointForm n
  rw [hs] at h
  cases hform with
  | letter hletter =>
    have hne := beq_eq_false_iff_ne.2 (ne_of_escape? hletter).symm
    exact nomatch (unit?_of_ne hne rest).symm.trans h
  | plain _ _ hback =>
    have hne := beq_eq_false_iff_ne.2 hback.symm
    rw [unit?, List.singleton_append, after?, hne] at h
    exact nomatch h
  | unit hunit =>
    rw [unit?_unitEscape hunit] at h
    cases h
    exact hn
  | pair hpair =>
    have hbound := Text.isHighHalf_iff.1 (Text.halves_of_le hpair hlt).1
    rw [List.append_assoc, unit?_unitEscape (by omega)] at h
    cases h
    rw [Bool.eq_false_iff, Ne, Text.isLowHalf_iff]
    omega

variable (a : Text.Alphabet)

/-- A unit is read as the code point that it starts. -/
theorem readString_unitEscape {fuel n : Nat} (done : List Char) (h : n < 0x10000) (rest : List Char) :
    readString a (fuel + 1) done (unitEscape n ++ rest) =
      readString a fuel (a.letter (joinUnits n rest).1 :: done) (joinUnits n rest).2 := by
  show (hex4? (Text.hexDigits 4 n ++ rest)).bind _ = _
  rw [hex4?_hexDigits h]
  rfl

/-- A letter behind a backslash is read as the code point that it stands for. -/
theorem readString_letter {fuel n : Nat} (done : List Char) {e : Char} (h : escape? e = some n)
    (rest : List Char) :
    readString a (fuel + 1) done ('\\' :: e :: rest) = readString a fuel (a.letter n :: done) rest := by
  rw [readString, h]
  · rfl
  · exact fun he => ne_of_escape? h he

/-- A character that needs no escape is read as it is. -/
theorem readString_plain {fuel : Nat} (done : List Char) {c : Char} (hquote : c ≠ '"')
    (hback : c ≠ '\\') (hcontrol : 0x20 ≤ c.toNat) (rest : List Char) :
    readString a (fuel + 1) done (c :: rest) = readString a fuel (a.letter c.toNat :: done) rest := by
  rw [readString]
  · exact if_neg (Nat.not_lt.2 hcontrol)
  · exact hquote
  · exact fun _ h => absurd h hback
  · exact fun _ _ h => absurd h hback

/-- **A code point is read back** that is no high half with a low half behind it. -/
theorem readString_writePoint (fuel : Nat) (done : List Char) {n : Nat} (hlt : n < 0x110000)
    {rest : List Char}
    (h : isHighHalf n = true → ∀ m rest', unit? rest = some (m, rest') → isLowHalf m = false) :
    readString a (fuel + 1) done (writePoint n ++ rest) = readString a fuel (a.letter n :: done) rest := by
  obtain ⟨s, hs, hform⟩ := exists_pointForm n
  rw [hs]
  cases hform with
  | letter hletter => exact readString_letter a done hletter rest
  | plain hc hquote hback hcontrol =>
    rw [List.singleton_append, readString_plain a done hquote hback (hc ▸ hcontrol), hc]
  | unit hunit => rw [readString_unitEscape a done hunit, joinUnits_of_single h]
  | pair hpair =>
    obtain ⟨hhigh, hlow, hjoin⟩ := Text.halves_of_le hpair hlt
    have hbound := Text.isHighHalf_iff.1 hhigh
    rw [List.append_assoc, readString_unitEscape a done (by omega), joinUnits_of_pair hhigh hlow, hjoin]

/-- A high half and the low half behind it are read as one code point. -/
theorem readString_pair (fuel : Nat) (done : List Char) {high low : Nat}
    (hhigh : isHighHalf high = true) (hlow : isLowHalf low = true) (rest : List Char) :
    readString a (fuel + 1) done (writePoint high ++ (writePoint low ++ rest)) =
      readString a fuel (a.letter (joinHalves high low) :: done) rest := by
  have hh := Text.isHighHalf_iff.1 hhigh
  have hl := Text.isLowHalf_iff.1 hlow
  rw [writePoint_of_half (by omega), writePoint_of_half (by omega),
    readString_unitEscape a done (by omega), joinUnits_of_pair hhigh hlow]

/-- Each code point takes a place in the text. -/
theorem length_le_flatMap_writePoint (ns : List Nat) :
    ns.length ≤ (ns.flatMap writePoint).length := by
  have hone : ∀ n, 1 ≤ (writePoint n).length := by
    intro n
    obtain ⟨s, hs, hform⟩ := exists_pointForm n
    rw [hs]
    cases hform <;> exact Nat.le_add_left 1 _
  induction ns with
  | nil => exact Nat.le_refl 0
  | cons n ns ih =>
    have hn := hone n
    rw [List.flatMap_cons, List.length_append, List.length_cons]
    omega

/-- **Code points are read back up to the quote behind them**, with the halves joined. -/
theorem readString_points {ns : List Nat} (hns : ∀ n ∈ ns, n < 0x110000) {fuel : Nat}
    (hfuel : ns.length < fuel) (done rest : List Char) :
    readString a fuel done (ns.flatMap writePoint ++ '"' :: rest) =
      some (String.ofList (done.reverse ++ (joinPairs ns).map a.letter), rest) := by
  have hquote : ∀ m rest', unit? ('"' :: rest) = some (m, rest') → isLowHalf m = false :=
    fun _ _ h => nomatch h
  fun_induction joinPairs ns generalizing fuel done with
  | case1 =>
    obtain ⟨fuel, rfl⟩ := Nat.exists_eq_add_one.2 (Nat.zero_lt_of_lt hfuel)
    rw [List.map_nil, List.append_nil]
    rfl
  | case2 n =>
    obtain ⟨fuel, rfl⟩ := Nat.exists_eq_add_of_le' (Nat.succ_le_of_lt hfuel)
    rw [List.flatMap_singleton, List.length_singleton,
      readString_writePoint a _ done (hns n List.mem_cons_self) fun _ => hquote, readString,
      List.reverse_cons, List.map_singleton]
  | case3 n m tail hpair ih =>
    obtain ⟨fuel, rfl⟩ := Nat.exists_eq_add_one.2 (Nat.zero_lt_of_lt hfuel)
    obtain ⟨hhigh, hlow⟩ := (Bool.and_eq_true _ _).mp hpair
    have htail : ∀ k ∈ tail, k < 0x110000 := fun k hk =>
      hns k (List.mem_cons_of_mem n (List.mem_cons_of_mem m hk))
    rw [List.length_cons, List.length_cons] at hfuel
    rw [List.flatMap_cons, List.flatMap_cons, List.append_assoc, List.append_assoc,
      readString_pair a fuel done hhigh hlow, ih htail (by omega), List.map_cons, List.reverse_cons,
      List.append_assoc, List.singleton_append]
  | case4 n m tail hpair ih =>
    obtain ⟨fuel, rfl⟩ := Nat.exists_eq_add_one.2 (Nat.zero_lt_of_lt hfuel)
    have hrest : ∀ k ∈ m :: tail, k < 0x110000 := fun k hk => hns k (List.mem_cons_of_mem n hk)
    have hnext : isHighHalf n = true → ∀ k rest',
        unit? ((m :: tail).flatMap writePoint ++ '"' :: rest) = some (k, rest') →
          isLowHalf k = false := by
      intro hhigh k rest' hunit
      rw [hhigh, Bool.true_and, Bool.not_eq_true] at hpair
      rw [List.flatMap_cons, List.append_assoc] at hunit
      exact isLowHalf_of_unit?_writePoint hpair (hrest m List.mem_cons_self) hunit
    rw [List.flatMap_cons, List.append_assoc,
      readString_writePoint a fuel done (hns n List.mem_cons_self) hnext,
      ih hrest (Nat.lt_of_succ_lt_succ hfuel), List.map_cons, List.reverse_cons, List.append_assoc,
      List.singleton_append]

/-- A text is read back, with its pairs of halves joined. -/
theorem readString_writeString (s : String) {fuel : Nat}
    (hfuel : (writeString a s).toList.length ≤ fuel + 1) (rest : List Char) :
    ∃ tail, (writeString a s).toList = '"' :: tail ∧
      readString a fuel [] (tail ++ rest) = some (a.joinedText s, rest) := by
  have hlength := length_le_flatMap_writePoint (s.toList.map a.point)
  have hpoints : ∀ n ∈ s.toList.map a.point, n < 0x110000 :=
    List.forall_mem_map.2 fun c _ => a.point_lt c
  have hlist : (writeString a s).toList =
      '"' :: ((s.toList.map a.point).flatMap writePoint ++ ['"']) := by
    rw [writeString, String.toList_ofList, List.flatMap_map]
  refine ⟨_, hlist, ?_⟩
  rw [hlist, List.length_cons, List.length_append, List.length_singleton] at hfuel
  rw [List.append_assoc, List.singleton_append, readString_points a hpoints (by omega),
    List.reverse_nil, List.nil_append]
  rfl

/-! ## What a text spells -/

/-- A part of a JSON text. -/
inductive Part where
  | value (v : Value)
  /-- The items of a list, with the bracket behind them. -/
  | items (vs : List Value)
  /-- The fields of a mapping, with the brace behind them. -/
  | fields (es : Entries)

/-- The text is a way to write the part, with any space between its pieces. -/
inductive Spells : Part → List Char → Prop
  | str (s : String) : Spells (.value (.str (a.joinedText s))) (writeString a s).toList
  | emptyList : Spells (.value (.list [])) ['[', ']']
  | emptyMap : Spells (.value (.map [])) ['\x7b', '\x7d']
  | list {items : List Value} {gap s : List Char} (hgap : ∀ c ∈ gap, isSpace c = true)
      (h : Spells (.items items) s) : Spells (.value (.list items)) ('[' :: gap ++ s)
  | map {es : Entries} {gap s : List Char} (hgap : ∀ c ∈ gap, isSpace c = true)
      (hkeys : (es.map Prod.fst).Nodup) (h : Spells (.fields es) s) :
      Spells (.value (.map es)) ('\x7b' :: gap ++ s)
  | lastItem {v : Value} {gap s : List Char} (hv : Spells (.value v) s)
      (hgap : ∀ c ∈ gap, isSpace c = true) : Spells (.items [v]) (s ++ gap ++ [']'])
  | item {v : Value} {items : List Value} {gap s rest : List Char} (hv : Spells (.value v) s)
      (hgap : ∀ c ∈ gap, isSpace c = true) (h : Spells (.items items) rest) :
      Spells (.items (v :: items)) (s ++ (',' :: gap ++ rest))
  | lastField (name : String) {v : Value} {gap s : List Char} (hv : Spells (.value v) s)
      (hgap : ∀ c ∈ gap, isSpace c = true) :
      Spells (.fields [(.str (a.joinedText name), v)])
        ((writeString a name).toList ++ ':' :: ' ' :: s ++ gap ++ ['\x7d'])
  | field (name : String) {v : Value} {es : Entries} {gap s rest : List Char}
      (hv : Spells (.value v) s) (hgap : ∀ c ∈ gap, isSpace c = true) (h : Spells (.fields es) rest) :
      Spells (.fields ((.str (a.joinedText name), v) :: es))
        ((writeString a name).toList ++ ':' :: ' ' :: s ++ ',' :: gap ++ rest)

variable {a}

theorem exists_writeString (s : String) : ∃ tail, (writeString a s).toList = '"' :: tail := by
  rw [writeString, String.toList_ofList]
  exact ⟨_, rfl⟩

/-- A part starts with a quote, a bracket or a brace that opens. -/
theorem Spells.head {p : Part} {s : List Char} (h : Spells a p s) :
    ∃ c tail, s = c :: tail ∧ (c = '"' ∨ c = '[' ∨ c = '\x7b') := by
  induction h with
  | str s =>
    obtain ⟨tail, htail⟩ := exists_writeString s
    exact ⟨_, tail, htail, .inl rfl⟩
  | emptyList => exact ⟨_, _, rfl, .inr (.inl rfl)⟩
  | emptyMap => exact ⟨_, _, rfl, .inr (.inr rfl)⟩
  | list => exact ⟨_, _, rfl, .inr (.inl rfl)⟩
  | map => exact ⟨_, _, rfl, .inr (.inr rfl)⟩
  | lastItem _ _ ih | item _ _ _ ih _ =>
    obtain ⟨c, tail, rfl, hc⟩ := ih
    exact ⟨c, _, rfl, hc⟩
  | @lastField name | @field name =>
    obtain ⟨tail, htail⟩ := exists_writeString name
    rw [htail]
    exact ⟨_, _, rfl, .inl rfl⟩

/-! ## Reading -/

/-- Space in front of something else is skipped. -/
theorem skipSpace_append {gap : List Char} (hgap : ∀ c ∈ gap, isSpace c = true) {c : Char}
    (hc : isSpace c = false) (s : List Char) : skipSpace (gap ++ c :: s) = c :: s := by
  rw [skipSpace, List.dropWhile_append_of_pos hgap]
  exact List.dropWhile_cons_of_neg (by rw [hc]; exact Bool.false_ne_true)

/-- Space in front of a part is skipped. -/
theorem Spells.skipSpace {p : Part} {s gap : List Char} (h : Spells a p s)
    (hgap : ∀ c ∈ gap, isSpace c = true) (rest : List Char) :
    skipSpace (gap ++ s ++ rest) = s ++ rest := by
  obtain ⟨c, tail, rfl, hc⟩ := h.head
  have hspace : isSpace c = false := by rcases hc with rfl | rfl | rfl <;> decide
  rw [List.append_assoc]
  exact skipSpace_append hgap hspace _

/-- Behind space, a part does not start with a bracket or a brace that closes. -/
theorem Spells.startsPart {p : Part} {s gap : List Char} (h : Spells a p s)
    (hgap : ∀ c ∈ gap, isSpace c = true) (rest : List Char) {d : Char}
    (hd : d ≠ '"' ∧ d ≠ '[' ∧ d ≠ '\x7b') :
    ∃ c tail, Json.skipSpace (gap ++ s ++ rest) = c :: tail ∧ c ≠ d := by
  rw [h.skipSpace hgap]
  obtain ⟨c, tail, rfl, hc⟩ := h.head
  refine ⟨c, tail ++ rest, rfl, ?_⟩
  rcases hc with rfl | rfl | rfl
  · exact hd.1.symm
  · exact hd.2.1.symm
  · exact hd.2.2.symm

variable (a) in
/-- The reader reads the part off the text, whatever follows it, with fuel for its length. -/
def Part.ReadOff : Part → List Char → Prop
  | .value v, s => ∀ fuel rest, s.length ≤ fuel → readValue a fuel (s ++ rest) = some (v, rest)
  | .items vs, s => ∀ fuel done rest, s.length ≤ fuel →
      readItems a fuel done (s ++ rest) = some (.list (done.reverse ++ vs), rest)
  | .fields es, s => ∀ fuel done rest, s.length ≤ fuel →
      readFields a fuel done (s ++ rest) = some (.map (Entries.ofList (done.reverse ++ es)), rest)

section Steps

variable {fuel : Nat} {v : Value} {s rest rest' : List Char} {done : List Value} {es : Entries}

/-- A text is read up to the quote behind it. -/
theorem readValue_writeString (t : String) (hfuel : (writeString a t).toList.length ≤ fuel)
    (rest : List Char) :
    readValue a fuel ((writeString a t).toList ++ rest) = some (.str (a.joinedText t), rest) := by
  obtain ⟨fuel, rfl⟩ : ∃ n, fuel = n + 1 := by
    obtain ⟨tail, htail⟩ := exists_writeString t
    rw [htail, List.length_cons] at hfuel
    exact ⟨fuel - 1, by omega⟩
  obtain ⟨tail, htail, hread⟩ := readString_writeString a t (Nat.le_succ_of_le hfuel) rest
  rw [htail, List.cons_append, readValue, hread]
  rfl

theorem readItems_of_comma (hv : readValue a fuel s = some (v, rest))
    (hskip : skipSpace rest = ',' :: rest') :
    readItems a (fuel + 1) done s = readItems a fuel (v :: done) (skipSpace rest') := by
  rw [readItems, hv]
  simp only [bind, Option.bind, hskip]

theorem readItems_of_bracket (hv : readValue a fuel s = some (v, rest))
    (hskip : skipSpace rest = ']' :: rest') :
    readItems a (fuel + 1) done s = some (.list (v :: done).reverse, rest') := by
  rw [readItems, hv]
  simp only [bind, Option.bind, hskip]

theorem readFields_of_comma (name : String) (hname : (writeString a name).toList.length ≤ fuel + 2)
    (hs : skipSpace (' ' :: s) = s) (hv : readValue a fuel s = some (v, rest))
    (hskip : skipSpace rest = ',' :: rest') :
    readFields a (fuel + 1) es ((writeString a name).toList ++ ':' :: ' ' :: s) =
      readFields a fuel ((.str (a.joinedText name), v) :: es) (skipSpace rest') := by
  have hcolon : skipSpace (':' :: ' ' :: s) = ':' :: ' ' :: s := rfl
  obtain ⟨tail, htail, hread⟩ := readString_writeString a name hname (':' :: ' ' :: s)
  rw [htail, List.cons_append, readFields, hread]
  simp only [bind, Option.bind, hcolon, hs, hv, hskip]

theorem readFields_of_brace (name : String) (hname : (writeString a name).toList.length ≤ fuel + 2)
    (hs : skipSpace (' ' :: s) = s) (hv : readValue a fuel s = some (v, rest))
    (hskip : skipSpace rest = '}' :: rest') :
    readFields a (fuel + 1) es ((writeString a name).toList ++ ':' :: ' ' :: s) =
      some (.map (Entries.ofList ((.str (a.joinedText name), v) :: es).reverse), rest') := by
  have hcolon : skipSpace (':' :: ' ' :: s) = ':' :: ' ' :: s := rfl
  obtain ⟨tail, htail, hread⟩ := readString_writeString a name hname (':' :: ' ' :: s)
  rw [htail, List.cons_append, readFields, hread]
  simp only [bind, Option.bind, hcolon, hs, hv, hskip]

/-- A list that is not closed at once is read item by item. -/
theorem readValue_of_items (hskip : ∃ c tail, skipSpace s = c :: tail ∧ c ≠ ']') :
    readValue a (fuel + 1) ('[' :: s) = readItems a fuel [] (skipSpace s) := by
  obtain ⟨c, tail, hskip, hc⟩ := hskip
  rw [readValue]
  split
  · next heq =>
    rw [hskip] at heq
    exact absurd (List.cons.inj heq).1 hc
  · rfl

theorem readValue_of_fields (hskip : ∃ c tail, skipSpace s = c :: tail ∧ c ≠ '}') :
    readValue a (fuel + 1) ('{' :: s) = readFields a fuel [] (skipSpace s) := by
  obtain ⟨c, tail, hskip, hc⟩ := hskip
  rw [readValue]
  split
  · next heq =>
    rw [hskip] at heq
    exact absurd (List.cons.inj heq).1 hc
  · rfl

end Steps

theorem isSpace_singleton : ∀ c ∈ [' '], isSpace c = true := by
  decide

/-- **A part is read back from any text that spells it.** -/
theorem Spells.readOff {p : Part} {s : List Char} (h : Spells a p s) : p.ReadOff a s := by
  -- a step takes one unit of fuel and at least one character, so there is fuel for the parts inside
  induction h with
  | str t =>
    intro fuel rest hfuel
    exact readValue_writeString t hfuel rest
  | emptyList =>
    intro fuel rest hfuel
    obtain ⟨fuel, rfl⟩ := Nat.exists_eq_add_one.2 (Nat.zero_lt_of_lt hfuel)
    rfl
  | emptyMap =>
    intro fuel rest hfuel
    obtain ⟨fuel, rfl⟩ := Nat.exists_eq_add_one.2 (Nat.zero_lt_of_lt hfuel)
    rfl
  | @list items gap s hgap hitems ih =>
    intro fuel rest hfuel
    obtain ⟨fuel, rfl⟩ := Nat.exists_eq_add_one.2 (Nat.zero_lt_of_lt hfuel)
    rw [List.cons_append, List.length_cons, List.length_append] at hfuel
    have hopen := hitems.startsPart hgap rest (by decide : ']' ≠ '"' ∧ ']' ≠ '[' ∧ ']' ≠ '{')
    rw [List.cons_append, List.cons_append, readValue_of_items hopen, hitems.skipSpace hgap]
    exact ih fuel [] rest (by omega)
  | @map es gap s hgap hkeys hfields ih =>
    intro fuel rest hfuel
    obtain ⟨fuel, rfl⟩ := Nat.exists_eq_add_one.2 (Nat.zero_lt_of_lt hfuel)
    rw [List.cons_append, List.length_cons, List.length_append] at hfuel
    have hopen := hfields.startsPart hgap rest (by decide : '}' ≠ '"' ∧ '}' ≠ '[' ∧ '}' ≠ '{')
    rw [List.cons_append, List.cons_append, readValue_of_fields hopen, hfields.skipSpace hgap,
      ih fuel [] rest (by omega), List.reverse_nil, List.nil_append, Entries.ofList_of_nodup hkeys]
  | @lastItem v gap s hv hgap ih =>
    intro fuel done rest hfuel
    simp only [List.length_append, List.length_singleton] at hfuel
    obtain ⟨fuel, rfl⟩ := Nat.exists_eq_add_one.2 (by omega : 0 < fuel)
    have hread := ih fuel (gap ++ ']' :: rest) (by omega)
    have hskip : Json.skipSpace (gap ++ ']' :: rest) = ']' :: rest :=
      skipSpace_append hgap (by decide) rest
    simp only [List.append_assoc, List.singleton_append]
    rw [readItems_of_bracket hread hskip, List.reverse_cons]
  | @item v items gap s tail hv hgap hitems ihv ih =>
    intro fuel done rest hfuel
    simp only [List.length_append, List.length_cons] at hfuel
    obtain ⟨fuel, rfl⟩ := Nat.exists_eq_add_one.2 (by omega : 0 < fuel)
    have hread := ihv fuel (',' :: (gap ++ tail ++ rest)) (by omega)
    simp only [List.append_assoc, List.cons_append] at hread ⊢
    rw [readItems_of_comma hread rfl, ← List.append_assoc, hitems.skipSpace hgap,
      ih fuel _ rest (by omega), List.reverse_cons, List.append_assoc, List.singleton_append]
  | @lastField name v gap s hv hgap ih =>
    intro fuel done rest hfuel
    simp only [List.length_append, List.length_cons] at hfuel
    obtain ⟨fuel, rfl⟩ := Nat.exists_eq_add_one.2 (by omega : 0 < fuel)
    have hread := ih fuel (gap ++ '\x7d' :: rest) (by omega)
    have hskip : Json.skipSpace (gap ++ '\x7d' :: rest) = '\x7d' :: rest :=
      skipSpace_append hgap (by decide) rest
    have hname := hv.skipSpace isSpace_singleton (gap ++ '\x7d' :: rest)
    simp only [List.append_assoc, List.cons_append, List.nil_append] at hname ⊢
    rw [readFields_of_brace name (by omega) hname hread hskip, List.reverse_cons]
  | @field name v es gap s tail hv hgap hfields ihv ih =>
    intro fuel done rest hfuel
    simp only [List.length_append, List.length_cons] at hfuel
    obtain ⟨fuel, rfl⟩ := Nat.exists_eq_add_one.2 (by omega : 0 < fuel)
    have hread := ihv fuel (',' :: (gap ++ tail ++ rest)) (by omega)
    have hname := hv.skipSpace isSpace_singleton (',' :: (gap ++ tail ++ rest))
    simp only [List.append_assoc, List.cons_append, List.nil_append] at hread hname ⊢
    rw [readFields_of_comma name (by omega) hname hread rfl, ← List.append_assoc gap,
      hfields.skipSpace hgap, ih fuel _ rest (by omega), List.reverse_cons, List.append_assoc,
      List.singleton_append]

/-- A text that spells a document is read to it. -/
theorem Spells.readIn? {v : Value} {text : List Char} (h : Spells a (.value v) text) :
    Json.readIn? a text = some v := by
  have hnil : ∀ c ∈ ([] : List Char), isSpace c = true := by decide
  have hskip := h.skipSpace hnil []
  have hread := h.readOff (2 * text.length + 2) [] (by omega)
  rw [List.nil_append, List.append_nil] at hskip
  rw [List.append_nil] at hread
  rw [Json.readIn?, hskip, hread]
  rfl

/-! ## Writing -/

variable (a)

/-- A document whose only scalars are texts, with different field names in each mapping. -/
inductive OfTexts : Value → Prop
  | str (s : String) : OfTexts (.str s)
  | list {items : List Value} (hitems : ∀ v ∈ items, OfTexts v) : OfTexts (.list items)
  | map {es : Entries} (hnames : (es.map fun e => a.joinedText (fieldName e.1)).Nodup)
      (hvalues : ∀ e ∈ es, OfTexts e.2) : OfTexts (.map es)

mutual

/-- What JSON makes of a document of texts: keys are names, and pairs of halves are joined. -/
def reread : Value → Value
  | .scalar (.str s) => .str (a.joinedText s)
  | .scalar s => .scalar s
  | .list items => .list (rereadItems items)
  | .map es => .map (rereadEntries es)

/-- What JSON makes of the items of a list. -/
def rereadItems : List Value → List Value
  | [] => []
  | v :: rest => reread v :: rereadItems rest

/-- What JSON makes of the entries of a mapping. -/
def rereadEntries : List (Scalar × Value) → List (Scalar × Value)
  | [] => []
  | (k, v) :: rest => (.str (a.joinedText (fieldName k)), reread v) :: rereadEntries rest

end

variable {a}

theorem rereadEntries_eq_map (es : Entries) :
    rereadEntries a es = es.map fun e => (.str (a.joinedText (fieldName e.1)), reread a e.2) := by
  induction es with
  | nil => rfl
  | cons e rest ih =>
    obtain ⟨k, v⟩ := e
    rw [rereadEntries, ih, List.map_cons]

theorem nodup_keys_rereadEntries {es : Entries}
    (h : (es.map fun e => a.joinedText (fieldName e.1)).Nodup) :
    ((rereadEntries a es).map Prod.fst).Nodup := by
  have hkeys : (rereadEntries a es).map Prod.fst =
      (es.map fun e => a.joinedText (fieldName e.1)).map Scalar.str := by
    rw [rereadEntries_eq_map, List.map_map, List.map_map]
    rfl
  rw [hkeys]
  exact h.map fun _ _ heq => Scalar.str.inj heq

theorem toList_pushn (s : String) (n : Nat) :
    (s.pushn ' ' n).toList = s.toList ++ List.replicate n ' ' := by
  induction n with
  | zero => exact (List.append_nil _).symm
  | succ n ih =>
    have hpush : s.pushn ' ' (n + 1) = (s.pushn ' ' n).push ' ' := rfl
    rw [hpush, String.toList_push, ih, List.replicate_succ', List.append_assoc]

/-- There is only space between a bracket and the parts. -/
theorem isSpace_edge (indent : Option Nat) (level : Nat) :
    ∀ c ∈ (edge indent level).toList, isSpace c = true := by
  cases indent with
  | none => exact fun c hc => absurd hc List.not_mem_nil
  | some n =>
    have hfeed : isSpace '\n' = true ∧ isSpace ' ' = true := by decide
    intro c hc
    rw [edge, String.toList_append, toList_pushn, List.mem_append, List.mem_append] at hc
    rcases hc with hc | hc | hc
    · rw [List.mem_singleton.1 hc]
      exact hfeed.1
    · exact absurd hc List.not_mem_nil
    · rw [(List.mem_replicate.1 hc).2]
      exact hfeed.2

/-- Parts are separated by a comma and space. -/
theorem exists_separator (indent : Option Nat) (level : Nat) :
    ∃ gap, (separator indent level).toList = ',' :: gap ∧ ∀ c ∈ gap, isSpace c = true := by
  cases indent with
  | none => exact ⟨[' '], by simp [separator], by decide⟩
  | some n =>
    refine ⟨(edge (some n) level).toList, ?_, isSpace_edge (some n) level⟩
    rw [separator, edge, String.toList_append, String.toList_append]
    rfl

variable {indent : Option Nat} {level : Nat} {close : List Char}

/-- What is written for the items of a list, up to its bracket, spells them. -/
theorem spells_writeItems (hclose : ∀ c ∈ close, isSpace c = true) {items : List Value}
    (hne : items ≠ [])
    (h : ∀ v ∈ items, Spells a (.value (reread a v)) (writeAt a indent level v).toList) :
    Spells a (.items (rereadItems a items))
      ((separator indent level).toList.intercalate
        ((writeItems a indent level items).map String.toList) ++ close ++ [']']) := by
  obtain ⟨gap, hseparator, hgap⟩ := exists_separator indent level
  rw [hseparator]
  induction items with
  | nil => exact absurd rfl hne
  | cons v rest ih =>
    have hv := h v List.mem_cons_self
    cases rest with
    | nil =>
      simp only [rereadItems, writeItems, List.map_cons, List.map_nil, List.intercalate_singleton]
      exact .lastItem hv hclose
    | cons w rest =>
      have hrest := ih (List.cons_ne_nil w rest) fun u hu => h u (List.mem_cons_of_mem v hu)
      simp only [rereadItems, writeItems, List.map_cons, List.intercalate_cons_cons, List.append_assoc]
        at hrest ⊢
      exact .item hv hgap hrest

/-- What is written for the entries of a mapping, up to its brace, spells them. -/
theorem spells_writeEntries (hclose : ∀ c ∈ close, isSpace c = true) {es : Entries} (hne : es ≠ [])
    (h : ∀ e ∈ es, Spells a (.value (reread a e.2)) (writeAt a indent level e.2).toList) :
    Spells a (.fields (rereadEntries a es))
      ((separator indent level).toList.intercalate
        ((writeEntries a indent level es).map String.toList) ++ close ++ ['\x7d']) := by
  have hcolon : ": ".toList = [':', ' '] := rfl
  obtain ⟨gap, hseparator, hgap⟩ := exists_separator indent level
  rw [hseparator]
  induction es with
  | nil => exact absurd rfl hne
  | cons e rest ih =>
    obtain ⟨k, v⟩ := e
    have hv := h (k, v) List.mem_cons_self
    cases rest with
    | nil =>
      simp only [rereadEntries, writeEntries, List.map_cons, List.map_nil, List.intercalate_singleton,
        String.toList_append, hcolon]
      simpa only [List.append_assoc, List.cons_append, List.nil_append] using
        Spells.lastField (fieldName k) hv hclose
    | cons f rest =>
      obtain ⟨l, w⟩ := f
      have hrest := ih (List.cons_ne_nil _ rest) fun u hu => h u (List.mem_cons_of_mem _ hu)
      simp only [rereadEntries, writeEntries, List.map_cons, List.intercalate_cons_cons,
        String.toList_append, hcolon] at hrest ⊢
      simpa only [List.append_assoc, List.cons_append, List.nil_append] using
        Spells.field (fieldName k) hv hgap hrest

/-- **What is written for a document of texts spells it**, up to what JSON makes of it. -/
theorem spells_writeAt (indent : Option Nat) {v : Value} (h : OfTexts a v) (level : Nat) :
    Spells a (.value (reread a v)) (writeAt a indent level v).toList := by
  induction h generalizing level with
  | str s => exact .str s
  | @list items _ ih =>
    by_cases hne : items = []
    · rw [hne, reread, rereadItems, writeAt]
      exact .emptyList
    · have hbrackets : "[".toList = ['['] ∧ "]".toList = [']'] := ⟨rfl, rfl⟩
      have hitems := spells_writeItems (isSpace_edge indent level) hne fun v hv => ih v hv (level + 1)
      rw [reread, writeAt]
      · simp only [String.toList_append, String.toList_intercalate, hbrackets]
        simpa only [List.append_assoc, List.cons_append, List.nil_append] using
          Spells.list (isSpace_edge indent (level + 1)) hitems
      · exact hne
  | @map es hnames _ ih =>
    by_cases hne : es = []
    · rw [hne, reread, rereadEntries, writeAt]
      exact .emptyMap
    · have hbraces : "\x7b".toList = ['{'] ∧ "\x7d".toList = ['}'] := ⟨rfl, rfl⟩
      have hentries := spells_writeEntries (isSpace_edge indent level) hne
        fun e he => ih e he (level + 1)
      rw [reread, writeAt]
      · simp only [String.toList_append, String.toList_intercalate, hbraces]
        simpa only [List.append_assoc, List.cons_append, List.nil_append] using
          Spells.map (isSpace_edge indent (level + 1)) (nodup_keys_rereadEntries hnames) hentries
      · exact hne

/-- **A document of texts is read back from its JSON text**, up to what JSON makes of it. -/
theorem readIn?_writeIn (indent : Option Nat) {v : Value} (h : OfTexts a v) :
    readIn? a (writeIn a indent v).toList = some (reread a v) :=
  (spells_writeAt indent h 0).readIn?

end Json

end DocTree
