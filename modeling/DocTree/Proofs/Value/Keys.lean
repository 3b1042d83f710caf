import DocTree.Settings.Reference
import Mathlib.Data.List.Nodup

/-!
# Keys of documents

A mapping that is written entry by entry has each key once, and so has a document all of whose mappings
are written like that (`Value.Distinct`). In such a mapping an entry is found under its key whatever
stands before it, so that dropping other entries does not change what is found (`find?_dropNulls`).
-/

namespace DocTree

/-- Every mapping in the document has each of its keys once. -/
inductive Value.Distinct : Value → Prop where
  | scalar (s : Scalar) : Distinct (.scalar s)
  | list {items : List Value} (hitems : ∀ v ∈ items, v.Distinct) : Distinct (.list items)
  | map {es : Entries} (hkeys : (es.map Prod.fst).Nodup) (hvalues : ∀ e ∈ es, e.2.Distinct) :
    Distinct (.map es)

namespace Entries

variable {k key : Scalar} {v value : Value} {es : Entries}

/-! ## Finding -/

theorem mem_of_find? (h : es.find? key = some v) : (key, v) ∈ es := by
  induction es with
  | nil => cases h
  | cons e rest ih =>
    obtain ⟨k, w⟩ := e
    rw [find?] at h
    split at h
    · next hk =>
      cases h
      rw [hk]
      exact List.mem_cons_self
    · exact List.mem_cons_of_mem _ (ih h)

theorem exists_find?_of_mem {e : Scalar × Value} (h : e ∈ es) : ∃ v, es.find? e.1 = some v := by
  induction es with
  | nil => exact absurd h List.not_mem_nil
  | cons first rest ih =>
    obtain ⟨k, w⟩ := first
    rw [find?]
    split
    · exact ⟨w, rfl⟩
    · next hk =>
      rcases List.mem_cons.1 h with rfl | h
      · exact absurd rfl hk
      · exact ih h

theorem find?_eq_none (h : key ∉ es.map Prod.fst) : es.find? key = none := by
  induction es with
  | nil => rfl
  | cons e rest ih =>
    obtain ⟨k, w⟩ := e
    rw [List.map_cons, List.mem_cons, not_or] at h
    rw [find?, if_neg (Ne.symm h.1), ih h.2]

/-- What is written under a key is found there, and nothing else changes. -/
theorem find?_insert (key k : Scalar) (value : Value) (es : Entries) :
    find? k (insert key value es) = if k = key then some value else es.find? k := by
  induction es with
  | nil =>
    show (if key = k then some value else none) = if k = key then some value else none
    simp only [eq_comm]
  | cons e rest ih =>
    obtain ⟨l, w⟩ := e
    rw [insert]
    split
    · next hl =>
      rw [find?, find?, hl]
      split
      · next h => rw [if_pos h.symm]
      · next h => rw [if_neg (Ne.symm h)]
    · next hl =>
      rw [find?, find?, ih]
      split
      · next h =>
        rw [if_neg]
        rintro rfl
        exact hl h
      · rfl

theorem get?_put_of_ne {name other : String} (h : other ≠ name) (value : Value) (es : Entries) :
    (es.put name value).get? other = es.get? other := by
  rw [get?, put, find?_insert, if_neg (by simpa using h), get?]

/-! ## Writing -/

theorem mem_insert {e : Scalar × Value} (h : e ∈ insert key value es) : e = (key, value) ∨ e ∈ es := by
  induction es with
  | nil => exact .inl (List.mem_singleton.1 h)
  | cons first rest ih =>
    obtain ⟨l, w⟩ := first
    rw [insert] at h
    split at h
    · next hl =>
      rw [hl, List.mem_cons] at h
      exact h.imp_right (List.mem_cons_of_mem _)
    · rcases List.mem_cons.1 h with rfl | h
      · exact .inr List.mem_cons_self
      · exact (ih h).imp_right (List.mem_cons_of_mem _)

/-- A key that is new goes to the end. -/
theorem insert_of_not_mem (h : key ∉ es.map Prod.fst) (value : Value) :
    insert key value es = es ++ [(key, value)] := by
  induction es with
  | nil => rfl
  | cons first rest ih =>
    obtain ⟨l, w⟩ := first
    rw [List.map_cons, List.mem_cons, not_or] at h
    rw [insert, if_neg (Ne.symm h.1), ih h.2]; rfl

/-- Entries under new keys are written one behind another. -/
theorem foldl_insert_of_nodup {acc es : Entries} (h : ((acc ++ es).map Prod.fst).Nodup) :
    es.foldl (fun acc e => insert e.1 e.2 acc) acc = acc ++ es := by
  induction es generalizing acc with
  | nil => rw [List.append_nil]; rfl
  | cons e es ih =>
    have hkey : e.1 ∉ acc.map Prod.fst := by
      rw [List.map_append, List.nodup_append] at h
      intro hmem
      exact h.2.2 _ hmem _ (List.mem_map_of_mem List.mem_cons_self) rfl
    rw [List.append_cons] at h ⊢
    rw [List.foldl_cons, insert_of_not_mem hkey, ih h]

theorem ofList_of_nodup {es : List (Scalar × Value)} (h : (es.map Prod.fst).Nodup) :
    ofList es = es :=
  foldl_insert_of_nodup h

theorem nodup_keys_insert (h : (es.map Prod.fst).Nodup) :
    ((insert key value es).map Prod.fst).Nodup := by
  induction es with
  | nil => exact List.nodup_singleton key
  | cons first rest ih =>
    obtain ⟨l, w⟩ := first
    rw [List.map_cons, List.nodup_cons] at h
    rw [insert]
    split
    · exact List.nodup_cons.2 h
    · next hl =>
      refine List.nodup_cons.2 ⟨fun hmem => ?_, ih h.2⟩
      obtain ⟨e, he, heq⟩ := List.mem_map.1 hmem
      rcases mem_insert he with rfl | he
      · exact hl heq.symm
      · exact h.1 (List.mem_map.2 ⟨e, he, heq⟩)

end Entries

namespace Value

open Entries

variable {key : Scalar} {v : Value} {es : Entries}

theorem Distinct.insert (h : (Value.map es).Distinct) (hv : v.Distinct) (key : Scalar) :
    (Value.map (Entries.insert key v es)).Distinct := by
  cases h with
  | map hkeys hvalues =>
    refine .map (nodup_keys_insert hkeys) fun e he => ?_
    rcases mem_insert he with rfl | he
    · exact hv
    · exact hvalues e he

theorem distinct_nil : (Value.map []).Distinct :=
  .map List.nodup_nil fun _ h => absurd h List.not_mem_nil

theorem Distinct.of_find? (h : (Value.map es).Distinct) (hfind : es.find? key = some v) :
    v.Distinct := by
  cases h with
  | map hkeys hvalues => exact hvalues _ (mem_of_find? hfind)

/-- A mapping with different names has each key once. -/
theorem distinct_record {fields : List (String × Value)} (hnames : (fields.map Prod.fst).Nodup)
    (h : ∀ f ∈ fields, f.2.Distinct) : (Value.record fields).Distinct := by
  refine .map ?_ (List.forall_mem_map.2 h)
  have hkeys : (fields.map fun f => ((Scalar.str f.1, f.2) : Scalar × Value)).map Prod.fst =
      (fields.map Prod.fst).map Scalar.str := by
    rw [List.map_map, List.map_map]
    rfl
  rw [hkeys]
  exact hnames.map fun _ _ => Scalar.str.inj

theorem distinct_strs (ts : List String) : (Value.strs ts).Distinct :=
  .list (List.forall_mem_map.2 fun t _ => .scalar (.str t))

/-! ## Dropping what is absent -/

/-- A value under a key is kept without the absent values in it, unless it is absent itself. -/
theorem find?_dropNulls (h : (Value.map es).Distinct) (key : Scalar) :
    Entries.find? key (dropNullsEntries es) =
      ((es.find? key).filter fun v => !v.isNull).map dropNulls := by
  have hkeys : (es.map Prod.fst).Nodup := by
    cases h with
    | map hkeys _ => exact hkeys
  clear h
  induction es with
  | nil => rfl
  | cons e rest ih =>
    obtain ⟨k, w⟩ := e
    rw [List.map_cons, List.nodup_cons] at hkeys
    rw [dropNullsEntries, Entries.find?]
    by_cases hk : k = key
    · rw [if_pos hk]
      have hrest : Entries.find? key rest = none := find?_eq_none (hk ▸ hkeys.1)
      cases hnull : w.isNull with
      | true =>
        rw [if_pos rfl, ih hkeys.2, hrest, Option.filter_some, hnull]
        rfl
      | false =>
        rw [if_neg Bool.false_ne_true, Entries.find?, if_pos hk, Option.filter_some, hnull]
        rfl
    · rw [if_neg hk]
      split
      · exact ih hkeys.2
      · rw [Entries.find?, if_neg hk, ih hkeys.2]

end Value

end DocTree
