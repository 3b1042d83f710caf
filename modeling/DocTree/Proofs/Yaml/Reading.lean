import DocTree.Proofs.Fault
import DocTree.Proofs.Value.Keys
import DocTree.Yaml.Read

/-!
# Keys of documents read from YAML

A mapping may be written with a key twice, and merged mappings may repeat keys, but in the document
that is read each mapping has each of its keys once (`distinct_of_read`): a mapping is put together
entry by entry, whatever its nodes are.
-/

namespace DocTree.Yaml

/-- Entries written one after another have each key once. -/
theorem distinct_mappingOf {entries : List (Scalar × Value)} (h : ∀ e ∈ entries, e.2.Distinct) :
    (Value.map (mappingOf entries)).Distinct :=
  List.foldlRecOn (motive := fun es => (Value.map es).Distinct) entries _ Value.distinct_nil
    fun es hes e he => hes.insert (h e he) (heldKey es e.1)

mutual

/-- The document that a node stands for has each key of a mapping once. -/
theorem Node.distinct_value : (n : Node) → {v : Value} → n.value = .ok v → v.Distinct
  | .scalar tag plain text, v, h => by
    rw [Node.value] at h
    cases hs : scalarMeaning tag plain text with
    | ok s =>
      rw [hs] at h
      cases h
      exact .scalar s
    | error e =>
      rw [hs] at h
      cases h
  | .sequence tag items, v, h => by
    rw [Node.value, bind_eq_ok_iff] at h
    obtain ⟨vs, hvs, h⟩ := h
    split at h
    · cases h
      exact .list (distinct_itemValues items hvs)
    · cases h
  | .mapping tag entries, v, h => by
    rw [Node.value, bind_eq_ok_iff] at h
    obtain ⟨es, hes, h⟩ := h
    split at h
    · cases h
      exact distinct_mappingOf (distinct_entryValues entries hes)
    · cases h
  | .named name n, v, h => by
    rw [Node.value] at h
    · cases h
    all_goals nofun
  | .alias name, v, h => by
    rw [Node.value] at h
    · cases h
    all_goals nofun

/-- The documents that nodes stand for have each key of a mapping once. -/
theorem distinct_itemValues : (ns : List Node) → {vs : List Value} → itemValues ns = .ok vs →
    ∀ v ∈ vs, v.Distinct
  | [], vs, h => by
    cases h
    exact fun v hv => absurd hv List.not_mem_nil
  | n :: rest, vs, h => by
    simp only [itemValues, bind_eq_ok_iff] at h
    obtain ⟨v, hv, vs, hvs, h⟩ := h
    cases h
    exact List.forall_mem_cons.2 ⟨n.distinct_value hv, distinct_itemValues rest hvs⟩

/-- The values in the entries that pairs of nodes stand for have each key of a mapping once. -/
theorem distinct_entryValues : (ns : List (Node × Node)) → {es : List (Scalar × Value)} →
    entryValues ns = .ok es → ∀ e ∈ es, e.2.Distinct
  | [], es, h => by
    cases h
    exact fun e he => absurd he List.not_mem_nil
  | (k, n) :: rest, es, h => by
    rw [entryValues, bind_eq_ok_iff] at h
    obtain ⟨key, -, h⟩ := h
    cases key with
    | scalar s =>
      simp only [bind_eq_ok_iff] at h
      obtain ⟨_, -, v, hv, es, hes, h⟩ := h
      cases h
      exact List.forall_mem_cons.2 ⟨n.distinct_value hv, distinct_entryValues rest hes⟩
    | list items => cases h
    | map entries => cases h

end

/-- **A document that is read has each key of a mapping once.** -/
theorem distinct_of_read {text : List Char} {v : Value} (h : read text = .ok v) : v.Distinct := by
  rw [read, bind_eq_ok_iff] at h
  obtain ⟨ts, -, h⟩ := h
  split at h
  · next n _ =>
    rw [Node.toValue] at h
    split at h
    · next n _ => exact n.distinct_value h
    · cases h
  · cases h
    exact .scalar _
  · cases h

end DocTree.Yaml
