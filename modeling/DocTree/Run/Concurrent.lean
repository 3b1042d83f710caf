import DocTree.Run.Batch
import DocTree.Run.Cancellation

/-!
# Concurrent runs

A concurrent run has one task per file and a number of permits. A task waits for a permit and is then
ready to go on; when it does, it asks whether the run has been cancelled, and either ends at once, its
file skipped, or exports its file. It keeps its permit to its end. Tasks that are ready go on in the
order in which they got their permits. Cancellation may be asked for at any moment, and is not taken
back.

`Pool.step?` is what can happen, whatever the order. `Pool.next?` chooses one order: a task that is
ready goes on; otherwise the first waiting task takes a permit if one is free; otherwise the first
running task comes to its end. Each file takes three steps and cancellation one, so three times as many
steps as there are files, and one more, are enough.
-/

namespace DocTree

/-- What has become of a task. -/
inductive Task (ρ : Type) where
  | waiting
  /-- It has a permit and has not gone on yet. -/
  | ready
  | running
  | done (r : ρ)

namespace Task

variable {ρ : Type}

/-- The task has not taken a permit yet. -/
def isWaiting : Task ρ → Bool
  | waiting => true
  | _ => false

/-- The task holds a permit. -/
def holdsPermit : Task ρ → Bool
  | ready => true
  | running => true
  | _ => false

/-- The task exports its file. -/
def isRunning : Task ρ → Bool
  | running => true
  | _ => false

/-- The result of a task that is done. -/
def result? : Task ρ → Option ρ
  | done r => some r
  | _ => none

end Task

/-- The tasks of a run. -/
structure Pool (ρ : Type) where
  tasks : List (Task ρ)
  /-- The tasks that are ready, in the order in which they got their permits. -/
  queue : List Nat
  flag : CancelFlag
  /-- How often a task asked whether the run has been cancelled. -/
  checks : Nat

/-- What can happen in a run. -/
inductive PoolEvent where
  /-- Cancellation is asked for. -/
  | cancel
  /-- A waiting task is granted a permit. -/
  | grant (i : Nat)
  /-- A task that is ready asks whether the run has been cancelled, and goes on. -/
  | ask (i : Nat)
  /-- A running task ends and gives its permit back. -/
  | finish (i : Nat)
  deriving DecidableEq, Repr

namespace Pool

variable {ρ : Type}

/-- All tasks wait. -/
def initial (n : Nat) : Pool ρ := ⟨List.replicate n .waiting, [], .initial, 0⟩

/-- How many tasks hold a permit. -/
def held (p : Pool ρ) : Nat := p.tasks.countP Task.holdsPermit

/-- How many tasks export their files. -/
def inProgress (p : Pool ρ) : Nat := p.tasks.countP Task.isRunning

/-- The pool after an event, if the event can happen. -/
def step? (permits : Nat) (skip work : Nat → ρ) (p : Pool ρ) : PoolEvent → Option (Pool ρ)
  | .cancel => some { p with flag := p.flag.cancel }
  | .grant i =>
    match p.tasks[i]? with
    | some .waiting =>
      if p.held < permits then
        some { p with tasks := p.tasks.set i .ready, queue := p.queue ++ [i] }
      else none
    | _ => none
  | .ask i =>
    match p.queue with
    | j :: rest =>
      if j = i then
        let next := if p.flag.raised then .done (skip i) else .running
        some { p with tasks := p.tasks.set i next, queue := rest, checks := p.checks + 1 }
      else none
    | [] => none
  | .finish i =>
    match p.tasks[i]? with
    | some .running => some { p with tasks := p.tasks.set i (.done (work i)) }
    | _ => none

/-! ## One order of events -/

/-- The next event of a run that grants its permits in the order of the files; `cancelled` says at which
checks the run turns out to be cancelled. -/
def next? (permits : Nat) (cancelled : Nat → Bool) (p : Pool ρ) : Option PoolEvent :=
  match p.queue, p.tasks.findIdx? Task.isWaiting with
  | i :: _, _ => some (if cancelled p.checks && !p.flag.raised then .cancel else .ask i)
  | [], some i =>
    if p.held < permits then some (.grant i)
    else (p.tasks.findIdx? Task.isRunning).map .finish
  | [], none => (p.tasks.findIdx? Task.isRunning).map .finish

/-- One step of a run that grants its permits in the order of the files. -/
def advance (permits : Nat) (cancelled : Nat → Bool) (skip work : Nat → ρ) (p : Pool ρ) : Pool ρ :=
  match p.next? permits cancelled with
  | some e => (p.step? permits skip work e).getD p
  | none => p

/-- A number of steps. -/
def advanceTimes (permits : Nat) (cancelled : Nat → Bool) (skip work : Nat → ρ) :
    Nat → Pool ρ → Pool ρ
  | 0, p => p
  | n + 1, p => advanceTimes permits cancelled skip work n (p.advance permits cancelled skip work)

/-- The results of the tasks that are done, in the order of the files. -/
def results (p : Pool ρ) : List ρ := p.tasks.filterMap Task.result?

end Pool

namespace Batch

/-- The file at a position. -/
def inputAt (files : List FileInput) (i : Nat) : FileInput := (files[i]?).getD (.raw .null)

/-- What a task does that starts its file. -/
def exportTask (b : Batch) (files : List FileInput) (i : Nat) : Traced RunError FileResult :=
  b.exportOne i (inputAt files i)

/-- What a task does that does not start its file. -/
def skipTask (files : List FileInput) (i : Nat) : Traced RunError FileResult :=
  pure (skip i (inputAt files i))

/-- The run with the results of its tasks, cancelled if a file was skipped. -/
def conclude (b : Batch) (results : List FileResult) : RunResult :=
  ⟨b.root, results, results.any fun r => r.status == .skipped⟩

/-- Collect the results of the tasks and conclude the run. -/
def gather (b : Batch) (p : Pool (Traced RunError FileResult)) : Traced RunError RunResult := do
  let results ← p.results.mapM id
  finish (b.conclude results)

/-- Export files concurrently. -/
def runConcurrently (b : Batch) (allowed : Option Nat) (files : List FileInput) :
    Traced RunError RunResult := do
  let permits := b.settings.exporting.parallelFiles
  Traced.write .info runLogSource
    (b.openingMessage files ++ " (" ++ toString permits ++ " at a time)")
  b.gather (Pool.advanceTimes permits (cancelledAt allowed) (skipTask files) (b.exportTask files)
    (3 * files.length + 1) (.initial files.length))

end Batch

end DocTree
