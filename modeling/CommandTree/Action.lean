import CommandTree.Failure
import CommandTree.Text.Console

/-!
# Actions

An action prints, starts children and skips option lines.  What it did is recorded in a `Journal`, also
when it fails: an action is a function from the journal before it to its result and the journal after
it.  How the children of an action end is known beforehand (`Journal.outcomes`); the outcomes are used
up one by one, and a child for which none is left succeeds.  What comes of a child is `Child.result`: its
exit code, or a failure.
-/

namespace CommandTree

/-- What was done so far. -/
structure Journal where
  /-- What was printed. -/
  out : Text
  /-- What was reported. -/
  err : Text
  /-- The option lines that were skipped. -/
  skipped : List OptionLine.Skipped
  /-- The children that were started. -/
  children : List Child
  /-- How the next children end. -/
  outcomes : List Child.Outcome
deriving DecidableEq

namespace Journal

/-- The journal before anything is done. -/
def start (outcomes : List Child.Outcome) : Journal :=
  ⟨[], [], [], [], outcomes⟩

/-- How the next child ends. -/
def next (journal : Journal) : Child.Outcome :=
  journal.outcomes.head?.getD .success

/-- The journal after a child that was to be run: one outcome is used up, and unless the child was unfit
for it, it was started. -/
def afterChild (journal : Journal) (child : Child) : Journal :=
  { journal with
    children := if journal.next = .unfit then journal.children else journal.children ++ [child]
    outcomes := journal.outcomes.drop 1 }

end Journal

/-- What comes of a child that ends in some way: its exit code, or the reason why there is none. -/
def Child.result (child : Child) : Child.Outcome → Except Failure Nat
  | .exit (.ofNat code) => .ok code
  | .exit (.negSucc n) => .error (.cause (.mishap child.command (.killed (n + 1))))
  | .interrupt => .error (.cause (.mishap child.command .interrupted))
  | .refused reason => .error (.cause (.mishap child.command (.notStarted reason)))
  | .unfit => .error (.misuse .unfitChild)

/-- Something that is done, with a result or a failure. -/
abbrev Action (α : Type) := ExceptT Failure (StateM Journal) α

namespace Action

/-- The result of an action and the journal after it. -/
def perform {α : Type} (action : Action α) (journal : Journal) : Except Failure α × Journal :=
  StateT.run (ExceptT.run action) journal

/-- What needs no action. -/
def ofExcept {α : Type} (result : Except Failure α) : Action α :=
  ExceptT.mk (pure result)

@[simp] theorem perform_pure {α : Type} (value : α) (journal : Journal) :
    (pure value : Action α).perform journal = (.ok value, journal) :=
  rfl

@[simp] theorem perform_throw {α : Type} (failure : Failure) (journal : Journal) :
    (throw failure : Action α).perform journal = (.error failure, journal) :=
  rfl

@[simp] theorem perform_ofExcept {α : Type} (result : Except Failure α) (journal : Journal) :
    (ofExcept result).perform journal = (result, journal) :=
  rfl

/-- What follows an action starts from the journal that the action leaves, unless the action fails. -/
theorem perform_bind {α β : Type} (action : Action α) (next : α → Action β) (journal : Journal) :
    (action >>= next).perform journal =
      match action.perform journal with
      | (.ok value, after) => (next value).perform after
      | (.error failure, after) => (.error failure, after) := by
  unfold perform ExceptT.run StateT.run
  simp only [bind, ExceptT.bind, ExceptT.mk, ExceptT.bindCont, StateT.bind]
  cases action journal with
  | mk result after => cases result <;> rfl

/-- Prints a styled text. -/
def print (console : Console) (styled : Styled) : Action Unit :=
  modify fun journal => { journal with out := journal.out ++ console.print styled }

@[simp] theorem perform_print (console : Console) (styled : Styled) (journal : Journal) :
    (print console styled).perform journal =
      (.ok (), { journal with out := journal.out ++ console.print styled }) :=
  rfl

/-- Reports a text, as a console shows it. -/
def report (shown : Text) : Action Unit :=
  modify fun journal => { journal with err := journal.err ++ shown }

@[simp] theorem perform_report (shown : Text) (journal : Journal) :
    (report shown).perform journal = (.ok (), { journal with err := journal.err ++ shown }) :=
  rfl

/-- Skips some option lines. -/
def skip (lines : List OptionLine.Skipped) : Action Unit :=
  modify fun journal => { journal with skipped := journal.skipped ++ lines }

/-- Starts a child and waits for it; its exit code. -/
def run (child : Child) : Action Nat := do
  let journal ← get
  set (journal.afterChild child)
  ofExcept (child.result journal.next)

@[simp] theorem perform_run (child : Child) (journal : Journal) :
    (run child).perform journal = (child.result journal.next, journal.afterChild child) :=
  rfl

/-- The result of an action and the option lines that it skipped, as part of a larger action: a failure
does not end that, and the skipped lines are not recorded. -/
def attempt {α : Type} (action : Action α) :
    Action (Except Failure α × List OptionLine.Skipped) := do
  let before ← get
  let (result, after) := action.perform { before with skipped := [] }
  set { after with skipped := before.skipped }
  return (result, after.skipped)

/-- An attempt never fails, and it skips nothing itself. -/
theorem perform_attempt {α : Type} (action : Action α) (journal : Journal) :
    (attempt action).perform journal =
      (.ok ((action.perform { journal with skipped := [] }).1,
          (action.perform { journal with skipped := [] }).2.skipped),
        { (action.perform { journal with skipped := [] }).2 with skipped := journal.skipped }) :=
  rfl

end Action

end CommandTree
