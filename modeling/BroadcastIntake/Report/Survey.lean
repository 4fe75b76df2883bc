import BroadcastIntake.Job.Run
import BroadcastIntake.Report.Row

/-!
# Surveys

A survey plans and probes files without working on them, and makes the row of a report out of each.
-/

namespace BroadcastIntake

/-- What a survey leads to: the rows in the order of the files, unless the prober never answers or
a crash ends the survey; the tree that is left, and the calls of the prober. -/
structure Survey where
  outcome : Option (Except Crash (List ReportRow))
  tree : FileTree
  calls : List ToolCall

namespace Survey

/-- The row of a planned file after the prober has answered. -/
def rowOf (c : ShowContext) (now : Timestamp) (plan : Plan) (probe : ProbeInfo) :
    Logged ReportRow := do
  let (chain, command) ← plan.describe c.settings probe
  return ReportRow.ofPlan plan probe chain command now

def ofFile (tools : Toolbox) (c : ShowContext) (now : Timestamp) (source : Path)
    (tree : FileTree) : Logged Survey := do
  match ← Plan.ofFile source c.profile c.settings c.outputDirectory c.today with
  | .error crash => return ⟨some (.error crash), tree, []⟩
  | .ok plan =>
    match ← (Surroundings.ofSettings c.settings tools).probe tree source with
    | (changed, none, call) => return ⟨none, changed, [call]⟩
    | (changed, some (.error crash), call) => return ⟨some (.error crash), changed, [call]⟩
    | (changed, some (.ok probe), call) =>
      return ⟨some (.ok [← rowOf c now plan probe]), changed, [call]⟩

/-- Surveys files one after the other; the first crash ends the survey. -/
def ofFiles (tools : Toolbox) (c : ShowContext) (now : Timestamp) :
    List Path → FileTree → Logged Survey
  | [], tree => return ⟨some (.ok []), tree, []⟩
  | source :: rest, tree => do
    let first ← ofFile tools c now source tree
    match first.outcome with
    | some (.ok rows) =>
      let others ← ofFiles tools c now rest first.tree
      let outcome := others.outcome.map fun o => o.map fun more => rows ++ more
      return ⟨outcome, others.tree, first.calls ++ others.calls⟩
    | _ => return first

end Survey

end BroadcastIntake
