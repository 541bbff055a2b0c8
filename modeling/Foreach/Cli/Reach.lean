import Foreach.Cli.Run

/-!
Which files a command line looks at, so that no others have to be read before it is run.
-/

namespace Foreach.Cli

variable {σ α : Type}

/-- The events of the ledger that a run would add to. -/
def eventsPlace (h : Host σ α) (s : Settings) (runId : Option String) : Place :=
  let directory := s.runsRoute.join (.ofText (runId.getD h.freshRun))
  directory.place h.directory ++ ["events.jsonl"]

/-- What a command looks at beside the archive, and whether its action may look at anything. -/
def Command.reach (h : Host σ α) (s : Settings) : Command → List Place × Bool
  | .load route => (route.places h.directory, false)
  | .foreach _ action runId _ => ([eventsPlace h s runId], (s.command? action).isSome)
  | _ => ([], false)

/-- What a command line looks at, the environment file being among the files already. -/
def reach (h : Host σ α) (args : List String) (files : Files) : List Place × Bool :=
  match Group.ofArguments args, h.settings files with
  | some (group, rest), .ok s =>
    let (places, everything) :=
      ((Command.ofArguments group rest).map (·.reach h s)).getD ([], false)
    ((h.archive s).place :: (h.archive s).lockPlace :: places, everything)
  | _, _ => ([], false)

end Foreach.Cli
