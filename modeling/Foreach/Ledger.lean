import Foreach.Batch.Event
import Foreach.Files.Basic
import Foreach.Json.Printer

/-!
The ledger of a run: a directory with a line for each event, and a summary.

Each line is a JSON document. An event that has no JSON form still counts, but leaves no line. The
summary is replaced as a whole whenever it is written.
-/

namespace Foreach

/-- A ledger: its run, where it is kept, and how many events it was given. -/
structure Ledger where
  runId : String
  iterable : Option String
  directory : Route
  /-- The directory's place in the tree of files. -/
  place : Place
  started : Number
  total : Nat

namespace Ledger

/-- The directory for runs that are given no other. -/
def standardDirectory : Route := ⟨"", [".iterbatch", "runs"]⟩

/-- Opens the ledger of a run and makes its directory. An empty run id is none. -/
def create (fs : Files) (current : Place) (runId : Option String) (fresh : String)
    (iterable : Option String) (base : Route) (now : Number) : Except Fault (Ledger × Files) :=
  let runId := match runId with
    | some id => if id = "" then fresh else id
    | none => fresh
  let directory := base.join (.ofText runId)
  (fs.makeWay (directory.start current) directory.parts).map fun fs =>
    (⟨runId, iterable, directory, fs.locate directory current, now, 0⟩, fs)

def numberValue : Number → Value
  | .int n => .int n
  | .float x => .float x

/-- The document of an event. -/
def entry (l : Ledger) (event : String) (data : Value) (now : Number) : Value :=
  .record [("run_id", .text l.runId), ("event", .text event), ("timestamp", numberValue now),
    ("data", data)]

def eventsPlace (l : Ledger) : Place := l.place ++ ["events.jsonl"]

def summaryPlace (l : Ledger) : Place := l.place ++ ["summary.json"]

/-- The failure of data without a JSON form. -/
def unprintable : Fault := .mismatch "keys must be str, int, float, bool or None"

/-- The line of an event, with its end. -/
def line? (l : Ledger) (event : String) (data : Value) (now : Number) : Option (List Char) :=
  (Json.print .compact 0 (l.entry event data now)).map (· ++ ['\n'])

/-- Logs an event. -/
def log (l : Ledger) (fs : Files) (event : String) (data : Value) (now : Number) :
    Except Fault Unit × Ledger × Files :=
  let l := { l with total := l.total + 1 }
  match fs.append l.eventsPlace [] with
  | .error f => (.error f, l, fs)
  | .ok touched =>
    match l.line? event data now with
    | none => (.error unprintable, l, touched)
    | some line =>
      match (Files.bytesOf line).bind (touched.append l.eventsPlace) with
      | .error f => (.error f, l, touched)
      | .ok fs => (.ok (), l, fs)

/-- What a summary says: first about the ledger, then about the run; the run has the last word. -/
def payload (l : Ledger) (summary : Mapping) (now : Number) : Mapping :=
  Mapping.update
    [(.text "run_id", .text l.runId), (.text "iterable", l.iterable.elim .null .text),
      (.text "started_at", numberValue l.started), (.text "ended_at", numberValue now),
      (.text "total_logs", .ofNat l.total), (.text "run_dir", .text l.directory.text)]
    summary

/-- Writes the summary, into a new directory if the old one is gone. -/
def finalize (l : Ledger) (fs : Files) (summary : Mapping) (now : Number) : Except Fault Files :=
  match Json.print .indented 0 (.map (l.payload summary now)) with
  | none => .error unprintable
  | some text =>
    match fs.makeDirectories l.place, Files.bytesOf (text ++ ['\n']) with
    | .error f, _ => .error f
    | .ok _, .error f => .error f
    | .ok fs, .ok bytes => fs.write l.summaryPlace bytes

end Ledger
end Foreach
