import SymbolContext.Rehearsal.Scene
import SymbolContext.Rehearsal.Shell

/-!
# A process in memory

A process whose streams are in the hands of whoever has started it. What it does is worked out
anew from all of its input whenever someone looks.
-/

namespace SymbolContext.Rehearsal

/-- The programs that can be started. -/
inductive Tool where
  /-- Copies its input to its output. -/
  | copy
  /-- Ends at once. -/
  | succeed
  | shell
deriving DecidableEq, Repr

/-- The program with a name. -/
def Tool.named? : String → Option Tool
  | "cat" => some .copy
  | "true" => some .succeed
  | "sh" => some .shell
  | _ => none

/-- **A process.** -/
structure Child where
  launch : Server.Launch
  tool : Tool
  directory : String
  /-- Whether the streams are still with the process. -/
  streamsKept : Bool := true
  input : List UInt8 := []
  inputOpen : Bool := true
  /-- Whether the process has not been stopped. -/
  started : Bool := true

namespace Child

/-- The directory of the programs. -/
def toolPlace : List String := ["usr", "bin"]

/-- The programs in a tree. -/
def install (t : FileTree) : FileTree :=
  ["cat", "true", "sh"].foldl (fun t name => FileTree.put (.file []) (toolPlace ++ [name]) t) t

/-- Start a process in a scene. -/
def spawn (scene : Scene) (launch : Server.Launch) : Except ProcessFailure Child :=
  let scene :=
    { scene with
      tree := FileTree.put (.link "usr/bin") ["bin"] (install scene.tree)
      servers := ["cat", "true", "sh"].map fun name => toolPlace ++ [name] }
  let place : Except OsError (List String × List String) := do
    let directory ← scene.newDirectory launch.directory
    return (directory, ← scene.commandPlace directory launch.command)
  match place with
  | .error e => .error (.spawn launch.command e.message)
  | .ok (directory, program) =>
    .ok {
      launch
      tool := (program.getLast?.bind Tool.named?).getD .succeed
      directory := FileTree.placeText directory }

/-- The script of a shell and its parameters. -/
def scriptOf : List String → String × List String
  | "-c" :: script :: args => (script, if args = [] then ["sh"] else args)
  | _ => ("cat", ["sh"])

/-- What the process has done so far. -/
def progress (c : Child) : Shell.State :=
  let s : Shell.State :=
    { args := ["sh"], directory := c.directory, input := c.input, inputOpen := c.inputOpen }
  match c.tool with
  | .copy => s.copyInput .output
  | .succeed => s
  | .shell =>
    let (script, args) := scriptOf c.launch.args
    Shell.run script { s with args }

/-- Take the streams. -/
def takeStreams (c : Child) : Except ProcessFailure Unit × Child :=
  if c.streamsKept then (.ok (), { c with streamsKept := false })
  else (.error .stdoutNotAvailable, c)

/-- Write to the input. -/
def write (c : Child) (text : String) : Child := { c with input := c.input ++ Utf8.encode text }

/-- Close the input. -/
def closeInput (c : Child) : Child := { c with inputOpen := false }

/-- Whether the process ends by itself within some time. -/
def endsWithin (c : Child) (grace : Duration) : Bool :=
  let s := c.progress
  !s.waiting && !s.endless && s.elapsed.nanos ≤ grace.nanos

/-- Stop the process. -/
def stop (c : Child) (mode : Server.Stop) :
    Except ProcessFailure Unit × List LogLine × Child :=
  if c.started then
    let stopped := { c with started := false }
    match mode with
    | .force => (.ok (), [], stopped)
    | .graceful grace =>
      if c.endsWithin grace then (.ok (), [], stopped)
      else (.ok (), [.warn (Scene.killText c.launch.command grace)], stopped)
  else (.error .notStarted, [], c)

end Child

end SymbolContext.Rehearsal
