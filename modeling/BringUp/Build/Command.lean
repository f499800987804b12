import BringUp.Text.Search

/-!
This module contains the commands that tools are run with and what running them leaves.
-/

namespace BringUp

structure ToolCommand where
  program : String
  args : List String
  cwd : Option String
  /-- The variables that are set for the tool, the one set last winning. -/
  envs : List (String × String)
deriving DecidableEq

namespace ToolCommand

def line (c : ToolCommand) : String :=
  " ".intercalate (c.program :: c.args)

def hasArg (c : ToolCommand) (arg : String) : Bool :=
  c.args.contains arg

def addArg (c : ToolCommand) (arg : String) : ToolCommand :=
  { c with args := c.args ++ [arg] }

end ToolCommand

structure ToolOutput where
  /-- The exit code, unless a signal ended the tool. -/
  code : Option Int
  stdout : String
  stderr : String
deriving DecidableEq

namespace ToolOutput

def success (o : ToolOutput) : Bool := o.code = some 0

def status (o : ToolOutput) : String :=
  match o.code with
  | some code => s!"exit status {code}"
  | none => "killed by signal"

/--
All that the tool printed: the standard output and then the errors. The errors begin on a line of
their own.
-/
def combined (o : ToolOutput) : String :=
  if o.stderr.isEmpty then o.stdout
  else if o.stdout.isEmpty || o.stdout.toList.getLast? = some '\n' then o.stdout ++ o.stderr
  else o.stdout ++ "\n" ++ o.stderr

/--
The last line printed that contains the marker. An empty marker is on no line.
-/
def markedLine? (o : ToolOutput) (marker : String) : Option String :=
  if marker.isEmpty then none
  else
    ((Text.lines o.combined.toList).filter (Text.occursIn marker.toList)).getLast?.map
      String.ofList

end ToolOutput

end BringUp
