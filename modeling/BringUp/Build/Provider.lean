import BringUp.Build.Worktree

/-!
This module contains the making of builds: the command that builds a board, when it is run a second
time, and which checks its output has to pass.
-/

namespace BringUp.ProviderOptions

open Program

variable {σ : Type}

def buildCommand (o : ProviderOptions) (board buildPath : String) (configOnly : Bool)
    (source : String) : ToolCommand where
  program := o.tool
  args :=
    ["-o", buildPath, "-w", "--board", board, "-W", "-ve"]
      ++ (if configOnly then ["--config-only"] else [])
      ++ (if o.doClean then [o.fallbackFlag] else [])
  cwd := some source
  envs :=
    (o.bl31.map ("BL31", ·)).toList ++ (o.binmanIndir.map ("BINMAN_INDIRS", ·)).toList

/--
Run a build command with the primary flag and, if the build tool does not know that one, with the
fallback flag.
-/
def runBuild (o : ProviderOptions) (board : String) (command : ToolCommand)
    : Program σ Error ToolOutput := do
  let primary := command.addArg o.primaryFlag
  match ← host (.run primary) with
  | .error reason => raise (.toolInvocationFailed primary.line board "not started" reason)
  | .ok output =>
    if output.success then pure output
    else if Text.contains output.combined o.unsupportedFlagPattern then
      (command.addArg o.fallbackFlag).runChecked board
    else raise (.toolInvocationFailed primary.line board output.status output.combined)

def checkOutput (o : ProviderOptions) (board : String) (output : ToolOutput) : Except Error Unit :=
  match output.markedLine? o.nonFunctionalMarker with
  | some line => .error (.nonFunctionalArtifact board line)
  | none => .ok ()

def collect (o : ProviderOptions) (board buildPath : String) : Program σ Error BuildResult := do
  if !(← host (.isPopulated buildPath)) then raise (.missingArtifacts board buildPath)
  else
    match o.binmanIndir with
    | none => pure ⟨buildPath, none⟩
    | some dir =>
      if ← host (.isDirectory dir) then pure ⟨buildPath, some dir⟩
      else raise (.missingArtifacts board dir)

/--
Build a commit, with a patch if there is one, in the worktree of a board, or else build the source
tree as it is. The result is the directory that is built from.
-/
def prepareSource (o : ProviderOptions) (board : String) (r : BuildRequest)
    : Program σ Error String := do
  match r.commit with
  | none => pure o.sourceTree.1
  | some commit =>
    let worktree ← Worktree.setup o board commit
    match r.patch with
    | none => pure worktree.path
    | some patch =>
      worktree.applyPatch patch
      pure worktree.path

def build (o : ProviderOptions) (r : BuildRequest) : Program σ Error BuildResult := do
  if r.board.isEmpty then raise .emptyBoard
  else
    let board := o.effectiveBoard r.board
    let path := o.outputOf board
    let source ← o.prepareSource board r
    let output ← o.runBuild board (o.buildCommand board path r.configOnly source)
    ofExcept (o.checkOutput board output)
    o.collect board path

def queryInfo (o : ProviderOptions) (board : String) (info : BuildInfo)
    : Program σ Error (Option String) := do
  let board := o.effectiveBoard board
  match info with
  | .board => pure (some board)
  | .buildDir => pure (some (o.outputOf board))
  | .sourceDir => pure (some o.sourceTree.1)
  | .configFile =>
    let result ← o.build ⟨board, none, none, true⟩
    pure (some (Path.join result.buildPath ".config"))
  | .splBannerTimes => pure (o.splBannerTimes.map fun n => toString n.toNat)

end BringUp.ProviderOptions
