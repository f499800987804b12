import BringUp.Build.Layout
import BringUp.Build.Request
import BringUp.Lab.Program

/-!
This module contains the worktrees that commits are built in, one for each board. A worktree is
created once and reset on every reuse. A patch that does not apply is cleared away again.
-/

namespace BringUp

open Program

variable {σ : Type}

def ToolCommand.runChecked (command : ToolCommand) (board : String)
    : Program σ Error ToolOutput := do
  match ← host (.run command) with
  | .error reason => raise (.toolInvocationFailed command.line board "not started" reason)
  | .ok output =>
    if output.success then pure output
    else raise (.toolInvocationFailed command.line board output.status output.combined)

structure Worktree where
  board : String
  path : String
deriving DecidableEq

namespace Worktree

def git (dir : String) (args : List String) (cwd : Option String) : ToolCommand :=
  ⟨"git", "-C" :: dir :: args, cwd, []⟩

abbrev isPresent (o : ProviderOptions) (board : String) : Program σ Error Bool :=
  host (.pathExists (o.worktreePath board))

def selectCommit (o : ProviderOptions) (board commit : String) : Program σ Error Unit := do
  let _ ← (git (o.worktreePath board) ["checkout", commit] none).runChecked board

def setup (o : ProviderOptions) (board commit : String) : Program σ Error Worktree := do
  let path := o.worktreePath board
  if ← isPresent o board then
    let _ ← (git path ["reset", "--hard"] (some o.workdirs)).runChecked board
  else
    match ← host (.createDirs o.workdirs) with
    | .error reason => raise (.config s!"failed to create workdirs {o.workdirs}: {reason}")
    | .ok () => pure ()
    let add := git o.sourceDir ["worktree", "add", "--detach", path] (some o.workdirs)
    let _ ← add.runChecked board
  selectCommit o board commit
  pure ⟨board, path⟩

/--
Apply a patch file. Of a patch that does not apply nothing is left in the worktree, and what the
attempt printed is reported.
-/
def applyFile (w : Worktree) (patch : Patch) (file : String) : Program σ Error Unit := do
  let command := git w.path ["apply", file] none
  let failed (output : String) : Program σ Error Unit := do
    let _ ← host (.run (git w.path ["am", "--abort"] none))
    let _ ← host (.run (git w.path ["reset", "--hard"] none))
    raise (.patchApplyFailed patch.describe w.board output)
  match ← host (.run command) with
  | .ok output => if output.success then pure () else failed output.combined
  | .error reason => failed s!"failed to run {command.line}: {reason}"

/--
Apply a patch. The text of an inline patch is put into a file for as long as that takes.
-/
def applyPatch (w : Worktree) (patch : Patch) : Program σ Error Unit := do
  match patch with
  | .file path => w.applyFile patch path
  | .inline text =>
    match ← host (.createPatch text) with
    | .error reason =>
      raise (.patchApplyFailed patch.describe w.board s!"failed to write patch file: {reason}")
    | .ok path =>
      let result ← (w.applyFile patch path).attempt
      host (.removePatch path)
      ofExcept result

end Worktree

end BringUp
