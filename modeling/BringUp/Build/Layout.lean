import BringUp.Options.Basic

/-!
This module contains where builds, sources and worktrees are.
-/

namespace BringUp

inductive SourceOrigin where
  | environment
  | repository
  | worktree
deriving DecidableEq

def SourceOrigin.describe : SourceOrigin → String
  | environment => "in pytest-source dir"
  | repository => "in sourcedir"
  | worktree => "in workdir"

namespace ProviderOptions

def effectiveBoard (o : ProviderOptions) (board : String) : String :=
  o.boardOverride.getD board

def outputOf (o : ProviderOptions) (board : String) : String :=
  (o.buildDir.or o.envBuildDir).getD (Path.join o.buildBase board)

def buildPath (o : ProviderOptions) (board : String) : String :=
  o.outputOf (o.effectiveBoard board)

def sourceTree (o : ProviderOptions) : String × SourceOrigin :=
  match o.envSourceDir with
  | some dir => (dir, .environment)
  | none => (o.sourceDir, .repository)

def worktreePath (o : ProviderOptions) (board : String) : String :=
  Path.join o.workdirs board

end ProviderOptions

end BringUp
