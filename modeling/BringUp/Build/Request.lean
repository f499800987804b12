import BringUp.Error
import BringUp.Text.Search

/-!
This module contains what can be asked of a provider of builds, and what it yields.
-/

namespace BringUp

inductive Patch where
  | file (path : String)
  | inline (text : String)
deriving DecidableEq

def Patch.describe : Patch → String
  | file path => path
  | inline text => s!"<inline patch, {text.utf8ByteSize} bytes>"

/--
A build to be made. A patch counts only together with a commit.
-/
structure BuildRequest where
  board : String
  commit : Option String
  patch : Option Patch
  configOnly : Bool
deriving DecidableEq

structure BuildResult where
  buildPath : String
  blobDir : Option String
deriving DecidableEq

def BuildResult.dirs (r : BuildResult) : List String :=
  r.buildPath :: r.blobDir.toList

inductive BuildInfo where
  | board
  | buildDir
  | sourceDir
  | configFile
  | splBannerTimes
deriving DecidableEq

namespace BuildInfo

def all : List BuildInfo :=
  [board, buildDir, sourceDir, configFile, splBannerTimes]

def name : BuildInfo → String
  | board => "board"
  | buildDir => "build_dir"
  | sourceDir => "source_dir"
  | configFile => "config_file"
  | splBannerTimes => "spl_banner_times"

/--
Find a question by its name. Hyphens may stand for underscores.
-/
def parse (s : String) : Except Error BuildInfo :=
  match all.find? (·.name = Text.mapChar '-' '_' s) with
  | some i => .ok i
  | none => .error (.config s!"unknown build info '{s}'")

end BuildInfo

end BringUp
