import BringUp.Rehearsal.Bench

/-!
This module contains what can be changed on a bench between the steps of a rehearsal, and what can
be observed of a step.
-/

namespace BringUp.Rehearsal

inductive Change where
  | failOn (d : Device) (pattern : String)
  | clearFailures (d : Device)
  | consoleOutput (bytes : List UInt8)
  | interrupt (behavior : InterruptBehavior)
  | interruptDelay (ms : Nat)
  | version (text : String)
  | shellStatus (status : Int)
  | shellLines (lines : List String)
  | respond (r : Response)
  | startError (pattern reason : String)
  | clearStartErrors
  | noArtifacts
  | makeDirectories (path : String)
  | writeFile (path text : String)
  | remove (path : String)
deriving DecidableEq

namespace Bench

def change (b : Bench) : Change → Bench
  | .failOn d pattern => { b with failures := b.failures ++ [(d, pattern)] }
  | .clearFailures d => { b with failures := b.failures.filter (·.1 ≠ d) }
  | .consoleOutput bytes => { b with console := bytes }
  | .interrupt behavior => { b with behavior }
  | .interruptDelay ms => { b with interruptDelay := ms }
  | .version text => { b with version := text }
  | .shellStatus status => { b with shellStatus := status }
  | .shellLines lines => { b with shellLines := some lines }
  | .respond r => { b with responses := b.responses ++ [r] }
  | .startError pattern reason => { b with startErrors := b.startErrors ++ [(pattern, reason)] }
  | .clearStartErrors => { b with startErrors := [] }
  | .noArtifacts => { b with producesArtifacts := false }
  | .makeDirectories path => (b.onFiles (FileTree.makeDirectories path)).2
  | .writeFile path text => (b.onFiles (FileTree.write path text)).2
  | .remove path => { b with files := b.files.remove path }

def toolCommands (b : Bench) : List ToolCommand :=
  (b.commands.filter (·.started)).map (·.command)

def toolLines (b : Bench) (text : String) : List String :=
  (b.toolCommands.map ToolCommand.line).filter (Text.contains · text)

def prebuild (b : Bench) (base board : String) : Except String String × Bench :=
  let dir := Path.join base board
  b.onFiles do
    FileTree.makeDirectories dir
    FileTree.write (Path.join dir "u-boot.bin") "u-boot"
    return dir

end Bench

structure Observation (σ α : Type) where
  result : Option (Except Error α)
  state : σ
  bench : Bench
  events : EventLog
  commands : List CommandRecord
  elapsed : Nat

def observe (b : Bench) (deadline : Option Nat) (p : Program σ Error α) (s : σ)
    : Observation σ α :=
  let r := p.run Bench.lab deadline s b 0
  ⟨r.result, r.state, r.lab, r.lab.log.drop b.log.length,
    r.lab.commands.drop b.commands.length, r.now⟩

def patience : Nat := 3600000

end BringUp.Rehearsal
