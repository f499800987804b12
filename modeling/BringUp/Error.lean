import BringUp.Boot.State
import BringUp.Duration

/-!
This module contains the causes for which bringing up a board fails, and their wording.
-/

namespace BringUp

inductive Error where
  | invalidTransition (target : BootState)
  | noTransitionPath (origin target : BootState) (reason : String)
  | unsupportedForcedState (target : BootState)
  | unknownState (name : String)
  | toolInvocationFailed (command board status output : String)
  | nonFunctionalArtifact (board line : String)
  | patchApplyFailed (patch board output : String)
  | missingArtifacts (board path : String)
  | unsupportedWriteMethod (operation method : String)
  | writeFailed (stage method reason : String)
  | sendFailed (stage method reason : String)
  | interruptTimeout (elapsed : Duration) (consoleOutput : String)
  | shellCommandFailed (command : String) (status : Int) (output : String)
  | capability (name reason : String)
  | relay (reason : String)
  | config (reason : String)
deriving DecidableEq

namespace Error

def message : Error → String
  | invalidTransition target => s!"can not transition to {target.name}"
  | noTransitionPath origin target reason =>
    s!"no transition found from {origin.name} to {target.name}: {reason}"
  | unsupportedForcedState target => s!"can not force state {target.name}"
  | unknownState name => s!"unknown state '{name}'"
  | toolInvocationFailed command board status output =>
    s!"{command} failed for board {board} ({status}):\n{output}"
  | nonFunctionalArtifact board line => s!"build failed for board {board}: {line}"
  | patchApplyFailed patch board output =>
    s!"failed to apply patch {patch} for board {board}:\n{output}"
  | missingArtifacts board path => s!"build for board {board} produced no artifacts in {path}"
  | unsupportedWriteMethod operation method => s!"unknown {operation} method '{method}'"
  | writeFailed stage method reason => s!"writing {stage} with method {method} failed: {reason}"
  | sendFailed stage method reason => s!"sending {stage} with method {method} failed: {reason}"
  | interruptTimeout elapsed consoleOutput =>
    s!"timed out after {elapsed.secondsText}s waiting for the bootloader prompt; console output:\n"
      ++ consoleOutput
  | shellCommandFailed command status output =>
    s!"command '{command}' exited with status {status}:\n{output}"
  | capability name reason => s!"{name}: {reason}"
  | relay reason => s!"console relay: {reason}"
  | config reason => s!"config: {reason}"

def isInterruptTimeout : Error → Bool
  | interruptTimeout .. => true
  | _ => false

def emptyBoard : Error := config "board name must not be empty"

end Error

end BringUp
