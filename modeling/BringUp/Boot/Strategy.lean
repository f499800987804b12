import BringUp.Build.Provider
import BringUp.Image.Writer
import BringUp.Text.Utf8

/-!
This module contains the steps that take a board from one state to the next, and the transitions
that run them. Every transition first runs the one to the state before, and does nothing if the
board is in its state already.
-/

namespace BringUp

open Program

structure BootReport where
  version : String
  duration : Nat
deriving DecidableEq

structure BoardStatus where
  state : BootState
  bootstrapped : Bool
  report : Option BootReport
deriving DecidableEq

def BoardStatus.fresh : BoardStatus := ⟨.unknown, false, none⟩

structure ResetLine where
  resource : String
  /-- Whether holding reset keeps USB devices from appearing. -/
  blocksUsb : Bool
deriving DecidableEq

structure Strategy where
  options : StrategyOptions
  provider : ProviderOptions
  writer : Writer
  powerResource : String
  reset : Option ResetLine
  recovery : Bool
deriving DecidableEq

abbrev Drive (α : Type) := Program BoardStatus Error α

namespace Strategy

def labMode (s : Strategy) : Bool := s.provider.envSourceDir.isSome

def sharesPower (s : Strategy) (reset : ResetLine) : Bool :=
  reset.resource = s.powerResource

def reach (target : BootState) (step : Drive Unit) : Drive Unit := do
  let status ← state
  if status.state = target then pure ()
  else
    step
    modify fun status => { status with state := target }

def powerOff : Drive Unit := do
  device (.deactivate .console)
  device (.activate .power)
  device (.power .off)

def locateBuild (s : Strategy) : Drive String := do
  if s.options.board.isEmpty then raise .emptyBoard
  else if s.options.doBuild then
    let result ← s.provider.build
      ⟨s.options.board, s.options.commit, s.options.patch.map .file, false⟩
    pure result.buildPath
  else pure (s.provider.buildPath s.options.board)

def requestRecovery : Drive Unit := do
  device (.activate .recovery)
  device (.recovery true)

def enterRecovery (s : Strategy) (reset : ResetLine) : Drive Unit := do
  device (.activate .power)
  device (.activate .reset)
  device (.power .on)
  if reset.blocksUsb then
    requestRecovery
    device (.reset true .warm)
  else
    device (.reset true .warm)
    requestRecovery
  device (.activate .console)
  device (.reset false .warm)
  sleep s.options.recoverySettle
  device (.recovery false)

def recoveryReset (s : Strategy) : Drive ResetLine := do
  match s.reset, s.recovery with
  | some reset, true => pure reset
  | _, _ =>
    let status ← state
    raise (.noTransitionPath status.state .bootstrapped
      "sending over USB needs reset and recovery capabilities")

def install (s : Strategy) : Drive Unit := do
  if s.options.useSend then
    let reset ← s.recoveryReset
    let dir ← s.locateBuild
    s.enterRecovery reset
    s.writer.send dir
  else
    let dir ← s.locateBuild
    s.writer.write dir

def bootstrap (s : Strategy) : Drive Unit := asPart .bootstrap do
  s.install
  modify fun status => { status with bootstrapped := true }

def powerUp (s : Strategy) : Drive Unit := do
  device (.activate .console)
  match s.reset with
  | none =>
    device (.activate .power)
    device (.power .cycle)
  | some reset =>
    device (.activate .reset)
    device (.reset true .cold)
    if !s.sharesPower reset then
      device (.activate .power)
      device (.power .cycle)
    device (.reset false .cold)

def prepare (s : Strategy) (toBootstrapped : Drive Unit) : Drive Unit := do
  let status ← state
  if !status.bootstrapped && s.options.doBootstrap then toBootstrapped
  else s.writer.prepareBoot

def start (s : Strategy) (toBootstrapped : Drive Unit) : Drive Unit := asPart .start do
  s.prepare toBootstrapped
  if s.options.useSend then pure ()
  else s.powerUp

def drainConsole : Drive String := do
  match ← attempt (device .consoleOutput) with
  | .ok bytes => pure (Text.Utf8.decodeLossy bytes)
  | .error _ => pure ""

def timedOut (began : Nat) : Drive α := do
  let output ← drainConsole
  let now ← clock
  raise (.interruptTimeout (.ofMillis (now - began)) output)

def readReport (startedAt : Nat) : Drive BootReport := do
  let _ ← device .bootloaderOutput
  let version ← device .bootloaderVersion
  let now ← clock
  pure ⟨version, now - startedAt⟩

def interrupt (s : Strategy) (startedAt : Nat) : Drive BootReport := do
  let began ← clock
  match ← ask (.interrupt s.options.interruptTimeout) with
  | some (.ok ()) => readReport startedAt
  | some (.error e) => if e.isInterruptTimeout then timedOut began else raise e
  | none => timedOut began

def bootToShell (s : Strategy) : Drive Unit := do
  device (.boot "")
  device .awaitBoot
  device (.activate .shell)
  let output ← device (.shellRun s.options.readyCommand)
  if output.success then pure ()
  else
    raise (.shellCommandFailed s.options.readyCommand output.exitStatus
      ("\n".intercalate output.stdout))

def toOff : Drive Unit :=
  reach .off powerOff

def toBootstrapped (s : Strategy) : Drive Unit :=
  reach .bootstrapped s.bootstrap

def toStarted (s : Strategy) : Drive Unit :=
  reach .started do
    toOff
    s.start s.toBootstrapped

def toBootloader (s : Strategy) : Drive Unit :=
  reach .bootloader do
    let startedAt ← clock
    s.toStarted
    let report ← s.interrupt startedAt
    modify fun status => { status with report := some report }

def toShell (s : Strategy) : Drive Unit :=
  reach .shell do
    s.toBootloader
    s.bootToShell

def drive (s : Strategy) : BootState → Drive Unit
  | .unknown => raise (.invalidTransition .unknown)
  | .off => toOff
  | .bootstrapped => s.toBootstrapped
  | .started => s.toStarted
  | .bootloader => s.toBootloader
  | .shell => s.toShell

/--
Take the board to a state. If that fails, the state it was in before is kept, whatever states it
went through.
-/
def transition (s : Strategy) (target : BootState) : Drive Unit := do
  let before ← state
  match ← attempt (s.drive target) with
  | .ok () => pure ()
  | .error e =>
    modify fun status => { status with state := before.state }
    raise e

def attach : BootState → Drive Unit
  | .off => device (.activate .power)
  | .bootloader => device (.activate .bootloader)
  | .shell => device (.activate .shell)
  | target => raise (.unsupportedForcedState target)

def force (target : BootState) : Drive Unit := do
  attach target
  modify fun status => { status with state := target }

def named (name : String) : Except Error BootState :=
  match BootState.ofName? name with
  | some target => .ok target
  | none => .error (.unknownState name)

def transitionNamed (s : Strategy) (name : String) : Drive Unit := do
  let target ← ofExcept (named name)
  s.transition target

def forceNamed (name : String) : Drive Unit := do
  let target ← ofExcept (named name)
  force target

end Strategy

end BringUp
