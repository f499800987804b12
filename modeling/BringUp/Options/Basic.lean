import BringUp.Environment
import BringUp.Duration

/-!
This module contains the settings for building, writing and starting one board.
-/

namespace BringUp

/--
How boards are built. A build goes to `buildDir` if that is set, or else to `envBuildDir`, or else
to the directory of the board inside `buildBase`.
-/
structure ProviderOptions where
  tool : String
  buildBase : String
  workdirs : String
  sourceDir : String
  buildDir : Option String
  envBuildDir : Option String
  envSourceDir : Option String
  boardOverride : Option String
  bl31 : Option String
  binmanIndir : Option String
  doClean : Bool
  nonFunctionalMarker : String
  primaryFlag : String
  fallbackFlag : String
  unsupportedFlagPattern : String
  splBannerTimes : Option UInt32
deriving DecidableEq

namespace ProviderOptions

def buildDirVariable : String := "U_BOOT_BUILD_DIR"

def sourceDirVariable : String := "U_BOOT_SOURCE_DIR"

def defaultTool : String := "buildman"

def defaultBuildBase (env : Environment) : String := Path.join env.buildCache "b"

def defaultWorkdirs (env : Environment) : String := Path.join env.buildCache "workdirs"

def defaultSourceDir : String := "."

def defaultNonFunctionalMarker : String := "is non-functional"

def defaultPrimaryFlag : String := "--fallback-mrproper"

def defaultFallbackFlag : String := "-m"

def defaultUnsupportedFlagPattern : String := "no such option: --fallback-mrproper"

def initial (env : Environment) : ProviderOptions where
  tool := defaultTool
  buildBase := defaultBuildBase env
  workdirs := defaultWorkdirs env
  sourceDir := defaultSourceDir
  buildDir := none
  envBuildDir := none
  envSourceDir := none
  boardOverride := none
  bl31 := none
  binmanIndir := none
  doClean := false
  nonFunctionalMarker := defaultNonFunctionalMarker
  primaryFlag := defaultPrimaryFlag
  fallbackFlag := defaultFallbackFlag
  unsupportedFlagPattern := defaultUnsupportedFlagPattern
  splBannerTimes := none

/--
Take the directories that the environment names. An empty variable names none.
-/
def withEnvironment (o : ProviderOptions) (env : Environment) : ProviderOptions :=
  { o with
    envBuildDir := (env.getNonempty? buildDirVariable).or o.envBuildDir
    envSourceDir := (env.getNonempty? sourceDirVariable).or o.envSourceDir }

end ProviderOptions

structure WriterOptions where
  method : String
  bl1 : Option String
  bl2 : Option String
  tzsw : Option String
  settleDelayMs : UInt64
deriving DecidableEq

namespace WriterOptions

def defaultMethod : String := "qemu"

def defaultSettleDelayMs : UInt64 := 1000

def initial : WriterOptions := ⟨defaultMethod, none, none, none, defaultSettleDelayMs⟩

def forMethod (method : String) : WriterOptions := { initial with method }

def settleDelay (o : WriterOptions) : Nat := o.settleDelayMs.toNat

end WriterOptions

structure StrategyOptions where
  board : String
  sendOnly : Bool
  doBootstrap : Bool
  doBuild : Bool
  doSend : Bool
  commit : Option String
  patch : Option String
  recoverySettleMs : UInt64
  interruptTimeoutSecs : UInt64
  readyCommand : String
deriving DecidableEq

namespace StrategyOptions

def defaultRecoverySettleMs : UInt64 := 200

def defaultInterruptTimeoutSecs : UInt64 := 30

def defaultReadyCommand : String := "systemctl is-system-running --wait"

def initial : StrategyOptions where
  board := ""
  sendOnly := false
  doBootstrap := false
  doBuild := false
  doSend := false
  commit := none
  patch := none
  recoverySettleMs := defaultRecoverySettleMs
  interruptTimeoutSecs := defaultInterruptTimeoutSecs
  readyCommand := defaultReadyCommand

def forBoard (board : String) : StrategyOptions := { initial with board }

def useSend (o : StrategyOptions) : Bool := o.sendOnly || o.doSend

def recoverySettle (o : StrategyOptions) : Nat := o.recoverySettleMs.toNat

def interruptTimeout (o : StrategyOptions) : Nat := 1000 * o.interruptTimeoutSecs.toNat

end StrategyOptions

structure Options where
  provider : ProviderOptions
  writer : WriterOptions
  strategy : StrategyOptions
deriving DecidableEq

def Options.initial (env : Environment) : Options :=
  ⟨.initial env, .initial, .initial⟩

end BringUp
