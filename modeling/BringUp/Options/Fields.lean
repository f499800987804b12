import BringUp.Options.Basic
import BringUp.Record.Field

/-!
This module contains the written form of the settings. A field says itself what it is where it is
not given.
-/

namespace BringUp

open Record

variable (δ : Type) [Source δ]

def ProviderOptions.fields (env : Environment) : List (Field δ ProviderOptions) :=
  [ textField "tool" defaultTool (·.tool) fun v o => { o with tool := v },
    textField "build_base" (defaultBuildBase env) (·.buildBase)
      fun v o => { o with buildBase := v },
    textField "workdirs" (defaultWorkdirs env) (·.workdirs) fun v o => { o with workdirs := v },
    textField "source_dir" defaultSourceDir (·.sourceDir) fun v o => { o with sourceDir := v },
    optionalTextField "build_dir" (·.buildDir) fun v o => { o with buildDir := v },
    optionalTextField "env_build_dir" (·.envBuildDir) fun v o => { o with envBuildDir := v },
    optionalTextField "env_source_dir" (·.envSourceDir) fun v o => { o with envSourceDir := v },
    optionalTextField "board_override" (·.boardOverride) fun v o => { o with boardOverride := v },
    optionalTextField "bl31" (·.bl31) fun v o => { o with bl31 := v },
    optionalTextField "binman_indir" (·.binmanIndir) fun v o => { o with binmanIndir := v },
    flagField "do_clean" (·.doClean) fun v o => { o with doClean := v },
    textField "non_functional_marker" defaultNonFunctionalMarker (·.nonFunctionalMarker)
      fun v o => { o with nonFunctionalMarker := v },
    textField "primary_flag" defaultPrimaryFlag (·.primaryFlag)
      fun v o => { o with primaryFlag := v },
    textField "fallback_flag" defaultFallbackFlag (·.fallbackFlag)
      fun v o => { o with fallbackFlag := v },
    textField "unsupported_flag_pattern" defaultUnsupportedFlagPattern (·.unsupportedFlagPattern)
      fun v o => { o with unsupportedFlagPattern := v },
    optionalUInt32Field "spl_banner_times" (·.splBannerTimes)
      fun v o => { o with splBannerTimes := v } ]

def WriterOptions.fields : List (Field δ WriterOptions) :=
  [ textField "method" defaultMethod (·.method) fun v o => { o with method := v },
    optionalTextField "bl1" (·.bl1) fun v o => { o with bl1 := v },
    optionalTextField "bl2" (·.bl2) fun v o => { o with bl2 := v },
    optionalTextField "tzsw" (·.tzsw) fun v o => { o with tzsw := v },
    uint64Field "settle_delay_ms" defaultSettleDelayMs (·.settleDelayMs)
      fun v o => { o with settleDelayMs := v } ]

def StrategyOptions.fields : List (Field δ StrategyOptions) :=
  [ textField "board" "" (·.board) fun v o => { o with board := v },
    flagField "send_only" (·.sendOnly) fun v o => { o with sendOnly := v },
    flagField "do_bootstrap" (·.doBootstrap) fun v o => { o with doBootstrap := v },
    flagField "do_build" (·.doBuild) fun v o => { o with doBuild := v },
    flagField "do_send" (·.doSend) fun v o => { o with doSend := v },
    optionalTextField "commit" (·.commit) fun v o => { o with commit := v },
    optionalTextField "patch" (·.patch) fun v o => { o with patch := v },
    uint64Field "recovery_settle_ms" defaultRecoverySettleMs (·.recoverySettleMs)
      fun v o => { o with recoverySettleMs := v },
    uint64Field "interrupt_timeout_secs" defaultInterruptTimeoutSecs (·.interruptTimeoutSecs)
      fun v o => { o with interruptTimeoutSecs := v },
    textField "ready_command" defaultReadyCommand (·.readyCommand)
      fun v o => { o with readyCommand := v } ]

def Options.fields (env : Environment) : List (Field δ Options) :=
  [ recordField "provider" (ProviderOptions.fields δ env) (.initial env) (·.provider)
      fun v o => { o with provider := v },
    recordField "writer" (WriterOptions.fields δ) .initial (·.writer)
      fun v o => { o with writer := v },
    recordField "strategy" (StrategyOptions.fields δ) .initial (·.strategy)
      fun v o => { o with strategy := v } ]

variable {δ}

def ProviderOptions.read (env : Environment) (v : δ) : Option ProviderOptions :=
  Record.read (ProviderOptions.fields δ env) (.initial env) v

def WriterOptions.read (v : δ) : Option WriterOptions :=
  Record.read (WriterOptions.fields δ) .initial v

def StrategyOptions.read (v : δ) : Option StrategyOptions :=
  Record.read (StrategyOptions.fields δ) .initial v

def Options.read (env : Environment) (v : δ) : Option Options :=
  Record.read (Options.fields δ env) (.initial env) v

def WriterOptions.write (o : WriterOptions) : Json :=
  Record.write (WriterOptions.fields Json) o

def StrategyOptions.write (o : StrategyOptions) : Json :=
  Record.write (StrategyOptions.fields Json) o

/--
Write all settings. No environment takes part, since every field is given.
-/
def Options.write (o : Options) : Json :=
  Record.write (Options.fields Json []) o

end BringUp
