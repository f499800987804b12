import BringUp.Options.Fields
import BringUp.Proofs.Record.Members
import BringUp.Proofs.Text.Json.RoundTrip

/-!
This module contains how the settings are read that were written. The main statement is that they
are read as they were, and that those left out are read as the initial ones, whichever they are.
-/

namespace BringUp

open Record

def ProviderOptions.without (o : ProviderOptions) (env : Environment) (absent : String → Bool)
    : ProviderOptions :=
  let d := initial env
  { tool := if absent "tool" then d.tool else o.tool
    buildBase := if absent "build_base" then d.buildBase else o.buildBase
    workdirs := if absent "workdirs" then d.workdirs else o.workdirs
    sourceDir := if absent "source_dir" then d.sourceDir else o.sourceDir
    buildDir := if absent "build_dir" then d.buildDir else o.buildDir
    envBuildDir := if absent "env_build_dir" then d.envBuildDir else o.envBuildDir
    envSourceDir := if absent "env_source_dir" then d.envSourceDir else o.envSourceDir
    boardOverride := if absent "board_override" then d.boardOverride else o.boardOverride
    bl31 := if absent "bl31" then d.bl31 else o.bl31
    binmanIndir := if absent "binman_indir" then d.binmanIndir else o.binmanIndir
    doClean := if absent "do_clean" then d.doClean else o.doClean
    nonFunctionalMarker :=
      if absent "non_functional_marker" then d.nonFunctionalMarker else o.nonFunctionalMarker
    primaryFlag := if absent "primary_flag" then d.primaryFlag else o.primaryFlag
    fallbackFlag := if absent "fallback_flag" then d.fallbackFlag else o.fallbackFlag
    unsupportedFlagPattern :=
      if absent "unsupported_flag_pattern" then d.unsupportedFlagPattern
      else o.unsupportedFlagPattern
    splBannerTimes := if absent "spl_banner_times" then d.splBannerTimes else o.splBannerTimes }

def WriterOptions.without (o : WriterOptions) (absent : String → Bool) : WriterOptions :=
  let d := initial
  { method := if absent "method" then d.method else o.method
    bl1 := if absent "bl1" then d.bl1 else o.bl1
    bl2 := if absent "bl2" then d.bl2 else o.bl2
    tzsw := if absent "tzsw" then d.tzsw else o.tzsw
    settleDelayMs := if absent "settle_delay_ms" then d.settleDelayMs else o.settleDelayMs }

def StrategyOptions.without (o : StrategyOptions) (absent : String → Bool) : StrategyOptions :=
  let d := initial
  { board := if absent "board" then d.board else o.board
    sendOnly := if absent "send_only" then d.sendOnly else o.sendOnly
    doBootstrap := if absent "do_bootstrap" then d.doBootstrap else o.doBootstrap
    doBuild := if absent "do_build" then d.doBuild else o.doBuild
    doSend := if absent "do_send" then d.doSend else o.doSend
    commit := if absent "commit" then d.commit else o.commit
    patch := if absent "patch" then d.patch else o.patch
    recoverySettleMs :=
      if absent "recovery_settle_ms" then d.recoverySettleMs else o.recoverySettleMs
    interruptTimeoutSecs :=
      if absent "interrupt_timeout_secs" then d.interruptTimeoutSecs else o.interruptTimeoutSecs
    readyCommand := if absent "ready_command" then d.readyCommand else o.readyCommand }

/--
The settings with some of them as they are initially. A setting is given by the names on the way to
it, and a whole part of the settings by its name alone.
-/
def Options.without (o : Options) (env : Environment) (absent : List String → Bool) : Options where
  provider :=
    if absent ["provider"] then .initial env
    else o.provider.without env fun name => absent ["provider", name]
  writer :=
    if absent ["writer"] then .initial else o.writer.without fun name => absent ["writer", name]
  strategy :=
    if absent ["strategy"] then .initial
    else o.strategy.without fun name => absent ["strategy", name]

/--
What may be left of the written settings: the members of each part except those left out, in any
order and among members that have other names. What is left out is given as in `Options.without`.
-/
def Options.Omits (o : Options) (absent : List String → Bool) (given : List (String × Json))
    : Prop :=
  ∃ provider writer strategy,
    Partly (fun name => absent ["provider", name])
      (members (ProviderOptions.fields Json []) o.provider) provider ∧
    Partly (fun name => absent ["writer", name]) (members (WriterOptions.fields Json) o.writer)
      writer ∧
    Partly (fun name => absent ["strategy", name])
      (members (StrategyOptions.fields Json) o.strategy) strategy ∧
    Partly (fun name => absent [name])
      [("provider", .object provider), ("writer", .object writer), ("strategy", .object strategy)]
      given

section

variable {absent : String → Bool} {given : List (String × Json)}

attribute [local simp] textField optionalTextField flagField uint64Field optionalUInt32Field
  recordField valueField_name valueField_write

theorem WriterOptions.read_without (o : WriterOptions)
    (partly : Partly absent (members (fields Json) o) given)
    : WriterOptions.read (Json.object given) = some (o.without absent) := by
  unfold WriterOptions.read
  rw [read_partly (by decide) ?_ partly]
  . simp only [fields, textField, optionalTextField, uint64Field, List.foldl_cons, List.foldl_nil]
    simp only [valueField_fill, text?_string, optional?_text, uint64?_ofNat]
    rfl
  . simp [fields, valueField_faithful]

theorem StrategyOptions.read_without (o : StrategyOptions)
    (partly : Partly absent (members (fields Json) o) given)
    : StrategyOptions.read (Json.object given) = some (o.without absent) := by
  unfold StrategyOptions.read
  rw [read_partly (by decide) ?_ partly]
  . simp only [fields, textField, optionalTextField, flagField, uint64Field, List.foldl_cons,
      List.foldl_nil]
    simp only [valueField_fill, text?_string, flag?_bool, optional?_text, uint64?_ofNat]
    rfl
  . simp [fields, valueField_faithful]

-- Unification would compare the directories of the two environments before it drops them.
theorem ProviderOptions.members_fields (env : Environment) (o : ProviderOptions)
    : members (fields Json env) o = members (fields Json []) o := by
  simp [members, fields]

theorem ProviderOptions.fields_names (env : Environment)
    : (fields Json env).map Field.name = (fields Json []).map Field.name := by
  simp [fields]

theorem ProviderOptions.read_without (env : Environment) (o : ProviderOptions)
    (partly : Partly absent (members (fields Json []) o) given)
    : ProviderOptions.read env (Json.object given) = some (o.without env absent) := by
  have hnames : ((fields Json env).map Field.name).Nodup := by
    rw [fields_names]
    decide
  rw [← members_fields env] at partly
  unfold ProviderOptions.read
  rw [read_partly hnames ?_ partly]
  . simp only [fields, textField, optionalTextField, flagField, optionalUInt32Field,
      List.foldl_cons, List.foldl_nil]
    simp only [valueField_fill, text?_string, flag?_bool, optional?_text, optional?_uint32]
    rfl
  . simp [fields, valueField_faithful]

theorem Options.read_without {absent : List String → Bool} (env : Environment) (o : Options)
    (omits : o.Omits absent given)
    : Options.read env (Json.object given) = some (o.without env absent) := by
  obtain ⟨provider, writer, strategy, hprovider, hwriter, hstrategy, hgiven⟩ := omits
  have hnames : ["provider", "writer", "strategy"].Nodup := by decide
  have hpart {name : String} {v : Json}
      (hv : (name, v) ∈ [("provider", .object provider), ("writer", .object writer),
        ("strategy", .object strategy)])
      : given.filter (·.1 = name) = if absent [name] then [] else [(name, v)] :=
    hgiven.filter_name hnames hv
  have hread : Options.read env (Json.object given) =
      readNamed (Options.fields Json env) given (.initial env) := rfl
  rw [hread, Options.fields, readNamed_cons,
    recordField_readNamed (hpart (.head _)) (o.provider.read_without env hprovider),
    Option.bind_some, readNamed_cons,
    recordField_readNamed (hpart (.tail _ (.head _))) (o.writer.read_without hwriter),
    Option.bind_some, readNamed_cons,
    recordField_readNamed (hpart (.tail _ (.tail _ (.head _))))
      (o.strategy.read_without hstrategy)]
  rfl

theorem Options.omits_nothing (o : Options)
    : o.Omits (fun _ => false) (members (fields Json []) o) :=
  ⟨_, _, _, .refl, .refl, .refl, .refl⟩

theorem proper_record {ρ : Type} {fields : List (Field Json ρ)} {r : ρ}
    : Json.Proper (Record.write fields r) ↔ ∀ f ∈ fields, Json.Proper (f.write r) := by
  simp [Record.write]

theorem Options.proper_write (o : Options) : Json.Proper o.write := by
  have hprovider : Json.Proper (Record.write (ProviderOptions.fields Json []) o.provider) := by
    simp [proper_record, ProviderOptions.fields]
  have hwriter : Json.Proper (Record.write (WriterOptions.fields Json) o.writer) := by
    simp [proper_record, WriterOptions.fields]
  have hstrategy : Json.Proper (Record.write (StrategyOptions.fields Json) o.strategy) := by
    simp [proper_record, StrategyOptions.fields]
  simp [Options.write, proper_record, Options.fields, hprovider, hwriter, hstrategy]

/--
All settings are read as they were written. Those that are left out are read as the initial ones.
-/
theorem Options.read_omitted (env : Environment) (o : Options)
    : (Json.parse? o.write.compact).bind (Options.read env) = some o ∧
      ∀ absent given text, o.Omits absent given → Json.parse? text = some (.object given) →
        (Json.parse? text).bind (Options.read env) = some (o.without env absent) := by
  refine ⟨?_, fun absent given text omits htext => ?_⟩
  . rw [Json.parse?_compact o.proper_write, Option.bind_some]
    exact o.read_without env o.omits_nothing
  . rw [htext, Option.bind_some, o.read_without env omits]

end

namespace Options.sparse

def options : Options where
  provider :=
    { ProviderOptions.initial [] with tool := "moss", buildBase := "/tmp/b", doClean := true }
  writer := .forMethod "sunxi"
  strategy := { StrategyOptions.forBoard "orangepi_pc" with doBootstrap := true }

def absent (path : List String) : Bool :=
  path ∉ [["provider"], ["provider", "build_base"], ["provider", "do_clean"], ["strategy"],
    ["strategy", "board"], ["strategy", "do_bootstrap"]]

def provider : List (String × Json) := [("do_clean", .bool true), ("build_base", .string "/tmp/b")]

def strategy : List (String × Json) :=
  [("do_bootstrap", .bool true), ("colour", .null), ("board", .string "orangepi_pc")]

def given : List (String × Json) :=
  [("strategy", .object strategy), ("lab", .array [.integer 7]), ("provider", .object provider)]

def text : String := (Json.object given).compact

theorem parse?_text : Json.parse? text = some (.object given) :=
  Json.parse?_compact (by simp [given, provider, strategy])

theorem omits : options.Omits absent given :=
  ⟨provider, [], strategy, .swap .., .nil, .swap .., .swap ..⟩

end Options.sparse

theorem Options.sparse_read
    : (Json.parse? sparse.text).bind (Options.read []) =
        some
          { provider := { ProviderOptions.initial [] with buildBase := "/tmp/b", doClean := true }
            writer := .initial
            strategy := { StrategyOptions.forBoard "orangepi_pc" with doBootstrap := true } } :=
  (read_omitted [] sparse.options).right sparse.absent sparse.given sparse.text sparse.omits
    sparse.parse?_text

end BringUp
