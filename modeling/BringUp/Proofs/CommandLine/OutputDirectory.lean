import BringUp.CommandLine.Commands
import BringUp.Proofs.Boot.FailStop
import BringUp.Proofs.Build.Paths
import BringUp.Proofs.Image.Transfers

/-!
This module contains which directory builds are made in and images are taken from. The main
statement is that all commands and the installation of an image agree on it, and that it is named by
an option, or else by the configuration file, the environment or the board.
-/

namespace BringUp

open Program Trace

def ToolCommand.output? (command : ToolCommand) : Option String :=
  match command.args with
  | "-o" :: dir :: _ => some dir
  | _ => none

def Trace.outputs (t : List Event) : List String :=
  (toolRuns t).filterMap fun run => run.command.output?

abbrev Program.Toolless (p : Program σ ε α) : Prop :=
  p.Within fun c => ∀ command, c ≠ .host (.run command)

@[simp]
theorem Trace.outputs_nil : outputs [] = [] :=
  rfl

@[simp]
theorem Trace.outputs_append : outputs (h ++ t) = outputs h ++ outputs t := by
  simp [outputs]

theorem Trace.outputs_eq_nil (ht : ∀ e ∈ t, ∀ command, e.call ≠ .host (.run command))
    : outputs t = [] := by
  rw [outputs, toolRuns_eq_nil ht, List.filterMap_nil]

@[simp]
theorem Trace.outputs_cons_mark
    : outputs (⟨.mark m, start, stop, reply⟩ :: t) = outputs t :=
  rfl

def Program.BuildsIn (path : String) (required : Prop) (p : Program σ ε α) : Prop :=
  ∀ s now, p.Ensures
    (.either (fun _ _ _ t => (required → path ∈ outputs t) ∧ ∀ dir ∈ outputs t, dir = path)
      fun _ _ t => ∀ dir ∈ outputs t, dir = path)
    s now []

section

variable {σ ε ε' α β : Type} {required required' : Prop}

theorem buildsIn_of_toolless {p : Program σ ε α} (hp : p.Toolless) : p.BuildsIn path False := by
  intro s now
  apply hp.ensures
  intro r now t ht
  have unbuilt : outputs t = [] := outputs_eq_nil ht
  rcases r with _ | e | a <;> simp [unbuilt]

theorem outputs_run_eq_nil {p : Program σ ε α} (hp : p.Toolless) (lab : Lab ω) (s : σ) (w : ω)
    (now : Nat)
    : outputs (p.run lab none s w now).trace = [] := by
  have unbuilt : p.Ensures (fun _ _ _ t => outputs t = []) s now [] :=
    hp.ensures fun _ _ _ ht => outputs_eq_nil ht
  exact unbuilt.run lab w

theorem buildsIn_bind {p : Program σ ε α} {f : α → Program σ ε β} (hp : p.BuildsIn path required)
    (hf : ∀ a, (f a).BuildsIn path required')
    : (p >>= f).BuildsIn path (required ∨ required') := by
  intro s now
  rw [ensures_bind]
  apply (hp s now).mono
  intro r s now h hr
  rcases r with _ | e | a
  . exact hr
  . exact hr
  . obtain ⟨built, only⟩ := hr
    rw [Post.andThen_ok, ensures_iff_nil]
    apply (hf a s now).mono
    intro r _ _ t ht
    rcases r with _ | e | b
    . simpa [or_imp, forall_and] using ⟨only, ht⟩
    . simpa [or_imp, forall_and] using ⟨only, ht⟩
    . obtain ⟨built', only'⟩ := ht
      constructor
      . rw [outputs_append, List.mem_append]
        exact Or.imp built built'
      . simpa [or_imp, forall_and] using ⟨only, only'⟩

theorem buildsIn_then {p : Program σ ε α} {f : α → Program σ ε β} (hp : p.BuildsIn path required)
    (hf : ∀ a, (f a).Toolless)
    : (p >>= f).BuildsIn path required := by
  simpa using buildsIn_bind hp fun a => buildsIn_of_toolless (hf a)

theorem toolless_then_buildsIn {p : Program σ ε α} {f : α → Program σ ε β}
    (hp : p.Toolless)
    (hf : ∀ a, (f a).BuildsIn path required)
    : (p >>= f).BuildsIn path required := by
  simpa using buildsIn_bind (buildsIn_of_toolless hp) hf

theorem buildsIn_mono {p : Program σ ε α} (hp : p.BuildsIn path required) (h : required' → required)
    : p.BuildsIn path required' :=
  fun s now => (hp s now).mono_value fun _ _ _ _ built => ⟨built.left ∘ h, built.right⟩

theorem buildsIn_mapError {p : Program σ ε α} {f : ε → ε'} (hp : p.BuildsIn path required)
    : (p.mapError f).BuildsIn path required := by
  intro s now
  rw [ensures_mapError]
  apply (hp s now).mono
  intro r _ _ _ hr
  rcases r with _ | e | a <;> exact hr

theorem buildsIn_asPart {p : Program σ ε α} (hp : p.BuildsIn path required)
    : (asPart part p).BuildsIn path required := by
  intro s now
  apply ensures_asPart_either
  . rw [ensures_iff_nil]
    apply (hp s now).mono
    intro r _ _ t hr
    rcases r with _ | e | a
    . exact hr
    . exact hr
    . simpa using hr
  . intro s now h hh
    simpa using hh

theorem buildsIn_run {p : Program σ ε α} {value : α → Prop} (hp : p.BuildsIn path required)
    (hv : ∀ s now, p.Ensures (.either (fun a _ _ _ => value a) fun _ _ _ => True) s now [])
    (lab : Lab ω) (s : σ) (w : ω) (now : Nat)
    : (∀ dir ∈ outputs (p.run lab none s w now).trace, dir = path) ∧
        ∀ a, (p.run lab none s w now).result = some (.ok a) →
          value a ∧ (required → path ∈ outputs (p.run lab none s w now).trace) := by
  have run := ((hp s now).and (hv s now)).run lab w
  rw [List.nil_append] at run
  generalize (p.run lab none s w now).result = result at run ⊢
  rcases result with _ | e | a
  . exact ⟨run.left, by simp⟩
  . exact ⟨run.left, by simp⟩
  . obtain ⟨⟨built, only⟩, hvalue⟩ := run
    refine ⟨only, ?_⟩
    rintro _ ⟨rfl⟩
    exact ⟨hvalue, built⟩

theorem ProviderOptions.Issues.output? {o : ProviderOptions} {r : BuildRequest}
    (hi : o.Issues r command) (houtput : command.output? = some dir)
    : dir = o.buildPath r.board := by
  cases hi with
  | build flag => exact (Option.some.inj houtput).symm
  | add | reset | checkout | apply | abort | clear => cases houtput

theorem build_buildsIn (o : ProviderOptions) (r : BuildRequest)
    : (o.build r : Program σ Error BuildResult).BuildsIn (o.buildPath r.board) True := by
  have only {t : List Event} (ht : o.InSteps r t)
      : ∀ dir ∈ outputs t, dir = o.buildPath r.board := by
    intro dir hdir
    obtain ⟨run, hrun, houtput⟩ := List.mem_filterMap.mp hdir
    exact (ht.issues run hrun).output? houtput
  intro s now
  apply (build_steps o r s now).mono
  intro result _ _ t ht
  rcases result with _ | e | result
  . exact only ht
  . exact only ht
  . obtain ⟨inSteps, run, hrun, _, hcommand⟩ := ht
    refine ⟨fun _ => List.mem_filterMap.mpr ⟨run, hrun, ?_⟩, only inSteps⟩
    rcases hcommand with hcommand | hcommand
    . rw [hcommand]
      rfl
    . rw [hcommand]
      rfl

end

namespace ProviderOptions

variable {σ : Type} {s : σ} (o : ProviderOptions) (board : String)

theorem buildPath_effectiveBoard : o.buildPath (o.effectiveBoard board) = o.buildPath board := by
  unfold buildPath effectiveBoard
  cases o.boardOverride <;> rfl

theorem configFile_buildsIn
    : (o.queryInfo board .configFile : Program σ Error (Option String)).BuildsIn
        (o.buildPath board) True := by
  rw [← o.buildPath_effectiveBoard board]
  let r : BuildRequest := ⟨o.effectiveBoard board, none, none, true⟩
  have built : (o.build r : Program σ Error BuildResult).BuildsIn (o.buildPath r.board) True :=
    build_buildsIn o r
  exact buildsIn_then built fun _ => within_pure

theorem configFile_value
    : (o.queryInfo board .configFile : Program σ Error (Option String)).Ensures
        (.either (fun value _ _ _ => value = some (Path.join (o.buildPath board) ".config"))
          fun _ _ _ => True)
        s now h := by
  rw [← o.buildPath_effectiveBoard board]
  apply build_path.andThen
  intro result _ _ _ hresult
  rw [ensures_pure, hresult]
  rfl

end ProviderOptions

namespace Writer

variable {σ : Type} (w : Writer) (dir : String)

theorem write_toolless : (w.write dir : Program σ Error Unit).Toolless := by
  have parts (plan : List PlannedWrite) : (w.writeParts plan : Program σ Error Unit).Toolless := by
    apply within_forEach
    intro p _
    apply within_mapError
    unfold writePart
    split <;> simp
  have held (plan : List PlannedWrite) : (w.writePlan plan : Program σ Error Unit).Toolless := by
    unfold writePlan
    split
    . split
      . apply within_bind (by simp)
        intro _
        apply within_bind (within_attempt (parts plan))
        simp
      . simp
    . exact parts plan
  unfold write
  apply within_bind within_ofExcept
  intro plan
  apply within_asPart
  . unfold writeCard
    split
    . apply within_bind
      . apply within_attempt
        apply within_bind
        . simp [takeCard]
        . intro _
          exact held plan
      . simp [sleep]
    . exact held plan
  . simp
  . simp

theorem send_toolless : (w.send dir : Program σ Error Unit).Toolless := by
  unfold send
  apply within_bind within_ofExcept
  intro plan
  split
  . apply within_asPart
    . unfold sendParts
      apply within_bind (by simp)
      intro _
      apply within_bind
      . apply within_forEach
        simp
      . simp
    . simp
    . simp
  . simp

end Writer

theorem Footprint.Covers.transfer?_eq_none {f : Footprint} (hc : f.Covers c)
    (hdevices : ∀ d ∈ f.devices, d ∉ [Device.storage, .emulator, .usbLoader])
    : c.transfer? = none := by
  cases c with
  | device c =>
    have hdevice := hdevices _ hc
    cases c <;> simp_all [Call.transfer?, DeviceCall.transfers, DeviceCall.device]
  | host | interrupt | sleep | clock | mark => rfl

namespace Strategy

variable (s : Strategy)

def transfersFrom (dir : String) : List DeviceCall :=
  if s.options.useSend then s.writer.sends dir else s.writer.writes dir

theorem locateBuild_buildsIn : s.locateBuild.BuildsIn s.imageDir (s.options.doBuild = true) := by
  unfold locateBuild
  split
  . intro status now
    simp
  . split
    . next hbuild =>
      apply buildsIn_mono (buildsIn_then (build_buildsIn _ s.buildRequest) fun _ => within_pure)
      simp
    . next hbuild =>
      apply buildsIn_mono (buildsIn_of_toolless within_pure)
      simp [hbuild]

theorem recoveryReset_toolless : s.recoveryReset.Toolless := by
  unfold recoveryReset
  split <;> simp

theorem enterRecovery_toolless (reset : ResetLine) : (s.enterRecovery reset).Toolless := by
  simp [enterRecovery, requestRecovery, sleep]

theorem install_buildsIn : s.install.BuildsIn s.imageDir (s.options.doBuild = true) := by
  unfold install
  split
  . apply toolless_then_buildsIn s.recoveryReset_toolless
    intro reset
    apply buildsIn_then s.locateBuild_buildsIn
    intro dir
    apply within_bind (s.enterRecovery_toolless reset)
    intro _
    exact s.writer.send_toolless dir
  . apply buildsIn_then s.locateBuild_buildsIn
    intro dir
    exact s.writer.write_toolless dir

theorem bootstrap_buildsIn : s.bootstrap.BuildsIn s.imageDir (s.options.doBuild = true) := by
  apply buildsIn_asPart
  rw [← or_false (s.options.doBuild = true)]
  apply buildsIn_bind s.install_buildsIn
  intro _ status now
  simp

theorem locateBuild_transfers : s.locateBuild.Transfers [] := by
  apply transfers_of_within
  apply s.locateBuild_within.mono
  intro c hc
  exact hc.transfer?_eq_none (by simp [Footprint.outside])

theorem install_transfers : s.install.Transfers (s.transfersFrom s.imageDir) := by
  unfold install transfersFrom
  split
  . apply within_then_transfers
    . apply s.recoveryReset_within.mono
      intro c hc
      exact hc.transfer?_eq_none (by simp [Footprint.outside])
    . intro reset
      rw [← List.nil_append (s.writer.sends _)]
      apply transfers_bind_value s.locateBuild_transfers fun _ _ => locateBuild_dir
      rintro _ rfl
      apply within_then_transfers
      . apply (s.enterRecovery_within reset).mono
        intro c hc
        exact hc.transfer?_eq_none (by simp)
      . intro _
        exact s.writer.send_transfers _
  . rw [← List.nil_append (s.writer.writes _)]
    apply transfers_bind_value s.locateBuild_transfers fun _ _ => locateBuild_dir
    rintro _ rfl
    exact s.writer.write_transfers _

theorem bootstrap_transfers : s.bootstrap.Transfers (s.transfersFrom s.imageDir) := by
  apply transfers_asPart
  rw [← List.append_nil (s.transfersFrom _)]
  apply transfers_bind s.install_transfers
  intro _ status now
  rfl

end Strategy

namespace CommandLine

def configured? (env : Environment) : Option String → Option Options
  | none => some (.initial env)
  | some text => (Yaml.parse? text).bind (Options.read env)

def settled (env : Environment) (flags : GlobalFlags) (file : Options) : Options :=
  let provider := file.provider.withEnvironment env
  { file with
    provider := { provider with buildDir := flags.buildDir.or provider.buildDir }
    strategy := { file.strategy with board := flags.board.getD file.strategy.board } }

/--
The output directory: what the option for it says, or else the configuration file, the environment,
or the file in place of the environment. If none of them does, it is the directory of the board,
which is named in the same way and may be replaced by the file.
-/
def outputDirectory (env : Environment) (flags : GlobalFlags) (file : Options) : String :=
  let board := file.provider.boardOverride.getD (flags.board.getD file.strategy.board)
  flags.buildDir.getD <| file.provider.buildDir.getD <|
    (env.getNonempty? "U_BOOT_BUILD_DIR").getD <| file.provider.envBuildDir.getD <|
      Path.join file.provider.buildBase board

theorem settled_buildPath (env : Environment) (flags : GlobalFlags) (file : Options)
    : (settled env flags file).provider.buildPath (settled env flags file).strategy.board =
        outputDirectory env flags file := by
  unfold settled outputDirectory ProviderOptions.buildPath ProviderOptions.outputOf
    ProviderOptions.effectiveBoard ProviderOptions.withEnvironment ProviderOptions.buildDirVariable
  cases flags.buildDir with
  | some dir => rfl
  | none =>
    cases file.provider.buildDir with
    | some dir => rfl
    | none => cases env.getNonempty? "U_BOOT_BUILD_DIR" <;> cases file.provider.envBuildDir <;> rfl

def Configures (lab : Lab ω) (flags : GlobalFlags) (text : String) : Prop :=
  ∀ path, flags.config = some path → ∀ w now, ∃ w' delay,
    lab.host w now (.readText path) = ⟨w', some delay, .ok text⟩

section

variable {env : Environment} {flags : GlobalFlags} {file : Options} {text : String} {lab : Lab ω}
variable (hlab : Configures lab flags text)
variable (hfile : configured? env (flags.config.map fun _ => text) = some file)

include hlab hfile

theorem run_loadOptions (w : ω) (now : Nat)
    : ((loadOptions env flags).run lab none () w now).result = some (.ok (settled env flags file)) ∧
        outputs ((loadOptions env flags).run lab none () w now).trace = [] := by
  unfold loadOptions
  cases hconfig : flags.config with
  | none =>
    simp only [hconfig, Option.map_none, configured?, Option.some.injEq] at hfile
    subst hfile
    exact ⟨rfl, rfl⟩
  | some path =>
    obtain ⟨w', delay, hread⟩ := hlab path hconfig w now
    simp only [hconfig, Option.map_some, configured?] at hfile
    simp only [host, Bind.bind, Program.bind, Program.run, Lab.answer, hread, finish?, hfile]
    exact ⟨rfl, rfl⟩

theorem run_loaded {p q : Task α} {f : Options → Task α} (hp : p = loadOptions env flags >>= f)
    (hq : f (settled env flags file) = q) (w : ω) (now : Nat)
    : ∃ w' now',
        (p.run lab none () w now).result = (q.run lab none () w' now').result ∧
          outputs (p.run lab none () w now).trace =
            outputs (q.run lab none () w' now').trace := by
  subst hp hq
  obtain ⟨hresult, houtputs⟩ := run_loadOptions hlab hfile w now
  have hrun : (loadOptions env flags >>= f).run lab none () w now = _ :=
    Program.run_bind lab none (loadOptions env flags) f () w now
  generalize (loadOptions env flags).run lab none () w now = loaded at hresult houtputs hrun
  rw [Run.andThen, hresult] at hrun
  rw [hrun]
  exact ⟨loaded.lab, loaded.now, rfl, by simp [houtputs]⟩

theorem run_unbuilt {p : Task String} {f : Options → Task String}
    (hp : p = loadOptions env flags >>= f) (hf : ∀ o, (f o).Toolless) (w : ω) (now : Nat)
    : outputs (p.run lab none () w now).trace = [] := by
  obtain ⟨w', now', _, houtputs⟩ := run_loaded hlab hfile hp rfl w now
  rw [houtputs]
  exact outputs_run_eq_nil (hf _) lab () w' now'

end

def carriedOut (env : Environment) (flags : GlobalFlags) (lab : Lab ω) (w : ω) (now : Nat)
    (command : Command) : Run Unit ω Failure String :=
  (execute env flags command).run lab none () w now

def resolved (o : WriterOptions) (dir : String) (send : Bool) (format : Format)
    : Except Failure String :=
  Except.mapError .cause do
    let writer ← Writer.ofOptions o
    let rows ← planRows writer dir send
    pure (printRows format ["ROLE", "SOURCE", "TARGET"] yesNo rows)

/--
Whether a directory is meant by all commands, when they are carried out with some settings, and by
the installation of an image with these settings, be it built first or not.
-/
structure AgreeOn (path : String) (o : Options) (carriedOut : Command → Run Unit ω Failure String)
    : Prop where
  buildPath : (carriedOut .buildPath).result = some (.ok (printLines [path]))
  buildDir : (carriedOut (.info "build-dir")).result = some (.ok (printLines [path]))
  build : ∀ commit patch configOnly clean printed,
    (carriedOut (.build commit patch configOnly clean)).result = some (.ok printed) →
      (∃ rest, printed = printLines (path :: rest)) ∧
        path ∈ outputs (carriedOut (.build commit patch configOnly clean)).trace
  configFile : ∀ printed,
    (carriedOut (.info "config-file")).result = some (.ok printed) →
      printed = printLines [Path.join path ".config"] ∧
        path ∈ outputs (carriedOut (.info "config-file")).trace
  builtIn : ∀ command, ∀ dir ∈ outputs (carriedOut command).trace, dir = path
  resolve : ∀ method send format,
    (carriedOut (.resolve method none send format)).result =
      some (resolved { o.writer with method } path send format)
  bootstrap : ∀ s : Strategy, s.provider = o.provider → s.options.board = o.strategy.board →
    ∀ {ω' : Type} (lab : Lab ω') (status : BoardStatus) (w : ω') (now : Nat),
      transfers (s.bootstrap.run lab none status w now).trace <+: s.transfersFrom path ∧
        (∀ dir ∈ outputs (s.bootstrap.run lab none status w now).trace, dir = path) ∧
          ((s.bootstrap.run lab none status w now).result = some (.ok ()) →
            transfers (s.bootstrap.run lab none status w now).trace = s.transfersFrom path ∧
              (s.options.doBuild = true →
                path ∈ outputs (s.bootstrap.run lab none status w now).trace))

section

variable {env : Environment} {flags : GlobalFlags} {file : Options} {text : String} {lab : Lab ω}

theorem run_printing {p : Program Unit Error α} {path : String} {value : α → Prop}
    (hp : p.BuildsIn path True)
    (hv : ∀ now, p.Ensures (.either (fun a _ _ _ => value a) fun _ _ _ => True) () now [])
    (print : α → String) (lab : Lab ω) (w : ω) (now : Nat)
    : (∀ dir ∈ outputs
          ((within p >>= fun a => pure (print a)).run lab none () w now).trace, dir = path) ∧
        ∀ printed,
          ((within p >>= fun a => pure (print a)).run lab none () w now).result =
              some (.ok printed) →
            (∃ a, value a ∧ printed = print a) ∧
              path ∈ outputs
                ((within p >>= fun a => pure (print a)).run lab none () w now).trace := by
  have builds : (within p >>= fun a => pure (print a)).BuildsIn path True :=
    buildsIn_then (buildsIn_mapError hp) fun _ => within_pure
  have prints (now : Nat)
      : (within p >>= fun a => pure (print a)).Ensures
          (.either (fun printed _ _ _ => ∃ a, value a ∧ printed = print a) fun _ _ _ => True)
          () now [] := by
    rw [ensures_bind, within, ensures_mapError]
    apply (hv now).mono
    intro r _ _ _ hr
    rcases r with _ | e | a
    . trivial
    . trivial
    . exact ⟨a, hr, rfl⟩
  have run := buildsIn_run builds (fun _ => prints) lab () w now
  simpa using run

theorem execute_info (hwhat : BuildInfo.parse what = .ok info)
    : execute env flags (.info what) = (do
        let options ← loadOptions env flags
        let board ← boardOf options
        let value ← within (options.provider.queryInfo board info)
        pure (printLines value.toList)) := by
  rw [execute, hwhat]
  rfl

theorem done_resolved (o : WriterOptions) (dir : String) (send : Bool) (format : Format)
    : (do
        let writer ← within (ofExcept (Writer.ofOptions o))
        let rows ← within (ofExcept (planRows writer dir send))
        pure (printRows format ["ROLE", "SOURCE", "TARGET"] yesNo rows) : Task String) =
        .done (resolved o dir send format) := by
  have printed (rows : Except Error (List Yaml.Row)) (print : List Yaml.Row → String)
      : (within (ofExcept rows) >>= fun rows => pure (print rows) : Task String) =
        .done ((rows >>= fun rows => pure (print rows)).mapError .cause) := by
    cases rows <;> rfl
  unfold resolved
  cases Writer.ofOptions o with
  | error e => rfl
  | ok writer => exact printed (planRows writer dir send) _

theorem boardOf_settled (hboard : flags.board.getD file.strategy.board ≠ "")
    : boardOf (settled env flags file) = pure (settled env flags file).strategy.board := by
  have named : (settled env flags file).strategy.board.isEmpty = false := by
    simpa [settled, String.isEmpty_iff] using hboard
  rw [boardOf, named]
  rfl

variable (hlab : Configures lab flags text)
variable (hfile : configured? env (flags.config.map fun _ => text) = some file)
variable (hboard : flags.board.getD file.strategy.board ≠ "")

include hlab hfile hboard

theorem buildPath_printed (w : ω) (now : Nat)
    : (carriedOut env flags lab w now .buildPath).result =
        some (.ok (printLines [outputDirectory env flags file])) := by
  obtain ⟨w', now', hresult, _⟩ := run_loaded hlab hfile (p := execute env flags .buildPath)
    (q := pure (printLines [outputDirectory env flags file])) rfl
    (by rw [boardOf_settled hboard, pure_bind, settled_buildPath]) w now
  exact hresult

theorem buildDir_printed (w : ω) (now : Nat)
    : (carriedOut env flags lab w now (.info "build-dir")).result =
        some (.ok (printLines [outputDirectory env flags file])) := by
  obtain ⟨w', now', hresult, _⟩ := run_loaded hlab hfile
    (p := execute env flags (.info "build-dir"))
    (q := pure (printLines [outputDirectory env flags file])) rfl
    (by rw [boardOf_settled hboard, pure_bind, ← settled_buildPath]; rfl) w now
  exact hresult

theorem resolve_printed (method : String) (send : Bool) (format : Format) (w : ω) (now : Nat)
    : (carriedOut env flags lab w now (.resolve method none send format)).result =
        some (resolved { file.writer with method } (outputDirectory env flags file) send
          format) := by
  obtain ⟨w', now', hresult, _⟩ := run_loaded hlab hfile
    (p := execute env flags (.resolve method none send format))
    (q := .done
      (resolved { file.writer with method } (outputDirectory env flags file) send format))
    rfl
    (by
      simp only [boardOf_settled hboard, pure_bind, settled_buildPath]
      exact done_resolved ..) w now
  exact hresult

theorem build_printed (commit patch : Option String) (configOnly clean : Bool) (w : ω) (now : Nat)
    : (∀ dir ∈ outputs
          (carriedOut env flags lab w now (.build commit patch configOnly clean)).trace,
        dir = outputDirectory env flags file) ∧
      ∀ printed,
        (carriedOut env flags lab w now (.build commit patch configOnly clean)).result =
            some (.ok printed) →
          (∃ rest, printed = printLines (outputDirectory env flags file :: rest)) ∧
            outputDirectory env flags file ∈ outputs
              (carriedOut env flags lab w now (.build commit patch configOnly clean)).trace := by
  let r : BuildRequest :=
    ⟨(settled env flags file).strategy.board, commit, patch.map .file, configOnly⟩
  let o : ProviderOptions :=
    { (settled env flags file).provider with
      doClean := clean || (settled env flags file).provider.doClean }
  have path : o.buildPath r.board = outputDirectory env flags file := settled_buildPath ..
  obtain ⟨w', now', hresult, houtputs⟩ := run_loaded hlab hfile
    (p := execute env flags (.build commit patch configOnly clean))
    (q := do
      let result ← within (o.build r)
      pure (printLines result.dirs))
    rfl (by rw [boardOf_settled hboard, pure_bind]) w now
  have run := run_printing (build_buildsIn o r) (fun _ => ProviderOptions.build_path)
    (fun result => printLines result.dirs) lab w' now'
  rw [← hresult, ← houtputs, path] at run
  refine ⟨run.left, ?_⟩
  intro printed hprinted
  obtain ⟨⟨result, hpath, rfl⟩, built⟩ := run.right printed hprinted
  exact ⟨⟨result.blobDir.toList, by rw [BuildResult.dirs, hpath]⟩, built⟩

theorem configFile_printed (hwhat : BuildInfo.parse what = .ok .configFile) (w : ω) (now : Nat)
    : (∀ dir ∈ outputs (carriedOut env flags lab w now (.info what)).trace,
        dir = outputDirectory env flags file) ∧
      ∀ printed,
        (carriedOut env flags lab w now (.info what)).result = some (.ok printed) →
          printed = printLines [Path.join (outputDirectory env flags file) ".config"] ∧
            outputDirectory env flags file ∈
              outputs (carriedOut env flags lab w now (.info what)).trace := by
  let o := (settled env flags file).provider
  let board := (settled env flags file).strategy.board
  have path : o.buildPath board = outputDirectory env flags file := settled_buildPath ..
  obtain ⟨w', now', hresult, houtputs⟩ := run_loaded hlab hfile (execute_info hwhat)
    (q := do
      let value ← within (o.queryInfo board .configFile)
      pure (printLines value.toList))
    (by rw [boardOf_settled hboard, pure_bind]) w now
  unfold carriedOut
  have run := run_printing (o.configFile_buildsIn board) (fun _ => o.configFile_value board)
    (fun value => printLines value.toList) lab w' now'
  rw [← hresult, ← houtputs, path] at run
  refine ⟨run.left, ?_⟩
  intro printed hprinted
  obtain ⟨⟨_, rfl, rfl⟩, built⟩ := run.right printed hprinted
  exact ⟨rfl, built⟩

theorem carriedOut_outputs (command : Command) (w : ω) (now : Nat)
    : ∀ dir ∈ outputs (carriedOut env flags lab w now command).trace,
        dir = outputDirectory env flags file := by
  have board (o : Options) : (boardOf o).Toolless := by
    unfold boardOf
    split <;> simp
  have unbuilt {command : Command}
      (hnone : outputs (carriedOut env flags lab w now command).trace = [])
      : ∀ dir ∈ outputs (carriedOut env flags lab w now command).trace,
          dir = outputDirectory env flags file := by
    simp [hnone]
  cases command with
  | build commit patch configOnly clean =>
    exact (build_printed hlab hfile hboard commit patch configOnly clean w now).left
  | buildPath =>
    apply unbuilt
    apply run_unbuilt hlab hfile rfl
    intro o
    exact within_bind (board o) fun _ => within_pure
  | resolve method dir send format =>
    apply unbuilt
    apply run_unbuilt hlab hfile rfl
    intro o
    have shown (dir : String) : (do
        let writer ← within (ofExcept (Writer.ofOptions { o.writer with method }))
        let rows ← within (ofExcept (planRows writer dir send))
        pure (printRows format ["ROLE", "SOURCE", "TARGET"] yesNo rows) : Task String).Toolless :=
      within_bind (within_mapError within_ofExcept) fun _ =>
        within_bind (within_mapError within_ofExcept) fun _ => within_pure
    cases dir with
    | some dir => exact within_bind within_pure shown
    | none =>
      apply within_bind (board o)
      intro _
      exact within_bind within_pure shown
  | info what =>
    cases hwhat : BuildInfo.parse what with
    | error e =>
      apply unbuilt
      rw [carriedOut, execute, hwhat]
      rfl
    | ok info =>
      cases info with
      | configFile => exact (configFile_printed hlab hfile hboard hwhat w now).left
      | board | buildDir | sourceDir | splBannerTimes =>
        apply unbuilt
        apply run_unbuilt hlab hfile (execute_info hwhat)
        intro o
        apply within_bind (board o)
        intro _
        exact within_bind (within_mapError within_pure) fun _ => within_pure
  | methods format => exact unbuilt rfl
  | completion shell => exact unbuilt rfl
  | console address txInterval =>
    apply unbuilt
    apply outputs_run_eq_nil
    apply within_bind (by simp)
    intro connected
    split <;> simp

/--
All commands and the installation of an image mean the same directory, which is the one that is
named first. An option counts more behind the command than in front of it, and there more than a
variable.
-/
theorem outputDirectory_agreed (w : ω) (now : Nat)
    : AgreeOn (outputDirectory env flags file) (settled env flags file)
          (carriedOut env flags lab w now) ∧
        ∀ args command, parse args env = .run flags command →
          ∃ outer v inner, readTop .none args = .ok (outer, v, inner) ∧
            flags.buildDir = (inner.value? .buildDir).or (outer.value? .buildDir) ∧
            flags.board =
              ((inner.value? .board).or (outer.value? .board)).or (env.get? "BOOTLAB_BOARD") := by
  constructor
  . constructor
    case buildPath => exact buildPath_printed hlab hfile hboard w now
    case buildDir => exact buildDir_printed hlab hfile hboard w now
    case build =>
      intro commit patch configOnly clean
      exact (build_printed hlab hfile hboard commit patch configOnly clean w now).right
    case configFile => exact (configFile_printed hlab hfile hboard rfl w now).right
    case builtIn =>
      intro command
      exact carriedOut_outputs hlab hfile hboard command w now
    case resolve =>
      intro method send format
      exact resolve_printed hlab hfile hboard method send format w now
    case bootstrap =>
      intro s hprovider hsame ω' lab status w now
      have path : s.imageDir = outputDirectory env flags file := by
        rw [Strategy.imageDir, hprovider, hsame, settled_buildPath]
      have taken := transfers_run s.bootstrap_transfers lab status w now
      have built := buildsIn_run s.bootstrap_buildsIn (fun _ _ => ensures_trivial_either _) lab
        status w now
      rw [path] at taken built
      exact ⟨taken.left, built.left, fun hok => ⟨taken.right () hok, (built.right () hok).right⟩⟩
  . intro args command hparse
    unfold parse at hparse
    split at hparse
    . cases hparse
    . cases hparse
    . cases hparse
    . next outer v inner hread =>
      split at hparse
      . split at hparse
        . obtain ⟨rfl, rfl⟩ := Request.run.inj hparse
          exact ⟨outer, v, inner, hread, Option.or_none, rfl⟩
        . cases hparse
      . cases hparse

end

namespace replacing

def text : String :=
  "provider:\n  build_base: /b\n  board_override: rpi_4\nstrategy:\n  board: rpi_3\n"

def file : Options where
  provider := { ProviderOptions.initial [] with buildBase := "/b", boardOverride := some "rpi_4" }
  writer := .initial
  strategy := .forBoard "rpi_3"

def flags : GlobalFlags := ⟨some "/lab.yaml", false, none, none, none⟩

def lab : Lab Unit where
  device _ _ c := ⟨(), some 0, .ok c.silence⟩
  host _ _ c := ⟨(), some 0, match c with | .readText _ => .ok text | c => c.consent⟩

end replacing

theorem replacing_agreed
    : Configures replacing.lab replacing.flags replacing.text ∧
        configured? [] (replacing.flags.config.map fun _ => replacing.text) =
          some replacing.file ∧
        outputDirectory [] replacing.flags replacing.file = "/b/rpi_4" ∧
        AgreeOn "/b/rpi_4" (settled [] replacing.flags replacing.file)
          (carriedOut [] replacing.flags replacing.lab () 0) := by
  have configures : Configures replacing.lab replacing.flags replacing.text :=
    fun _ _ _ _ => ⟨(), 0, rfl⟩
  have read : configured? [] (replacing.flags.config.map fun _ => replacing.text) =
      some replacing.file := by
    decide +kernel
  have directory : outputDirectory [] replacing.flags replacing.file = "/b/rpi_4" := by
    decide +kernel
  have agreed := (outputDirectory_agreed configures read (by decide) () 0).left
  rw [directory] at agreed
  exact ⟨configures, read, directory, agreed⟩

end CommandLine

end BringUp
