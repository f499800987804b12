import BringUp.Build.Provider
import BringUp.Proofs.Boot.Footprint
import BringUp.Proofs.Lab.FailStop

/-!
This module contains which failures a build stops at. The main statement is that a build that goes
on has not failed, and that one that has failed only clears a patch away that did not apply.
-/

namespace BringUp

open Program Trace Faults

def ToolCommand.Applies (command : ToolCommand) : Prop :=
  ∃ dir file, command = Worktree.git dir ["apply", file] none

namespace ProviderOptions

def sourceOf (o : ProviderOptions) (r : BuildRequest) : String :=
  match r.commit with
  | none => o.sourceTree.1
  | some _ => o.worktreePath (o.effectiveBoard r.board)

def buildAttempt (o : ProviderOptions) (r : BuildRequest) (flag : String) : ToolCommand :=
  let board := o.effectiveBoard r.board
  (o.buildCommand board (o.outputOf board) r.configOnly (o.sourceOf r)).addArg flag

def markedError (o : ProviderOptions) (r : BuildRequest) (output : ToolOutput) : Option Error :=
  (output.markedLine? o.nonFunctionalMarker).map
    (.nonFunctionalArtifact (o.effectiveBoard r.board))

def outputError (o : ProviderOptions) (r : BuildRequest) (command : ToolCommand)
    (output : ToolOutput) : Option Error :=
  if command = o.buildAttempt r o.primaryFlag ∨ command = o.buildAttempt r o.fallbackFlag then
    o.markedError r output
  else none

/--
Whether a command is the first attempt of a build, and the build tool does not know its flag.
-/
def Retries (o : ProviderOptions) (r : BuildRequest) (before : List Event) (command : ToolCommand)
    (output : ToolOutput) : Prop :=
  command = o.buildAttempt r o.primaryFlag ∧ (∀ e ∈ before, e.call ≠ .host (.run command)) ∧
    Text.contains output.combined o.unsupportedFlagPattern = true

def ToolFails (o : ProviderOptions) (r : BuildRequest) (before : List Event) (command : ToolCommand)
    : Except String ToolOutput → Error → Prop
  | .error reason, err =>
    err = .toolInvocationFailed command.line (o.effectiveBoard r.board) "not started" reason
  | .ok output, err =>
    if output.success then o.outputError r command output = some err
    else
      ¬o.Retries r before command output ∧
        err = .toolInvocationFailed command.line (o.effectiveBoard r.board) output.status
          output.combined

def ApplyFails (o : ProviderOptions) (r : BuildRequest) (command : ToolCommand)
    : Except String ToolOutput → Error → Prop
  | .error reason, err =>
    ∃ patch, r.patch = some patch ∧
      err = .patchApplyFailed patch.describe (o.effectiveBoard r.board)
        s!"failed to run {command.line}: {reason}"
  | .ok output, err =>
    output.success = false ∧ ∃ patch, r.patch = some patch ∧
      err = .patchApplyFailed patch.describe (o.effectiveBoard r.board) output.combined

def Fails (o : ProviderOptions) (r : BuildRequest) (before : List Event)
    : (c : HostCall) → c.Reply → Error → Prop
  | .run command, reply, err =>
    (command.Applies → o.ApplyFails r command reply err) ∧
      (¬command.Applies → o.ToolFails r before command reply err)
  | .createDirs path, .error reason, err =>
    err = .config s!"failed to create workdirs {path}: {reason}"
  | .createPatch _, .error reason, err =>
    ∃ patch, r.patch = some patch ∧
      err = .patchApplyFailed patch.describe (o.effectiveBoard r.board)
        s!"failed to write patch file: {reason}"
  | .isPopulated path, found, err | .isDirectory path, found, err =>
    found = false ∧ err = .missingArtifacts (o.effectiveBoard r.board) path
  | _, _, _ => False

def Completes (o : ProviderOptions) : (c : HostCall) → c.Reply → Prop
  | .isPopulated _, found => found = true ∧ o.binmanIndir = none
  | .isDirectory _, found => found = true
  | _, _ => False

theorem errorOf_checkOutput (o : ProviderOptions) (r : BuildRequest) (output : ToolOutput)
    : errorOf (o.checkOutput (o.effectiveBoard r.board) output) = o.markedError r output := by
  unfold checkOutput markedError
  split <;> simp_all [errorOf]

theorem git_ne_buildAttempt (o : ProviderOptions) (r : BuildRequest) (flag : String)
    : Worktree.git dir args cwd ≠ o.buildAttempt r flag := by
  simp [Worktree.git, buildAttempt, buildCommand, ToolCommand.addArg]

end ProviderOptions

structure ProviderOptions.Heeded (o : ProviderOptions) (r : BuildRequest) (check : Option Error)
    (F : Faults) : Prop where
  fails {c : HostCall} {reply : c.Reply}
    : F.Fails before ⟨.host c, start, stop, some reply⟩ err ↔
        o.Fails r before c reply err ∨ o.Completes c reply ∧ check = some err

namespace ProviderOptions.Heeded

variable {F : Faults} {o : ProviderOptions} {r : BuildRequest} {check : Option Error} {σ : Type}
variable (hF : o.Heeded r check F)

include hF

theorem fails_run
    : F.Fails before ⟨.host (.run command), start, stop, some reply⟩ err ↔
        (command.Applies → o.ApplyFails r command reply err) ∧
          (¬command.Applies → o.ToolFails r before command reply err) := by
  rw [hF.fails]
  simp [Fails, Completes]

theorem runChecked_stops {command : ToolCommand} (hh : F.Clean h) (hcommand : ¬command.Applies)
    (hretry : ∀ output, ¬o.Retries r h command output)
    : (command.runChecked (o.effectiveBoard r.board) : Program σ Error ToolOutput).Ensures
        (F.stopping (o.outputError r command)) s now h := by
  apply stopping_host_bind hh
  intro stop reply
  cases reply with
  | error reason =>
    apply hh.fails
    simp [hF.fails_run, hcommand, ToolFails]
  | ok output =>
    dsimp only
    by_cases hsuccess : output.success = true
    . rw [if_pos hsuccess]
      apply hh.checked
      simp [hF.fails_run, hcommand, ToolFails, hsuccess]
    . rw [if_neg hsuccess]
      apply hh.fails
      simp [hF.fails_run, hcommand, ToolFails, hsuccess, hretry]

theorem git_stops (hargs : args.head? ≠ some "apply")
    : F.Stops ((Worktree.git dir args cwd).runChecked (o.effectiveBoard r.board) :
        Program σ Error ToolOutput) := by
  intro s now h hh
  have unchecked : o.outputError r (Worktree.git dir args cwd) = fun _ => none := by
    funext output
    simp [outputError, git_ne_buildAttempt]
  rw [← unchecked]
  apply hF.runChecked_stops hh
  . rintro ⟨dir, file, hcommand⟩
    simp_all [Worktree.git]
  . rintro output ⟨hcommand, _⟩
    exact git_ne_buildAttempt _ _ _ hcommand

theorem createDirs_concat (hh : F.Clean h)
    : F.Clean (h ++ [⟨.host (.createDirs path), start, stop, some (.ok ())⟩]) := by
  apply hh.concat
  simp [hF.fails, Fails, Completes]

theorem selectCommit_stops
    : F.Stops (Worktree.selectCommit o (o.effectiveBoard r.board) commit : Program σ Error Unit) :=
  stops_bind (hF.git_stops (by simp)) fun _ => stops_pure

theorem setup_stops
    : F.Stops (Worktree.setup o (o.effectiveBoard r.board) commit : Program σ Error Worktree) := by
  unfold Worktree.setup
  apply stops_bind (stops_host id)
  intro present
  split
  . apply stops_bind (hF.git_stops (by simp))
    intro _
    exact stops_bind hF.selectCommit_stops fun _ => stops_pure
  . intro s now h hh
    apply stopping_host_bind hh
    intro stop created
    cases created with
    | error reason =>
      apply hh.fails
      simp [hF.fails, Fails, Completes]
    | ok u =>
      apply stops_bind (hF.git_stops (by simp))
      . intro _
        exact stops_bind hF.selectCommit_stops fun _ => stops_pure
      . exact hF.createDirs_concat hh

omit hF in
theorem clear_stops (hh : F.Clean h)
    (hcall : e.call = .host (.run (Worktree.git dir ["apply", file] none))) (he : F.Fails h e err)
    : (do
        let _ ← host (.run (Worktree.git dir ["am", "--abort"] none))
        let _ ← host (.run (Worktree.git dir ["reset", "--hard"] none))
        raise err : Program σ Error Unit).Ensures (F.stopping fun _ => none) s now (h ++ [e]) := by
  have repaired {u : List Event}
      (hu : ∀ x ∈ u, x.call = .host (.run (Worktree.git dir ["am", "--abort"] none)) ∨
        x.call = .host (.run (Worktree.git dir ["reset", "--hard"] none)))
      : F.Stopped err (h ++ e :: u) := by
    refine ⟨h, e, u, rfl, hh, he, ?_⟩
    intro x hx
    rcases hu x hx with hx | hx
    . rw [hx]
      exact ⟨dir, file, hcall, .inl rfl⟩
    . rw [hx]
      exact ⟨dir, file, hcall, .inr rfl⟩
  rw [ensures_bind, ensures_host]
  constructor
  . exact .inr ⟨err, by simpa using repaired (u := [_]) (by simp)⟩
  . intro stop r _
    rw [Post.andThen_ok, ensures_bind, ensures_host]
    constructor
    . exact .inr ⟨err, by simpa using repaired (u := [_, _]) (by simp)⟩
    . intro stop' r' _
      have both := repaired
        (u := [⟨.host (.run (Worktree.git dir ["am", "--abort"] none)), now, stop, some r⟩,
          ⟨.host (.run (Worktree.git dir ["reset", "--hard"] none)), stop, stop', some r'⟩])
        (by simp)
      simpa using both

theorem applyFile_stops (hpatch : r.patch = some patch) {w : Worktree}
    (hboard : w.board = o.effectiveBoard r.board)
    : F.Stops (w.applyFile patch file : Program σ Error Unit) := by
  have applies : (Worktree.git w.path ["apply", file] none).Applies := ⟨_, _, rfl⟩
  intro s now h hh
  apply stopping_host_bind hh
  intro stop reply
  cases reply with
  | error reason =>
    apply clear_stops hh rfl
    simp [hF.fails_run, applies, ApplyFails, hpatch, hboard]
  | ok output =>
    dsimp only
    by_cases hsuccess : output.success = true
    . rw [if_pos hsuccess]
      apply hh.concat
      simp [hF.fails_run, applies, ApplyFails, hsuccess]
    . rw [if_neg hsuccess]
      apply clear_stops hh rfl
      simp [hF.fails_run, applies, ApplyFails, hpatch, hboard, hsuccess]

theorem applyPatch_stops (hpatch : r.patch = some patch) {w : Worktree}
    (hboard : w.board = o.effectiveBoard r.board)
    : F.Stops (w.applyPatch patch : Program σ Error Unit) := by
  cases patch with
  | file path => exact hF.applyFile_stops hpatch hboard
  | inline text =>
    intro s now h hh
    apply stopping_host_bind hh
    intro stop written
    cases written with
    | error reason =>
      apply hh.fails
      simp [hF.fails, Fails, Completes, hpatch, hboard]
    | ok path =>
      have created : F.Clean (h ++ [⟨.host (.createPatch text), now, stop, some (.ok path)⟩]) := by
        apply hh.concat
        simp [hF.fails, Fails, Completes]
      dsimp only
      rw [ensures_bind, ensures_attempt]
      apply (hF.applyFile_stops hpatch hboard s stop _ created).mono
      intro result s now h stopped
      rcases result with _ | e | u
      . exact stopped
      . have removed {x : Event} (hx : x.call = .host (.removePatch path))
            : F.Stopped e (h ++ [x]) :=
          stopped.concat fun _ _ => by simp [hx, Repairs]
        rw [Post.andHandle_some, ensures_done, Post.andThen_ok, ensures_bind, ensures_host]
        refine ⟨.inr ⟨e, removed rfl⟩, ?_⟩
        intro stop r _
        exact removed rfl
      . exact stops_bind (stops_host id) (fun _ => stops_pure) s now h stopped

omit hF in
theorem setup_path
    : (Worktree.setup o board commit : Program σ Error Worktree).Ensures
        (.either (fun w _ _ _ => w = ⟨board, o.worktreePath board⟩) fun _ _ _ => True)
        s now h := by
  unfold Worktree.setup
  apply ensures_last
  intro present s now h
  split
  . apply ensures_last
    intro _ _ _ _
    apply ensures_last
    intro _ _ _ _
    rfl
  . apply ensures_last
    intro created _ _ _
    cases created with
    | error reason => trivial
    | ok u =>
      apply ensures_last
      intro _ _ _ _
      apply ensures_last
      intro _ _ _ _
      rfl

theorem prepareSource_stops
    : F.Stops (o.prepareSource (o.effectiveBoard r.board) r : Program σ Error String) := by
  intro s now h hh
  unfold prepareSource
  split
  . exact hh
  . apply stopping_andThen (hF.setup_stops s now h hh) setup_path
    rintro _ s now h hh rfl
    split
    . exact hh
    . next patch hpatch =>
      exact stops_bind (hF.applyPatch_stops hpatch rfl) (fun _ => stops_pure) s now h hh

omit hF in
theorem prepareSource_path
    : (o.prepareSource (o.effectiveBoard r.board) r : Program σ Error String).Ensures
        (.either (fun source _ _ _ => source = o.sourceOf r) fun _ _ _ => True) s now h := by
  unfold prepareSource
  split
  . next hcommit => simp [sourceOf, hcommit]
  . next commit hcommit =>
    have path : o.worktreePath (o.effectiveBoard r.board) = o.sourceOf r := by
      simp [sourceOf, hcommit]
    rw [ensures_bind]
    apply setup_path.mono
    intro w s now h hw
    rcases w with _ | e | w
    . trivial
    . trivial
    . obtain rfl : w = ⟨_, _⟩ := hw
      rw [Post.andThen_ok]
      split
      . exact path
      . apply ensures_last
        intro _ _ _ _
        exact path

theorem runBuild_stops (hh : F.Clean h)
    (hfirst : ∀ e ∈ h, e.call ≠ .host (.run (o.buildAttempt r o.primaryFlag)))
    : (o.runBuild (o.effectiveBoard r.board)
        (o.buildCommand (o.effectiveBoard r.board) (o.outputOf (o.effectiveBoard r.board))
          r.configOnly (o.sourceOf r)) : Program σ Error ToolOutput).Ensures
        (F.stopping (o.markedError r)) s now h := by
  have primary : o.outputError r (o.buildAttempt r o.primaryFlag) = o.markedError r := by
    funext output
    simp [outputError]
  have fallback : o.outputError r (o.buildAttempt r o.fallbackFlag) = o.markedError r := by
    funext output
    simp [outputError]
  have applies {flag : String} : ¬(o.buildAttempt r flag).Applies := by
    rintro ⟨dir, file, hcommand⟩
    exact git_ne_buildAttempt _ _ _ hcommand.symm
  apply stopping_host_bind hh
  intro stop reply
  have fails {err : Error}
      : F.Fails h ⟨.host (.run (o.buildAttempt r o.primaryFlag)), now, stop, some reply⟩ err ↔
          o.ToolFails r h (o.buildAttempt r o.primaryFlag) reply err := by
    simp [hF.fails_run, applies]
  cases reply with
  | error reason => exact hh.fails (fails.mpr rfl)
  | ok output =>
    dsimp only
    by_cases hsuccess : output.success = true
    . rw [if_pos hsuccess]
      apply hh.checked
      intro err
      apply fails.trans
      simp [ToolFails, hsuccess, primary]
    . rw [if_neg hsuccess]
      by_cases hknown : Text.contains output.combined o.unsupportedFlagPattern = true
      . rw [if_pos hknown, ← fallback]
        -- The first attempt is no failure, and the second one is checked like any other command.
        have retries : o.Retries r h (o.buildAttempt r o.primaryFlag) output :=
          ⟨rfl, hfirst, hknown⟩
        have clean := hh.concat fun err hf => by
          have failed := fails.mp hf
          simp [ToolFails, hsuccess, retries] at failed
        apply hF.runChecked_stops clean applies
        rintro output' ⟨hcommand, hnone, _⟩
        exact hnone _ (List.mem_concat_self ..) (by rw [← hcommand])
      . rw [if_neg hknown]
        apply hh.fails
        apply fails.mpr
        simp [ToolFails, hsuccess, Retries, hknown]
        rfl

theorem collect_stops (hh : F.Clean h)
    : (o.collect (o.effectiveBoard r.board) path : Program σ Error BuildResult).Ensures
        (F.stopping fun _ => check) s now h := by
  unfold collect
  apply stopping_host_bind hh
  intro stop populated
  cases populated with
  | false =>
    apply hh.fails
    simp [hF.fails, Fails, Completes]
  | true =>
    cases hblobs : o.binmanIndir with
    | none =>
      apply hh.checked
      simp [hF.fails, Fails, Completes, hblobs]
    | some dir =>
      have found : F.Clean (h ++ [⟨.host (.isPopulated path), now, stop, some true⟩]) := by
        apply hh.concat
        simp [hF.fails, Fails, Completes, hblobs]
      apply stopping_host_bind found
      intro stop' present
      cases present with
      | false =>
        apply found.fails
        simp [hF.fails, Fails, Completes]
      | true =>
        apply found.checked
        simp [hF.fails, Fails, Completes]

omit hF in
theorem prepareSource_unbuilt
    : (o.prepareSource (o.effectiveBoard r.board) r : Program σ Error String).Within
        fun c => c ≠ .host (.run (o.buildAttempt r flag)) := by
  have git {board dir : String} {args : List String} {cwd : Option String}
      : ((Worktree.git dir args cwd).runChecked board : Program σ Error ToolOutput).Within
          fun c => c ≠ .host (.run (o.buildAttempt r flag)) := by
    apply within_bind
    . simp [git_ne_buildAttempt]
    . intro reply
      split <;> simp
  have applyFile {w : Worktree} {patch : Patch} {file : String}
      : (w.applyFile patch file : Program σ Error Unit).Within
          fun c => c ≠ .host (.run (o.buildAttempt r flag)) := by
    apply within_bind
    . simp [git_ne_buildAttempt]
    . intro reply
      split <;> simp [git_ne_buildAttempt]
  unfold prepareSource
  split
  . simp
  . apply within_bind
    . unfold Worktree.setup Worktree.selectCommit
      apply within_bind
      . simp
      . intro present
        split
        . simp [git]
        . apply within_bind
          . simp
          . intro created
            split <;> simp [git]
    . intro w
      split
      . simp
      . apply within_bind
        . unfold Worktree.applyPatch
          split
          . exact applyFile
          . apply within_bind
            . simp
            . intro written
              split <;> simp [applyFile]
        . simp

theorem build_stops (hh : F.Clean h) (hboard : r.board.isEmpty = false)
    (hfirst : ∀ e ∈ h, e.call ≠ .host (.run (o.buildAttempt r o.primaryFlag)))
    : (o.build r : Program σ Error BuildResult).Ensures (F.stopping fun _ => check) s now h := by
  unfold build
  rw [if_neg (by simp [hboard])]
  have unbuilt : (o.prepareSource (o.effectiveBoard r.board) r : Program σ Error String).Ensures
      (.either
        (fun _ _ _ h' => ∀ e ∈ h', e.call ≠ .host (.run (o.buildAttempt r o.primaryFlag)))
        fun _ _ _ => True)
      s now h := by
    apply prepareSource_unbuilt.ensures
    intro source now t ht
    rcases source with _ | e | source
    . trivial
    . trivial
    . exact List.forall_mem_append.mpr ⟨hfirst, ht⟩
  apply stopping_andThen (hF.prepareSource_stops s now h hh) (prepareSource_path.and_either unbuilt)
  rintro _ s now h hh ⟨rfl, hfirst⟩
  apply stopping_bind (hF.runBuild_stops hh hfirst)
  intro output s now h hh
  rw [← errorOf_checkOutput] at hh
  apply stopping_bind (stopping_ofExcept hh)
  intro _ s now h hh
  exact hF.collect_stops hh

end ProviderOptions.Heeded

theorem ProviderOptions.build_path {o : ProviderOptions} {r : BuildRequest} {σ : Type} {s : σ}
    : (o.build r : Program σ Error BuildResult).Ensures
        (.either (fun result _ _ _ => result.buildPath = o.buildPath r.board) fun _ _ _ => True)
        s now h := by
  unfold build
  split
  . trivial
  . apply ensures_last
    intro _ _ _ _
    apply ensures_last
    intro _ _ _ _
    apply ensures_last
    intro _ _ _ _
    unfold collect
    apply ensures_last
    intro populated _ _ _
    split
    . trivial
    . split
      . rfl
      . apply ensures_last
        intro present _ _ _
        split
        . rfl
        . trivial

end BringUp
