import BringUp.Build.Provider
import BringUp.Proofs.Lab.Health

/-!
This module contains builds on a host whose tools work. The main statement is that such a build
yields the directory of the board and that of the further firmware, whatever worktrees there are.
-/

namespace BringUp

open Program

namespace ProviderOptions

/--
Whether the host replies as it does if tools work: none of them fails or reports an image that does
not work, directories can be created, and the build of a board has left something in its directory
and finds the further firmware in place.
-/
def Works (o : ProviderOptions) (board : String) : (c : HostCall) → c.Reply → Prop
  | .run _, r =>
    ∃ output, r = .ok output ∧ output.success = true ∧
      output.markedLine? o.nonFunctionalMarker = none
  | .createDirs _, r => r = .ok ()
  | .isPopulated path, populated => path = o.buildPath board → populated = true
  | .isDirectory path, present => o.binmanIndir = some path → present = true
  | _, _ => True

section

variable {σ : Type} {s : σ} {o : ProviderOptions} {board : String} {P : Promise}
variable (hP : ∀ c r, P (.host c) r → o.Works board c r)
include hP

theorem yields_runChecked {command : ToolCommand} {Q : Except Error ToolOutput → σ → Prop}
    (hq : ∀ output, output.markedLine? o.nonFunctionalMarker = none → Q (.ok output) s)
    : (command.runChecked name).Yields P Q s := by
  rw [ToolCommand.runChecked, yields_bind, yields_host]
  intro r hr
  obtain ⟨output, rfl, hsuccess, hmarker⟩ := hP _ _ hr
  simpa [hsuccess] using hq output hmarker

theorem ends_setup
    : (Worktree.setup o name commit : Program σ Error Worktree).Ends P
        (.ok ⟨name, o.worktreePath name⟩) s := by
  have selected : (do
      Worktree.selectCommit o name commit
      pure ⟨name, o.worktreePath name⟩ : Program σ Error Worktree).Ends P
        (.ok ⟨name, o.worktreePath name⟩) s := by
    rw [Ends, Worktree.selectCommit, yields_bind, yields_bind]
    apply yields_runChecked hP
    intro _ _
    exact ⟨rfl, rfl⟩
  rw [Worktree.setup, Ends, yields_bind, yields_host]
  intro present _
  rw [onValue_ok]
  split
  . rw [yields_bind]
    apply yields_runChecked hP
    intro _ _
    exact selected
  . rw [yields_bind, yields_host]
    intro created hcreated
    obtain rfl : created = .ok () := hP _ _ hcreated
    rw [onValue_ok, yields_bind]
    apply yields_runChecked hP
    intro _ _
    exact selected

theorem ends_applyFile {w : Worktree}
    : (w.applyFile patch file : Program σ Error Unit).Ends P (.ok ()) s := by
  rw [Worktree.applyFile, Ends, yields_bind, yields_host]
  intro r hr
  obtain ⟨output, rfl, hsuccess, _⟩ := hP _ _ hr
  simp [hsuccess]

theorem yields_prepareSource {r : BuildRequest} (hfile : ∀ text, r.patch ≠ some (.inline text))
    : (o.prepareSource name r : Program σ Error String).Yields P
        (fun source s' => (∃ dir, source = .ok dir) ∧ s' = s) s := by
  unfold prepareSource
  split
  . exact ⟨⟨_, rfl⟩, rfl⟩
  . apply (ends_setup hP).bind
    split
    . exact ⟨⟨_, rfl⟩, rfl⟩
    . next patch hpatch =>
      cases patch with
      | inline text => exact absurd hpatch (hfile text)
      | file path =>
        apply (ends_applyFile hP).bind
        exact ⟨⟨_, rfl⟩, rfl⟩

theorem yields_runBuild {command : ToolCommand} {Q : Except Error ToolOutput → σ → Prop}
    (hq : ∀ output, output.markedLine? o.nonFunctionalMarker = none → Q (.ok output) s)
    : (o.runBuild name command).Yields P Q s := by
  rw [runBuild, yields_bind, yields_host]
  intro r hr
  obtain ⟨output, rfl, hsuccess, hmarker⟩ := hP _ _ hr
  simpa [hsuccess] using hq output hmarker

theorem ends_collect
    : (o.collect name (o.buildPath board) : Program σ Error BuildResult).Ends P
        (.ok ⟨o.buildPath board, o.binmanIndir⟩) s := by
  rw [collect, Ends, yields_bind, yields_host]
  intro populated hpopulated
  obtain rfl : populated = true := hP _ _ hpopulated rfl
  rw [onValue_ok, if_neg (by simp)]
  split
  . next hnone => simp [hnone]
  . next dir hdir =>
    rw [yields_bind, yields_host]
    intro present hpresent
    obtain rfl : present = true := hP _ _ hpresent hdir
    simp [hdir]

theorem ends_build {r : BuildRequest} (hboard : r.board = board) (hnamed : board.isEmpty = false)
    (hfile : ∀ text, r.patch ≠ some (.inline text))
    : (o.build r : Program σ Error BuildResult).Ends P
        (.ok ⟨o.buildPath board, o.binmanIndir⟩) s := by
  subst hboard
  rw [build, if_neg (by simp [hnamed]), Ends, yields_bind]
  apply (yields_prepareSource hP hfile).mono
  rintro _ _ ⟨⟨source, rfl⟩, rfl⟩
  rw [onValue_ok, yields_bind]
  apply yields_runBuild hP
  intro output hmarker
  rw [onValue_ok, checkOutput, hmarker]
  exact ends_collect hP

end

end ProviderOptions

end BringUp
