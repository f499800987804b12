import BringUp.Boot.Strategy
import BringUp.Proofs.Lab.Footprint

/-!
This module contains the footprints of the steps that take a board from one state to the next. The
builder calls nothing but the host, and every other step keeps to a few lines.
-/

namespace BringUp

open Program

variable {σ : Type}

theorem ToolCommand.runChecked_within (command : ToolCommand) (board : String)
    : (command.runChecked board : Program σ Error ToolOutput).Within Footprint.outside.Covers := by
  unfold runChecked
  apply within_bind
  . simp [Footprint.Covers]
  . intro r
    split <;> simp

namespace Worktree

theorem setup_within (o : ProviderOptions) (board commit : String)
    : (setup o board commit : Program σ Error Worktree).Within Footprint.outside.Covers := by
  unfold setup selectCommit
  apply within_bind
  . simp [Footprint.Covers]
  . intro present
    split
    . simp [ToolCommand.runChecked_within]
    . apply within_bind
      . simp [Footprint.Covers]
      . intro created
        split <;> simp [ToolCommand.runChecked_within]

theorem applyFile_within (w : Worktree) (patch : Patch) (file : String)
    : (w.applyFile patch file : Program σ Error Unit).Within Footprint.outside.Covers := by
  unfold applyFile
  apply within_bind
  . simp [Footprint.Covers]
  . intro r
    split <;> simp [Footprint.Covers]

theorem applyPatch_within (w : Worktree) (patch : Patch)
    : (w.applyPatch patch : Program σ Error Unit).Within Footprint.outside.Covers := by
  unfold applyPatch
  split
  . apply applyFile_within
  . apply within_bind
    . simp [Footprint.Covers]
    . intro written
      split <;> simp [Footprint.Covers, applyFile_within]

end Worktree

namespace ProviderOptions

theorem prepareSource_within (o : ProviderOptions) (board : String) (r : BuildRequest)
    : (o.prepareSource board r : Program σ Error String).Within Footprint.outside.Covers := by
  unfold prepareSource
  split
  . simp
  . apply within_bind
    . apply Worktree.setup_within
    . intro worktree
      split <;> simp [Worktree.applyPatch_within]

theorem runBuild_within (o : ProviderOptions) (board : String) (command : ToolCommand)
    : (o.runBuild board command : Program σ Error ToolOutput).Within Footprint.outside.Covers := by
  unfold runBuild
  apply within_bind
  . simp [Footprint.Covers]
  . intro r
    split <;> simp [ToolCommand.runChecked_within]

theorem collect_within (o : ProviderOptions) (board buildPath : String)
    : (o.collect board buildPath : Program σ Error BuildResult).Within
        Footprint.outside.Covers := by
  unfold collect
  apply within_bind
  . simp [Footprint.Covers]
  . intro populated
    split
    . simp
    . split <;> simp [Footprint.Covers]

theorem build_within (o : ProviderOptions) (r : BuildRequest)
    : (o.build r : Program σ Error BuildResult).Within Footprint.outside.Covers := by
  unfold build
  split
  . simp
  . apply within_bind
    . apply prepareSource_within
    . intro source
      simp [runBuild_within, collect_within]

end ProviderOptions

namespace Writer

theorem writeParts_within (w : Writer) (plan : List PlannedWrite)
    : (w.writeParts plan : Program σ Error Unit).Within
        (Footprint.Covers ⟨[.storage, .emulator], []⟩) := by
  apply within_forEach
  intro p _
  apply within_mapError
  unfold writePart
  split <;> simp [Footprint.Covers, DeviceCall.device]

theorem writePlan_within (w : Writer) (plan : List PlannedWrite)
    : (w.writePlan plan : Program σ Error Unit).Within
        (Footprint.Covers ⟨[.storage, .emulator], []⟩) := by
  unfold writePlan
  split
  . split
    . rw [within_device_bind]
      constructor
      . simp [Footprint.Covers, DeviceCall.device]
      . intro _
        apply within_bind (within_attempt (writeParts_within w plan))
        intro result
        simp [Footprint.Covers, DeviceCall.device]
    . simp
  . apply writeParts_within

theorem takeCard_within
    : (takeCard : Program σ Error Unit).Within (Footprint.Covers ⟨[.sdmux], []⟩) := by
  simp [takeCard, Footprint.Covers, DeviceCall.device]

def writeLines : List Device := [.sdmux, .storage, .emulator]

theorem writeCard_within (w : Writer) (plan : List PlannedWrite)
    : (w.writeCard plan : Program σ Error Unit).Within (Footprint.Covers ⟨writeLines, []⟩) := by
  have hplan : (w.writePlan plan : Program σ Error Unit).Within
      (Footprint.Covers ⟨writeLines, []⟩) :=
    (w.writePlan_within plan).mono fun c hc => hc.mono (by simp [writeLines]) (by simp)
  unfold writeCard
  split
  . apply within_bind
    . apply within_attempt
      apply within_bind
      . apply takeCard_within.mono
        intro c hc
        exact hc.mono (by simp [writeLines]) (by simp)
      . intro _
        exact hplan
    . intro result
      simp [sleep, writeLines, Footprint.Covers, DeviceCall.device]
  . exact hplan

theorem write_within (w : Writer) (dir : String)
    : (w.write dir : Program σ Error Unit).Within (Footprint.Covers ⟨writeLines, [.write]⟩) := by
  unfold write
  apply within_bind
  . simp
  . intro plan
    apply within_asPart
    . apply (w.writeCard_within plan).mono
      intro c hc
      exact hc.mono (by simp) (by simp)
    . simp [Footprint.Covers, Mark.part]
    . simp [Footprint.Covers, Mark.part]

theorem sendParts_within (w : Writer) (plan : List PlannedSend)
    : (w.sendParts plan : Program σ Error Unit).Within (Footprint.Covers ⟨[.usbLoader], []⟩) := by
  unfold sendParts
  rw [within_device_bind]
  constructor
  . simp [Footprint.Covers, DeviceCall.device]
  . intro _
    apply within_bind
    . apply within_forEach
      intro p _
      simp [Footprint.Covers, DeviceCall.device]
    . intro _
      simp [Footprint.Covers, DeviceCall.device]

theorem send_within (w : Writer) (dir : String)
    : (w.send dir : Program σ Error Unit).Within (Footprint.Covers ⟨[.usbLoader], [.send]⟩) := by
  unfold send
  apply within_bind
  . simp
  . intro plan
    split
    . apply within_asPart
      . apply (w.sendParts_within plan).mono
        intro c hc
        exact hc.mono (by simp) (by simp)
      . simp [Footprint.Covers, Mark.part]
      . simp [Footprint.Covers, Mark.part]
    . simp

theorem prepareBoot_within (w : Writer)
    : (w.prepareBoot : Program σ Error Unit).Within (Footprint.Covers ⟨[.sdmux], []⟩) := by
  simp [prepareBoot, Footprint.Covers, DeviceCall.device]

end Writer

namespace Strategy

theorem powerOff_within : powerOff.Within (Footprint.Covers ⟨[.console, .power], []⟩) := by
  simp [powerOff, Footprint.Covers, DeviceCall.device]

theorem locateBuild_within (s : Strategy) : s.locateBuild.Within Footprint.outside.Covers := by
  simp [locateBuild, ProviderOptions.build_within]

theorem enterRecovery_within (s : Strategy) (reset : ResetLine)
    : (s.enterRecovery reset).Within
        (Footprint.Covers ⟨[.power, .reset, .recovery, .console], []⟩) := by
  simp [enterRecovery, requestRecovery, sleep, Footprint.Covers, DeviceCall.device]

theorem recoveryReset_within (s : Strategy) : s.recoveryReset.Within Footprint.outside.Covers := by
  unfold recoveryReset
  split <;> simp

def installFootprint : Footprint where
  devices := [.power, .reset, .recovery, .console, .usbLoader] ++ Writer.writeLines
  parts := [.write, .send]

theorem install_within (s : Strategy) : s.install.Within installFootprint.Covers := by
  have outside {α : Type} {p : Drive α} (hp : p.Within Footprint.outside.Covers)
      : p.Within installFootprint.Covers :=
    hp.mono fun c hc => hc.mono (by simp [Footprint.outside]) (by simp [Footprint.outside])
  unfold install
  split
  . apply within_bind (outside s.recoveryReset_within)
    intro reset
    apply within_bind (outside s.locateBuild_within)
    intro dir
    apply within_bind
    . apply (s.enterRecovery_within reset).mono
      intro c hc
      exact hc.mono (by simp [installFootprint]) (by simp)
    . intro _
      apply (s.writer.send_within dir).mono
      intro c hc
      exact hc.mono (by simp [installFootprint]) (by simp [installFootprint])
  . apply within_bind (outside s.locateBuild_within)
    intro dir
    apply (s.writer.write_within dir).mono
    intro c hc
    exact hc.mono (List.subset_append_right ..) (by simp [installFootprint])

theorem powerUp_within (s : Strategy)
    : s.powerUp.Within (Footprint.Covers ⟨[.console, .power, .reset], []⟩) := by
  unfold powerUp
  apply within_bind
  . simp [Footprint.Covers, DeviceCall.device]
  . intro _
    split <;> simp [Footprint.Covers, DeviceCall.device]

theorem drainConsole_within : drainConsole.Within (Footprint.Covers ⟨[.console], []⟩) := by
  unfold drainConsole
  apply within_bind
  . simp [Footprint.Covers, DeviceCall.device]
  . intro r
    split <;> simp

theorem timedOut_within
    : (timedOut began : Drive α).Within (Footprint.Covers ⟨[.console], []⟩) := by
  simp [timedOut, drainConsole_within, clock, Footprint.Covers]

theorem interrupt_within (s : Strategy) (startedAt : Nat)
    : (s.interrupt startedAt).Within (Footprint.Covers ⟨[.bootloader, .console], []⟩) := by
  have late {began : Nat}
      : (timedOut began : Drive BootReport).Within
          (Footprint.Covers ⟨[.bootloader, .console], []⟩) :=
    timedOut_within.mono fun c hc => hc.mono (by simp) (by simp)
  unfold interrupt
  apply within_bind
  . simp [clock, Footprint.Covers]
  . intro began
    apply within_bind
    . simp [Footprint.Covers]
    . intro r
      split <;> simp [late, readReport, clock, Footprint.Covers, DeviceCall.device]

theorem bootToShell_within (s : Strategy)
    : s.bootToShell.Within (Footprint.Covers ⟨[.bootloader, .shell], []⟩) := by
  simp [bootToShell, Footprint.Covers, DeviceCall.device]

theorem attach_within (target : BootState)
    : (attach target).Within (Footprint.Covers ⟨[.power, .bootloader, .shell], []⟩) := by
  cases target <;> simp [attach, Footprint.Covers, DeviceCall.device]

end Strategy

end BringUp
