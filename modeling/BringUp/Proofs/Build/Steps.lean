import BringUp.Proofs.Build.FailStop
import Mathlib.Data.List.Forall2

/-!
This module contains the order in which a build runs tools. They are run in steps, of which each is
taken only if all before it have succeeded. The main statement is that every build obeys the steps
for its request, which depend on whether the worktree of the board is there.
-/

namespace BringUp

open Program Trace

structure ToolRun where
  command : ToolCommand
  reply : Option (Except String ToolOutput)

def ToolRun.succeeded (run : ToolRun) : Bool :=
  match run.reply with
  | some (.ok output) => output.success
  | _ => false

def Event.toolRun? : Event → Option ToolRun
  | ⟨.host (.run command), _, _, reply⟩ => some ⟨command, reply⟩
  | _ => none

def Trace.toolRuns (t : List Event) : List ToolRun :=
  t.filterMap Event.toolRun?

structure ToolStep where
  Runs : ToolCommand → Prop
  otherwise : Option (Except String ToolOutput) → List ToolCommand

def ToolStep.only (command : ToolCommand) : ToolStep :=
  ⟨(· = command), fun _ => []⟩

namespace ToolStep

/--
Whether each run is the next step, taken after all before it have succeeded. Only after a step that
has not succeeded other tools may be run.
-/
def Obeyed : List ToolStep → List ToolRun → Prop
  | _, [] => True
  | [], _ :: _ => False
  | step :: steps, run :: runs =>
    step.Runs run.command ∧
      if run.succeeded then Obeyed steps runs
      else runs.map ToolRun.command <+: step.otherwise run.reply

def Completed : List ToolStep → List ToolRun → Prop :=
  List.Forall₂ fun step run => step.Runs run.command ∧ run.succeeded = true

variable {step : ToolStep} {run : ToolRun} {runs : List ToolRun}

theorem completed_nil : Completed [] [] :=
  .nil

theorem obeyed_nil : Obeyed steps [] := by
  cases steps <;> trivial

theorem Obeyed.append (rest : List ToolStep) (ho : Obeyed steps runs)
    : Obeyed (steps ++ rest) runs := by
  induction runs generalizing steps with
  | nil => exact obeyed_nil
  | cons run runs ih =>
    cases steps with
    | nil => exact ho.elim
    | cons step steps =>
      refine ⟨ho.left, ?_⟩
      have later := ho.right
      split
      . next hsuccess =>
        rw [if_pos hsuccess] at later
        exact ih later
      . next hfailure =>
        rw [if_neg hfailure] at later
        exact later

theorem completed_single (hruns : step.Runs run.command) (hsuccess : run.succeeded = true)
    : Completed [step] [run] :=
  .cons ⟨hruns, hsuccess⟩ .nil

theorem Completed.single (hc : Completed [step] runs)
    : ∃ run, runs = [run] ∧ step.Runs run.command ∧ run.succeeded = true := by
  obtain _ | ⟨hstep, hnil⟩ := hc
  cases hnil
  exact ⟨_, rfl, hstep⟩

theorem obeyed_failed (hruns : step.Runs run.command) (hfailure : run.succeeded = false)
    (hrest : runs.map ToolRun.command <+: step.otherwise run.reply)
    : Obeyed (step :: steps) (run :: runs) := by
  refine ⟨hruns, ?_⟩
  rw [if_neg (by simp [hfailure])]
  exact hrest

theorem Obeyed.only (ho : Obeyed [.only command] runs)
    : runs.map ToolRun.command <+: [command] := by
  match runs, ho with
  | [], _ => exact List.nil_prefix ..
  | [run], ho =>
    obtain rfl : run.command = command := ho.left
    exact List.prefix_rfl
  | run :: run' :: runs, ho =>
    have later := ho.right
    split at later
    . exact later.elim
    . exact absurd later (by simp [ToolStep.only])

theorem Completed.then (hc : Completed steps runs) (ho : Obeyed rest runs')
    : Obeyed (steps ++ rest) (runs ++ runs') := by
  induction hc with
  | nil => exact ho
  | cons hstep _ ih =>
    refine ⟨hstep.left, ?_⟩
    rw [if_pos hstep.right]
    exact ih

theorem Completed.append (hc : Completed steps runs) (hc' : Completed rest runs')
    : Completed (steps ++ rest) (runs ++ runs') :=
  List.rel_append hc hc'

theorem Completed.obeyed (hc : Completed steps runs) : Obeyed steps runs := by
  have after : Obeyed [] [] := obeyed_nil
  simpa using hc.then after

end ToolStep

open ToolStep

namespace Trace

@[simp]
theorem toolRuns_nil : toolRuns [] = [] :=
  rfl

@[simp]
theorem toolRuns_append : toolRuns (h ++ t) = toolRuns h ++ toolRuns t :=
  List.filterMap_append ..

@[simp]
theorem toolRuns_cons_run
    : toolRuns (⟨.host (.run command), start, stop, reply⟩ :: t) =
        ⟨command, reply⟩ :: toolRuns t :=
  rfl

theorem toolRuns_eq_nil (ht : ∀ e ∈ t, ∀ command, e.call ≠ .host (.run command))
    : toolRuns t = [] := by
  apply List.filterMap_eq_nil_iff.mpr
  intro e he
  unfold Event.toolRun?
  split
  . exact absurd rfl (ht _ he _)
  . rfl

end Trace

/--
Whatever the lab does, the tools that a run of the program runs are the steps. They are all taken if
the run ends with a value.
-/
def Program.Performs (steps : List ToolStep) (p : Program σ Error α) : Prop :=
  ∀ s now, p.Ensures
    (.either (fun _ _ _ t => Completed steps (toolRuns t))
      fun _ _ t => Obeyed steps (toolRuns t))
    s now []

section

variable {σ α β : Type}

theorem performs_bind {p : Program σ Error α} {f : α → Program σ Error β}
    (hp : p.Performs steps) (hf : ∀ a, (f a).Performs rest)
    : (p >>= f).Performs (steps ++ rest) := by
  intro s now
  rw [ensures_bind]
  apply (hp s now).mono
  intro r s now h hr
  rcases r with _ | e | a
  . exact Obeyed.append _ hr
  . exact Obeyed.append _ hr
  . rw [Post.andThen_ok, ensures_iff_nil]
    apply (hf a s now).mono
    intro r _ _ t ht
    rcases r with _ | e | b
    . simpa using Completed.then hr ht
    . simpa using Completed.then hr ht
    . simpa using Completed.append hr ht

theorem performs_of_within {p : Program σ Error α}
    (hp : p.Within fun c => ∀ command, c ≠ .host (.run command))
    : p.Performs [] := by
  intro s now
  apply hp.ensures
  intro r now t ht
  have unrun : toolRuns ([] ++ t) = [] := toolRuns_eq_nil ht
  rcases r with _ | e | a
  . simp only [Post.either_none, unrun, obeyed_nil]
  . simp only [Post.either_error, unrun, obeyed_nil]
  . simp only [Post.either_ok, unrun, completed_nil]

theorem performs_then {p : Program σ Error α} {f : α → Program σ Error β} (hp : p.Performs steps)
    (hf : ∀ a, (f a).Within fun c => ∀ command, c ≠ .host (.run command))
    : (p >>= f).Performs steps := by
  simpa using performs_bind hp fun a => performs_of_within (hf a)

theorem within_then_performs {p : Program σ Error α} {f : α → Program σ Error β}
    (hp : p.Within fun c => ∀ command, c ≠ .host (.run command))
    (hf : ∀ a, (f a).Performs steps)
    : (p >>= f).Performs steps :=
  performs_bind (performs_of_within hp) hf

theorem runChecked_performs {command : ToolCommand}
    : (command.runChecked board : Program σ Error ToolOutput).Performs [.only command] := by
  intro s now
  rw [ToolCommand.runChecked, ensures_bind, ensures_host]
  refine ⟨obeyed_failed rfl rfl (List.nil_prefix ..), ?_⟩
  intro stop reply _
  cases reply with
  | error reason => exact obeyed_failed rfl rfl (List.nil_prefix ..)
  | ok output =>
    rw [Post.andThen_ok]
    dsimp only
    split
    . next hsuccess => exact completed_single rfl hsuccess
    . next hfailure =>
      exact obeyed_failed rfl (Bool.not_eq_true _ |>.mp hfailure) (List.nil_prefix ..)

end

namespace Worktree

variable {σ : Type}

def applyStep (dir : String) (patch : Patch) : ToolStep where
  Runs command :=
    match patch with
    | .file file => command = git dir ["apply", file] none
    | .inline _ => ∃ file, command = git dir ["apply", file] none
  otherwise _ := [git dir ["am", "--abort"] none, git dir ["reset", "--hard"] none]

theorem applyFile_performs {w : Worktree}
    (hruns : (applyStep w.path patch).Runs (git w.path ["apply", file] none))
    : (w.applyFile patch file : Program σ Error Unit).Performs [applyStep w.path patch] := by
  intro s now
  have cleared {reply : Except String ToolOutput} {stop : Nat} {output : String}
      (hfailure : ToolRun.succeeded ⟨git w.path ["apply", file] none, some reply⟩ = false)
      : (do
          let _ ← host (.run (git w.path ["am", "--abort"] none))
          let _ ← host (.run (git w.path ["reset", "--hard"] none))
          raise (.patchApplyFailed patch.describe w.board output) : Program σ Error Unit).Ensures
          (.either (fun _ _ _ t => Completed [applyStep w.path patch] (toolRuns t))
            fun _ _ t => Obeyed [applyStep w.path patch] (toolRuns t))
          s stop [⟨.host (.run (git w.path ["apply", file] none)), now, stop, some reply⟩] := by
    simp only [ensures_bind, ensures_host, Post.andThen_ok, ensures_raise]
    refine ⟨obeyed_failed hruns hfailure ?_, ?_⟩
    . exact List.prefix_append [git w.path ["am", "--abort"] none] _
    . intro _ _ _
      refine ⟨obeyed_failed hruns hfailure (List.prefix_rfl), ?_⟩
      intro _ _ _
      exact obeyed_failed hruns hfailure (List.prefix_rfl)
  rw [applyFile, ensures_bind, ensures_host]
  refine ⟨obeyed_failed hruns rfl (List.nil_prefix ..), ?_⟩
  intro stop reply _
  cases reply with
  | error reason => exact cleared rfl
  | ok output =>
    rw [Post.andThen_ok]
    dsimp only
    split
    . next hsuccess => exact completed_single hruns hsuccess
    . next hfailure => exact cleared (Bool.not_eq_true _ |>.mp hfailure)

theorem applyPatch_performs {w : Worktree}
    : (w.applyPatch patch : Program σ Error Unit).Performs [applyStep w.path patch] := by
  unfold applyPatch
  cases patch with
  | file path => exact applyFile_performs rfl
  | inline text =>
    apply within_then_performs (by simp)
    intro created
    cases created with
    | error reason =>
      intro s now
      exact obeyed_nil
    | ok path =>
      have applied : (w.applyFile (.inline text) path : Program σ Error Unit).Performs
          [applyStep w.path (.inline text)] :=
        applyFile_performs ⟨path, rfl⟩
      intro s now
      simp only [ensures_bind, ensures_attempt]
      apply (applied s now).mono
      -- That the file is removed adds no tool that was run.
      intro r s now h hr
      rcases r with _ | e | a
      . exact hr
      . have tried : Obeyed _ _ := hr
        simp [toolRuns_eq_nil, tried]
      . have done : Completed _ _ := hr
        simp [toolRuns_eq_nil, done, done.obeyed]

end Worktree

namespace ProviderOptions

open Worktree

variable (o : ProviderOptions)

def addCommand (path : String) : ToolCommand :=
  git o.sourceDir ["worktree", "add", "--detach", path] (some o.workdirs)

def resetCommand (path : String) : ToolCommand :=
  git path ["reset", "--hard"] (some o.workdirs)

def checkoutSteps (path commit : String) (present : Bool) : List ToolStep :=
  [.only (if present then o.resetCommand path else o.addCommand path),
    .only (git path ["checkout", commit] none)]

def buildStep (r : BuildRequest) : ToolStep where
  Runs command := command = o.buildAttempt r o.primaryFlag
  otherwise
    | some (.ok output) =>
      if Text.contains output.combined o.unsupportedFlagPattern then
        [o.buildAttempt r o.fallbackFlag]
      else []
    | _ => []

def steps (r : BuildRequest) (present : Bool) : List ToolStep :=
  match r.commit with
  | none => [o.buildStep r]
  | some commit =>
    let path := o.worktreePath (o.effectiveBoard r.board)
    o.checkoutSteps path commit present ++ (r.patch.map (applyStep path)).toList ++ [o.buildStep r]

end ProviderOptions

def Trace.Asked (path : String) (present : Bool) (t : List Event) : Prop :=
  ∃ start stop rest, t = ⟨.host (.pathExists path), start, stop, some present⟩ :: rest

def Program.PerformsBy (path : String) (steps : Bool → List ToolStep) (p : Program σ Error α)
    : Prop :=
  ∀ s now, p.Ensures
    (.either
      (fun _ _ _ t => ∃ present, Asked path present t ∧ Completed (steps present) (toolRuns t))
      fun _ _ t => ∃ present, (toolRuns t ≠ [] → Asked path present t) ∧
        Obeyed (steps present) (toolRuns t))
    s now []

theorem Trace.Asked.append (ha : Asked path present h) : Asked path present (h ++ t) := by
  obtain ⟨start, stop, rest, rfl⟩ := ha
  exact ⟨start, stop, rest ++ t, rfl⟩

section

variable {σ α β : Type}

theorem performsBy_bind {p : Program σ Error α} {f : α → Program σ Error β}
    {steps : Bool → List ToolStep} {value : α → Prop} (hp : p.PerformsBy path steps)
    (hv : ∀ s now, p.Ensures (.either (fun a _ _ _ => value a) fun _ _ _ => True) s now [])
    (hf : ∀ a, value a → (f a).Performs rest)
    : (p >>= f).PerformsBy path fun present => steps present ++ rest := by
  intro s now
  rw [ensures_bind]
  apply ((hp s now).and (hv s now)).mono
  rintro r s now h ⟨hr, hvalue⟩
  rcases r with _ | e | a
  . obtain ⟨present, asked, tried⟩ := hr
    exact ⟨present, asked, tried.append _⟩
  . obtain ⟨present, asked, tried⟩ := hr
    exact ⟨present, asked, tried.append _⟩
  . obtain ⟨present, asked, done⟩ := hr
    rw [Post.andThen_ok, ensures_iff_nil]
    apply (hf a hvalue s now).mono
    intro r _ _ t ht
    rcases r with _ | e | b
    . exact ⟨present, fun _ => asked.append, by simpa using done.then ht⟩
    . exact ⟨present, fun _ => asked.append, by simpa using done.then ht⟩
    . exact ⟨present, asked.append, by simpa using done.append ht⟩

theorem performsBy_asked {path : String} {f : Bool → Program σ Error α}
    {steps : Bool → List ToolStep} (hf : ∀ present, (f present).Performs (steps present))
    : (host (.pathExists path) >>= f).PerformsBy path steps := by
  intro s now
  rw [ensures_bind, ensures_host]
  constructor
  . exact ⟨true, fun hne => absurd rfl hne, obeyed_nil⟩
  . intro stop present _
    rw [Post.andThen_ok, ensures_iff_nil]
    apply (hf present s stop).mono
    intro r _ _ t ht
    rcases r with _ | e | w
    . exact ⟨present, fun _ => ⟨now, stop, t, rfl⟩, ht⟩
    . exact ⟨present, fun _ => ⟨now, stop, t, rfl⟩, ht⟩
    . exact ⟨present, ⟨now, stop, t, rfl⟩, ht⟩

theorem setup_performs (o : ProviderOptions) (board commit : String)
    : (Worktree.setup o board commit : Program σ Error Worktree).PerformsBy
        (o.worktreePath board) (o.checkoutSteps (o.worktreePath board) commit) := by
  have selected : (do
      Worktree.selectCommit o board commit
      pure ⟨board, o.worktreePath board⟩ : Program σ Error Worktree).Performs
      [.only (Worktree.git (o.worktreePath board) ["checkout", commit] none)] :=
    performs_then (performs_then runChecked_performs (by simp)) (by simp)
  apply performsBy_asked
  intro present
  cases present with
  | true => exact performs_bind runChecked_performs fun _ => selected
  | false =>
    apply within_then_performs (by simp)
    intro created
    cases created with
    | error reason =>
      intro s now
      exact obeyed_nil
    | ok _ => exact performs_bind runChecked_performs fun _ => selected

def ProviderOptions.Built (o : ProviderOptions) (r : BuildRequest) (run : ToolRun) : Prop :=
  run.succeeded = true ∧
    (run.command = o.buildAttempt r o.primaryFlag ∨ run.command = o.buildAttempt r o.fallbackFlag)

theorem runBuild_steps (o : ProviderOptions) (r : BuildRequest)
    : (o.runBuild (o.effectiveBoard r.board)
        (o.buildCommand (o.effectiveBoard r.board) (o.outputOf (o.effectiveBoard r.board))
          r.configOnly (o.sourceOf r)) : Program σ Error ToolOutput).Ensures
        (.either
          (fun _ _ _ t => Obeyed [o.buildStep r] (toolRuns t) ∧ ∃ run ∈ toolRuns t, o.Built r run)
          fun _ _ t => Obeyed [o.buildStep r] (toolRuns t))
        s now [] := by
  rw [ProviderOptions.runBuild, ensures_bind, ensures_host]
  refine ⟨obeyed_failed rfl rfl (List.nil_prefix ..), ?_⟩
  intro stop reply _
  cases reply with
  | error reason => exact obeyed_failed rfl rfl (List.nil_prefix ..)
  | ok output =>
    rw [Post.andThen_ok]
    dsimp only
    split
    . next hsuccess =>
      have done : Completed [o.buildStep r]
          [⟨o.buildAttempt r o.primaryFlag, some (.ok output)⟩] :=
        completed_single rfl hsuccess
      exact ⟨done.obeyed, _, List.mem_singleton_self _, hsuccess, .inl rfl⟩
    . next hfailure =>
      have failed : ToolRun.succeeded ⟨o.buildAttempt r o.primaryFlag, some (.ok output)⟩ = false :=
        Bool.not_eq_true _ |>.mp hfailure
      split
      . next hknown =>
        have retried {runs : List ToolRun}
            (ho : Obeyed [.only (o.buildAttempt r o.fallbackFlag)] runs)
            : Obeyed [o.buildStep r]
              (⟨o.buildAttempt r o.primaryFlag, some (.ok output)⟩ :: runs) := by
          apply obeyed_failed rfl failed
          simpa [ProviderOptions.buildStep, hknown] using ho.only
        rw [ensures_iff_nil]
        apply (runChecked_performs s stop).mono
        intro r' _ _ t ht
        rcases r' with _ | e | output'
        . exact retried ht
        . exact retried ht
        . have done : Completed [.only (o.buildAttempt r o.fallbackFlag)] (toolRuns t) := ht
          obtain ⟨run, hruns, hcommand, hsuccess⟩ := done.single
          exact ⟨retried done.obeyed, run, by simp [hruns], hsuccess, .inr hcommand⟩
      . exact obeyed_failed rfl failed (List.nil_prefix ..)

theorem prepareSource_performs {o : ProviderOptions} {r : BuildRequest}
    (hcommit : r.commit = some commit)
    : (o.prepareSource (o.effectiveBoard r.board) r : Program σ Error String).PerformsBy
        (o.worktreePath (o.effectiveBoard r.board))
        fun present =>
          o.checkoutSteps (o.worktreePath (o.effectiveBoard r.board)) commit present ++
            (r.patch.map
              (Worktree.applyStep (o.worktreePath (o.effectiveBoard r.board)))).toList := by
  unfold ProviderOptions.prepareSource
  simp only [hcommit]
  apply performsBy_bind (setup_performs o _ _) fun _ _ => ProviderOptions.Heeded.setup_path
  rintro _ rfl
  cases r.patch with
  | none => exact performs_of_within (by simp)
  | some patch => exact performs_then Worktree.applyPatch_performs (by simp)

theorem finish_steps {o : ProviderOptions} {r : BuildRequest}
    : (do
        let output ← o.runBuild (o.effectiveBoard r.board)
          (o.buildCommand (o.effectiveBoard r.board) (o.outputOf (o.effectiveBoard r.board))
            r.configOnly (o.sourceOf r))
        ofExcept (o.checkOutput (o.effectiveBoard r.board) output)
        o.collect (o.effectiveBoard r.board) (o.outputOf (o.effectiveBoard r.board))
          : Program σ Error BuildResult).Ensures
        (.either
          (fun _ _ _ t => Obeyed [o.buildStep r] (toolRuns t) ∧ ∃ run ∈ toolRuns t, o.Built r run)
          fun _ _ t => Obeyed [o.buildStep r] (toolRuns t))
        s now [] := by
  have quiet (output : ToolOutput) : (do
      ofExcept (o.checkOutput (o.effectiveBoard r.board) output)
      o.collect (o.effectiveBoard r.board) (o.outputOf (o.effectiveBoard r.board))
        : Program σ Error BuildResult).Within fun c => ∀ command, c ≠ .host (.run command) := by
    unfold ProviderOptions.collect
    apply within_bind within_ofExcept
    intro _
    apply within_bind (by simp)
    intro populated
    split
    . simp
    . split <;> simp
  apply (runBuild_steps o r).andThen
  rintro output s now h ⟨obeyed, built⟩
  apply (quiet output).ensures
  intro result now t ht
  rcases result with _ | e | result
  . simpa [toolRuns_eq_nil ht] using obeyed
  . simpa [toolRuns_eq_nil ht] using obeyed
  . simpa [toolRuns_eq_nil ht] using And.intro obeyed built

def ProviderOptions.InSteps (o : ProviderOptions) (r : BuildRequest) (t : List Event) : Prop :=
  ∃ present,
    (r.commit ≠ none → toolRuns t ≠ [] →
      Asked (o.worktreePath (o.effectiveBoard r.board)) present t) ∧
    Obeyed (o.steps r present) (toolRuns t)

theorem build_steps (o : ProviderOptions) (r : BuildRequest) (s : σ) (now : Nat)
    : (o.build r : Program σ Error BuildResult).Ensures
        (.either (fun _ _ _ t => o.InSteps r t ∧ ∃ run ∈ toolRuns t, o.Built r run)
          fun _ _ t => o.InSteps r t)
        s now [] := by
  unfold ProviderOptions.build
  split
  . exact ⟨true, fun _ hne => absurd rfl hne, obeyed_nil⟩
  . dsimp only
    rw [ensures_bind]
    cases hcommit : r.commit with
    | none =>
      have steps (present : Bool) : o.steps r present = [o.buildStep r] := by
        simp [ProviderOptions.steps, hcommit]
      have source : o.sourceTree.1 = o.sourceOf r := by simp [ProviderOptions.sourceOf, hcommit]
      have inSteps {t : List Event} (ht : Obeyed [o.buildStep r] (toolRuns t))
          : o.InSteps r t :=
        ⟨true, fun hne => absurd hcommit hne, steps true ▸ ht⟩
      rw [ProviderOptions.prepareSource, hcommit, ensures_pure, Post.andThen_ok, source]
      apply finish_steps.mono
      intro result _ _ t ht
      rcases result with _ | e | result
      . exact inSteps ht
      . exact inSteps ht
      . exact ⟨inSteps ht.left, ht.right⟩
    | some commit =>
      apply ((prepareSource_performs hcommit s now).and
        ProviderOptions.Heeded.prepareSource_path).mono
      rintro source s now h ⟨hr, hsource⟩
      rcases source with _ | e | source
      . obtain ⟨present, asked, tried⟩ := hr
        refine ⟨present, fun _ => asked, ?_⟩
        simpa [ProviderOptions.steps, hcommit] using tried.append [o.buildStep r]
      . obtain ⟨present, asked, tried⟩ := hr
        refine ⟨present, fun _ => asked, ?_⟩
        simpa [ProviderOptions.steps, hcommit] using tried.append [o.buildStep r]
      . obtain ⟨present, asked, done⟩ := hr
        obtain rfl : source = o.sourceOf r := hsource
        have inSteps {t : List Event} (ht : Obeyed [o.buildStep r] (toolRuns t))
            : o.InSteps r (h ++ t) := by
          refine ⟨present, fun _ _ => asked.append, ?_⟩
          simpa [ProviderOptions.steps, hcommit] using done.then ht
        rw [Post.andThen_ok, ensures_iff_nil]
        apply finish_steps.mono
        intro result _ _ t ht
        rcases result with _ | e | result
        . exact inSteps ht
        . exact inSteps ht
        . obtain ⟨obeyed, run, hrun, built⟩ := ht
          exact ⟨inSteps obeyed, run, by simp [hrun], built⟩

end

end BringUp
