import BringUp.Proofs.Boot.Drive
import BringUp.Proofs.Build.Steps

/-!
This module contains what many builds of one provider do to the worktrees. The main statement is
that each of them takes its steps in order, and that a worktree that stays where it is gets created
at most once.
-/

namespace BringUp

open Program Trace ToolStep

structure Making where
  request : BuildRequest
  result : Option (Except Error BuildResult)
  trace : List Event

def ProviderOptions.making (o : ProviderOptions) (r : BuildRequest) (lab : Lab ω) (w : ω)
    (now : Nat) : Making :=
  let run := (o.build r : Program Unit Error BuildResult).run lab none () w now
  ⟨r, run.result, run.trace⟩

def Making.events (made : List Making) : List Event := made.flatMap Making.trace

/--
The builds of one provider, one after another. Between them the lab may change in any way.
-/
inductive Makings (o : ProviderOptions) : List Making → Prop where
  | fresh : Makings o []
  | build {ω : Type} {w : ω} (makings : Makings o made) (r : BuildRequest) (lab : Lab ω) (now : Nat)
      : Makings o (made ++ [o.making r lab w now])

@[simp]
theorem Making.events_concat (made : List Making) (m : Making)
    : events (made ++ [m]) = events made ++ m.trace := by
  simp [events]

def Event.findsMissing (path : String) : Event → Bool
  | ⟨.host (.pathExists p), _, _, some false⟩ => p = path
  | _ => false

namespace ProviderOptions

def BuildsInPlace (o : ProviderOptions) : Call → Prop
  | .host (.run command) =>
    command.program = o.tool ∧ command.cwd = some o.sourceTree.1 ∧
      ∀ dir args cwd, command ≠ Worktree.git dir args cwd
  | .host (.isPopulated _) | .host (.isDirectory _) => True
  | _ => False

def adds (o : ProviderOptions) (path : String) (e : Event) : Bool :=
  match e.toolRun? with
  | some run => run.command = o.addCommand path && run.succeeded
  | none => false

/--
Whether a worktree stays where it was created: nothing is found to be missing there afterwards.
-/
def Stays (o : ProviderOptions) (path : String) (t : List Event) : Prop :=
  t.Pairwise fun e x => o.adds path e = true → x.findsMissing path = false

instance (o : ProviderOptions) (path : String) (t : List Event) : Decidable (o.Stays path t) :=
  inferInstanceAs (Decidable (t.Pairwise _))

theorem build_buildsInPlace {o : ProviderOptions} {r : BuildRequest} (hcommit : r.commit = none)
    : (o.build r : Program σ Error BuildResult).Within o.BuildsInPlace := by
  have built (board path flag : String)
      : o.BuildsInPlace (.host (.run
          ((o.buildCommand board path r.configOnly o.sourceTree.1).addArg flag))) := by
    simp [BuildsInPlace, buildCommand, ToolCommand.addArg, Worktree.git]
  have run (board path : String)
      : (o.runBuild board (o.buildCommand board path r.configOnly o.sourceTree.1)
        : Program σ Error ToolOutput).Within o.BuildsInPlace := by
    apply within_bind
    . simp [built]
    . intro reply
      split
      . simp
      . split
        . simp
        . split
          . apply within_bind
            . simp [built]
            . intro reply
              split <;> simp
          . simp
  have collected (board path : String)
      : (o.collect board path : Program σ Error BuildResult).Within o.BuildsInPlace := by
    apply within_bind
    . simp [BuildsInPlace]
    . intro populated
      split
      . simp
      . split <;> simp [BuildsInPlace]
  unfold build
  split
  . simp
  . simp only [prepareSource, hcommit, pure_bind]
    apply within_bind (run ..)
    intro output
    apply within_bind within_ofExcept
    intro _
    apply collected

end ProviderOptions

namespace ToolStep

variable {run : ToolRun} {runs earlier later : List ToolRun}

def Allows (step : ToolStep) (command : ToolCommand) : Prop :=
  step.Runs command ∨ ∃ reply, command ∈ step.otherwise reply

theorem only_allows_iff : (only command').Allows command ↔ command = command' := by
  simp [Allows, only]

theorem Obeyed.of_mem (ho : Obeyed steps runs)
    : ∀ run ∈ runs, ∃ step ∈ steps, step.Allows run.command := by
  induction runs generalizing steps with
  | nil => simp
  | cons first runs ih =>
    cases steps with
    | nil => exact ho.elim
    | cons step steps =>
      obtain ⟨hruns, hlater⟩ := ho
      intro run hrun
      rcases List.mem_cons.mp hrun with rfl | hrun
      . exact ⟨step, List.mem_cons_self .., .inl hruns⟩
      . split at hlater
        . obtain ⟨step', hmem, hstep⟩ := ih hlater run hrun
          exact ⟨step', List.mem_cons_of_mem _ hmem, hstep⟩
        . exact ⟨step, List.mem_cons_self .., .inr ⟨_, hlater.subset (List.mem_map_of_mem hrun)⟩⟩

theorem Obeyed.command_ne (ho : Obeyed steps runs) (hsteps : ∀ step ∈ steps, ¬step.Allows command)
    : ∀ run ∈ runs, run.command ≠ command := by
  rintro run hrun rfl
  obtain ⟨step, hmem, hallows⟩ := ho.of_mem run hrun
  exact hsteps step hmem hallows

theorem Obeyed.split_only (ho : Obeyed (.only command :: steps) (earlier ++ run :: later))
    : earlier = [] ∧ run.command = command ∨
        ∃ first rest, earlier = first :: rest ∧ first.command = command ∧
          first.succeeded = true ∧ Obeyed steps (rest ++ run :: later) := by
  cases earlier with
  | nil => exact .inl ⟨rfl, ho.left⟩
  | cons first rest =>
    right
    refine ⟨first, rest, rfl, ho.left, ?_⟩
    have hlater := ho.right
    split at hlater
    . next hsuccess => exact ⟨hsuccess, hlater⟩
    . simp [ToolStep.only] at hlater

end ToolStep

theorem Worktree.applyStep_allows (hallows : (applyStep dir patch).Allows command)
    : (∃ file, command = git dir ["apply", file] none ∧ ∀ path, patch = .file path → file = path) ∨
        command = git dir ["am", "--abort"] none ∨ command = git dir ["reset", "--hard"] none := by
  rcases hallows with hruns | ⟨_, hotherwise⟩
  . left
    cases patch with
    | file path => exact ⟨path, hruns, fun _ => Patch.file.inj⟩
    | inline text =>
      obtain ⟨file, hruns⟩ := hruns
      exact ⟨file, hruns, by simp⟩
  . right
    simpa [applyStep] using hotherwise

namespace ProviderOptions

variable {o : ProviderOptions} {r : BuildRequest} {run : ToolRun} {earlier later : List ToolRun}

theorem buildStep_allows (hallows : (o.buildStep r).Allows command)
    : ∃ flag, command = o.buildAttempt r flag := by
  rcases hallows with hruns | ⟨reply, hotherwise⟩
  . exact ⟨o.primaryFlag, hruns⟩
  . unfold buildStep at hotherwise
    dsimp only at hotherwise
    split at hotherwise
    . split at hotherwise
      . exact ⟨o.fallbackFlag, List.mem_singleton.mp hotherwise⟩
      . cases hotherwise
    . cases hotherwise

theorem InSteps.ready (hs : o.InSteps r t) (hcommit : r.commit = some commit)
    (hsplit : toolRuns t = earlier ++ run :: later)
    (hbuild : run.command = o.buildAttempt r flag)
    : ∃ present, Asked (o.worktreePath (o.effectiveBoard r.board)) present t ∧
        Completed (o.checkoutSteps (o.worktreePath (o.effectiveBoard r.board)) commit present)
          (earlier.take 2) := by
  obtain ⟨present, asked, obeyed⟩ := hs
  refine ⟨present, asked (by simp [hcommit]) (by simp [hsplit]), ?_⟩
  simp only [steps, hcommit, checkoutSteps, hsplit, List.cons_append] at obeyed
  rcases obeyed.split_only with ⟨_, hfirst⟩ | ⟨first, rest, rfl, hfirst, hsuccess, obeyed⟩
  . rw [hbuild] at hfirst
    cases present <;> exact (git_ne_buildAttempt _ _ _ hfirst.symm).elim
  . rcases obeyed.split_only with ⟨_, hsecond⟩ | ⟨second, rest, rfl, hsecond, hsuccess', _⟩
    . rw [hbuild] at hsecond
      exact (git_ne_buildAttempt _ _ _ hsecond.symm).elim
    . exact .cons ⟨hfirst, hsuccess⟩ (.cons ⟨hsecond, hsuccess'⟩ .nil)

theorem buildStep_not_allows_add : ¬(o.buildStep r).Allows (o.addCommand path) := by
  intro hallows
  obtain ⟨flag, hbuild⟩ := buildStep_allows hallows
  exact git_ne_buildAttempt _ _ _ hbuild

theorem laterSteps_not_allow_add
    : ∀ step ∈ .only (Worktree.git dir ["checkout", commit] none) ::
          ([] ++ (r.patch.map (Worktree.applyStep dir)).toList ++ [o.buildStep r]),
        ¬step.Allows (o.addCommand path) := by
  intro step hstep
  simp only [List.nil_append, List.mem_cons, List.mem_append, Option.mem_toList,
    Option.map_eq_some_iff, List.not_mem_nil, or_false] at hstep
  rcases hstep with rfl | ⟨patch, _, rfl⟩ | rfl
  . simp [only_allows_iff, addCommand, Worktree.git]
  . intro hallows
    have applied := Worktree.applyStep_allows hallows
    simp [addCommand, Worktree.git] at applied
  . exact buildStep_not_allows_add

theorem InSteps.adds (hs : o.InSteps r (before ++ e :: after)) (hadds : o.adds path e = true)
    : (∃ x ∈ before, x.findsMissing path = true) ∧
        ∀ x ∈ before, o.adds path x = false := by
  obtain ⟨run, hrun, hcommand⟩ :
      ∃ run, e.toolRun? = some run ∧ run.command = o.addCommand path := by
    unfold ProviderOptions.adds at hadds
    split at hadds
    . next run hrun => exact ⟨run, hrun, by simp_all⟩
    . cases hadds
  have hsplit : toolRuns (before ++ e :: after) = toolRuns before ++ run :: toolRuns after := by
    simp [toolRuns, hrun]
  obtain ⟨present, asked, obeyed⟩ := hs
  rw [hsplit] at obeyed
  cases hcommit : r.commit with
  | none =>
    rw [steps, hcommit] at obeyed
    exact absurd hcommand (obeyed.command_ne (by simp [buildStep_not_allows_add]) run (by simp))
  | some commit =>
    simp only [steps, hcommit, checkoutSteps, List.cons_append] at obeyed
    rcases obeyed.split_only with ⟨hnil, hfirst⟩ | ⟨first, rest, hrest, _, _, obeyed⟩
    . obtain ⟨start, stop, rest, heq⟩ := asked (by simp [hcommit]) (by simp [hsplit])
      obtain ⟨rfl, rfl⟩ : present = false ∧ path = o.worktreePath (o.effectiveBoard r.board) := by
        rw [hcommand] at hfirst
        cases present <;> simp_all [addCommand, resetCommand, Worktree.git]
      constructor
      . cases before with
        | nil =>
          obtain ⟨rfl, _⟩ := List.cons.inj heq
          cases hrun
        | cons x before =>
          obtain ⟨rfl, _⟩ := List.cons.inj heq
          exact ⟨_, List.mem_cons_self .., decide_eq_true rfl⟩
      . intro x hx
        have unrun := List.filterMap_eq_nil_iff.mp hnil x hx
        simp [ProviderOptions.adds, unrun]
    . exact absurd hcommand (obeyed.command_ne laterSteps_not_allow_add run (by simp))

end ProviderOptions

theorem ProviderOptions.making_inSteps (o : ProviderOptions) (r : BuildRequest) (lab : Lab ω)
    (w : ω) (now : Nat)
    : o.InSteps r (o.making r lab w now).trace ∧
        ∀ result, (o.making r lab w now).result = some (.ok result) →
          ∃ run ∈ toolRuns (o.making r lab w now).trace, o.Built r run := by
  have run := (build_steps o r () now).run lab w
  rw [List.nil_append] at run
  unfold making
  dsimp only
  generalize ((o.build r).run lab none () w now).result = result at run ⊢
  rcases result with _ | e | result
  . exact ⟨run, by simp⟩
  . exact ⟨run, by simp⟩
  . exact ⟨run.left, fun _ _ => run.right⟩

theorem ProviderOptions.making_buildsInPlace (o : ProviderOptions) {r : BuildRequest}
    (hcommit : r.commit = none) (lab : Lab ω) (w : ω) (now : Nat)
    : ∀ e ∈ (o.making r lab w now).trace, o.BuildsInPlace e.call := by
  have inPlace : (o.build r : Program Unit Error BuildResult).Ensures
      (fun _ _ _ t => ∀ e ∈ t, o.BuildsInPlace e.call) () now [] := by
    apply (build_buildsInPlace hcommit).ensures
    intro _ _ t ht
    simpa using ht
  have run := inPlace.run lab w
  rw [List.nil_append] at run
  exact run

section

variable {o : ProviderOptions}

theorem Makings.forall_mem {motive : Making → Prop} (makings : Makings o made)
    (hmotive : ∀ {ω : Type} (r : BuildRequest) (lab : Lab ω) (w : ω) (now : Nat),
      motive (o.making r lab w now))
    : ∀ m ∈ made, motive m := by
  induction makings with
  | fresh => simp
  | build makings r lab now ih =>
    intro m hm
    rcases List.mem_append.mp hm with hm | hm
    . exact ih m hm
    . obtain rfl := List.mem_singleton.mp hm
      exact hmotive r lab _ now

theorem Makings.inSteps (makings : Makings o made) : ∀ m ∈ made, o.InSteps m.request m.trace :=
  makings.forall_mem fun r lab w now => (o.making_inSteps r lab w now).left

theorem Makings.not_adds_before (makings : Makings o made)
    (hstays : o.Stays path (Making.events made))
    (hsplit : Making.events made = before ++ e :: after) (hadds : o.adds path e = true)
    : ∀ x ∈ before, o.adds path x = false := by
  induction makings generalizing before e after with
  | fresh => simp [Making.events] at hsplit
  | @build made _ w makings r lab now ih =>
    have added := (o.making_inSteps r lab w now).left
    rw [Making.events_concat] at hsplit hstays
    obtain ⟨hearlier, _, hlater⟩ := List.pairwise_append.mp hstays
    rcases append_eq_append_cons_iff.mp hsplit with ⟨rest, hfirst, _⟩ | ⟨front, rfl, hsecond⟩
    . exact ih hearlier hfirst hadds
    . rw [hsecond] at added hlater
      obtain ⟨⟨missing, hmem, hmissing⟩, hnone⟩ := added.adds hadds
      intro x hx
      rcases List.mem_append.mp hx with hx | hx
      . by_contra hadded
        have present := hlater x hx missing (List.mem_append_left _ hmem)
          (Bool.not_eq_false _ |>.mp hadded)
        simp [hmissing] at present
      . exact hnone x hx

end

namespace rebuilding

def provider : ProviderOptions := .initial []

def bare : Lab Unit where
  device _ _ c := ⟨(), some 0, .ok c.silence⟩
  host _ _ c := ⟨(), some 0, match c with | .pathExists _ => false | c => c.consent⟩

def first : Making :=
  provider.making ⟨"sandbox", some "v1", none, false⟩ bare () 0

def second : Making :=
  provider.making ⟨"sandbox", some "v2", some (.file "/fix.patch"), false⟩
    (.prompt fun _ => false) () 100000

end rebuilding

end BringUp
