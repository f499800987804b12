import BringUp.Proofs.Build.Worktrees

/-!
This module contains what the paths mean that a build hands to tools. The main statement is that a
tool takes a path for what the provider means by it exactly if the path is absolute or is taken in
the directory that the provider works in.
-/

namespace BringUp

open Program Trace ToolStep

/--
The names on the way from the root to what a path means to somebody who works in a directory. A name
`..` stays, as it is up to the links on the way where that leads.
-/
def Path.resolve (dir : List String) (path : String) : List String :=
  if isAbsolute path then names path else dir ++ names path

theorem Path.resolve_eq_iff
    : resolve dir path = resolve dir' path ↔ isAbsolute path = true ∨ dir = dir' := by
  unfold resolve
  split <;> simp_all

inductive PathRole where
  | repository
  | worktree
  | patch
  | output
deriving DecidableEq

structure PathUse where
  role : PathRole
  dir : List String
  path : String
deriving DecidableEq

def PathUse.place (u : PathUse) : List String := Path.resolve u.dir u.path

/--
The paths that a command hands to its tool if it is started from some directory. A version control
command first goes to the directory it is given, and takes all other paths there.
-/
def ToolCommand.pathUses (c : ToolCommand) (start : List String) : List PathUse :=
  let dir := (c.cwd.map (Path.resolve start)).getD start
  match c.args with
  | "-C" :: path :: ["worktree", "add", "--detach", created] =>
    [⟨.repository, dir, path⟩, ⟨.worktree, Path.resolve dir path, created⟩]
  | "-C" :: path :: ["apply", file] =>
    [⟨.worktree, dir, path⟩, ⟨.patch, Path.resolve dir path, file⟩]
  | "-C" :: path :: _ => [⟨.worktree, dir, path⟩]
  | "-o" :: path :: _ => [⟨.output, dir, path⟩]
  | _ => []

namespace ProviderOptions

def meant? (o : ProviderOptions) (r : BuildRequest) : PathRole → Option String
  | .repository => some o.sourceDir
  | .worktree => some (o.worktreePath (o.effectiveBoard r.board))
  | .patch =>
    match r.patch with
    | some (.file file) => some file
    | _ => none
  | .output => some (o.buildPath r.board)

/--
Whether a tool takes a path for what the provider means by it. The provider looks at its paths from
the directory that it was started in.
-/
def Means (o : ProviderOptions) (r : BuildRequest) (start : List String) (u : PathUse) : Prop :=
  ∀ path, o.meant? r u.role = some path → u.place = Path.resolve start path

def takenIn (o : ProviderOptions) (r : BuildRequest) (start : List String) (command : ToolCommand)
    : PathRole → List String
  | .repository => Path.resolve start o.workdirs
  | .worktree =>
    if command = o.addCommand (o.worktreePath (o.effectiveBoard r.board)) then
      Path.resolve (Path.resolve start o.workdirs) o.sourceDir
    else if command = o.resetCommand (o.worktreePath (o.effectiveBoard r.board)) then
      Path.resolve start o.workdirs
    else start
  | .patch => Path.resolve start (o.worktreePath (o.effectiveBoard r.board))
  | .output => Path.resolve start (o.sourceOf r)

def inWorktree (o : ProviderOptions) (r : BuildRequest) (args : List String) : ToolCommand :=
  Worktree.git (o.worktreePath (o.effectiveBoard r.board)) args none

inductive Issues (o : ProviderOptions) (r : BuildRequest) : ToolCommand → Prop where
  | add : Issues o r (o.addCommand (o.worktreePath (o.effectiveBoard r.board)))
  | reset : Issues o r (o.resetCommand (o.worktreePath (o.effectiveBoard r.board)))
  | checkout (commit : String) : Issues o r (o.inWorktree r ["checkout", commit])
  | apply (file : String) (hfile : ∀ path, o.meant? r .patch = some path → file = path)
      : Issues o r (o.inWorktree r ["apply", file])
  | abort : Issues o r (o.inWorktree r ["am", "--abort"])
  | clear : Issues o r (o.inWorktree r ["reset", "--hard"])
  | build (flag : String) : Issues o r (o.buildAttempt r flag)

variable {o : ProviderOptions} {r : BuildRequest}

theorem InSteps.issues (hs : o.InSteps r t) : ∀ run ∈ toolRuns t, o.Issues r run.command := by
  obtain ⟨present, _, obeyed⟩ := hs
  intro run hrun
  obtain ⟨step, hmem, hallows⟩ := obeyed.of_mem run hrun
  have built (hallows : (o.buildStep r).Allows run.command) : o.Issues r run.command := by
    obtain ⟨flag, hcommand⟩ := buildStep_allows hallows
    exact hcommand ▸ .build flag
  cases hcommit : r.commit with
  | none =>
    rw [steps, hcommit] at hmem
    obtain rfl := List.mem_singleton.mp hmem
    exact built hallows
  | some commit =>
    simp only [steps, hcommit, checkoutSteps, List.mem_append, List.mem_cons, List.not_mem_nil,
      or_false, Option.mem_toList, Option.map_eq_some_iff] at hmem
    rcases hmem with ((rfl | rfl) | ⟨patch, hpatch, rfl⟩) | rfl
    . rw [only_allows_iff.mp hallows]
      cases present with
      | true => exact .reset
      | false => exact .add
    . rw [only_allows_iff.mp hallows]
      exact .checkout commit
    . rcases Worktree.applyStep_allows hallows with ⟨file, hcommand, hfile⟩ | hcommand | hcommand
      . refine hcommand ▸ .apply file ?_
        intro path hmeant
        apply hfile
        cases patch <;> simp_all [meant?]
      . exact hcommand ▸ .abort
      . exact hcommand ▸ .clear
    . exact built hallows

theorem takenIn_inWorktree : o.takenIn r start (o.inWorktree r args) .worktree = start := by
  simp [takenIn, inWorktree, addCommand, resetCommand, Worktree.git]

theorem Issues.pathUses (hi : o.Issues r command)
    : ∀ u ∈ command.pathUses start,
        u.dir = o.takenIn r start command u.role ∧
          ∀ path, o.meant? r u.role = some path → u.path = path := by
  cases hi with
  | add => simp [ToolCommand.pathUses, addCommand, Worktree.git, takenIn, meant?]
  | reset => simp [ToolCommand.pathUses, addCommand, resetCommand, Worktree.git, takenIn, meant?]
  | checkout | abort | clear =>
    rintro u hu
    obtain rfl : u = ⟨.worktree, start, _⟩ := List.mem_singleton.mp hu
    exact ⟨takenIn_inWorktree.symm, by simp [meant?]⟩
  | apply file hfile =>
    rintro u (_ | ⟨_, _ | ⟨_, hu⟩⟩)
    . exact ⟨takenIn_inWorktree.symm, by simp [meant?]⟩
    . exact ⟨rfl, hfile⟩
    . cases hu
  | build flag =>
    simp [ToolCommand.pathUses, buildAttempt, buildCommand, ToolCommand.addArg, takenIn, meant?,
      buildPath]

/--
A tool that a build runs takes a path for what the provider means by it exactly if the path is
absolute or is taken in the directory that the provider was started in. That is not so for the
repository and for a worktree that is created or reset if the collection of worktrees is elsewhere,
for a patch if the worktree is, and for the output if what is built is.
-/
theorem making_means_iff (o : ProviderOptions) (r : BuildRequest) (lab : Lab ω) (w : ω) (now : Nat)
    (start : List String)
    : ∀ e ∈ (o.making r lab w now).trace, ∀ command, e.call = .host (.run command) →
        ∀ u ∈ command.pathUses start,
          u.dir = o.takenIn r start command u.role ∧
            (o.Means r start u ↔
              ∀ path, o.meant? r u.role = some path →
                Path.isAbsolute path = true ∨ o.takenIn r start command u.role = start) := by
  intro e he command hcall u hu
  obtain ⟨run, hrun, rfl⟩ :
      ∃ run ∈ toolRuns (o.making r lab w now).trace, run.command = command := by
    obtain ⟨call, begun, ended, reply⟩ := e
    subst hcall
    exact ⟨⟨command, reply⟩, List.mem_filterMap.mpr ⟨_, he, rfl⟩, rfl⟩
  obtain ⟨hdir, hpath⟩ := ((o.making_inSteps r lab w now).left.issues run hrun).pathUses u hu
  refine ⟨hdir, forall₂_congr ?_⟩
  intro path hmeant
  rw [PathUse.place, hpath path hmeant, Path.resolve_eq_iff, hdir]

namespace misplaced

def provider : ProviderOptions :=
  { ProviderOptions.initial [] with sourceDir := ".", workdirs := "/w" }

def request : BuildRequest := ⟨"sandbox", some "v1", none, false⟩

def making : Making := provider.making request rebuilding.bare () 0

def start : List String := ["home", "lab", "source"]

def added : Event :=
  ⟨.host (.run (provider.addCommand "/w/sandbox")), 0, 0, some (.ok ⟨some 0, "", ""⟩)⟩

theorem added_mem : added ∈ making.trace :=
  List.mem_iff_getElem?.mpr ⟨2, rfl⟩

end misplaced

theorem misplaced_worktree_means
    : misplaced.added ∈ misplaced.making.trace ∧
        misplaced.provider.Means misplaced.request misplaced.start
          ⟨.worktree, ["w"], "/w/sandbox"⟩ := by
  have iff := making_means_iff misplaced.provider misplaced.request rebuilding.bare () 0
    misplaced.start misplaced.added misplaced.added_mem _ rfl ⟨.worktree, ["w"], "/w/sandbox"⟩
    (by decide)
  refine ⟨misplaced.added_mem, iff.right.mpr ?_⟩
  intro path hmeant
  obtain rfl : "/w/sandbox" = path := Option.some.inj hmeant
  exact .inl (by decide)

theorem misplaced_created_elsewhere
    : ∃ e ∈ misplaced.making.trace, ∃ command, e.call = .host (.run command) ∧
        ∃ u ∈ command.pathUses misplaced.start, u.role = .repository ∧ u.place = ["w"] ∧
          ¬misplaced.provider.Means misplaced.request misplaced.start u := by
  refine ⟨misplaced.added, misplaced.added_mem, _, rfl, ⟨.repository, ["w"], "."⟩, by decide, rfl,
    by decide, ?_⟩
  intro means
  have same := means "." rfl
  revert same
  decide

end ProviderOptions

end BringUp
