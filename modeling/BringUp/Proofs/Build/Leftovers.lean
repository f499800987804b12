import BringUp.Proofs.Build.Worktrees

/-!
This module contains which files a worktree holds when it is built. The main statement is that the
tracked ones are those of the commit, with the patch applied, and that files which patches have
created stay for all later builds.
-/

namespace BringUp

open Program Trace ToolStep

abbrev Files := String → Option String

namespace Files

def none : Files := fun _ => .none

def atop (f g : Files) : Files := fun name => (f name).or (g name)

theorem atop_eq_iff {f g g' : Files} (hg : ∀ name, g name ≠ .none → g' name = g name)
    : f.atop g' = f.atop g ↔ ∀ name, g' name ≠ .none → f.atop g name ≠ .none := by
  unfold atop
  constructor
  . intro heq name hname
    rw [← congrFun heq name]
    simp [hname]
  . intro hname
    funext name
    specialize hg name
    specialize hname name
    cases hf : f name <;> cases hg' : g name <;> simp_all

end Files

structure Change where
  tracked : Files → Files
  created : Files

/--
A working tree. Which files are tracked is not known after a command has failed that changes them.
-/
structure Tree where
  head : Option Files
  tracked : Option Files
  untracked : Files

def Tree.bare : Tree := ⟨none, none, .none⟩

def Tree.files? (t : Tree) : Option Files := t.tracked.map (·.atop t.untracked)

inductive TreeAction where
  | add
  | reset
  | checkout (commit : String)
  | apply
  | abort
deriving DecidableEq

def ToolCommand.treeAction? (path : String) (command : ToolCommand) : Option TreeAction :=
  match command.args with
  | ["-C", _, "worktree", "add", "--detach", created] => if created = path then some .add else none
  | ["-C", dir, "reset", "--hard"] => if dir = path then some .reset else none
  | ["-C", dir, "checkout", commit] => if dir = path then some (.checkout commit) else none
  | ["-C", dir, "apply", _] => if dir = path then some .apply else none
  | ["-C", dir, "am", "--abort"] => if dir = path then some .abort else none
  | _ => none

structure TreeRun extends ToolRun where
  change : Change

def TreeRun.adds (path : String) (run : TreeRun) : Bool :=
  run.command.treeAction? path = some .add && run.succeeded

def TreeRun.applies (path : String) (run : TreeRun) : Bool :=
  run.command.treeAction? path = some .apply && run.succeeded

namespace Tree

/--
What is left of a working tree after something was done to it, with success or without. A new tree
and one that is reset or taken to a commit has the tracked files of that commit. Files that are not
tracked stay, also those that a patch has created. A patch that does not apply changes nothing.
-/
def act (content : String → Files) (change : Change) (succeeded : Bool) (t : Tree)
    : TreeAction → Tree
  | .add =>
    if succeeded then ⟨some (content "HEAD"), some (content "HEAD"), .none⟩
    else { t with head := none, tracked := none }
  | .reset => { t with tracked := if succeeded then t.head else none }
  | .checkout commit =>
    let files := if succeeded then some (content commit) else none
    { t with head := files, tracked := files }
  | .apply =>
    if succeeded then
      { t with
        tracked := t.tracked.map change.tracked
        untracked := change.created.atop t.untracked }
    else t
  | .abort => { t with head := none, tracked := none }

def after (content : String → Files) (path : String) (t : Tree) (run : TreeRun) : Tree :=
  match run.command.treeAction? path with
  | some action => t.act content run.change run.succeeded action
  | none => t

end Tree

def Tree.of (content : String → Files) (path : String) (runs : List TreeRun) : Tree :=
  runs.foldl (Tree.after content path) .bare

def Making.treeRuns (change : Making → Change) (made : List Making) (m : Making)
    (soFar : List ToolRun) : List TreeRun :=
  (made.flatMap fun m => (toolRuns m.trace).map (TreeRun.mk · (change m))) ++
    soFar.map (TreeRun.mk · (change m))

def LeftBehind (path : String) (runs : List TreeRun) (name : String) : Prop :=
  ∃ front run back, runs = front ++ run :: back ∧ run.applies path = true ∧
    run.change.created name ≠ none ∧ ∀ later ∈ back, later.adds path = false

section

variable {content : String → Files} {path name : String} {run : TreeRun} {runs : List TreeRun}

theorem leftBehind_cons
    : LeftBehind path (run :: runs) name ↔
        (run.applies path = true ∧ run.change.created name ≠ none ∧
          ∀ later ∈ runs, later.adds path = false) ∨
        LeftBehind path runs name := by
  constructor
  . rintro ⟨front, x, back, hsplit, left⟩
    rcases List.cons_eq_append_iff.mp hsplit with ⟨rfl, hcons⟩ | ⟨front', rfl, hrest⟩
    . obtain ⟨rfl, rfl⟩ := List.cons.inj hcons
      exact .inl left
    . exact .inr ⟨front', x, back, hrest, left⟩
  . rintro (left | ⟨front, x, back, rfl, left⟩)
    . exact ⟨[], run, runs, rfl, left⟩
    . exact ⟨run :: front, x, back, rfl, left⟩

theorem untracked_after (t : Tree)
    : (t.after content path run).untracked name ≠ none ↔
        run.applies path = true ∧ run.change.created name ≠ none ∨
          run.adds path = false ∧ t.untracked name ≠ none := by
  unfold Tree.after TreeRun.applies TreeRun.adds
  cases run.command.treeAction? path with
  | none => simp
  | some action =>
    cases action with
    | add => cases run.succeeded <;> simp [Tree.act, Files.none]
    | apply => cases run.succeeded <;> simp [Tree.act, Files.atop, ← not_and_or]
    | reset | checkout | abort => simp [Tree.act]

theorem untracked_iff (t : Tree)
    : (runs.foldl (Tree.after content path) t).untracked name ≠ none ↔
        LeftBehind path runs name ∨
          (∀ run ∈ runs, run.adds path = false) ∧ t.untracked name ≠ none := by
  induction runs generalizing t with
  | nil => simp [LeftBehind]
  | cons run runs ih =>
    rw [List.foldl_cons, ih, untracked_after, leftBehind_cons, List.forall_mem_cons]
    grind

theorem foldl_idle (hidle : ∀ run ∈ runs, run.command.treeAction? path = none) (t : Tree)
    : runs.foldl (Tree.after content path) t = t := by
  induction runs with
  | nil => rfl
  | cons run runs ih =>
    obtain ⟨hrun, hruns⟩ := List.forall_mem_cons.mp hidle
    rw [List.foldl_cons, Tree.after, hrun]
    exact ih hruns

end

namespace ToolStep

variable {run : ToolRun} {earlier later : List ToolRun}

theorem Obeyed.passed (ho : Obeyed (step :: steps) (earlier ++ run :: later))
    (hrun : ¬step.Allows run.command)
    : ∃ first rest, earlier = first :: rest ∧ step.Runs first.command ∧ first.succeeded = true ∧
        Obeyed steps (rest ++ run :: later) := by
  cases earlier with
  | nil => exact absurd (.inl ho.left) hrun
  | cons first rest =>
    obtain ⟨hruns, hlater⟩ := ho
    split at hlater
    . next hsuccess => exact ⟨first, rest, rfl, hruns, hsuccess, hlater⟩
    . exact absurd (.inr ⟨_, hlater.subset (by simp)⟩) hrun

end ToolStep

def BuildRequest.tracked (r : BuildRequest) (content : String → Files) (change : Change)
    (commit : String) : Files :=
  match r.patch with
  | none => content commit
  | some _ => change.tracked (content commit)

def BuildRequest.created (r : BuildRequest) (change : Change) : Files :=
  match r.patch with
  | none => .none
  | some _ => change.created

def BuildRequest.files (r : BuildRequest) (content : String → Files) (change : Change)
    (commit : String) : Files :=
  (r.tracked content change commit).atop (r.created change)

namespace ProviderOptions

variable {o : ProviderOptions} {r : BuildRequest} {content : String → Files} {change : Change}
variable {path commit file : String} {before later : List ToolRun} {run : ToolRun}

theorem after_checkout (hcommand : run.command = Worktree.git path ["checkout", commit] none)
    (hsuccess : run.succeeded = true) (t : Tree)
    : t.after content path ⟨run, change⟩ =
        ⟨some (content commit), some (content commit), t.untracked⟩ := by
  simp [Tree.after, ToolCommand.treeAction?, Worktree.git, Tree.act, hcommand, hsuccess]

theorem after_apply (hcommand : run.command = Worktree.git path ["apply", file] none)
    (hsuccess : run.succeeded = true) (t : Tree)
    : t.after content path ⟨run, change⟩ =
        { t with
          tracked := t.tracked.map change.tracked
          untracked := change.created.atop t.untracked } := by
  simp [Tree.after, ToolCommand.treeAction?, Worktree.git, Tree.act, hcommand, hsuccess]

theorem checkoutSteps_not_allow_build
    : ∀ step ∈ o.checkoutSteps path commit present, ¬step.Allows (o.buildAttempt r flag) := by
  simp only [checkoutSteps, List.forall_mem_cons, List.not_mem_nil, false_implies, implies_true,
    and_true, only_allows_iff]
  constructor
  . cases present <;> exact (git_ne_buildAttempt _ _ _).symm
  . exact (git_ne_buildAttempt _ _ _).symm

theorem applyStep_not_allows_build
    : ¬(Worktree.applyStep path patch).Allows (o.buildAttempt r flag) := by
  intro hallows
  rcases Worktree.applyStep_allows hallows with ⟨_, happly, _⟩ | habort | hreset
  . exact git_ne_buildAttempt _ _ _ happly.symm
  . exact git_ne_buildAttempt _ _ _ habort.symm
  . exact git_ne_buildAttempt _ _ _ hreset.symm

theorem foldl_builds (ho : Obeyed [o.buildStep r] (before ++ later)) (t : Tree)
    : (before.map (TreeRun.mk · change)).foldl (Tree.after content path) t = t := by
  apply foldl_idle
  simp only [List.forall_mem_map]
  intro run hrun
  obtain ⟨step, hmem, hallows⟩ := ho.of_mem run (List.mem_append_left _ hrun)
  obtain rfl := List.mem_singleton.mp hmem
  obtain ⟨flag, hcommand⟩ := buildStep_allows hallows
  rw [hcommand]
  rfl

theorem tracked_of_steps (ho : Obeyed (o.steps r present) (before ++ run :: later))
    (hcommit : r.commit = some commit) (hbuild : run.command = o.buildAttempt r flag) (t : Tree)
    : ((before.map (TreeRun.mk · change)).foldl
          (Tree.after content (o.worktreePath (o.effectiveBoard r.board))) t).tracked =
        some (r.tracked content change commit) ∧
      ∀ name, r.created change name ≠ none →
        ((before.map (TreeRun.mk · change)).foldl
          (Tree.after content (o.worktreePath (o.effectiveBoard r.board))) t).untracked name =
        r.created change name := by
  generalize hpath : o.worktreePath (o.effectiveBoard r.board) = path at *
  have early : ∀ step ∈ o.checkoutSteps path commit present, ¬step.Allows run.command := by
    rw [hbuild]
    exact checkoutSteps_not_allow_build
  simp only [steps, hcommit, checkoutSteps, hpath, List.cons_append, List.nil_append,
    List.forall_mem_cons] at ho early
  obtain ⟨first, _, rfl, _, _, ho⟩ := ho.passed early.left
  obtain ⟨second, _, rfl, hsecond, hsuccess, ho⟩ := ho.passed early.right.left
  simp only [List.map_cons, List.foldl_cons]
  generalize t.after content path ⟨first, change⟩ = t
  rw [after_checkout hsecond hsuccess]
  unfold BuildRequest.tracked BuildRequest.created
  cases hpatch : r.patch with
  | none =>
    rw [hpatch] at ho
    rw [foldl_builds ho]
    exact ⟨rfl, by simp [Files.none]⟩
  | some patch =>
    rw [hpatch] at ho
    obtain ⟨third, _, rfl, hthird, hsuccess, ho⟩ := ho.passed (by
      rw [hbuild]
      exact applyStep_not_allows_build)
    obtain ⟨file, hthird⟩ : ∃ file, third.command = Worktree.git path ["apply", file] none := by
      cases patch with
      | file file => exact ⟨file, hthird⟩
      | inline text => exact hthird
    rw [List.map_cons, List.foldl_cons, after_apply hthird hsuccess,
      foldl_builds ho]
    refine ⟨rfl, ?_⟩
    intro name hcreated
    exact Option.or_of_isSome (Option.isSome_iff_ne_none.mpr hcreated)

end ProviderOptions

section

variable {o : ProviderOptions} {m : Making} {commit flag : String}
variable {made earlier later : List Making} {soFar rest : List ToolRun} {run : ToolRun}

/--
Whenever a commit is built, the tracked files are those of the commit, with the patch applied, and
the files are there that the patch creates. Others are there if and only if an earlier build has
applied a patch that creates them, since the worktree was created. So exactly the files that were
asked for are built if no file was left behind but such that are among them.
-/
theorem Makings.tree_built (makings : Makings o made) (hmade : made = earlier ++ m :: later)
    (hcommit : m.request.commit = some commit) (hruns : toolRuns m.trace = soFar ++ run :: rest)
    (hbuild : run.command = o.buildAttempt m.request flag) (content : String → Files)
    (change : Making → Change)
    : let path := o.worktreePath (o.effectiveBoard m.request.board)
      let runs := Making.treeRuns change earlier m soFar
      let files := m.request.files content (change m) commit
      (Tree.of content path runs).tracked =
          some (m.request.tracked content (change m) commit) ∧
        (∀ name, m.request.created (change m) name ≠ none →
          (Tree.of content path runs).untracked name = m.request.created (change m) name) ∧
        (∀ name, (Tree.of content path runs).untracked name ≠ none ↔
          LeftBehind path runs name) ∧
        ((Tree.of content path runs).files? = some files ↔
          ∀ name, LeftBehind path runs name → files name ≠ none) := by
  intro path runs files
  obtain ⟨present, _, obeyed⟩ := makings.inSteps m (by simp [hmade])
  rw [hruns] at obeyed
  obtain ⟨htracked, hcreated⟩ :
      (Tree.of content path runs).tracked = some (m.request.tracked content (change m) commit) ∧
        ∀ name, m.request.created (change m) name ≠ none →
          (Tree.of content path runs).untracked name = m.request.created (change m) name := by
    simp only [runs, Tree.of, Making.treeRuns, List.foldl_append]
    exact ProviderOptions.tracked_of_steps obeyed hcommit hbuild _
  have left (name : String)
      : (Tree.of content path runs).untracked name ≠ none ↔ LeftBehind path runs name := by
    rw [Tree.of, untracked_iff]
    simp [Tree.bare, Files.none]
  refine ⟨htracked, hcreated, left, ?_⟩
  rw [Tree.files?, htracked, Option.map_some, Option.some.injEq]
  exact (Files.atop_eq_iff hcreated).trans (forall_congr' fun name => by rw [left]; rfl)

end

namespace overgrowing

def provider : ProviderOptions := .initial []

def first : Making :=
  provider.making ⟨"sandbox", some "v1", some (.inline "+extra"), false⟩ rebuilding.bare () 0

def second : Making :=
  provider.making ⟨"sandbox", some "v1", none, false⟩ (.prompt fun _ => false) () 100000

def path : String := provider.worktreePath "sandbox"

def content : String → Files := fun _ => .none

def change : Making → Change :=
  fun _ => ⟨id, fun name => if name = "extra.txt" then some "extra" else none⟩

def soFar : List ToolRun :=
  [ ⟨provider.resetCommand path, some (.ok ⟨some 0, "", ""⟩)⟩,
    ⟨Worktree.git path ["checkout", "v1"] none, some (.ok ⟨some 0, "", ""⟩)⟩ ]

def run : ToolRun :=
  ⟨provider.buildAttempt second.request provider.primaryFlag, some (.ok ⟨some 0, "", ""⟩)⟩

theorem makings : Makings provider ([first] ++ second :: []) :=
  .build (.build .fresh _ _ _) _ _ _

theorem runs : toolRuns second.trace = soFar ++ run :: [] := by
  rfl

end overgrowing

theorem overgrowing_tree_built
    : Makings overgrowing.provider ([overgrowing.first] ++ overgrowing.second :: []) ∧
        toolRuns overgrowing.second.trace = overgrowing.soFar ++ overgrowing.run :: [] ∧
        (Tree.of overgrowing.content overgrowing.path
          (Making.treeRuns overgrowing.change [overgrowing.first] overgrowing.second
            overgrowing.soFar)).tracked = some (overgrowing.content "v1") ∧
        LeftBehind overgrowing.path
          (Making.treeRuns overgrowing.change [overgrowing.first] overgrowing.second
            overgrowing.soFar) "extra.txt" := by
  have hcommit : overgrowing.second.request.commit = some "v1" := rfl
  have built := overgrowing.makings.tree_built rfl hcommit overgrowing.runs rfl
    overgrowing.content overgrowing.change
  refine ⟨overgrowing.makings, overgrowing.runs, built.left, ?_⟩
  exact (built.right.right.left "extra.txt").mp (by decide)

theorem overgrowing_unclean
    : Makings overgrowing.provider ([overgrowing.first] ++ overgrowing.second :: []) ∧
        toolRuns overgrowing.second.trace = overgrowing.soFar ++ overgrowing.run :: [] ∧
        (Tree.of overgrowing.content overgrowing.path
          (Making.treeRuns overgrowing.change [overgrowing.first] overgrowing.second
            overgrowing.soFar)).files? ≠
          some (overgrowing.second.request.files overgrowing.content
            (overgrowing.change overgrowing.second) "v1") := by
  refine ⟨overgrowing.makings, overgrowing.runs, ?_⟩
  intro heq
  have same := congrArg (Option.map (· "extra.txt")) heq
  revert same
  decide

end BringUp
