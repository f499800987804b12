import BringUp.Proofs.Build.Ways

/-!
This module contains which directories the version control commands of a build work in, if no name
on the way there is a link. The main statement is that such a directory is inside the collection of
worktrees exactly if the name of the board leads there, and that the boards whose names lead to the
same place share a worktree.
-/

namespace BringUp

open Program Trace ToolStep

namespace ProviderOptions

def collection (o : ProviderOptions) (start : List String) : List String :=
  Path.walk [] (Path.resolve start o.workdirs)

def worktreeDir (o : ProviderOptions) (start : List String) (r : BuildRequest) : List String :=
  Path.walk [] (Path.resolve start (o.worktreePath (o.effectiveBoard r.board)))

def worktreeWay (o : ProviderOptions) (start : List String) (r : BuildRequest) : Path.Way :=
  Path.wayFrom (o.collection start) (o.effectiveBoard r.board)

/--
The way from the collection to where a version control command works. A reset is started in the
collection, so that it takes the whole path of a worktree from there.
-/
def approach (o : ProviderOptions) (r : BuildRequest) (start : List String) (command : ToolCommand)
    : Path.Way :=
  let path := o.worktreePath (o.effectiveBoard r.board)
  if command = o.resetCommand path ∧ Path.isAbsolute o.workdirs = false then
    Path.wayFrom (o.collection start) path
  else o.worktreeWay start r

section

variable {o : ProviderOptions} {r : BuildRequest} {start : List String}

theorem worktreeDir_eq
    : o.worktreeDir start r = (o.worktreeWay start r).target (o.collection start) := by
  rw [worktreeDir, worktreePath, Path.resolve_join, Path.walk_resolve]
  rfl

theorem approach_eq (hother : Path.isAbsolute o.workdirs = true ∨
      command ≠ o.resetCommand (o.worktreePath (o.effectiveBoard r.board)))
    : o.approach r start command = o.worktreeWay start r := by
  refine if_neg fun ⟨hreset, hrelative⟩ => ?_
  rcases hother with habsolute | hcommand
  . simp [habsolute] at hrelative
  . exact hcommand hreset

theorem Issues.walk_place (hi : o.Issues r command)
    (hadd : command ≠ o.addCommand (o.worktreePath (o.effectiveBoard r.board)))
    (hu : u ∈ command.pathUses start) (hrole : u.role = .worktree)
    : Path.walk [] u.place = (o.approach r start command).target (o.collection start) := by
  obtain ⟨hdir, hpath⟩ := hi.pathUses u hu
  rw [hrole] at hdir hpath
  rw [PathUse.place, hpath _ rfl, hdir, takenIn, if_neg hadd]
  by_cases hreset : command = o.resetCommand (o.worktreePath (o.effectiveBoard r.board))
  . cases habsolute : Path.isAbsolute o.workdirs with
    | true =>
      have hsame : Path.resolve (Path.resolve start o.workdirs) o.workdirs =
          Path.resolve start o.workdirs :=
        Path.resolve_eq_iff.mpr (.inl habsolute)
      rw [approach_eq (.inl habsolute), if_pos hreset, worktreePath, Path.resolve_join, hsame,
        Path.walk_resolve]
      rfl
    | false =>
      rw [approach, if_pos hreset, if_pos ⟨hreset, habsolute⟩, Path.walk_resolve]
      rfl
  . rw [approach_eq (.inr hreset), if_neg hreset]
    exact worktreeDir_eq

theorem making_issues {lab : Lab ω}
    (he : e ∈ (o.making r lab w now).trace) (hcall : e.call = .host (.run command))
    : o.Issues r command := by
  obtain ⟨call, begun, ended, reply⟩ := e
  subst hcall
  have hrun : ⟨command, reply⟩ ∈ toolRuns (o.making r lab w now).trace :=
    List.mem_filterMap.mpr ⟨_, he, rfl⟩
  exact (o.making_inSteps r lab w now).left.issues _ hrun

theorem effectiveBoard_eq_empty (hboard : r.board ≠ "")
    : o.effectiveBoard r.board = "" ↔ o.boardOverride = some "" := by
  unfold effectiveBoard
  cases o.boardOverride with
  | none => simpa using hboard
  | some board => simp

theorem worktreeDir_plain (plain : Path.Plain (o.effectiveBoard r.board))
    : o.worktreeDir start r = o.collection start ++ [o.effectiveBoard r.board] := by
  simp [worktreeDir_eq, worktreeWay, plain.wayFrom, Path.Way.target, Path.Way.kept]

/--
A build that is not rejected builds for a board without a name exactly if the empty name is set to
be built for all boards. Apart from the one that creates the worktree, a version control command
works inside the collection of worktrees exactly if its way there goes down again by the names that
it has gone up through, and then further; all but a reset always work in the worktree. Two builds
use the same worktree exactly if the way that goes up further first goes down again to where the
other one goes down. So the worktree of a board whose name is nothing but a name is in the
collection itself, and no other such board uses it.
-/
theorem making_isolated_iff (o : ProviderOptions) (r : BuildRequest) (lab : Lab ω) (w : ω)
    (now : Nat) (start : List String)
    : (r.board ≠ "" → (o.effectiveBoard r.board = "" ↔ o.boardOverride = some "")) ∧
        (∀ e ∈ (o.making r lab w now).trace, ∀ command, e.call = .host (.run command) →
          command ≠ o.addCommand (o.worktreePath (o.effectiveBoard r.board)) →
            ∀ u ∈ command.pathUses start, u.role = .worktree →
              Path.walk [] u.place =
                  (o.approach r start command).target (o.collection start) ∧
                (Path.Below (o.collection start) (Path.walk [] u.place) ↔
                  Path.Below ((o.approach r start command).left (o.collection start))
                    (o.approach r start command).down) ∧
                (Path.isAbsolute o.workdirs = true ∨
                    command ≠ o.resetCommand (o.worktreePath (o.effectiveBoard r.board)) →
                  Path.walk [] u.place = o.worktreeDir start r)) ∧
        (∀ r', (o.worktreeWay start r).up ≤ (o.worktreeWay start r').up →
          (o.worktreeDir start r = o.worktreeDir start r' ↔
            (o.worktreeWay start r').down =
              ((o.worktreeWay start r).kept (o.collection start)).drop
                  ((o.worktreeWay start r').kept (o.collection start)).length ++
                (o.worktreeWay start r).down)) ∧
        (Path.Plain (o.effectiveBoard r.board) →
          o.worktreeDir start r = o.collection start ++ [o.effectiveBoard r.board] ∧
            ∀ r', Path.Plain (o.effectiveBoard r'.board) →
              (o.worktreeDir start r = o.worktreeDir start r' ↔
                o.effectiveBoard r.board = o.effectiveBoard r'.board)) := by
  refine ⟨effectiveBoard_eq_empty, ?_, ?_, ?_⟩
  . intro e he command hcall hadd u hu hrole
    have hplace := (making_issues he hcall).walk_place hadd hu hrole
    refine ⟨hplace, ?_, fun hother => ?_⟩
    . rw [hplace]
      exact Path.Way.below_target_iff
    . rw [hplace, approach_eq hother, worktreeDir_eq]
  . intro r' hup
    rw [worktreeDir_eq, worktreeDir_eq]
    exact Path.Way.target_eq_iff hup
  . intro plain
    refine ⟨worktreeDir_plain plain, fun r' plain' => ?_⟩
    rw [worktreeDir_plain plain, worktreeDir_plain plain']
    simp

end

namespace resetting

def provider : ProviderOptions := { ProviderOptions.initial [] with workdirs := "/w" }

def request : BuildRequest := ⟨"sandbox", some "v1", none, false⟩

def making (o : ProviderOptions) : Making := o.making request (.prompt fun _ => false) () 0

def start : List String := ["home", "lab"]

def reset (o : ProviderOptions) (path : String) : Event :=
  ⟨.host (.run (o.resetCommand path)), 0, 0, some (.ok ⟨some 0, "", ""⟩)⟩

theorem reset_mem : reset provider "/w/sandbox" ∈ (making provider).trace :=
  List.mem_iff_getElem?.mpr ⟨1, rfl⟩

def unnamed : ProviderOptions := { provider with boardOverride := some "" }

theorem unnamed_reset_mem : reset unnamed "/w/" ∈ (making unnamed).trace :=
  List.mem_iff_getElem?.mpr ⟨1, rfl⟩

end resetting

theorem resetting_isolated
    : resetting.request.board ≠ "" ∧ resetting.provider.effectiveBoard "sandbox" ≠ "" ∧
        resetting.reset resetting.provider "/w/sandbox" ∈
          (resetting.making resetting.provider).trace ∧
        Path.Below ["w"] (Path.walk [] (Path.resolve ["w"] "/w/sandbox")) ∧
        ∀ board, Path.Plain board →
          resetting.provider.worktreeDir resetting.start resetting.request =
              resetting.provider.worktreeDir resetting.start ⟨board, none, none, false⟩ →
            "sandbox" = board := by
  obtain ⟨named, below, _, distinct⟩ := making_isolated_iff resetting.provider resetting.request
    (.prompt fun _ => false) () 0 resetting.start
  refine ⟨by decide, ?_, resetting.reset_mem, ?_, ?_⟩
  . exact mt (named (by decide)).mp (by decide)
  . exact (below _ resetting.reset_mem _ rfl (by decide) ⟨.worktree, ["w"], "/w/sandbox"⟩
      (by decide) rfl).right.left.mpr (by decide)
  . intro board plain
    exact ((distinct (by decide)).right ⟨board, none, none, false⟩ plain).mp

/--
If the name of the board is empty, then the collection itself is taken for its worktree and reset.
-/
theorem resetting_unnamed
    : resetting.request.board ≠ "" ∧
        (∃ result, (resetting.making resetting.unnamed).result = some (.ok result)) ∧
        resetting.unnamed.effectiveBoard "sandbox" = "" ∧
        resetting.reset resetting.unnamed "/w/" ∈ (resetting.making resetting.unnamed).trace ∧
        (resetting.unnamed.resetCommand "/w/").pathUses resetting.start =
          [⟨.worktree, ["w"], "/w/"⟩] ∧
        Path.walk [] (Path.resolve ["w"] "/w/") =
          resetting.unnamed.collection resetting.start ∧
        ¬Path.Below (resetting.unnamed.collection resetting.start)
          (Path.walk [] (Path.resolve ["w"] "/w/")) := by
  exact ⟨by decide, ⟨_, rfl⟩, rfl, resetting.unnamed_reset_mem, by decide, by decide, by decide⟩

end ProviderOptions

end BringUp
