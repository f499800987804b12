import BringUp.Proofs.Build.Leftovers
import BringUp.Proofs.Build.Outcome

/-!
This module contains what becomes of a patch. The main statement is that a build whose patch does
not apply ends with what applying it has printed, after the worktree was cleared and without
anything having been built, and that the file of an inline patch is there only while it is applied.
-/

namespace BringUp

open Program Trace ToolStep

def Files.after (f : Files) : Event → Files
  | ⟨.host (.createPatch text), _, _, some (.ok path)⟩ =>
    fun name => if name = path then some text else f name
  | ⟨.host (.removePatch path), _, _, some ()⟩ =>
    fun name => if name = path then .none else f name
  | _ => f

def Trace.patchFiles (t : List Event) : Files := t.foldl Files.after .none

def Patch.Held (patch : Patch) (before : List Event) (e : Event) : Prop :=
  ∀ text dir file, patch = .inline text →
    e.call = .host (.run (Worktree.git dir ["apply", file] none)) →
      patchFiles before file = some text

def Call.KeepsFiles : Call → Prop
  | .host (.createPatch _) | .host (.removePatch _) => False
  | _ => True

def Call.Patchless (c : Call) : Prop :=
  c.KeepsFiles ∧ ∀ command : ToolCommand, command.Applies → c ≠ .host (.run command)

def Call.ChecksOut (c : Call) : Prop :=
  c.KeepsFiles ∧ ∀ command, c = .host (.run command) →
    ∃ dir args cwd, command = Worktree.git dir args cwd ∧ args.head? ≠ some "apply"

/--
Whatever the lab does, an inline patch is in the file that is applied. If there was no patch file
before a run of the program, there is none after a run that was not given up.
-/
def Program.Tidies (patch : Patch) (p : Program σ ε α) : Prop :=
  ∀ s now h, Always patch.Held h → patchFiles h = .none →
    p.Ensures (fun r _ _ h' => Always patch.Held h' ∧ (r ≠ none → patchFiles h' = .none)) s now h

def ToolRun.refusal? (run : ToolRun) : Option String :=
  match run.reply with
  | some (.ok output) => if output.success then none else some output.combined
  | some (.error reason) => some s!"failed to run {run.command.line}: {reason}"
  | none => none

def Patch.From (patch : Patch) (file : String) (t : List Event) : Prop :=
  match patch with
  | .file path => file = path
  | .inline text => Found t (.createPatch text) (.ok file)

/--
How applying a patch fails: the text of an inline patch is not written, after which nothing happens,
or the patch does not apply.
-/
inductive PatchFails (dir : String) : Patch → List Event → String → Prop where
  | unwritten (ht : t = [⟨.host (.createPatch text), start, stop, some (.error reason)⟩])
      : PatchFails dir (.inline text) t s!"failed to write patch file: {reason}"
  | refused {run : ToolRun} (hfile : patch.From file t) (hruns : toolRuns t = run :: later)
      (hcommand : run.command = Worktree.git dir ["apply", file] none)
      (hrefused : run.refusal? = some output)
      : PatchFails dir patch t output

namespace Worktree

def clearing (dir : String) : List ToolCommand :=
  [git dir ["am", "--abort"] none, git dir ["reset", "--hard"] none]

inductive FileApplied (w : Worktree) (patch : Patch) (file : String)
    : Option (Except Error Unit) → List ToolRun → Prop where
  | applied {run : ToolRun} (hcommand : run.command = git w.path ["apply", file] none)
      (hsuccess : run.succeeded = true)
      : FileApplied w patch file (some (.ok ())) [run]
  | refused {run : ToolRun} (hcommand : run.command = git w.path ["apply", file] none)
      (hrefused : run.refusal? = some output)
      (hcleared : later.map ToolRun.command = clearing w.path)
      : FileApplied w patch file (some (.error (.patchApplyFailed patch.describe w.board output)))
          (run :: later)
  | hung {run : ToolRun} (hcommand : run.command = git w.path ["apply", file] none)
      (hclearing : later.map ToolRun.command <+: clearing w.path)
      : FileApplied w patch file none (run :: later)

inductive PatchApplied (w : Worktree) (patch : Patch)
    : Option (Except Error Unit) → List Event → Prop where
  | applied {run : ToolRun} (hruns : toolRuns t = [run])
      (hcommand : run.command = git w.path ["apply", file] none) (hsuccess : run.succeeded = true)
      : PatchApplied w patch (some (.ok ())) t
  | failed (hfails : PatchFails w.path patch t output)
      (hcleared : ∀ run later, toolRuns t = run :: later →
        later.map ToolRun.command = clearing w.path)
      : PatchApplied w patch (some (.error (.patchApplyFailed patch.describe w.board output))) t
  | hung (hclearing : ∀ run later, toolRuns t = run :: later →
        (∃ file, run.command = git w.path ["apply", file] none) ∧
          later.map ToolRun.command <+: clearing w.path)
      : PatchApplied w patch none t

end Worktree

def Program.Unpatched (p : Program σ Error α) : Prop :=
  ∀ s now h, p.Ensures
    (fun r _ _ _ => ∀ patch board output, r ≠ some (.error (.patchApplyFailed patch board output)))
    s now h

section

variable {σ ε α β : Type} {h t : List Event} {patch : Patch}

theorem patchFiles_concat : patchFiles (h ++ [e]) = (patchFiles h).after e :=
  List.foldl_concat ..

theorem patchFiles_append (ht : ∀ e ∈ t, e.call.KeepsFiles)
    : patchFiles (h ++ t) = patchFiles h := by
  have untouched {f : Files} {e : Event} (he : e.call.KeepsFiles) : f.after e = f := by
    unfold Files.after
    split
    . exact he.elim
    . exact he.elim
    . rfl
  rw [patchFiles, List.foldl_append, ← patchFiles]
  generalize patchFiles h = f
  induction t with
  | nil => rfl
  | cons e t ih =>
    rw [List.forall_mem_cons] at ht
    rw [List.foldl_cons, untouched ht.left]
    exact ih ht.right

theorem tidies_bind {p : Program σ ε α} {f : α → Program σ ε β} (hp : p.Tidies patch)
    (hf : ∀ a, (f a).Tidies patch)
    : (p >>= f).Tidies patch := by
  intro s now h held tidy
  rw [ensures_bind]
  apply (hp s now h held tidy).mono
  rintro r s now h ⟨held, tidy⟩
  rcases r with _ | e | a
  . exact ⟨held, by simp⟩
  . exact ⟨held, fun _ => tidy (by simp)⟩
  . exact hf a s now h held (tidy (by simp))

theorem tidies_of_within {p : Program σ ε α} (hp : p.Within Call.Patchless) : p.Tidies patch := by
  intro s now h held tidy
  apply hp.ensures
  intro r now t ht
  refine ⟨held.append ?_, fun _ => ?_⟩
  . rintro before e after rfl text dir file _ hcall
    exact absurd hcall ((ht e (by simp)).right _ ⟨dir, file, rfl⟩)
  . rw [patchFiles_append fun e he => (ht e he).left, tidy]

theorem applyFile_held {w : Worktree} (held : Always patch.Held h)
    (hfile : ∀ text, patch = .inline text → patchFiles h file = some text)
    : (w.applyFile patch file : Program σ Error Unit).Ensures
        (fun _ _ _ h' => Always patch.Held h' ∧ patchFiles h' = patchFiles h) s now h := by
  have applies : (w.applyFile patch file : Program σ Error Unit).Within fun c =>
      c.KeepsFiles ∧ ∀ dir file', c = .host (.run (Worktree.git dir ["apply", file'] none)) →
        file' = file := by
    apply within_bind
    . simp [Call.KeepsFiles, Worktree.git, eq_comm]
    . intro reply
      split <;> simp [Call.KeepsFiles, Worktree.git]
  apply applies.ensures
  intro r now t ht
  have keeps : ∀ e ∈ t, e.call.KeepsFiles := fun e he => (ht e he).left
  refine ⟨held.append ?_, patchFiles_append keeps⟩
  rintro before e after rfl text dir file' hpatch hcall
  obtain rfl := (ht e (by simp)).right dir file' hcall
  rw [patchFiles_append fun e he => keeps e (by simp [he])]
  exact hfile text hpatch

theorem applyPatch_tidies {w : Worktree}
    : (w.applyPatch patch : Program σ Error Unit).Tidies patch := by
  intro s now h held tidy
  unfold Worktree.applyPatch
  cases patch with
  | file path =>
    apply (applyFile_held held (by simp)).mono
    rintro r s now h' ⟨held', same⟩
    exact ⟨held', fun _ => same.trans tidy⟩
  | inline text =>
    have idle {h : List Event} {e : Event} (held : Always (Patch.inline text).Held h)
        (he : ∀ command, e.call ≠ .host (.run command))
        : Always (Patch.inline text).Held (h ++ [e]) :=
      held.concat fun _ _ _ _ hcall => absurd hcall (he _)
    rw [ensures_bind, ensures_host]
    constructor
    . exact ⟨idle held (by simp), by simp⟩
    . intro stop created _
      rw [Post.andThen_ok]
      cases created with
      | error reason =>
        refine ⟨idle held (by simp), fun _ => ?_⟩
        rw [patchFiles_concat, tidy]
        rfl
      | ok path =>
        simp only [ensures_bind, ensures_attempt]
        have written : patchFiles
            (h ++ [⟨.host (.createPatch text), now, stop, some (.ok path)⟩]) =
              fun name => if name = path then some text else none := by
          rw [patchFiles_concat, tidy]
          rfl
        apply (applyFile_held (idle held (by simp)) (by simp [written])).mono
        rintro r s now h' ⟨held', same⟩
        rcases r with _ | r
        . exact ⟨held', by simp⟩
        . rw [Post.andHandle_some, ensures_done, Post.andThen_ok, ensures_bind, ensures_host]
          constructor
          . exact ⟨idle held' (by simp), by simp⟩
          . intro stop _ _
            refine ⟨idle held' (by simp), fun _ => ?_⟩
            rw [patchFiles_concat, same, written]
            funext name
            simp [Files.after, Files.none]

theorem git_checksOut (hargs : args.head? ≠ some "apply")
    : ((Worktree.git dir args cwd).runChecked board : Program σ Error ToolOutput).Within
        Call.ChecksOut := by
  apply within_bind
  . rw [within_host]
    refine ⟨trivial, ?_⟩
    rintro _ ⟨⟩
    exact ⟨dir, args, cwd, rfl, hargs⟩
  . intro reply
    split <;> simp

theorem setup_checksOut
    : (Worktree.setup o board commit : Program σ Error Worktree).Within Call.ChecksOut := by
  have selected : (Worktree.selectCommit o board commit : Program σ Error Unit).Within
      Call.ChecksOut :=
    within_bind (git_checksOut (by simp)) fun _ => within_pure
  apply within_bind
  . simp [Call.ChecksOut, Call.KeepsFiles]
  . intro present
    split
    . apply within_bind (git_checksOut (by simp))
      intro _
      exact within_bind selected fun _ => within_pure
    . apply within_bind
      . simp [Call.ChecksOut, Call.KeepsFiles]
      . intro created
        split
        . trivial
        . apply within_bind (git_checksOut (by simp))
          intro _
          exact within_bind selected fun _ => within_pure

theorem Call.ChecksOut.patchless {c : Call} (hc : c.ChecksOut) : c.Patchless := by
  refine ⟨hc.left, ?_⟩
  rintro command ⟨dir, file, hcommand⟩ hcall
  obtain ⟨_, args, _, hgit, hargs⟩ := hc.right command hcall
  simp_all [Worktree.git]

theorem prepareSource_tidies {o : ProviderOptions} {r : BuildRequest}
    (hpatch : r.patch = some patch)
    : (o.prepareSource board r : Program σ Error String).Tidies patch := by
  unfold ProviderOptions.prepareSource
  split
  . exact tidies_of_within within_pure
  . apply tidies_bind (tidies_of_within (setup_checksOut.mono fun _ hc => hc.patchless))
    intro w
    rw [hpatch]
    exact tidies_bind applyPatch_tidies fun _ => tidies_of_within within_pure

theorem finish_patchless {o : ProviderOptions} {r : BuildRequest}
    : (o.finish r source : Program σ Error BuildResult).Within Call.Patchless := by
  have built {board path flag : String}
      : Call.Patchless
          (.host (.run ((o.buildCommand board path r.configOnly source).addArg flag))) := by
    refine ⟨trivial, ?_⟩
    rintro _ ⟨_, _, rfl⟩
    simp [ProviderOptions.buildCommand, ToolCommand.addArg, Worktree.git]
  apply within_bind
  . apply within_bind
    . simp [built]
    . intro reply
      split
      . simp
      . split
        . simp
        . split
          . apply within_bind
            . simp [built]
            . intro reply
              split <;> simp
          . simp
  . intro output
    apply within_bind within_ofExcept
    intro _
    apply within_bind
    . simp [Call.Patchless, Call.KeepsFiles]
    . intro populated
      split
      . simp
      . split <;> simp [Call.Patchless, Call.KeepsFiles]

theorem build_tidies {o : ProviderOptions} {r : BuildRequest} (hpatch : r.patch = some patch)
    : (o.build r : Program σ Error BuildResult).Tidies patch := by
  by_cases hboard : r.board = ""
  . rw [ProviderOptions.build, if_pos (by simp [hboard])]
    exact tidies_of_within within_raise
  . rw [ProviderOptions.build_eq_bind hboard]
    exact tidies_bind (prepareSource_tidies hpatch) fun _ => tidies_of_within finish_patchless

theorem applyFile_ends {w : Worktree}
    : (w.applyFile patch file : Program σ Error Unit).Ensures
        (fun result _ _ t => w.FileApplied patch file result (toolRuns t)) s now [] := by
  have cleared {reply : Except String ToolOutput} {stop : Nat} {output : String}
      (hrefused : ToolRun.refusal? ⟨Worktree.git w.path ["apply", file] none, some reply⟩ =
        some output)
      : (do
          let _ ← host (.run (Worktree.git w.path ["am", "--abort"] none))
          let _ ← host (.run (Worktree.git w.path ["reset", "--hard"] none))
          raise (.patchApplyFailed patch.describe w.board output) : Program σ Error Unit).Ensures
          (fun result _ _ t => w.FileApplied patch file result (toolRuns t)) s stop
          [⟨.host (.run (Worktree.git w.path ["apply", file] none)), now, stop, some reply⟩] := by
    simp only [ensures_bind, ensures_host, Post.andThen_ok, Post.andThen_none, ensures_raise]
    constructor
    . exact .hung rfl (List.prefix_append [Worktree.git w.path ["am", "--abort"] none] _)
    . intro _ _ _
      refine ⟨.hung rfl List.prefix_rfl, ?_⟩
      intro _ _ _
      exact .refused rfl hrefused rfl
  rw [Worktree.applyFile, ensures_bind, ensures_host]
  refine ⟨.hung rfl (List.nil_prefix ..), ?_⟩
  intro stop reply _
  rw [Post.andThen_ok]
  cases reply with
  | error reason => exact cleared rfl
  | ok output =>
    dsimp only
    split
    . next hsuccess => exact .applied rfl hsuccess
    . next hfailure => exact cleared (by simp [ToolRun.refusal?, hfailure])

theorem Worktree.FileApplied.clears {w : Worktree} {runs : List ToolRun}
    (ha : w.FileApplied patch file result runs)
    : ∀ run later, runs = run :: later →
        (∃ file, run.command = Worktree.git w.path ["apply", file] none) ∧
          later.map ToolRun.command <+: Worktree.clearing w.path := by
  rintro run later rfl
  cases ha with
  | applied hcommand => exact ⟨⟨file, hcommand⟩, List.nil_prefix ..⟩
  | refused hcommand _ hcleared => exact ⟨⟨file, hcommand⟩, hcleared ▸ List.prefix_rfl⟩
  | hung hcommand hclearing => exact ⟨⟨file, hcommand⟩, hclearing⟩

theorem Worktree.FileApplied.patchApplied {w : Worktree}
    (ha : w.FileApplied patch file result (toolRuns t)) (hfile : patch.From file t)
    : w.PatchApplied patch result t := by
  generalize hruns : toolRuns t = runs at ha
  cases ha with
  | applied hcommand hsuccess => exact .applied hruns hcommand hsuccess
  | refused hcommand hrefused hcleared =>
    exact .failed (.refused hfile hruns hcommand hrefused) (by simp [hruns, hcleared])
  | hung hcommand hclearing =>
    refine .hung fun run later hruns' => ?_
    obtain ⟨rfl, rfl⟩ := List.cons.inj (hruns.symm.trans hruns')
    exact ⟨⟨file, hcommand⟩, hclearing⟩

theorem applyPatch_ends {w : Worktree}
    : (w.applyPatch patch : Program σ Error Unit).Ensures
        (fun result _ _ t => w.PatchApplied patch result t) s now [] := by
  unfold Worktree.applyPatch
  cases patch with
  | file path => exact applyFile_ends.mono fun _ _ _ _ ha => ha.patchApplied rfl
  | inline text =>
    rw [ensures_bind, ensures_host]
    refine ⟨.hung (by simp [toolRuns_eq_nil]), ?_⟩
    intro stop created _
    rw [Post.andThen_ok]
    cases created with
    | error reason => exact .failed (.unwritten rfl) (by simp [toolRuns_eq_nil])
    | ok path =>
      simp only [ensures_bind, ensures_attempt]
      -- No tool is run to create or to remove the file, so the runs are those that apply it.
      rw [ensures_iff_nil]
      apply applyFile_ends.mono
      rintro r s later t ha
      have removed (t : List Event) (start stop : Nat) (reply : Option Unit)
          : toolRuns (t ++ [⟨.host (.removePatch path), start, stop, reply⟩]) = toolRuns t := by
        rw [toolRuns_append]
        exact List.append_nil _
      have tried : w.FileApplied (.inline text) path r
          (toolRuns ([] ++ [⟨.host (.createPatch text), now, stop, some (.ok path)⟩] ++ t)) := by
        rw [toolRuns_append]
        exact ha
      rcases r with _ | r
      . exact .hung tried.clears
      . rw [Post.andHandle_some, ensures_done, Post.andThen_ok, ensures_bind, ensures_host]
        constructor
        . apply Worktree.PatchApplied.hung
          rw [removed]
          exact tried.clears
        . intro stop' _ _
          rw [← removed _ later stop' (some ())] at tried
          exact tried.patchApplied ⟨now, stop, by simp⟩

theorem Event.call_of_toolRun? {e : Event} {run : ToolRun} (hrun : e.toolRun? = some run)
    : e.call = .host (.run run.command) := by
  unfold Event.toolRun? at hrun
  split at hrun
  . cases hrun
    rfl
  . cases hrun

theorem ToolRun.refusal?_of_succeeded {run : ToolRun} (hsuccess : run.succeeded = true)
    : run.refusal? = none := by
  unfold ToolRun.succeeded at hsuccess
  unfold ToolRun.refusal?
  split at hsuccess
  . next hreply => simp [hreply, hsuccess]
  . cases hsuccess

theorem PatchFails.unique (hf : PatchFails dir patch t output)
    (hf' : PatchFails dir patch t output')
    : output = output' := by
  cases hf with
  | unwritten ht =>
    cases hf' with
    | unwritten ht' =>
      obtain ⟨_, _, rfl⟩ : _ ∧ _ ∧ _ := by simpa using ht.symm.trans ht'
      rfl
    | refused _ hruns' => simp [ht, toolRuns_eq_nil] at hruns'
  | refused _ hruns _ hrefused =>
    cases hf' with
    | unwritten ht' => simp [ht', toolRuns_eq_nil] at hruns
    | refused _ hruns' _ hrefused' =>
      obtain ⟨rfl, _⟩ := List.cons.inj (hruns.symm.trans hruns')
      exact Option.some.inj (hrefused.symm.trans hrefused')

theorem PatchFails.command {run : ToolRun} (hf : PatchFails dir patch t output)
    (hruns : toolRuns t = run :: later)
    : ∃ file, run.command = Worktree.git dir ["apply", file] none := by
  cases hf with
  | unwritten ht => simp [ht, toolRuns_eq_nil] at hruns
  | refused _ hruns' hcommand =>
    obtain ⟨rfl, _⟩ := List.cons.inj (hruns.symm.trans hruns')
    exact ⟨_, hcommand⟩

theorem PatchFails.ne_nil (hf : PatchFails dir patch t output) : t ≠ [] := by
  cases hf with
  | unwritten ht => simp [ht]
  | refused _ hruns =>
    rintro rfl
    cases hruns

theorem unpatched_bind {p : Program σ Error α} {f : α → Program σ Error β} (hp : p.Unpatched)
    (hf : ∀ a, (f a).Unpatched)
    : (p >>= f).Unpatched := by
  intro s now h
  rw [ensures_bind]
  apply (hp s now h).mono
  intro r s now h hr
  rcases r with _ | e | a
  . exact fun _ _ _ => nofun
  . rintro patch board output ⟨⟩
    exact hr patch board output rfl
  . exact hf a s now h

theorem unpatched_host {c : HostCall} : (host c : Program σ Error c.Reply).Unpatched := by
  simp [Program.Unpatched]

theorem runChecked_unpatched {command : ToolCommand}
    : (command.runChecked board : Program σ Error ToolOutput).Unpatched := by
  apply unpatched_bind unpatched_host
  intro reply s now h
  split
  . simp
  . split <;> simp

theorem setup_unpatched
    : (Worktree.setup o board commit : Program σ Error Worktree).Unpatched := by
  have selected : (do
      Worktree.selectCommit o board commit
      pure ⟨board, o.worktreePath board⟩ : Program σ Error Worktree).Unpatched := by
    apply unpatched_bind
    . exact unpatched_bind runChecked_unpatched fun _ _ _ _ => by simp
    . intro _ _ _ _
      simp
  apply unpatched_bind unpatched_host
  intro present
  split
  . exact unpatched_bind runChecked_unpatched fun _ => selected
  . apply unpatched_bind unpatched_host
    intro created
    split
    . intro s now h
      simp
    . exact unpatched_bind runChecked_unpatched fun _ => selected

theorem patched_ends {o : ProviderOptions} {r : BuildRequest} {w : Worktree}
    (hpath : w.path = o.sourceOf r)
    : ((w.applyPatch patch).bind fun _ => o.finish r w.path : Program σ Error BuildResult).Ensures
        (fun result _ _ t =>
          (∀ p b output, result = some (.error (.patchApplyFailed p b output)) ↔
            result ≠ none ∧ p = patch.describe ∧ b = w.board ∧ PatchFails w.path patch t output) ∧
          ∀ run later, toolRuns t = run :: later →
            (∃ file, run.command = Worktree.git w.path ["apply", file] none) ∧
              ∀ output, run.refusal? = some output →
                later.map ToolRun.command <+: Worktree.clearing w.path ∧
                  (result ≠ none → later.map ToolRun.command = Worktree.clearing w.path))
        s now [] := by
  rw [ensures_bind']
  apply applyPatch_ends.mono
  rintro result s now t ha
  cases ha with
  | @applied _ file run hruns hcommand hsuccess =>
    rw [Post.andThen_ok, ensures_iff_nil, hpath]
    apply finish_outcome.mono
    rintro result _ _ t' ⟨_, _, _, _, _, _, _, herror⟩
    have applied := ToolRun.refusal?_of_succeeded hsuccess
    constructor
    . intro p b output
      constructor
      . intro hresult
        nomatch (herror _).mp hresult
      . rintro ⟨_, _, _, hfails⟩
        cases hfails with
        | unwritten ht =>
          have none := congrArg toolRuns ht
          simp [hruns, toolRuns_eq_nil] at none
        | refused _ hruns' _ hrefused => simp_all
    . intro first later hruns'
      obtain rfl : run = first := by simp_all
      exact ⟨⟨file, hpath ▸ hcommand⟩, by simp [applied]⟩
  | failed hfails hcleared =>
    rw [Post.andThen_error]
    constructor
    . intro p b output
      constructor
      . rintro ⟨⟩
        exact ⟨nofun, rfl, rfl, hfails⟩
      . rintro ⟨_, rfl, rfl, hfails'⟩
        rw [hfails.unique hfails']
    . intro run later hruns
      have cleared := hcleared run later hruns
      exact ⟨hfails.command hruns, fun _ _ => ⟨cleared ▸ List.prefix_rfl, fun _ => cleared⟩⟩
  | hung hclearing =>
    rw [Post.andThen_none]
    refine ⟨by simp, ?_⟩
    intro run later hruns
    obtain ⟨hcommand, hlater⟩ := hclearing run later hruns
    exact ⟨hcommand, fun _ _ => ⟨hlater, by simp⟩⟩

end

namespace ProviderOptions

variable {o : ProviderOptions} {r : BuildRequest} {patch : Patch}
variable {lab : Lab ω} {w : ω} {now : Nat}

def settingUp (o : ProviderOptions) (board commit : String) (lab : Lab ω) (w : ω) (now : Nat)
    : Run Unit ω Error Worktree :=
  (Worktree.setup o (o.effectiveBoard board) commit).run lab none () w now

theorem build_eq_setup (hboard : r.board ≠ "") (hcommit : r.commit = some commit)
    (hpatch : r.patch = some patch)
    : (o.build r : Program σ Error BuildResult) =
        (Worktree.setup o (o.effectiveBoard r.board) commit).bind fun worktree =>
          (worktree.applyPatch patch).bind fun _ => o.finish r worktree.path := by
  rw [build_eq_bind hboard, prepareSource, hcommit, hpatch]
  apply (Program.bind_bind ..).trans
  congr 1
  funext worktree
  exact Program.bind_bind ..

theorem settingUp_result
    (hsetup : (o.settingUp board commit lab w now).result = some (.ok worktree))
    : worktree = ⟨o.effectiveBoard board, o.worktreePath (o.effectiveBoard board)⟩ := by
  have path : (Worktree.setup o (o.effectiveBoard board) commit : Program Unit Error _).Ensures _ ()
      now [] :=
    Heeded.setup_path
  have run := path.run lab w
  rw [← settingUp, hsetup] at run
  exact run

theorem making_settingUp (hboard : r.board ≠ "") (hcommit : r.commit = some commit)
    (hpatch : r.patch = some patch)
    (hsetup : (o.settingUp r.board commit lab w now).result = some (.ok worktree))
    : ∃ rest,
        (o.making r lab w now).trace = (o.settingUp r.board commit lab w now).trace ++ rest ∧
        (∀ p b output,
          (o.making r lab w now).result = some (.error (.patchApplyFailed p b output)) ↔
            (o.making r lab w now).result ≠ none ∧ p = patch.describe ∧ b = worktree.board ∧
              PatchFails worktree.path patch rest output) ∧
        ∀ run later, toolRuns rest = run :: later →
          (∃ file, run.command = Worktree.git worktree.path ["apply", file] none) ∧
            ∀ output, run.refusal? = some output →
              later.map ToolRun.command <+: Worktree.clearing worktree.path ∧
                ((o.making r lab w now).result ≠ none →
                  later.map ToolRun.command = Worktree.clearing worktree.path) := by
  have hpath : worktree.path = o.sourceOf r := by
    simp [settingUp_result hsetup, sourceOf, hcommit]
  have ends : ((worktree.applyPatch patch).bind fun _ => o.finish r worktree.path
      : Program Unit Error BuildResult).Ensures _ ()
      (o.settingUp r.board commit lab w now).now [] :=
    patched_ends hpath
  have run := ends.run lab (o.settingUp r.board commit lab w now).lab
  rw [List.nil_append] at run
  rw [making, build_eq_setup hboard hcommit hpatch, run_bind, ← settingUp, Run.andThen, hsetup]
  exact ⟨_, rfl, run⟩

theorem settingUp_unpatched
    : ∀ p b output,
        (o.settingUp board commit lab w now).result ≠
          some (.error (.patchApplyFailed p b output)) :=
  (setup_unpatched () now []).run lab w

theorem settingUp_checksOut
    : ∀ e ∈ (o.settingUp board commit lab w now).trace, e.call.ChecksOut := by
  have within : (Worktree.setup o (o.effectiveBoard board) commit : Program Unit Error _).Ensures
      (fun _ _ _ t => ∀ e ∈ t, e.call.ChecksOut) () now [] := by
    apply setup_checksOut.ensures
    intro _ _ t ht
    simpa using ht
  have run := within.run lab w
  rw [List.nil_append] at run
  exact run

theorem making_unnamed (hboard : r.board = "")
    : o.making r lab w now = ⟨r, some (.error .emptyBoard), []⟩ := by
  rw [making, build, if_pos (by simp [hboard])]
  rfl

theorem making_unpatched (hboard : r.board ≠ "") (hcommit : r.commit = some commit)
    (hpatch : r.patch = some patch)
    (hsetup : ∀ worktree, (o.settingUp r.board commit lab w now).result ≠ some (.ok worktree))
    : ∀ p b output,
        (o.making r lab w now).result ≠ some (.error (.patchApplyFailed p b output)) := by
  rw [making, build_eq_setup hboard hcommit hpatch, run_bind, ← settingUp, Run.andThen]
  intro p b output
  rcases hresult : (o.settingUp r.board commit lab w now).result with _ | e | worktree
  . simp
  . rintro ⟨⟩
    exact settingUp_unpatched p b output hresult
  . exact absurd hresult (hsetup worktree)

theorem board_ne_of_rest
    (htrace : (o.making r lab w now).trace =
      (o.settingUp r.board commit lab w now).trace ++ rest)
    (hrest : rest ≠ [])
    : r.board ≠ "" := by
  intro hboard
  rw [making_unnamed hboard] at htrace
  exact hrest (List.append_eq_nil_iff.mp htrace.symm).right

/--
A build with a patch reports the patch exactly if it returns, its worktree was set up, and then the
patch was not written or did not apply. If it did not apply, nothing is run but what clears the
worktree, and nothing was built. An inline patch is in the file that is applied, and no patch file
is there once the build has returned.
-/
theorem making_patch (o : ProviderOptions) (hcommit : r.commit = some commit)
    (hpatch : r.patch = some patch) (lab : Lab ω) (w : ω) (now : Nat)
    : (∀ p b output,
          (o.making r lab w now).result = some (.error (.patchApplyFailed p b output)) ↔
            (o.making r lab w now).result ≠ none ∧ p = patch.describe ∧
              b = o.effectiveBoard r.board ∧
              ∃ worktree rest,
                (o.settingUp r.board commit lab w now).result = some (.ok worktree) ∧
                (o.making r lab w now).trace =
                  (o.settingUp r.board commit lab w now).trace ++ rest ∧
                PatchFails worktree.path patch rest output) ∧
        (∀ worktree rest run later output,
          (o.settingUp r.board commit lab w now).result = some (.ok worktree) →
          (o.making r lab w now).trace = (o.settingUp r.board commit lab w now).trace ++ rest →
          toolRuns rest = run :: later → run.refusal? = some output →
            later.map ToolRun.command <+: Worktree.clearing worktree.path ∧
              ((o.making r lab w now).result ≠ none →
                later.map ToolRun.command = Worktree.clearing worktree.path) ∧
              ∀ tried ∈ toolRuns (o.making r lab w now).trace, ∀ flag,
                tried.command ≠ o.buildAttempt r flag) ∧
        Always patch.Held (o.making r lab w now).trace ∧
        ((o.making r lab w now).result ≠ none →
          patchFiles (o.making r lab w now).trace = .none) := by
  have tidies := (build_tidies (o := o) hpatch () now [] always_nil rfl).run lab w
  rw [List.nil_append] at tidies
  refine ⟨?_, ?_, tidies⟩
  . intro p b output
    constructor
    . intro hresult
      have hboard : r.board ≠ "" := by
        intro hboard
        simp [making_unnamed hboard, Error.emptyBoard] at hresult
      by_cases hsetup : ∃ worktree,
          (o.settingUp r.board commit lab w now).result = some (.ok worktree)
      . obtain ⟨worktree, hsetup⟩ := hsetup
        obtain ⟨rest, htrace, hreported, _⟩ := making_settingUp hboard hcommit hpatch hsetup
        obtain ⟨hreturns, hp, hb, hfails⟩ := (hreported p b output).mp hresult
        rw [settingUp_result hsetup] at hb
        exact ⟨hreturns, hp, hb, worktree, rest, hsetup, htrace, hfails⟩
      . rw [not_exists] at hsetup
        exact absurd hresult (making_unpatched hboard hcommit hpatch hsetup p b output)
    . rintro ⟨hreturns, hp, hb, worktree, rest, hsetup, htrace, hfails⟩
      have hboard := board_ne_of_rest htrace hfails.ne_nil
      obtain ⟨rest', htrace', hreported, _⟩ := making_settingUp hboard hcommit hpatch hsetup
      obtain rfl := List.append_cancel_left (htrace.symm.trans htrace')
      rw [hreported]
      exact ⟨hreturns, hp, by rw [hb, settingUp_result hsetup], hfails⟩
  . intro worktree rest run later output hsetup htrace hruns hrefused
    have hboard := board_ne_of_rest htrace fun hnil => by simp [hnil] at hruns
    obtain ⟨rest', htrace', _, hcleared⟩ := making_settingUp hboard hcommit hpatch hsetup
    obtain rfl := List.append_cancel_left (htrace.symm.trans htrace')
    obtain ⟨⟨file, hcommand⟩, hcleared⟩ := hcleared run later hruns
    obtain ⟨hlater, hall⟩ := hcleared output hrefused
    refine ⟨hlater, hall, ?_⟩
    -- All that is run is the version control.
    intro tried htried flag
    have hgit : ∃ dir args cwd, tried.command = Worktree.git dir args cwd := by
      rw [htrace, toolRuns_append, hruns, List.mem_append, List.mem_cons] at htried
      rcases htried with hbefore | rfl | hafter
      . obtain ⟨e, he, hrun⟩ := List.mem_filterMap.mp hbefore
        obtain ⟨dir, args, cwd, hgit, _⟩ :=
          (settingUp_checksOut e he).right _ (Event.call_of_toolRun? hrun)
        exact ⟨dir, args, cwd, hgit⟩
      . exact ⟨_, _, _, hcommand⟩
      . have cleared := hlater.subset (List.mem_map_of_mem hafter)
        simp only [Worktree.clearing, List.mem_cons, List.not_mem_nil, or_false] at cleared
        rcases cleared with hgit | hgit <;> exact ⟨_, _, _, hgit⟩
    obtain ⟨dir, args, cwd, hgit⟩ := hgit
    rw [hgit]
    exact git_ne_buildAttempt o r flag

end ProviderOptions

namespace rejecting

def provider : ProviderOptions := .initial []

def text : String := "--- a\n+++ b\n"

def request : BuildRequest := ⟨"sandbox", some "v2", some (.inline text), false⟩

def strict : Lab Unit where
  device _ _ c := ⟨(), some 0, .ok c.silence⟩
  host _ _ c :=
    ⟨(), some 0,
      match c with
      | .run command =>
        if command.hasArg "apply" then .ok ⟨some 1, "", "error: patch failed"⟩
        else if command.hasArg "am" then .error "no such file"
        else .ok ⟨some 0, "", ""⟩
      | .createPatch _ => .ok "/tmp/fix.patch"
      | c => c.consent⟩

def settingUp : Run Unit Unit Error Worktree := provider.settingUp "sandbox" "v2" strict () 0

def making : Making := provider.making request strict () 0

def rest : List Event := making.trace.drop settingUp.trace.length

def refused : ToolRun where
  command :=
    Worktree.git (provider.worktreePath "sandbox") ["apply", "/tmp/fix.patch"] none
  reply := some (.ok ⟨some 1, "", "error: patch failed"⟩)

end rejecting

theorem rejecting_cleared
    : rejecting.making.result =
          some (.error
            (.patchApplyFailed "<inline patch, 12 bytes>" "sandbox" "error: patch failed")) ∧
        rejecting.making.trace = rejecting.settingUp.trace ++ rejecting.rest ∧
        (∃ later, toolRuns rejecting.rest = rejecting.refused :: later ∧
          later.map ToolRun.command =
            Worktree.clearing (rejecting.provider.worktreePath "sandbox")) ∧
        patchFiles rejecting.making.trace = .none := by
  obtain ⟨_, hcleared, _, htidy⟩ :=
    rejecting.provider.making_patch (r := rejecting.request) rfl rfl rejecting.strict () 0
  have reported : rejecting.making.result =
      some (.error
        (.patchApplyFailed "<inline patch, 12 bytes>" "sandbox" "error: patch failed")) := by
    rfl
  have returns : rejecting.making.result ≠ none := by simp [reported]
  have trace : rejecting.making.trace = rejecting.settingUp.trace ++ rejecting.rest := by rfl
  have setup : rejecting.settingUp.result =
      some (.ok ⟨"sandbox", rejecting.provider.worktreePath "sandbox"⟩) := by
    rfl
  obtain ⟨_, hall, _⟩ := hcleared _ _ rejecting.refused _ "error: patch failed" setup trace rfl rfl
  exact ⟨reported, trace, ⟨_, rfl, hall returns⟩, htidy returns⟩

end BringUp
