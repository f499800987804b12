import BringUp.Proofs.Build.Marker
import BringUp.Proofs.Build.Worktrees

/-!
This module contains what a build comes to once its source is prepared. The main statement is that
the build tool is run once, or a second time with the other flag, and that the reply to its last run
and what is then found decide the result, the first check that fails being the one that is reported.
-/

namespace BringUp

open Program Trace

def Trace.Found (t : List Event) (c : HostCall) (reply : c.Reply) : Prop :=
  ∃ start stop, ⟨.host c, start, stop, some reply⟩ ∈ t

def ToolRun.outcome (run : ToolRun) (board : String) : Option (Except Error ToolOutput) :=
  run.reply.map fun
    | .error reason => .error (.toolInvocationFailed run.command.line board "not started" reason)
    | .ok output =>
      if output.success then .ok output
      else .error (.toolInvocationFailed run.command.line board output.status output.combined)

namespace ProviderOptions

def Misunderstood (o : ProviderOptions) (run : ToolRun) : Prop :=
  ∃ output, run.reply = some (.ok output) ∧ output.code ≠ some 0 ∧
    o.unsupportedFlagPattern.toList <:+: output.combined.toList

inductive Attempts (o : ProviderOptions) (r : BuildRequest) : List ToolRun → ToolRun → Prop where
  | once {first : ToolRun} (hfirst : first.command = o.buildAttempt r o.primaryFlag)
      (hknown : ¬o.Misunderstood first)
      : Attempts o r [first] first
  | twice {first second : ToolRun} (hfirst : first.command = o.buildAttempt r o.primaryFlag)
      (hunknown : o.Misunderstood first)
      (hsecond : second.command = o.buildAttempt r o.fallbackFlag)
      : Attempts o r [first, second] second

def Passed (o : ProviderOptions) (run : ToolRun) : Prop :=
  ∃ output, run.reply = some (.ok output) ∧ output.code = some 0 ∧
    (o.nonFunctionalMarker = "" ∨
      ∀ line ∈ Text.lines output.combined.toList, ¬o.nonFunctionalMarker.toList <:+: line)

inductive FirstFailure (o : ProviderOptions) (r : BuildRequest) (run : ToolRun)
    (looked : List Event) : Error → Prop where
  | unstarted (hreply : run.reply = some (.error reason))
      : FirstFailure o r run looked
          (.toolInvocationFailed run.command.line (o.effectiveBoard r.board) "not started" reason)
  | unsuccessful (hreply : run.reply = some (.ok output)) (hcode : output.code ≠ some 0)
      : FirstFailure o r run looked
          (.toolInvocationFailed run.command.line (o.effectiveBoard r.board) output.status
            output.combined)
  | marked (hreply : run.reply = some (.ok output)) (hcode : output.code = some 0)
      (hmarker : o.nonFunctionalMarker ≠ "")
      (hlines : Text.lines output.combined.toList = front ++ line :: back)
      (hline : o.nonFunctionalMarker.toList <:+: line)
      (hback : ∀ other ∈ back, ¬o.nonFunctionalMarker.toList <:+: other)
      : FirstFailure o r run looked
          (.nonFunctionalArtifact (o.effectiveBoard r.board) (String.ofList line))
  | unpopulated (hpassed : o.Passed run)
      (hfound : Found looked (.isPopulated (o.buildPath r.board)) false)
      : FirstFailure o r run looked
          (.missingArtifacts (o.effectiveBoard r.board) (o.buildPath r.board))
  | lacking (hpassed : o.Passed run)
      (hfound : Found looked (.isPopulated (o.buildPath r.board)) true)
      (hdir : o.binmanIndir = some dir) (hlacking : Found looked (.isDirectory dir) false)
      : FirstFailure o r run looked (.missingArtifacts (o.effectiveBoard r.board) dir)

def finish (o : ProviderOptions) (r : BuildRequest) (source : String)
    : Program σ Error BuildResult := do
  let board := o.effectiveBoard r.board
  let output ← o.runBuild board (o.buildCommand board (o.outputOf board) r.configOnly source)
  ofExcept (o.checkOutput board output)
  o.collect board (o.outputOf board)

def preparing (o : ProviderOptions) (r : BuildRequest) (lab : Lab ω) (w : ω) (now : Nat)
    : Run Unit ω Error String :=
  (o.prepareSource (o.effectiveBoard r.board) r).run lab none () w now

end ProviderOptions

section

variable {σ : Type} {o : ProviderOptions} {r : BuildRequest}

theorem runChecked_outcome {command : ToolCommand}
    : (command.runChecked board : Program σ Error ToolOutput).Ensures
        (fun result _ _ t => ∃ run : ToolRun, toolRuns t = [run] ∧ run.command = command ∧
          result = run.outcome board)
        s now [] := by
  rw [ToolCommand.runChecked, ensures_bind, ensures_host]
  refine ⟨⟨⟨command, none⟩, rfl, rfl, rfl⟩, ?_⟩
  intro stop reply _
  rw [Post.andThen_ok]
  cases reply with
  | error reason => exact ⟨⟨command, some (.error reason)⟩, rfl, rfl, rfl⟩
  | ok output =>
    dsimp only
    split
    . next hsuccess =>
      exact ⟨⟨command, some (.ok output)⟩, rfl, rfl, by simp [ToolRun.outcome, hsuccess]⟩
    . next hfailure =>
      exact ⟨⟨command, some (.ok output)⟩, rfl, rfl, by simp [ToolRun.outcome, hfailure]⟩

theorem runBuild_outcome
    : (o.runBuild (o.effectiveBoard r.board)
        (o.buildCommand (o.effectiveBoard r.board) (o.outputOf (o.effectiveBoard r.board))
          r.configOnly (o.sourceOf r)) : Program σ Error ToolOutput).Ensures
        (fun result _ _ t => ∃ last, o.Attempts r (toolRuns t) last ∧
          result = last.outcome (o.effectiveBoard r.board))
        s now [] := by
  rw [ProviderOptions.runBuild, ensures_bind, ensures_host]
  have once {reply : Option (Except String ToolOutput)} {result : Option (Except Error ToolOutput)}
      {start stop : Nat}
      (hknown : ¬o.Misunderstood ⟨o.buildAttempt r o.primaryFlag, reply⟩)
      (hresult : result =
        ToolRun.outcome ⟨o.buildAttempt r o.primaryFlag, reply⟩ (o.effectiveBoard r.board))
      : ∃ last, o.Attempts r
          (toolRuns [⟨.host (.run (o.buildAttempt r o.primaryFlag)), start, stop, reply⟩]) last ∧
          result = last.outcome (o.effectiveBoard r.board) :=
    ⟨_, .once rfl hknown, hresult⟩
  refine ⟨once (by simp [ProviderOptions.Misunderstood]) rfl, ?_⟩
  intro stop reply _
  rw [Post.andThen_ok]
  cases reply with
  | error reason => exact once (by simp [ProviderOptions.Misunderstood]) rfl
  | ok output =>
    dsimp only
    by_cases hsuccess : output.success = true
    . rw [if_pos hsuccess]
      have hcode : output.code = some 0 := by simpa [ToolOutput.success] using hsuccess
      exact once (by simp [ProviderOptions.Misunderstood, hcode])
        (by simp [ToolRun.outcome, hsuccess])
    . rw [if_neg hsuccess]
      have hcode : output.code ≠ some 0 := by simpa [ToolOutput.success] using hsuccess
      split
      . next hpattern =>
        rw [ensures_iff_nil]
        apply runChecked_outcome.mono
        rintro result _ _ t ⟨second, hruns, hsecond, hresult⟩
        refine ⟨second, ?_, hresult⟩
        rw [List.nil_append, List.singleton_append, toolRuns_cons_run, hruns]
        exact .twice rfl ⟨output, rfl, hcode, Text.occursIn_iff_isInfix.mp hpattern⟩ hsecond
      . next hpattern =>
        apply once
        . rintro ⟨_, hreply, _, hinfix⟩
          cases hreply
          exact hpattern (Text.occursIn_iff_isInfix.mpr hinfix)
        . simp only [ToolRun.outcome, Option.map_some, if_neg hsuccess]
          rfl

theorem ToolRun.outcome_eq_ok_iff {run : ToolRun}
    : run.outcome board = some (.ok output) ↔
        run.reply = some (.ok output) ∧ output.code = some 0 := by
  obtain ⟨command, reply⟩ := run
  rcases reply with _ | reason | printed
  . simp [outcome]
  . simp [outcome]
  . by_cases hcode : printed.code = some 0
    . have same : printed = output → output.code = some 0 := by
        rintro rfl
        exact hcode
      simpa [outcome, ToolOutput.success, hcode] using same
    . have other : printed = output → output.code ≠ some 0 := by
        rintro rfl
        exact hcode
      simpa [outcome, ToolOutput.success, hcode] using other

theorem ToolRun.outcome_eq_error_iff {run : ToolRun}
    : run.outcome board = some (.error e) ↔
        (∃ reason, run.reply = some (.error reason) ∧
          e = .toolInvocationFailed run.command.line board "not started" reason) ∨
        ∃ output, run.reply = some (.ok output) ∧ output.code ≠ some 0 ∧
          e = .toolInvocationFailed run.command.line board output.status output.combined := by
  obtain ⟨command, reply⟩ := run
  rcases reply with _ | reason | printed
  . simp [outcome]
  . simp [outcome, eq_comm (a := e)]
  . by_cases hcode : printed.code = some 0
    . simp [outcome, ToolOutput.success, hcode]
    . simp [outcome, ToolOutput.success, hcode, eq_comm (a := e)]

theorem passed_iff {run : ToolRun} (board : String)
    : o.Passed run ↔
        ∃ output, run.outcome board = some (.ok output) ∧ o.checkOutput board output = .ok () := by
  simp only [ProviderOptions.Passed, ToolRun.outcome_eq_ok_iff,
    ProviderOptions.checkOutput_eq_ok_iff, ToolOutput.markedLine?_eq_none_iff, and_assoc]

theorem firstFailure_iff {run : ToolRun}
    : o.FirstFailure r run looked e ↔
        run.outcome (o.effectiveBoard r.board) = some (.error e) ∨
          (∃ output, run.outcome (o.effectiveBoard r.board) = some (.ok output) ∧
            o.checkOutput (o.effectiveBoard r.board) output = .error e) ∨
          o.Passed run ∧
            (Found looked (.isPopulated (o.buildPath r.board)) false ∧
                e = .missingArtifacts (o.effectiveBoard r.board) (o.buildPath r.board) ∨
              Found looked (.isPopulated (o.buildPath r.board)) true ∧
                ∃ dir, o.binmanIndir = some dir ∧ Found looked (.isDirectory dir) false ∧
                  e = .missingArtifacts (o.effectiveBoard r.board) dir) := by
  simp only [ToolRun.outcome_eq_error_iff, ToolRun.outcome_eq_ok_iff,
    ProviderOptions.checkOutput_eq_error_iff, ToolOutput.markedLine?_eq_some_iff]
  constructor
  . rintro (hreply | ⟨hreply, hcode⟩ | ⟨hreply, hcode, hmarker, hlines, hline, hback⟩ |
      ⟨hpassed, hfound⟩ | ⟨hpassed, hfound, hdir, hlacking⟩)
    . exact .inl (.inl ⟨_, hreply, rfl⟩)
    . exact .inl (.inr ⟨_, hreply, hcode, rfl⟩)
    . exact .inr (.inl ⟨_, ⟨hreply, hcode⟩, _, ⟨hmarker, _, _, _, hlines, hline, hback, rfl⟩, rfl⟩)
    . exact .inr (.inr ⟨hpassed, .inl ⟨hfound, rfl⟩⟩)
    . exact .inr (.inr ⟨hpassed, .inr ⟨hfound, _, hdir, hlacking, rfl⟩⟩)
  . rintro ((⟨_, hreply, rfl⟩ | ⟨_, hreply, hcode, rfl⟩) |
      ⟨_, ⟨hreply, hcode⟩, _, ⟨hmarker, _, _, _, hlines, hline, hback, rfl⟩, rfl⟩ |
      ⟨hpassed, ⟨hfound, rfl⟩ | ⟨hfound, _, hdir, hlacking, rfl⟩⟩)
    . exact .unstarted hreply
    . exact .unsuccessful hreply hcode
    . exact .marked hreply hcode hmarker hlines hline hback
    . exact .unpopulated hpassed hfound
    . exact .lacking hpassed hfound hdir hlacking

theorem collect_outcome {path : String}
    : (o.collect board path : Program σ Error BuildResult).Ensures
        (fun result _ _ t => toolRuns t = [] ∧
          (∀ built, result = some (.ok built) ↔
            Found t (.isPopulated path) true ∧
              (∀ dir, o.binmanIndir = some dir → Found t (.isDirectory dir) true) ∧
              built = ⟨path, o.binmanIndir⟩) ∧
          ∀ e, result = some (.error e) ↔
            Found t (.isPopulated path) false ∧ e = .missingArtifacts board path ∨
              Found t (.isPopulated path) true ∧ ∃ dir, o.binmanIndir = some dir ∧
                Found t (.isDirectory dir) false ∧ e = .missingArtifacts board dir)
        s now [] := by
  rw [ProviderOptions.collect, ensures_bind, ensures_host]
  constructor
  . refine ⟨rfl, ?_, ?_⟩ <;> simp [Found]
  . intro stop populated _
    rw [Post.andThen_ok]
    cases populated with
    | false =>
      refine ⟨rfl, ?_, ?_⟩ <;> simp [Found, eq_comm]
    | true =>
      cases hdir : o.binmanIndir with
      | none =>
        refine ⟨rfl, ?_, ?_⟩ <;> simp [Found, eq_comm]
      | some dir =>
        rw [if_neg (by simp)]
        dsimp only
        rw [ensures_bind, ensures_host]
        constructor
        . refine ⟨rfl, ?_, ?_⟩ <;> simp [Found, eq_comm]
        . intro stop' present _
          rw [Post.andThen_ok]
          cases present with
          | false => refine ⟨rfl, ?_, ?_⟩ <;> simp [Found, eq_comm]
          | true => refine ⟨rfl, ?_, ?_⟩ <;> simp [Found, eq_comm]

theorem finish_outcome
    : (o.finish r (o.sourceOf r) : Program σ Error BuildResult).Ensures
        (fun result _ _ t => ∃ tried looked last, t = tried ++ looked ∧
          o.Attempts r (toolRuns tried) last ∧ toolRuns looked = [] ∧
          (∀ built, result = some (.ok built) ↔
            o.Passed last ∧ Found looked (.isPopulated (o.buildPath r.board)) true ∧
              (∀ dir, o.binmanIndir = some dir → Found looked (.isDirectory dir) true) ∧
              built = ⟨o.buildPath r.board, o.binmanIndir⟩) ∧
          ∀ e, result = some (.error e) ↔ o.FirstFailure r last looked e)
        s now [] := by
  rw [ProviderOptions.finish, ensures_bind]
  apply runBuild_outcome.mono
  rintro result s now t ⟨last, hattempts, houtcome⟩
  have hpassed : o.Passed last ↔ _ := passed_iff (o.effectiveBoard r.board)
  have hfailure {looked : List Event} {e : Error} : o.FirstFailure r last looked e ↔ _ :=
    firstFailure_iff
  rw [← houtcome] at hpassed hfailure
  rcases result with _ | e | output
  . refine ⟨t, [], last, by simp, hattempts, rfl, ?_, ?_⟩ <;> simp [hpassed, hfailure]
  . refine ⟨t, [], last, by simp, hattempts, rfl, ?_, ?_⟩ <;> simp [hpassed, hfailure]
  . rw [Post.andThen_ok, ensures_bind, ensures_ofExcept]
    cases hcheck : o.checkOutput (o.effectiveBoard r.board) output with
    | error e =>
      refine ⟨t, [], last, by simp, hattempts, rfl, ?_, ?_⟩ <;>
        simp [hpassed, hfailure, hcheck]
    | ok =>
      rw [Post.andThen_ok, ensures_iff_nil]
      apply collect_outcome.mono
      rintro result _ _ looked ⟨hquiet, hok, herror⟩
      refine ⟨t, looked, last, rfl, hattempts, hquiet, ?_, ?_⟩
      . intro built
        rw [hok]
        simp [hpassed, hcheck, ProviderOptions.buildPath]
      . intro e
        rw [herror]
        simp [hpassed, hfailure, hcheck, ProviderOptions.buildPath]

end

namespace ProviderOptions

variable {o : ProviderOptions} {r : BuildRequest} {lab : Lab ω} {w : ω} {now : Nat}

theorem preparing_result (hprepared : (o.preparing r lab w now).result = some (.ok source))
    : source = o.sourceOf r := by
  have path : (o.prepareSource (o.effectiveBoard r.board) r : Program Unit Error String).Ensures
      (.either (fun source _ _ _ => source = o.sourceOf r) fun _ _ _ => True) () now [] :=
    Heeded.prepareSource_path
  have run := path.run lab w
  rw [← preparing, hprepared] at run
  exact run

theorem build_eq_bind (hboard : r.board ≠ "")
    : (o.build r : Program σ Error BuildResult) =
        (o.prepareSource (o.effectiveBoard r.board) r).bind (o.finish r) := by
  rw [build, if_neg (by simpa using hboard)]
  rfl

def finishing (o : ProviderOptions) (r : BuildRequest) (lab : Lab ω) (w : ω) (now : Nat)
    : Run Unit ω Error BuildResult :=
  (o.finish r (o.sourceOf r)).run lab none () (o.preparing r lab w now).lab
    (o.preparing r lab w now).now

theorem making_eq (hboard : r.board ≠ "")
    (hprepared : (o.preparing r lab w now).result = some (.ok source))
    : o.making r lab w now =
        ⟨r, (o.finishing r lab w now).result,
          (o.preparing r lab w now).trace ++ (o.finishing r lab w now).trace⟩ := by
  have hsource := preparing_result hprepared
  rw [making, build_eq_bind hboard, run_bind, ← preparing, Run.andThen, hprepared, hsource]
  rfl

/--
Once its source is prepared, a build runs the build tool once, or a second time if the tool does not
know the primary flag. The two commands differ only in the last argument. There is a result exactly
if the last run has succeeded, its output is not marked, there is something in the build directory
then, and the directory of further firmware is there. Otherwise the error is that of the first of
these checks that fails.
-/
theorem making_outcome (hboard : r.board ≠ "")
    (hprepared : (o.preparing r lab w now).result = some (.ok source))
    : (∃ program args cwd envs, ∀ flag,
          o.buildAttempt r flag = ⟨program, args ++ [flag], cwd, envs⟩) ∧
        ∃ tried looked last,
          (o.making r lab w now).trace = (o.preparing r lab w now).trace ++ (tried ++ looked) ∧
          o.Attempts r (toolRuns tried) last ∧ toolRuns looked = [] ∧
          (∀ built, (o.making r lab w now).result = some (.ok built) ↔
            o.Passed last ∧ Found looked (.isPopulated (o.buildPath r.board)) true ∧
              (∀ dir, o.binmanIndir = some dir → Found looked (.isDirectory dir) true) ∧
              built = ⟨o.buildPath r.board, o.binmanIndir⟩) ∧
          (∀ e, (o.making r lab w now).result = some (.error e) ↔
            o.FirstFailure r last looked e) ∧
          ((o.making r lab w now).result = none → ∃ e ∈ tried ++ looked, e.reply = none) := by
  refine ⟨⟨_, _, _, _, fun flag => rfl⟩, ?_⟩
  rw [making_eq hboard hprepared]
  have finished : (o.finish r (o.sourceOf r) : Program Unit Error BuildResult).Ensures _ ()
      (o.preparing r lab w now).now [] :=
    finish_outcome.and (ensures_hung _)
  obtain ⟨⟨tried, looked, last, htrace, hattempts, hquiet, hok, herror⟩, hhung⟩ :=
    finished.run lab (o.preparing r lab w now).lab
  rw [List.nil_append] at htrace hhung
  refine ⟨tried, looked, last, ?_, hattempts, hquiet, hok, herror, ?_⟩
  . rw [← htrace]
    rfl
  . intro hnone
    obtain ⟨before, e, hsplit, he⟩ := hhung hnone
    refine ⟨e, ?_, he⟩
    rw [← htrace, hsplit]
    exact List.mem_append_right _ (List.mem_singleton_self e)

end ProviderOptions

namespace retrying

def provider : ProviderOptions := .initial []

def request : BuildRequest := ⟨"sandbox", some "v2", some (.inline "--- a\n+++ b\n"), false⟩

def old : Lab Unit where
  device _ _ c := ⟨(), some 0, .ok c.silence⟩
  host _ _ c :=
    ⟨(), some 0,
      match c with
      | .run command =>
        if command.hasArg provider.primaryFlag then
          .ok ⟨some 2, "", "no such option: --fallback-mrproper"⟩
        else .ok ⟨some 0, "done", ""⟩
      | c => c.consent⟩

def preparing : Run Unit Unit Error String := provider.preparing request old () 0

def making : Making := provider.making request old () 0

def first : ToolRun :=
  ⟨provider.buildAttempt request provider.primaryFlag,
    some (.ok ⟨some 2, "", "no such option: --fallback-mrproper"⟩)⟩

def second : ToolRun :=
  ⟨provider.buildAttempt request provider.fallbackFlag, some (.ok ⟨some 0, "done", ""⟩)⟩

end retrying

theorem retrying_passes
    : toolRuns retrying.making.trace =
          toolRuns retrying.preparing.trace ++ [retrying.first, retrying.second] ∧
        retrying.provider.Attempts retrying.request [retrying.first, retrying.second]
          retrying.second ∧
        retrying.provider.Passed retrying.second ∧
        retrying.making.result =
          some (.ok ⟨retrying.provider.buildPath "sandbox", none⟩) := by
  have runs : toolRuns retrying.making.trace =
      toolRuns retrying.preparing.trace ++ [retrying.first, retrying.second] := by
    rfl
  have result : retrying.making.result =
      some (.ok ⟨retrying.provider.buildPath "sandbox", none⟩) := by
    rfl
  have prepared : retrying.preparing.result =
      some (.ok (retrying.provider.worktreePath "sandbox")) := by
    rfl
  obtain ⟨_, tried, looked, last, htrace, hattempts, hquiet, hok, _⟩ :=
    ProviderOptions.making_outcome (r := retrying.request) (by decide) prepared
  -- What the preparation has run is cancelled, which leaves the two runs of the build tool.
  have tries : toolRuns tried = [retrying.first, retrying.second] := by
    have same := congrArg toolRuns htrace
    rw [toolRuns_append, toolRuns_append, hquiet, List.append_nil] at same
    exact List.append_cancel_left (same.symm.trans runs)
  rw [tries] at hattempts
  cases hattempts with
  | twice hfirst hunknown hsecond =>
    exact ⟨runs, .twice hfirst hunknown hsecond, ((hok _).mp result).left, result⟩

end BringUp
