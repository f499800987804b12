import BringUp.Build.Provider
import BringUp.Proofs.Text.Lines

/-!
This module contains the search for the marker that a build tool prints if the image does not work.
The main statement is that going through the lines of the output finds it exactly if it is in what
was printed to one of the two streams.
-/

namespace BringUp

open Text

namespace ToolOutput

def gap (o : ToolOutput) : List Char :=
  if o.stderr = "" ∨ o.stdout = "" ∨ o.stdout.toList.getLast? = some '\n' then [] else ['\n']

theorem toList_combined (o : ToolOutput)
    : o.combined.toList = o.stdout.toList ++ o.gap ++ o.stderr.toList := by
  unfold combined gap
  by_cases herr : o.stderr = ""
  . simp [herr]
  . by_cases hout : o.stdout = ""
    . simp [herr, hout]
    . by_cases hlast : o.stdout.toList.getLast? = some '\n' <;> simp [herr, hout, hlast]

theorem isInfix_combined {o : ToolOutput} {pattern : List Char} (hfeed : '\n' ∉ pattern)
    (hne : pattern ≠ [])
    : pattern <:+: o.combined.toList ↔
        pattern <:+: o.stdout.toList ∨ pattern <:+: o.stderr.toList := by
  rw [toList_combined, gap]
  split
  . next hgap =>
    rw [List.append_nil]
    rcases hgap with herr | hout | hlast
    . simp [herr, hne]
    . simp [hout, hne]
    . obtain ⟨front, hfront⟩ := List.getLast?_eq_some_iff.mp hlast
      rw [hfront, List.append_assoc, List.singleton_append, isInfix_append_cons hfeed,
        isInfix_append_cons hfeed]
      simp [hne]
  . rw [List.append_assoc, List.singleton_append, isInfix_append_cons hfeed]

theorem markedLine?_eq_some_iff {o : ToolOutput}
    : o.markedLine? marker = some text ↔
        marker ≠ "" ∧ ∃ front line back, lines o.combined.toList = front ++ line :: back ∧
          marker.toList <:+: line ∧ (∀ other ∈ back, ¬marker.toList <:+: other) ∧
          text = String.ofList line := by
  unfold markedLine?
  by_cases hmarker : marker = ""
  . simp [hmarker]
  . rw [if_neg (by simpa using hmarker), List.getLast?_filter, Option.map_eq_some_iff]
    simp only [List.find?_eq_some_iff_append, occursIn_iff_isInfix]
    constructor
    . rintro ⟨line, ⟨hline, back, front, hsplit, hback⟩, rfl⟩
      refine ⟨hmarker, front.reverse, line, back.reverse, ?_, hline, ?_, rfl⟩
      . simpa using congrArg List.reverse hsplit
      . simpa [← occursIn_iff_isInfix] using hback
    . rintro ⟨_, front, line, back, hsplit, hline, hback, rfl⟩
      refine ⟨line, ⟨hline, back.reverse, front.reverse, by simp [hsplit], ?_⟩, rfl⟩
      simpa [← occursIn_iff_isInfix] using hback

theorem markedLine?_eq_none_iff {o : ToolOutput}
    : o.markedLine? marker = none ↔
        marker = "" ∨ ∀ line ∈ lines o.combined.toList, ¬marker.toList <:+: line := by
  unfold markedLine?
  by_cases hmarker : marker = ""
  . simp [hmarker]
  . rw [if_neg (by simpa using hmarker)]
    simp [hmarker, ← occursIn_iff_isInfix]

end ToolOutput

namespace ProviderOptions

variable {o : ProviderOptions} {board : String} {output : ToolOutput}

theorem checkOutput_eq_ok_iff
    : o.checkOutput board output = .ok () ↔ output.markedLine? o.nonFunctionalMarker = none := by
  unfold checkOutput
  split
  . next line hline => simp [hline]
  . next hnone => simp [hnone]

theorem checkOutput_eq_error_iff
    : o.checkOutput board output = .error e ↔
        ∃ line, output.markedLine? o.nonFunctionalMarker = some line ∧
          e = .nonFunctionalArtifact board line := by
  unfold checkOutput
  split
  . next line hline => simp [hline, eq_comm]
  . next hnone => simp [hnone]

/--
An output is refused exactly if the marker is somewhere in what was printed to one of the streams.
It is neither missed because of the line breaks nor found across the two streams. What is reported
is the last line with the marker, without what ends it. No output is refused for an empty marker.
-/
theorem checkOutput_finds (o : ProviderOptions) (board : String) (output : ToolOutput)
    (hfeed : '\n' ∉ o.nonFunctionalMarker.toList) (hreturn : '\r' ∉ o.nonFunctionalMarker.toList)
    : (o.nonFunctionalMarker = "" → o.checkOutput board output = .ok ()) ∧
        (o.nonFunctionalMarker ≠ "" →
          ((∃ e, o.checkOutput board output = .error e) ↔
            o.nonFunctionalMarker.toList <:+: output.stdout.toList ∨
              o.nonFunctionalMarker.toList <:+: output.stderr.toList)) ∧
        ∀ e, o.checkOutput board output = .error e →
          ∃ line, e = .nonFunctionalArtifact board (String.ofList line) ∧
            LastWith o.nonFunctionalMarker.toList
              (output.stdout.toList ++ output.gap ++ output.stderr.toList) line := by
  refine ⟨?_, ?_, ?_⟩
  . intro hempty
    rw [checkOutput_eq_ok_iff, ToolOutput.markedLine?_eq_none_iff]
    exact .inl hempty
  . intro hmarker
    have hne : o.nonFunctionalMarker.toList ≠ [] := by simpa using hmarker
    rw [← ToolOutput.isInfix_combined hfeed hne, isInfix_iff_lines hfeed hreturn hne]
    cases hcheck : o.checkOutput board output with
    | ok =>
      rw [checkOutput_eq_ok_iff, ToolOutput.markedLine?_eq_none_iff] at hcheck
      simpa [hmarker] using hcheck
    | error e =>
      obtain ⟨text, htext, _⟩ := checkOutput_eq_error_iff.mp hcheck
      obtain ⟨_, front, line, back, hsplit, hline, _⟩ := ToolOutput.markedLine?_eq_some_iff.mp htext
      simp only [Except.error.injEq, exists_eq', true_iff, hsplit]
      exact ⟨line, by simp, hline⟩
  . intro e he
    obtain ⟨text, htext, rfl⟩ := checkOutput_eq_error_iff.mp he
    obtain ⟨hmarker, front, line, back, hsplit, hline, hback, rfl⟩ :=
      ToolOutput.markedLine?_eq_some_iff.mp htext
    refine ⟨line, rfl, ?_⟩
    rw [← ToolOutput.toList_combined]
    exact lastWith_of_lines hfeed hreturn (by simpa using hmarker) hsplit hline hback

end ProviderOptions

namespace scanning

def provider : ProviderOptions := .initial []

def output : ToolOutput where
  code := some 0
  stdout := "Building\nimage is non-functional\nchecking what is non-"
  stderr := "functional\nImage is non-functional: bl31\r\ndone"

end scanning

theorem scanning_reports_last
    : scanning.provider.checkOutput "sandbox" scanning.output =
          .error (.nonFunctionalArtifact "sandbox" "Image is non-functional: bl31") ∧
        LastWith scanning.provider.nonFunctionalMarker.toList
          (scanning.output.stdout.toList ++ '\n' :: scanning.output.stderr.toList)
          "Image is non-functional: bl31".toList := by
  have refused : scanning.provider.checkOutput "sandbox" scanning.output =
      .error (.nonFunctionalArtifact "sandbox" "Image is non-functional: bl31") := by
    rfl
  have finds := scanning.provider.checkOutput_finds "sandbox" scanning.output (by decide)
    (by decide)
  obtain ⟨line, hline, hlast⟩ := finds.right.right _ refused
  have htext := (Error.nonFunctionalArtifact.inj hline).right
  refine ⟨refused, ?_⟩
  rw [htext, String.toList_ofList]
  exact hlast

end BringUp
