import BringUp.Text.Search

/-!
This module contains the theory of lines. The main statements are that a text without line breaks
occurs in another one exactly if it occurs in one of its lines, and that the last of the lines it
occurs in is followed by none of it.
-/

namespace BringUp.Text

def chomp (line : List Char) : List Char :=
  (dropReturn line.reverse).reverse

/--
Whether `line` is a line of a text, with `before` in front of it and `after` behind what ends it:
a line feed, a carriage return and a line feed, or the end of the text.
-/
def LineAt (text before line after : List Char) : Prop :=
  (before = [] ∨ before.getLast? = some '\n') ∧ '\n' ∉ line ∧
    (text = before ++ line ++ '\r' :: '\n' :: after ∨
      line.getLast? ≠ some '\r' ∧ text = before ++ line ++ '\n' :: after ∨
      after = [] ∧ text = before ++ line)

def LastWith (pattern text line : List Char) : Prop :=
  ∃ before after, LineAt text before line after ∧ pattern <:+: line ∧ ¬pattern <:+: after

section

variable {pattern text front back line first rest before after : List Char}
variable {earlier later : List (List Char)}

@[elab_as_elim]
theorem lineInduction {motive : List Char → Prop} (text : List Char)
    (last : ∀ line, '\n' ∉ line → motive line)
    (feed : ∀ first rest, '\n' ∉ first → motive rest → motive (first ++ '\n' :: rest))
    : motive text := by
  by_cases hfeed : '\n' ∈ text
  . obtain ⟨first, rest, htext, hfirst⟩ := List.eq_append_cons_of_mem hfeed
    rw [htext]
    exact feed first rest hfirst (lineInduction rest last feed)
  . exact last text hfeed
termination_by text.length
decreasing_by
  rw [htext, List.length_append, List.length_cons]
  omega

theorem lines.go_append (hline : '\n' ∉ line)
    : lines.go current (line ++ rest) = lines.go (line.reverse ++ current) rest := by
  induction line generalizing current with
  | nil => rfl
  | cons c line ih =>
    rw [List.mem_cons, not_or] at hline
    rw [List.cons_append, go, if_neg (Ne.symm hline.left), ih hline.right]
    simp

theorem lines_last (hline : '\n' ∉ line) : lines line = if line = [] then [] else [line] := by
  have walked : lines.go [] (line ++ []) = _ := lines.go_append hline
  rw [List.append_nil, List.append_nil] at walked
  rw [lines, walked, lines.go]
  cases line <;> simp

theorem lines_feed (hfirst : '\n' ∉ first)
    : lines (first ++ '\n' :: rest) = chomp first :: lines rest := by
  rw [lines, lines.go_append hfirst, lines.go, if_pos rfl, List.append_nil]
  rfl

theorem chomp_cases (line : List Char)
    : (∃ front, line = front ++ ['\r'] ∧ chomp line = front) ∨
        line.getLast? ≠ some '\r' ∧ chomp line = line := by
  rcases List.eq_nil_or_concat line with rfl | ⟨front, c, rfl⟩
  . exact .inr ⟨by simp, rfl⟩
  . by_cases hc : c = '\r'
    . left
      exact ⟨front, by simp [hc], by simp [chomp, dropReturn, hc]⟩
    . right
      simp [chomp, dropReturn, hc]

theorem isInfix_append_cons (hsep : sep ∉ pattern)
    : pattern <:+: front ++ sep :: back ↔ pattern <:+: front ∨ pattern <:+: back := by
  rw [List.infix_append_iff, List.infix_cons_iff]
  constructor
  -- What lies across begins the second part with the separator, unless it ends before.
  . rintro (hfront | (hcons | hback) | ⟨left, right, rfl, hleft, hright⟩)
    . exact .inl hfront
    . rcases List.prefix_cons_iff.mp hcons with rfl | ⟨_, rfl, _⟩
      . exact .inl (List.nil_infix ..)
      . simp at hsep
    . exact .inr hback
    . rcases List.prefix_cons_iff.mp hright with rfl | ⟨_, rfl, _⟩
      . rw [List.append_nil]
        exact .inl hleft.isInfix
      . simp at hsep
  . rintro (hfront | hback)
    . exact .inl hfront
    . exact .inr (.inl (.inr hback))

theorem isInfix_chomp (hreturn : '\r' ∉ pattern) (hne : pattern ≠ [])
    : pattern <:+: chomp line ↔ pattern <:+: line := by
  rcases chomp_cases line with ⟨front, rfl, hchomp⟩ | ⟨_, hchomp⟩
  . rw [hchomp, isInfix_append_cons hreturn]
    simp [hne]
  . rw [hchomp]

theorem isInfix_iff_lines (hfeed : '\n' ∉ pattern) (hreturn : '\r' ∉ pattern) (hne : pattern ≠ [])
    : pattern <:+: text ↔ ∃ line ∈ lines text, pattern <:+: line := by
  induction text using lineInduction with
  | last line hline =>
    rw [lines_last hline]
    by_cases hnil : line = [] <;> simp [hnil, hne]
  | feed first rest hfirst ih =>
    rw [lines_feed hfirst, isInfix_append_cons hfeed, ih]
    simp [isInfix_chomp hreturn hne]

theorem lineAt_first (hfirst : '\n' ∉ first)
    : LineAt (first ++ '\n' :: rest) [] (chomp first) rest := by
  rcases chomp_cases first with ⟨front, rfl, hchomp⟩ | ⟨hlast, hchomp⟩
  . rw [hchomp]
    refine ⟨.inl rfl, ?_, .inl (by simp)⟩
    intro hmem
    exact hfirst (List.mem_append_left _ hmem)
  . rw [hchomp]
    exact ⟨.inl rfl, hfirst, .inr (.inl ⟨hlast, rfl⟩)⟩

theorem LineAt.feed (hl : LineAt rest before line after)
    : LineAt (first ++ '\n' :: rest) (first ++ '\n' :: before) line after := by
  obtain ⟨hbefore, hline, htext⟩ := hl
  refine ⟨.inr ?_, hline, by simpa using htext⟩
  rcases hbefore with rfl | hbefore
  . simp
  . simp [List.getLast?_cons, hbefore]

theorem lineAt_of_lines (hlines : lines text = earlier ++ line :: later)
    : ∃ before after, LineAt text before line after ∧ lines after = later := by
  induction text using lineInduction generalizing earlier with
  | last text htext =>
    rw [lines_last htext] at hlines
    split at hlines
    . simp at hlines
    . obtain ⟨rfl, rfl, rfl⟩ : earlier = [] ∧ line = text ∧ later = [] := by
        rcases List.cons_eq_append_iff.mp hlines with ⟨rfl, hcons⟩ | ⟨_, _, hnil⟩
        . simpa using hcons
        . simp at hnil
      exact ⟨[], [], ⟨.inl rfl, htext, .inr (.inr ⟨rfl, rfl⟩)⟩, rfl⟩
  | feed first rest hfirst ih =>
    rw [lines_feed hfirst] at hlines
    rcases List.cons_eq_append_iff.mp hlines with ⟨rfl, hcons⟩ | ⟨earlier, rfl, hrest⟩
    . obtain ⟨rfl, rfl⟩ := List.cons.inj hcons
      exact ⟨[], rest, lineAt_first hfirst, rfl⟩
    . obtain ⟨before, after, hat, hafter⟩ := ih hrest
      exact ⟨first ++ '\n' :: before, after, hat.feed, hafter⟩

theorem lastWith_of_lines (hfeed : '\n' ∉ pattern) (hreturn : '\r' ∉ pattern) (hne : pattern ≠ [])
    (hlines : lines text = earlier ++ line :: later) (hline : pattern <:+: line)
    (hlater : ∀ other ∈ later, ¬pattern <:+: other)
    : LastWith pattern text line := by
  obtain ⟨before, after, hat, rfl⟩ := lineAt_of_lines hlines
  refine ⟨before, after, hat, hline, ?_⟩
  rw [isInfix_iff_lines hfeed hreturn hne]
  rintro ⟨other, hmem, hother⟩
  exact hlater other hmem hother

end

end BringUp.Text
