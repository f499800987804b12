import BringUp.Console.Escape

/-!
This module contains what a detector makes of a stretch of input. The main statement is that input
completes the sequence at the same byte whether it is taken as a whole or in parts.
-/

namespace BringUp.EscapeDetector

def feeds (d : EscapeDetector) : List (UInt8 × Nat) → EscapeDetector
  | [] => d
  | (byte, now) :: rest => (d.feed byte now).2.feeds rest

def completedAt? (d : EscapeDetector) (input : List (UInt8 × Nat)) : Option Nat :=
  (d.feedAll input).findIdx? fun (fired, _) => fired

def accepted (d : EscapeDetector) (input : List (UInt8 × Nat)) : List UInt8 :=
  (input.take ((d.completedAt? input).getD input.length)).map Prod.fst

variable {d : EscapeDetector} {byte : UInt8} {now : Nat} {input : List (UInt8 × Nat)}
variable {rest : List (UInt8 × Nat)}

@[simp]
theorem feed_escapeByte : (d.feed byte now).2.escapeByte = d.escapeByte := by
  unfold feed
  split
  . rfl
  . split <;> rfl

@[simp]
theorem completedAt?_nil : d.completedAt? [] = none :=
  rfl

theorem completedAt?_cons
    : d.completedAt? ((byte, now) :: rest) =
        if (d.feed byte now).1 then some 0
        else ((d.feed byte now).2.completedAt? rest).map (· + 1) := by
  simp only [completedAt?, feedAll, List.findIdx?_cons]

@[simp]
theorem accepted_nil : d.accepted [] = [] :=
  rfl

theorem accepted_cons
    : d.accepted ((byte, now) :: rest) =
        if (d.feed byte now).1 then [] else byte :: (d.feed byte now).2.accepted rest := by
  simp only [accepted, completedAt?_cons]
  split
  . rfl
  . cases (d.feed byte now).2.completedAt? rest <;> simp

theorem accepted_of_completedAt?_eq_none (hd : d.completedAt? input = none)
    : d.accepted input = input.map Prod.fst := by
  simp [accepted, hd]

theorem accepted_of_completedAt?_eq_some (hd : d.completedAt? input = some n)
    : d.accepted input = (input.take n).map Prod.fst := by
  simp [accepted, hd]

theorem completedAt?_append (hd : d.completedAt? input = none) (rest : List (UInt8 × Nat))
    : d.completedAt? (input ++ rest) =
        ((d.feeds input).completedAt? rest).map (· + input.length) := by
  induction input generalizing d with
  | nil => simp [feeds]
  | cons first input ih =>
    obtain ⟨byte, now⟩ := first
    rw [completedAt?_cons] at hd
    rw [List.cons_append, completedAt?_cons]
    split at hd
    . cases hd
    . next hquiet =>
      rw [if_neg hquiet, ih (by simpa using hd), feeds, Option.map_map, List.length_cons]
      congr 1

theorem accepted_append (hd : d.completedAt? input = none) (rest : List (UInt8 × Nat))
    : d.accepted (input ++ rest) = input.map Prod.fst ++ (d.feeds input).accepted rest := by
  induction input generalizing d with
  | nil => rfl
  | cons first input ih =>
    obtain ⟨byte, now⟩ := first
    rw [completedAt?_cons] at hd
    rw [List.cons_append, accepted_cons]
    split at hd
    . cases hd
    . next hquiet =>
      rw [if_neg hquiet, ih (by simpa using hd)]
      rfl

theorem feeds_append : d.feeds (input ++ rest) = (d.feeds input).feeds rest := by
  induction input generalizing d with
  | nil => rfl
  | cons first input ih => exact ih

theorem byte_of_completedAt? (hd : d.completedAt? input = some n)
    : ∃ now, input[n]? = some (d.escapeByte, now) := by
  induction input generalizing d n with
  | nil => cases hd
  | cons first input ih =>
    obtain ⟨byte, now⟩ := first
    rw [completedAt?_cons] at hd
    split at hd
    . next hfired =>
      obtain rfl : 0 = n := Option.some.inj hd
      refine ⟨now, ?_⟩
      unfold feed at hfired
      split at hfired
      . cases hfired
      . simp_all
    . obtain ⟨n, hrest, rfl⟩ := Option.map_eq_some_iff.mp hd
      obtain ⟨time, htime⟩ := ih hrest
      refine ⟨time, ?_⟩
      rw [List.getElem?_cons_succ, htime, feed_escapeByte]

end BringUp.EscapeDetector
