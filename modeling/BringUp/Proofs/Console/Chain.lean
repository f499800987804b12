import BringUp.Proofs.Console.Escape
import Mathlib.Algebra.Ring.Parity

/-!
This module contains how escape bytes that are typed in quick succession are counted. The main
statement is that a detector fires at every second byte of such a chain, and is armed in between.
-/

namespace BringUp.EscapeDetector

/--
Which byte of a chain of escape bytes an input byte is, counted from one. A chain goes on as long as
no more than the window passes from one byte to the next. Other bytes are in no chain.
-/
def link (escapeByte : UInt8) (window : Nat) (input : List (UInt8 × Nat)) : Nat → Nat
  | 0 =>
    match input[0]? with
    | some (byte, _) => if byte = escapeByte then 1 else 0
    | none => 0
  | i + 1 =>
    match input[i]?, input[i + 1]? with
    | some (before, earlier), some (byte, now) =>
      if byte ≠ escapeByte then 0
      else if before = escapeByte ∧ now - earlier ≤ window then link escapeByte window input i + 1
      else 1
    | _, _ => 0

def firstPair? (escapeByte : UInt8) (bytes : List UInt8) : Option Nat :=
  ((bytes.zip bytes.tail).findIdx? (· = (escapeByte, escapeByte))).map (· + 1)

def atLink (escapeByte : UInt8) (window n now : Nat) : EscapeDetector :=
  ⟨escapeByte, window, if Odd n then some now else none⟩

section

variable {escapeByte byte : UInt8} {window now i : Nat} {d : EscapeDetector}
variable {input : List (UInt8 × Nat)} {bytes : List UInt8}

theorem feed_other (hbyte : byte ≠ d.escapeByte)
    : d.feed byte now = (false, { d with firstSeen := none }) :=
  if_pos hbyte

theorem feed_armed (hfirst : d.firstSeen = some first) (hbyte : byte = d.escapeByte)
    (hwindow : now - first ≤ d.window)
    : d.feed byte now = (true, { d with firstSeen := none }) := by
  simpa [feed, hbyte, expire, isArmed, hfirst] using hwindow

theorem feed_late (hfirst : d.firstSeen = some first) (hbyte : byte = d.escapeByte)
    (hwindow : ¬now - first ≤ d.window)
    : d.feed byte now = (false, { d with firstSeen := some now }) := by
  simpa [feed, hbyte, expire, isArmed, hfirst] using hwindow

theorem feed_unarmed (hfirst : d.firstSeen = none) (hbyte : byte = d.escapeByte)
    : d.feed byte now = (false, { d with firstSeen := some now }) := by
  simp [feed, hbyte, expire, isArmed, hfirst]

theorem getElem?_feedAll
    : (d.feedAll input)[i]? =
        input[i]?.map fun (byte, now) =>
          (((d.feeds (input.take i)).feed byte now).1,
            ((d.feeds (input.take i)).feed byte now).2.isArmed) := by
  induction input generalizing d i with
  | nil => rfl
  | cons first rest ih =>
    cases i with
    | zero => rfl
    | succ i => exact ih

theorem feeds_take_succ (hi : input[i]? = some (byte, now))
    : d.feeds (input.take (i + 1)) = ((d.feeds (input.take i)).feed byte now).2 := by
  rw [List.take_add_one, hi, feeds_append]
  rfl

theorem byte_of_link_ne_zero (hi : input[i]? = some (byte, now))
    (hlink : link escapeByte window input i ≠ 0) : byte = escapeByte := by
  cases i with
  | zero =>
    rw [link, hi] at hlink
    by_contra hbyte
    exact hlink (if_neg hbyte)
  | succ i =>
    unfold link at hlink
    split at hlink
    . next hbefore hsucc =>
      obtain ⟨rfl, rfl⟩ := Prod.mk.inj (Option.some.inj (hsucc.symm.trans hi))
      by_contra hbyte
      exact hlink (if_pos hbyte)
    . exact absurd rfl hlink

theorem feed_atLink (hbefore : input[i]? = some (before, earlier))
    (hi : input[i + 1]? = some (byte, now))
    : (atLink escapeByte window (link escapeByte window input i) earlier).feed byte now =
        (decide (Even (link escapeByte window input (i + 1)) ∧
            0 < link escapeByte window input (i + 1)),
          atLink escapeByte window (link escapeByte window input (i + 1)) now) := by
  have next : link escapeByte window input (i + 1) =
      if byte ≠ escapeByte then 0
      else if before = escapeByte ∧ now - earlier ≤ window then
        link escapeByte window input i + 1
      else 1 := by
    rw [link, hbefore, hi]
  generalize hn : link escapeByte window input i = n at next ⊢
  by_cases hbyte : byte = escapeByte
  . rw [if_neg (not_not.mpr hbyte)] at next
    by_cases hodd : Odd n
    -- Only an escape byte can have armed the detector, so that its time is the one to compare with.
    . have hne : link escapeByte window input i ≠ 0 := by
        rw [hn]
        exact fun hzero => Nat.not_odd_zero (hzero ▸ hodd)
      have hescape := byte_of_link_ne_zero hbefore hne
      by_cases hwindow : now - earlier ≤ window
      . rw [if_pos ⟨hescape, hwindow⟩] at next
        rw [feed_armed (if_pos hodd) hbyte hwindow, next]
        simp [atLink, hodd.add_one]
      . rw [if_neg (fun h => hwindow h.right)] at next
        rw [feed_late (if_pos hodd) hbyte hwindow, next]
        simp [atLink]
    . rw [feed_unarmed (if_neg hodd) hbyte]
      have heven := Nat.not_odd_iff_even.mp hodd
      split at next
      . simp [atLink, next, heven.add_one]
      . simp [atLink, next]
  . rw [if_pos hbyte] at next
    rw [feed_other hbyte, next]
    simp [atLink]

theorem feed_fresh (hi : input[0]? = some (byte, now))
    : (fresh escapeByte window).feed byte now =
        (decide (Even (link escapeByte window input 0) ∧ 0 < link escapeByte window input 0),
          atLink escapeByte window (link escapeByte window input 0) now) := by
  have first : link escapeByte window input 0 = if byte = escapeByte then 1 else 0 := by
    rw [link, hi]
  rw [first]
  split
  . next hbyte =>
    rw [feed_unarmed rfl hbyte]
    simp [atLink, fresh]
  . next hbyte =>
    rw [feed_other hbyte]
    simp [atLink, fresh]

theorem feed_take (hi : input[i]? = some (byte, now))
    : ((fresh escapeByte window).feeds (input.take i)).feed byte now =
        (decide (Even (link escapeByte window input i) ∧ 0 < link escapeByte window input i),
          atLink escapeByte window (link escapeByte window input i) now) := by
  induction i generalizing byte now with
  | zero => exact feed_fresh hi
  | succ i ih =>
    obtain ⟨⟨before, earlier⟩, hbefore⟩ : ∃ entry, input[i]? = some entry := by
      obtain ⟨hlt, _⟩ := List.getElem?_eq_some_iff.mp hi
      exact ⟨_, List.getElem?_eq_getElem (by omega)⟩
    rw [feeds_take_succ hbefore, ih hbefore, feed_atLink hbefore hi]

theorem isArmed_atLink : (atLink escapeByte window i now).isArmed = decide (Odd i) := by
  by_cases hodd : Odd i <;> simp [atLink, isArmed, hodd]

theorem firstPair?_cons
    : firstPair? escapeByte (byte :: bytes) =
        (((byte :: bytes).zip bytes).findIdx? (· = (escapeByte, escapeByte))).map (· + 1) :=
  rfl

theorem zip_cons_of_ne (hbyte : byte ≠ escapeByte)
    : ((byte :: bytes).zip bytes).findIdx? (· = (escapeByte, escapeByte)) =
        firstPair? escapeByte bytes := by
  cases bytes with
  | nil => rfl
  | cons next rest => simp [firstPair?, List.findIdx?_cons, hbyte]

theorem completedAt?_still (escapeByte : UInt8) (window now : Nat) (bytes : List UInt8)
    : (⟨escapeByte, window, none⟩ : EscapeDetector).completedAt? (bytes.map (·, now)) =
          firstPair? escapeByte bytes ∧
        (⟨escapeByte, window, some now⟩ : EscapeDetector).completedAt? (bytes.map (·, now)) =
          ((escapeByte :: bytes).zip bytes).findIdx? (· = (escapeByte, escapeByte)) := by
  induction bytes with
  | nil => exact ⟨rfl, rfl⟩
  | cons byte rest ih =>
    obtain ⟨unarmed, armed⟩ := ih
    rw [List.map_cons, completedAt?_cons, completedAt?_cons]
    by_cases hbyte : byte = escapeByte
    . rw [feed_unarmed rfl hbyte, feed_armed rfl hbyte (by simp)]
      refine ⟨?_, ?_⟩
      . rw [if_neg Bool.false_ne_true, armed, firstPair?_cons, hbyte]
      . simp [List.findIdx?_cons, hbyte]
    . rw [feed_other hbyte, feed_other hbyte]
      refine ⟨?_, ?_⟩
      . rw [if_neg Bool.false_ne_true, unarmed, firstPair?_cons, zip_cons_of_ne hbyte]
      . rw [if_neg Bool.false_ne_true, unarmed, List.zip_cons_cons, List.findIdx?_cons,
          zip_cons_of_ne hbyte, if_neg (by simpa using hbyte)]

/--
A detector fires at every second byte of a chain of escape bytes, also after it has fired before,
and is armed after all others of them. If no time passes, it fires for the first time where two
escape bytes are next to each other for the first time.
-/
theorem feedAll_chain (escapeByte : UInt8) (window : Nat)
    : (∀ input,
          (fresh escapeByte window).feedAll input =
            (List.range input.length).map fun i =>
              (decide (Even (link escapeByte window input i) ∧ 0 < link escapeByte window input i),
                decide (Odd (link escapeByte window input i)))) ∧
        ∀ bytes now,
          (fresh escapeByte window).completedAt? (bytes.map (·, now)) =
            firstPair? escapeByte bytes := by
  refine ⟨?_, fun bytes now => (completedAt?_still escapeByte window now bytes).left⟩
  intro input
  apply List.ext_getElem?
  intro i
  rw [getElem?_feedAll, List.getElem?_map]
  cases hi : input[i]? with
  | none => simp [List.getElem?_eq_none_iff.mp hi]
  | some entry =>
    obtain ⟨byte, now⟩ := entry
    obtain ⟨hlt, _⟩ := List.getElem?_eq_some_iff.mp hi
    rw [List.getElem?_range hlt]
    simp only [Option.map_some, feed_take hi, isArmed_atLink]

end

end BringUp.EscapeDetector
