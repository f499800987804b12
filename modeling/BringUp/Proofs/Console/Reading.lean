import BringUp.Proofs.Console.Lease

/-!
This module contains what the readers make of the local input. The main statement is that the bytes
of the chunks that were read, followed by those that are not read yet, are all that was typed.
-/

namespace BringUp

namespace Delivery

def content : Delivery → List UInt8
  | bytes bs => bs
  | interrupted | failed | closed => []

def yields (d : Delivery) : Bool := !d.content.isEmpty

def next? (deliveries : List Delivery) : Option Delivery :=
  deliveries.find? (· ≠ interrupted)

variable {size : Nat} {deliveries rest : List Delivery} {d : Delivery}

theorem next?_interrupted : next? (interrupted :: rest) = next? rest :=
  rfl

theorem next?_append (hd : next? deliveries = some d) : next? (deliveries ++ rest) = some d := by
  rw [next?, List.find?_append, ← next?, hd]
  rfl

theorem content_of_next?_eq_none (hnext : next? deliveries = none)
    : deliveries.flatMap content = [] := by
  rw [next?, List.find?_eq_none] at hnext
  refine List.flatMap_eq_nil_iff.mpr fun d hd => ?_
  have hinterrupted : d = interrupted := by simpa using hnext d hd
  rw [hinterrupted, content]

theorem read_interrupted (hsize : size ≠ 0)
    : read size (interrupted :: rest) = some (.again, rest) :=
  if_neg hsize

theorem read_bytes (b : UInt8) (bs : List UInt8) (rest : List Delivery) (hsize : size ≠ 0)
    : ∃ more, read size (bytes (b :: bs) :: rest) = some (.chunk ((b :: bs).take size), more) :=
  ⟨_, if_neg hsize⟩

theorem read_cases (hread : read size deliveries = some (r, rest))
    : r = .again ∧ deliveries = interrupted :: rest ∨
        r = .stop ∧ deliveries.flatMap content = rest.flatMap content ∨
        ∃ bs, r = .chunk bs ∧ bs ≠ [] ∧ 0 < size ∧ bs.length ≤ size ∧
          (next? deliveries).any yields = true ∧
          deliveries.flatMap content = bs ++ rest.flatMap content := by
  unfold read at hread
  split at hread
  . cases hread
    exact .inr (.inl ⟨rfl, rfl⟩)
  . next hsize =>
    split at hread
    . cases hread
    . cases hread
      exact .inl ⟨rfl, rfl⟩
    . cases hread
      exact .inr (.inl ⟨rfl, rfl⟩)
    . cases hread
      exact .inr (.inl ⟨rfl, rfl⟩)
    . cases hread
      exact .inr (.inl ⟨rfl, rfl⟩)
    . next b bs rest' =>
      obtain ⟨rfl, rfl⟩ := Prod.mk.inj (Option.some.inj hread)
      refine .inr (.inr ⟨_, rfl, ?_, by omega, List.length_take_le .., rfl, ?_⟩)
      . simp [hsize]
      -- What the buffer has no room for stays in front, unless it is nothing.
      . have more : (if ((b :: bs).drop size).isEmpty then rest'
          else bytes ((b :: bs).drop size) :: rest').flatMap content =
            (b :: bs).drop size ++ rest'.flatMap content := by
          split
          . next hempty => simp [List.isEmpty_iff.mp hempty]
          . rfl
        rw [more, ← List.append_assoc, List.take_append_drop]
        rfl

end Delivery

namespace Stdin

def unread (s : Stdin) : List UInt8 := s.typed.flatMap Delivery.content

def Action.typed : Action → List UInt8
  | type d => d.content
  | _ => []

def typedBytes (moves : List Move) : List UInt8 :=
  moves.flatMap fun m => m.action.typed

variable {s s' : Stdin} {a : Action} {moves more : List Move} {channel : Nat}

@[simp]
theorem typedBytes_append : typedBytes (moves ++ more) = typedBytes moves ++ typedBytes more :=
  List.flatMap_append ..

theorem typedBytes_concat (m : Move)
    : typedBytes (moves ++ [m]) = typedBytes moves ++ m.action.typed := by
  simp [typedBytes]

theorem readStep_unread (hstep : s.readStep? channel = some s')
    : s.unread = ((s.readChunk? (.read channel)).toList).flatten ++ s'.unread := by
  unfold readStep? at hstep
  unfold readChunk?
  dsimp only
  split at hstep
  . cases hstep
  . next typed hread =>
    obtain ⟨c, _, _, _, hread'⟩ := read_eq_some hread
    obtain ⟨_, htyped⟩ | ⟨hr, _⟩ | ⟨bs, hr, _⟩ := Delivery.read_cases hread'
    . cases hstep
      simp [hread, unread, htyped, Delivery.content]
    . cases hr
    . cases hr
  . next typed hread =>
    obtain ⟨c, _, _, _, hread'⟩ := read_eq_some hread
    obtain ⟨hr, _⟩ | ⟨_, htyped⟩ | ⟨bs, hr, _⟩ := Delivery.read_cases hread'
    . cases hr
    . cases hstep
      simpa [hread, unread, update] using htyped
    . cases hr
  . next bs typed hread =>
    obtain ⟨c, _, _, _, hread'⟩ := read_eq_some hread
    obtain ⟨hr, _⟩ | ⟨hr, _⟩ | ⟨bs', hr, _, _, _, _, htyped⟩ := Delivery.read_cases hread'
    . cases hr
    . cases hr
    . cases hr
      cases hstep
      simpa [hread, unread, update] using htyped

theorem sendStep_typed (hstep : s.sendStep? channel = some s') : s'.typed = s.typed := by
  unfold sendStep? at hstep
  split at hstep
  . cases hstep
  . split at hstep
    . cases hstep
      rfl
    . split at hstep
      . cases hstep
        rfl
      . cases hstep

theorem takeStep_typed (hstep : s.takeStep? channel = some s') : s'.typed = s.typed := by
  unfold takeStep? at hstep
  split at hstep
  . cases hstep
  . cases hstep
    rfl

theorem step_unread (hstep : s.step? a = some s')
    : s.unread ++ a.typed = ((s.readChunk? a).toList).flatten ++ s'.unread := by
  have kept (htyped : s'.typed = s.typed) : s.unread ++ [] = s'.unread := by
    simp [unread, htyped]
  cases a with
  | type d =>
    cases hstep
    simp [unread, Action.typed]
  | read channel => simpa [Action.typed] using readStep_unread hstep
  | send channel => simpa [Action.typed] using kept (sendStep_typed hstep)
  | acquire size starts =>
    obtain ⟨_, ⟨channel, _, rfl⟩ | ⟨_, rfl⟩⟩ := acquire_eq_some hstep
    . simpa [Action.typed] using kept rfl
    . simpa [Action.typed] using kept rfl
  | discard =>
    obtain ⟨channel, _, htake⟩ := discard_eq_some hstep
    simpa [Action.typed] using kept (takeStep_typed htake)
  | ready =>
    obtain ⟨channel, _, _, rfl⟩ := ready_eq_some hstep
    simpa [Action.typed] using kept rfl
  | receive =>
    obtain ⟨channel, _, htake⟩ := receive_eq_some hstep
    simpa [Action.typed] using kept (takeStep_typed htake)
  | release =>
    obtain ⟨channel, _, rfl⟩ := release_eq_some hstep
    simpa [Action.typed] using kept rfl

theorem Runs.typed_conserved (runs : Runs moves s)
    : typedBytes moves = (readChunks moves).flatten ++ s.unread := by
  induction runs with
  | fresh => rfl
  | step _ hstep ih =>
    rw [typedBytes_concat, ih, List.append_assoc, step_unread hstep, readChunks_concat,
      List.flatten_append, List.append_assoc]

theorem ne_nil_of_mem_readChunks (hchunk : bs ∈ readChunks moves) : bs ≠ [] := by
  obtain ⟨m, _, hread⟩ := List.mem_filterMap.mp hchunk
  unfold readChunk? at hread
  split at hread
  . split at hread
    . next hread' =>
      obtain ⟨c, _, _, _, hread'⟩ := read_eq_some hread'
      obtain ⟨hr, _⟩ | ⟨hr, _⟩ | ⟨bs', hr, hne, _⟩ := Delivery.read_cases hread'
      . cases hr
      . cases hr
      . cases hr
        cases hread
        exact hne
    . cases hread
  . cases hread

end Stdin

end BringUp
