import BringUp.Console.Stdin
import BringUp.Rehearsal.Relay

/-!
This module contains the playing of several sessions that share the local input, one after another.
The remote of each greets, sends back every byte it gets and closes after some number of them. The
typist waits for all that was typed before to come back.
-/

namespace BringUp.Rehearsal

structure Visit where
  greeting : List UInt8
  chunks : List (List UInt8)
  closeAfter : Option Nat
  stale : List UInt8
  closesInput : Bool

structure VisitResult where
  exit : Option (Except Error RelayExit)
  sent : List UInt8

structure Stage where
  stdin : Stdin
  now : Nat
  shown : List UInt8

def openEnds : RelayEnds := ⟨fun _ => .ok (), fun _ => .ok ()⟩

def attemptAction (s : Stdin) (a : Stdin.Action) : Stdin := (s.step? a).getD s

def readerStep? (s : Stdin) : Option Stdin :=
  (List.range s.channels.length).findSome? fun channel =>
    (s.step? (.send channel)).or (s.step? (.read channel))

def settle : Nat → Stdin → Stdin
  | 0, s => s
  | n + 1, s =>
    match readerStep? s with
    | some s => settle n s
    | none => s

/--
The number of steps after which a reader has to wait for room in the queue, if not for input: it
reads one chunk more than the queue has room for, and meets everything else that was typed.
-/
def readerSteps (s : Stdin) : Nat := 2 * (Channel.capacity + 1) + s.typed.length

def type (s : Stdin) (bytes : List UInt8) : Stdin :=
  if bytes.isEmpty then s
  else
    let s := attemptAction s (.type (.bytes bytes))
    settle (readerSteps s) s

/--
Discard what is in the queue, in at most `n` steps. This takes less time than a reader that waits
for room needs to go on.
-/
def drain : Nat → Stdin → Stdin
  | 0, s => attemptAction s .ready
  | n + 1, s =>
    match s.step? .discard with
    | some s => drain n s
    | none => attemptAction s .ready

def echo (closeAfter : Option Nat) : Nat → Scene → Scene
  | 0, c => c
  | n + 1, c =>
    let due := max c.session.pacer.due c.now
    match c.session.allows due .beat, c.session.pending.head? with
    | true, some byte =>
      let c := (c.take openEnds due .beat).take openEnds due (.read [byte])
      if closeAfter = some c.session.sent.length then c.take openEnds due (.read [])
      else echo closeAfter n c
    | _, _ => c

/--
Let the session take chunks from the queue until it is empty, in at most `n` steps. Each takes a
moment, and then the bytes go to the remote and back.
-/
def takeChunks (closeAfter : Option Nat) : Nat → Scene → Stdin → Scene × Stdin
  | 0, c, s => (c, s)
  | n + 1, c, s =>
    if c.session.exit.isSome then (c, s)
    else
      match s.received .receive with
      | some chunk =>
        let s := attemptAction s .receive
        let s := settle (readerSteps s) s
        takeChunks closeAfter n (c.take openEnds c.now (.typed chunk)) s
      | none =>
        let c := if s.atEnd then c.take openEnds c.now .typedEnd else c
        (echo closeAfter c.session.pending.length c, s)

def typeChunks (closeAfter : Option Nat) : List (List UInt8) → Scene → Stdin → Scene × Stdin
  | [], c, s => (c, s)
  | chunk :: chunks, c, s =>
    if c.session.exit.isSome then (c, s)
    else
      let (c, s) := takeChunks closeAfter (chunk.length + 2) ⟨c.now + 1, c.session⟩ (type s chunk)
      typeChunks closeAfter chunks c s

def visit (o : RelayOptions) (v : Visit) (g : Stage) : VisitResult × Stage :=
  let s := attemptAction (type g.stdin v.stale) (.acquire o.bufferSize true)
  let s := drain Channel.capacity s
  let s := settle (readerSteps s) s
  let c : Scene := ⟨g.now, .starting o g.now⟩
  let c := (reads o.readSize v.greeting).foldl
    (fun c bytes => c.take openEnds c.now (.read bytes)) c
  let c := if v.closeAfter = some 0 then c.take openEnds c.now (.read []) else c
  let (c, s) := takeChunks v.closeAfter (v.stale.length + 1) c s
  let (c, s) := typeChunks v.closeAfter v.chunks c s
  let s := if v.closesInput then settle 2 (attemptAction s (.type .closed)) else s
  let (c, s) := takeChunks v.closeAfter 1 c s
  (⟨c.session.exit, c.session.sent.map (·.2)⟩,
    ⟨attemptAction s .release, c.now + 1, g.shown ++ c.session.output.flatMap (·.2)⟩)

def visits (o : RelayOptions) : List Visit → Stage → List VisitResult × Stage
  | [], g => ([], g)
  | v :: vs, g =>
    let (r, g) := visit o v g
    let (rs, g) := visits o vs g
    (r :: rs, g)

def Stage.fresh : Stage := ⟨.fresh, 0, []⟩

end BringUp.Rehearsal
