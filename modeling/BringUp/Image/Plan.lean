import BringUp.Image.Families
import BringUp.Options.Basic

/-!
This module contains plans: what a write method comes to for the files of one build. Making a plan
makes no call, so that an image that can not be written is found out before anything is touched.
-/

namespace BringUp

structure PlannedWrite where
  role : String
  source : String
  target : WriteTarget
deriving DecidableEq

structure PlannedSend where
  role : String
  source : Option String
  phase : Option String
deriving DecidableEq

def WriterOptions.blobPath (o : WriterOptions) : Blob → Option String
  | .bl1 => o.bl1
  | .bl2 => o.bl2
  | .tzsw => o.tzsw

namespace Method

def artifactPath (m : Method) (o : WriterOptions) (dir : String) : Artifact → Except Error String
  | .build file => .ok (Path.join dir file)
  | .blob b =>
    match o.blobPath b with
    | some path => .ok path
    | none => .error (.config s!"method {m.name} needs the {b.name} blob")

def planStage (m : Method) (o : WriterOptions) (dir : String) (s : WriteStage)
    : Except Error PlannedWrite := do
  let source ← m.artifactPath o dir s.source
  .ok ⟨s.role, source, s.target⟩

def planWrite (m : Method) (o : WriterOptions) (dir : String) : Except Error (List PlannedWrite) :=
  match m.write with
  | some stages => stages.mapM (m.planStage o dir)
  | none => .error (.unsupportedWriteMethod "writing" m.name)

def planSend (m : Method) (dir : String) : Except Error (List PlannedSend) :=
  match m.send with
  | some stages => .ok (stages.map fun s => ⟨s.role, s.source.map (Path.join dir), s.phase⟩)
  | none => .error (.unsupportedWriteMethod "sending" m.name)

end Method

def PlannedWrite.needsStorage (p : PlannedWrite) : Bool :=
  p.target ≠ .emulator

/--
The file of each role. Of two parts with one role, the later one counts.
-/
def PlannedWrite.artifacts (plan : List PlannedWrite) : List (String × String) :=
  plan.foldl (fun found p => found.filter (·.1 ≠ p.role) ++ [(p.role, p.source)]) []

end BringUp
