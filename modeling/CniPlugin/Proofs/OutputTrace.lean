import CniPlugin.Conduct
/-!
# What a program writes

The bytes that a program writes are added to its output stream in order, each once.  What it writes
may depend on whether its steps fail, so it is a matter of the scene too.

Results:
1. `output_of_perform`: what performing a program does to a stream with room.
2. `perform_writeAndFlush`: what writing all bytes and flushing does there.
3. `files_of_perform`: a program that appends to no file leaves the files as they are.
-/

namespace CniPlugin

namespace Output

/-- The stream with more bytes behind those that it has. -/
def followedBy (out : Output) (bytes : Bytes) : Output :=
  { out with content := out.content ++ bytes }

@[simp]
theorem content_followedBy (out : Output) (bytes : Bytes) :
    (out.followedBy bytes).content = out.content ++ bytes := rfl

@[simp]
theorem followedBy_nil (out : Output) : out.followedBy [] = out := by
  simp [followedBy]

theorem followedBy_append (out : Output) (xs ys : Bytes) :
    out.followedBy (xs ++ ys) = (out.followedBy xs).followedBy ys := by
  simp [followedBy]

theorem write_eq_followedBy {out : Output} (h : out.limit = none) (bytes : Bytes) :
    out.write bytes = (none, out.followedBy bytes) :=
  write_of_unlimited h bytes

end Output

/-- The scene with more bytes behind those that its stream has. -/
def Scene.followedBy (scene : Scene) (bytes : Bytes) : Scene :=
  { scene with output := scene.output.followedBy bytes }

namespace Conduct

variable {α : Type}

/-- The bytes that a program writes, in order. -/
def written : Conduct α → Scene → Bytes
  | .done _, _ => []
  | .write bytes next, scene =>
    bytes ++ (next (scene.output.write bytes).1).written
      { scene with output := (scene.output.write bytes).2 }
  | .flush next, scene => (next scene.output.flush).written scene
  | .append path bytes next, scene =>
    (next ((scene.files.append path bytes).1.map FileFault.message)).written
      { scene with files := (scene.files.append path bytes).2 }

/-- The program appends to no file, whatever fails. -/
def LeavesFiles : Conduct α → Prop
  | .done _ => True
  | .write _ next => ∀ failure, (next failure).LeavesFiles
  | .flush next => ∀ failure, (next failure).LeavesFiles
  | .append .. => False

/-- With room no write fails. -/
theorem perform_write {scene : Scene} (h : scene.output.limit = none) (bytes : Bytes)
    (next : Option String → Conduct α) :
    (write bytes next).perform scene = (next none).perform (scene.followedBy bytes) := by
  rw [perform, Output.write_eq_followedBy h]
  rfl

theorem written_write {scene : Scene} (h : scene.output.limit = none) (bytes : Bytes)
    (next : Option String → Conduct α) :
    (write bytes next).written scene = bytes ++ (next none).written (scene.followedBy bytes) := by
  rw [written, Output.write_eq_followedBy h]
  rfl

/-- A stream with room gets what the program writes behind what it has, and stays otherwise as it
is. -/
theorem output_of_perform (p : Conduct α) {scene : Scene} (h : scene.output.limit = none) :
    (p.perform scene).2.output = scene.output.followedBy (p.written scene) := by
  -- With room no write fails, so the stream stays without a limit from step to step.
  induction p generalizing scene with
  | done result => exact (Output.followedBy_nil _).symm
  | write bytes next ih =>
    rw [perform_write h, written_write h, Output.followedBy_append]
    exact ih none h
  | flush next ih => exact ih _ h
  | append path bytes next ih => exact ih _ h

theorem perform_writeAndFlush (bytes : Bytes) {scene : Scene} (h : scene.output.limit = none) :
    (writeAndFlush bytes).perform scene =
      (scene.output.flushFailure, { scene with output := scene.output.followedBy bytes }) := by
  rw [writeAndFlush, perform, Output.write_eq_followedBy h]
  rfl

theorem files_of_perform {p : Conduct α} (h : p.LeavesFiles) (scene : Scene) :
    (p.perform scene).2.files = scene.files := by
  induction p generalizing scene with
  | done result => rfl
  | write bytes next ih => exact ih _ (h _) _
  | flush next ih => exact ih _ (h _) _
  | append path bytes next ih => exact h.elim

theorem leavesFiles_writeAndFlush (bytes : Bytes) : (writeAndFlush bytes).LeavesFiles := by
  intro failure
  cases failure with
  | none => exact fun _ => trivial
  | some text => trivial

end Conduct
end CniPlugin
