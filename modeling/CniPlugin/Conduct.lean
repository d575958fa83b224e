import CniPlugin.Stream.Output
import CniPlugin.Files
/-!
# What a handler does

A handler is a program that can only write to its output stream, flush it and append to files, and
that sees of each step whether it failed.  It cannot take anything back.  The same program is
performed on output streams and files that are values, or on those of the process.

Result: `perform_bind` (programs that follow each other are performed one after the other).
-/

namespace CniPlugin

inductive Conduct (α : Type) where
  /-- The program ends. -/
  | done (result : α)
  /-- Writes all bytes; the rest depends on the text of the failure, if there is one. -/
  | write (bytes : Bytes) (next : Option String → Conduct α)
  /-- Flushes the output stream. -/
  | flush (next : Option String → Conduct α)
  /-- Appends bytes to the file with a path. -/
  | append (path : String) (bytes : Bytes) (next : Option String → Conduct α)

/-- What programs act on. -/
structure Scene where
  output : Output
  files : Files
  deriving DecidableEq, Repr

namespace Conduct

variable {α β : Type}

def bind : Conduct α → (α → Conduct β) → Conduct β
  | .done result, f => f result
  | .write bytes next, f => .write bytes fun failure => (next failure).bind f
  | .flush next, f => .flush fun failure => (next failure).bind f
  | .append path bytes next, f => .append path bytes fun failure => (next failure).bind f

instance : Monad Conduct where
  pure := .done
  bind := .bind

/-- Performs a program. -/
def perform : Conduct α → Scene → α × Scene
  | .done result, scene => (result, scene)
  | .write bytes next, scene =>
    let (failure, output) := scene.output.write bytes
    (next failure).perform { scene with output }
  | .flush next, scene => (next scene.output.flush).perform scene
  | .append path bytes next, scene =>
    let (failure, files) := scene.files.append path bytes
    (next (failure.map FileFault.message)).perform { scene with files }

/-- Writes all bytes and flushes: the text of the first failure, if there is one. -/
def writeAndFlush (bytes : Bytes) : Conduct (Option String) :=
  .write bytes fun
    | some failure => .done (some failure)
    | none => .flush .done

/-- Programs that follow each other are performed one after the other. -/
theorem perform_bind (p : Conduct α) (f : α → Conduct β) (scene : Scene) :
    (p.bind f).perform scene = (f (p.perform scene).1).perform (p.perform scene).2 := by
  induction p generalizing scene with
  | done result => rfl
  | write bytes next ih => exact ih _ _
  | flush next ih => exact ih _ _
  | append path bytes next ih => exact ih _ _

end Conduct
end CniPlugin
