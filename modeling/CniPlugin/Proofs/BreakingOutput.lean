import CniPlugin.Proofs.OutputTrace
/-!
# Output streams that break

A stream that takes only so many bytes in total breaks in the middle of what is written to it.  Seen
from a stream with room it only cuts off: as long as a program goes no further after a failed write,
it leaves behind the first bytes of what it would have written, and it ends in the same way or in
failure.

Results:
1. `write_cut`: a write to a stream that breaks.
2. `perform_cut`: a program on a stream that breaks, compared with the same one on a stream with
   room.
-/

namespace CniPlugin

/-! ## Cutting -/

/-- The stream that takes only so many bytes in total, and has the first of those it has. -/
def Output.cut (out : Output) (room : Nat) (refusal : Refusal) : Output :=
  { out with content := out.content.take room, limit := some room, refusal }

/-- The scene with such a stream. -/
def Scene.cut (scene : Scene) (room : Nat) (refusal : Refusal) : Scene :=
  { scene with output := scene.output.cut room refusal }

namespace Output

/-- A write does not break a stream that takes so many bytes in total. -/
def Fits (out : Output) (room : Nat) (bytes : Bytes) : Prop :=
  bytes = [] ∨ out.content.length + bytes.length ≤ room

instance (out : Output) (room : Nat) (bytes : Bytes) : Decidable (out.Fits room bytes) :=
  inferInstanceAs (Decidable (_ ∨ _))

variable {out : Output} {room : Nat}

/-- What comes after a break is lost. -/
theorem cut_followedBy (h : room ≤ out.content.length) (refusal : Refusal) (bytes : Bytes) :
    (out.followedBy bytes).cut room refusal = out.cut room refusal := by
  simp [cut, followedBy, List.take_append_of_le_length h]

/-- A write that fits is stored as a whole. -/
theorem cut_followedBy_of_fits {bytes : Bytes} (h : out.Fits room bytes) (refusal : Refusal) :
    (out.followedBy bytes).cut room refusal = (out.cut room refusal).followedBy bytes := by
  have hfits : bytes.take (room - out.content.length) = bytes := by
    rcases h with rfl | h
    · exact List.take_nil
    · exact List.take_of_length_le (by omega)
  simp only [cut, followedBy, List.take_append, hfits]

/-- A write to a stream that breaks stores what fits, and fails unless that is all. -/
theorem write_cut (out : Output) (room : Nat) (refusal : Refusal) (bytes : Bytes) :
    (out.cut room refusal).write bytes =
      (if out.Fits room bytes then none else some refusal.text,
        (out.followedBy bytes).cut room refusal) := by
  have hfitting : (out.cut room refusal).fitting bytes.length =
      min bytes.length (room - out.content.length) := by
    simp only [fitting, cut, List.length_take]
    omega
  have hstored : bytes.take (min bytes.length (room - out.content.length)) =
      bytes.take (room - out.content.length) := by
    rw [List.take_eq_take_iff]
    omega
  have hfails : min bytes.length (room - out.content.length) < bytes.length ↔
      ¬ out.Fits room bytes := by
    rw [Fits, ← List.length_eq_zero_iff]
    omega
  simp only [write, hfitting, hfails, hstored]
  by_cases h : out.Fits room bytes
  · rw [if_neg (not_not_intro h), if_pos h]
    simp only [cut, followedBy, List.take_append]
  · rw [if_pos h, if_neg h]
    simp only [cut, followedBy, List.take_append]

end Output

/-! ## Programs on a stream that breaks -/

namespace Conduct

variable {α : Type}

/-- The program goes no further after a failed write, but ends with such a result; and it writes
only after it has appended to files. -/
def StopsWhenFull (failed : α → Prop) : Conduct α → Prop
  | .done _ => True
  | .write _ next => (∀ text, ∃ result, next (some text) = .done result ∧ failed result) ∧
      (next none).LeavesFiles ∧ (next none).StopsWhenFull failed
  | .flush next => ∀ failure, (next failure).StopsWhenFull failed
  | .append _ _ next => ∀ failure, (next failure).StopsWhenFull failed

theorem stopsWhenFull_writeAndFlush (bytes : Bytes) :
    (writeAndFlush bytes).StopsWhenFull (· ≠ none) :=
  ⟨fun text => ⟨some text, rfl, Option.some_ne_none text⟩, fun _ => trivial, fun _ => trivial⟩

/-- How a program on a stream that breaks compares with the same one on a stream with room: what it
leaves behind is cut off, and either nothing is lost and it ends the same, or it fails. -/
structure CutOff (p : Conduct α) (failed : α → Prop) (scene : Scene) (room : Nat)
    (refusal : Refusal) : Prop where
  left : (p.perform (scene.cut room refusal)).2 = (p.perform scene).2.cut room refusal
  ended : (p.perform (scene.cut room refusal)).1 = (p.perform scene).1 ∧
      (p.perform (scene.cut room refusal)).2.output =
        (scene.cut room refusal).output.followedBy (p.written scene) ∨
    failed (p.perform (scene.cut room refusal)).1 ∧
      room ≤ (p.perform scene).2.output.content.length

theorem perform_write_cut (bytes : Bytes) (next : Option String → Conduct α) (scene : Scene)
    (room : Nat) (refusal : Refusal) :
    (write bytes next).perform (scene.cut room refusal) =
      (next (if scene.output.Fits room bytes then none else some refusal.text)).perform
        ((scene.followedBy bytes).cut room refusal) := by
  have hcut : (scene.cut room refusal).output.write bytes = _ :=
    scene.output.write_cut room refusal bytes
  rw [perform, hcut]
  rfl

/-- Nothing that a program writes is kept by a stream that is full already. -/
theorem perform_cut_of_full {p : Conduct α} (h : p.LeavesFiles) {scene : Scene}
    (hlimit : scene.output.limit = none) {room : Nat} (hfull : room ≤ scene.output.content.length)
    (refusal : Refusal) :
    (p.perform scene).2.cut room refusal = scene.cut room refusal ∧
      room ≤ (p.perform scene).2.output.content.length := by
  have hout := p.output_of_perform hlimit
  constructor
  · rw [Scene.cut, hout, Output.cut_followedBy hfull, files_of_perform h]
    rfl
  · rw [hout, Output.content_followedBy, List.length_append]
    omega

/-- A program that stops when the stream is full only has its output cut off, unless it fails. -/
theorem perform_cut {failed : α → Prop} {p : Conduct α} (h : p.StopsWhenFull failed)
    {scene : Scene} (hlimit : scene.output.limit = none) (room : Nat) (refusal : Refusal) :
    p.CutOff failed scene room refusal := by
  -- As long as all writes fit, the two streams differ only in their limit.
  induction p generalizing scene with
  | done result => exact ⟨rfl, .inl ⟨rfl, (Output.followedBy_nil _).symm⟩⟩
  | flush next ih =>
    obtain ⟨hleft, hended⟩ := ih _ (h scene.output.flush) hlimit
    exact ⟨hleft, hended⟩
  | append path bytes next ih =>
    have hlimit' : ({ scene with files := (scene.files.append path bytes).2 } :
      Scene).output.limit = none := hlimit
    obtain ⟨hleft, hended⟩ := ih _ (h _) hlimit'
    exact ⟨hleft, hended⟩
  | write bytes next ih =>
    obtain ⟨hfail, hfiles, hnext⟩ := h
    have hwide : (scene.followedBy bytes).output.limit = none := hlimit
    by_cases hfits : scene.output.Fits room bytes
    case pos =>
      obtain ⟨hleft, hended⟩ := ih none hnext hwide
      have hstored : (scene.cut room refusal).output.followedBy bytes =
          ((scene.followedBy bytes).cut room refusal).output :=
        (Output.cut_followedBy_of_fits hfits refusal).symm
      constructor
      · rw [perform_write_cut, if_pos hfits, perform_write hlimit, hleft]
      · rw [perform_write_cut, if_pos hfits, perform_write hlimit, written_write hlimit,
          Output.followedBy_append, hstored]
        exact hended
    case neg =>
      -- The program ends at this write, while on the stream with room it may go on.
      obtain ⟨result, hdone, hfailed⟩ := hfail refusal.text
      have hfull : room ≤ (scene.followedBy bytes).output.content.length := by
        rw [Output.Fits] at hfits
        rw [Scene.followedBy, Output.content_followedBy, List.length_append]
        omega
      obtain ⟨hleft, hlong⟩ := perform_cut_of_full hfiles hwide hfull refusal
      refine ⟨?_, .inr ⟨?_, ?_⟩⟩
      · rw [perform_write_cut, if_neg hfits, hdone, perform_write hlimit, hleft]
        rfl
      · rw [perform_write_cut, if_neg hfits, hdone]
        exact hfailed
      · rw [perform_write hlimit]
        exact hlong

end Conduct
end CniPlugin
