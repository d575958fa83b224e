import CniPlugin.Proofs.Footprint
import CniPlugin.Proofs.VersionAnswer
/-!
# What a runtime learns from the answer to VERSION

A runtime asks for VERSION, takes what the plugin adds to its output stream and reads that.  It
learns the list of the plugin, whatever the texts in it are, and from then on can decide for itself
which declared versions the plugin serves: it gets the same answers as the plugin.  Of a plugin that
lists nothing it learns that no version is supported, as a failure.

Results:
1. `output_of_asksVersions`: what a VERSION dispatch adds to a stream that takes it.
2. `versions_learned`: the bytes that are added are one line, which is read back as the list.
-/

namespace CniPlugin

theorem Conduct.output_of_writeAndFlush (bytes : Bytes) (scene : Scene) :
    ((writeAndFlush bytes).perform scene).2.output = (scene.output.write bytes).2 := by
  rw [writeAndFlush, perform]
  rcases scene.output.write bytes with ⟨_ | failure, output⟩ <;> rfl

namespace Support

/-- What has been learned of a plugin is as good as its own list: the same versions in the same
order, and the same answers to every question about a version, for ADD and DEL and for CHECK. -/
structure Alike (learned support : Support) : Prop where
  versions : learned.versions = support.versions
  supports : ∀ version, learned.supports version = support.supports version
  accept : ∀ declared, learned.accept declared = support.accept declared
  select : ∀ declared, learned.select declared = support.select declared
  selectForCheck : ∀ declared, learned.selectForCheck declared = support.selectForCheck declared

theorem Alike.refl (support : Support) : support.Alike support :=
  ⟨rfl, fun _ => rfl, fun _ => rfl, fun _ => rfl, fun _ => rfl⟩

end Support

namespace Session

variable {session : Session}

/-- The answer is all that is added, also if the flush after it fails. -/
theorem output_of_asksVersions (asks : session.AsksVersions) (plugin : Plugin) {support : Support}
    (taken : (session.output.write support.answer).1 = none) (about : String) :
    (session.dispatch plugin support.offer about).session.output =
      session.output.followedBy support.answer := by
  have hscene := (dispatch_of_asksVersions session plugin support.offer about asks).2
  calc (session.dispatch plugin support.offer about).session.output
      = (support.encode.perform session.scene).2.output := output_of_scene hscene
    _ = (session.output.write support.answer).2 := Conduct.output_of_writeAndFlush _ _
    _ = session.output.followedBy support.answer := Output.write_of_taken taken

/-- What a VERSION dispatch adds to a stream that takes the answer is one line, and a runtime that
reads this line learns the list of the plugin, or that it has none. -/
theorem versions_learned (session : Session) (plugin : Plugin) (support : Support) (about : String)
    (asks : session.AsksVersions) (taken : (session.output.write support.answer).1 = none) :
    ∃ line, (session.dispatch plugin support.offer about).session.output =
        session.output.followedBy (line ++ [0x0A]) ∧ 0x0A ∉ line ∧
      (support.versions = [] → Support.decode (line ++ [0x0A]) = .error .noVersions) ∧
      (support.versions ≠ [] → ∃ learned, Support.decode (line ++ [0x0A]) = .ok learned ∧
        learned.Alike support) := by
  obtain ⟨line, hline, hfeed⟩ := support.answer_line
  have hdecode := support.decode_answer
  have hadded := output_of_asksVersions asks plugin taken about
  rw [hline] at hdecode hadded
  refine ⟨line, hadded, hfeed, ?_, ?_⟩
  · intro hempty
    rw [hdecode, if_pos hempty]
  · intro hlisted
    rw [if_neg hlisted] at hdecode
    exact ⟨support, hdecode, .refl support⟩

/-- A list with an entry that has to be escaped, and with one entry twice, is learned as it is. -/
theorem escaped_versions_learned :
    ∃ line, (inquiring.dispatch breakingOff
          (Support.offer ⟨["0.4.0", "a\"b\\\n😀", "0.4.0"]⟩) "").session.output =
        inquiring.output.followedBy (line ++ [0x0A]) ∧
      ∃ learned, Support.decode (line ++ [0x0A]) = .ok learned ∧
        learned.versions = ["0.4.0", "a\"b\\\n😀", "0.4.0"] := by
  have taken : (inquiring.output.write
      (Support.answer ⟨["0.4.0", "a\"b\\\n😀", "0.4.0"]⟩)).1 = none := by
    rw [Output.write_eq_followedBy rfl]
  obtain ⟨line, hadded, -, -, hlearned⟩ := versions_learned inquiring breakingOff
    ⟨["0.4.0", "a\"b\\\n😀", "0.4.0"]⟩ "" inquiring_asksVersions taken
  obtain ⟨learned, hdecode, halike⟩ := hlearned (by simp)
  exact ⟨line, hadded, learned, hdecode, halike.versions⟩

end Session
end CniPlugin
