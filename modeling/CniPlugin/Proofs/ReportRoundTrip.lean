import CniPlugin.Fault.Report
import CniPlugin.Proofs.OutputTrace
import CniPlugin.Proofs.WrittenRecords
/-!
# Reports are read back

A report of a fault is read back as that fault, whether it was printed or written on one line, and
whatever characters its texts are made of.  So a report says all there is to say of a fault.

Results:
1. `typedKind_takes`: the code of a kind is read back as the kind.
2. `read_compact`, `read_printed`: both layouts of a report are read back.
3. `fault_round_trip`: so are the bytes that printing a fault writes, and no two faults print the
   same ones.
-/

namespace CniPlugin

open Json

namespace Report

/-- The code of a kind is read back as the kind. -/
theorem typedKind_takes (kind : Fault.Kind) :
    Takes typedKind (scalarText (ofWord kind.code)) kind := by
  intro blanks tail hb ht
  rw [typedKind, bind_of_ok (typedWord_takes kind.code blanks tail hb ht),
    Fault.Kind.ofCode?_code]
  rfl

/-- The written members of a report after the first. -/
def written (report : Report) : List (String × Bytes) :=
  [("code", scalarText (ofWord report.fault.kind.code)), ("msg", quote report.fault.message),
    ("details", quote report.fault.details)]

/-- What is read of a report. -/
def draft (report : Report) : Draft where
  cniVersion := some report.cniVersion
  kind := some report.fault.kind
  message := some report.fault.message
  details := some report.fault.details

theorem readsAll_written (report : Report) :
    ReadsAll (readMember shape.fields Stray.pass)
      (("cniVersion", quote report.cniVersion) :: report.written) {} report.draft := by
  -- Each member finds its field by its key, and that field not filled yet.
  refine .cons (readMember_of_takes rfl rfl (typedText_takes .text _)) ?_
  refine .cons (readMember_of_takes rfl rfl (typedKind_takes _)) ?_
  refine .cons (readMember_of_takes rfl rfl (typedText_takes .text _)) ?_
  refine .cons (readMember_of_takes rfl rfl (typedText_takes .text _)) ?_
  exact .nil _

/-- A report is read back in any layout, whatever blanks follow it. -/
theorem read_object (report : Report) (spacing : Spacing) {blanks : Bytes}
    (hb : ∀ b ∈ blanks, isBlank b = true) :
    read (spacing.object ("cniVersion", quote report.cniVersion) report.written ++ blanks) =
      .ok report := by
  have htakes := shape_takes report.readsAll_written rfl spacing
  rw [read, readDocument_of_takes htakes hb]
  rfl

theorem compact_eq (report : Report) :
    report.compact =
      Spacing.none.object ("cniVersion", quote report.cniVersion) report.written := by
  rw [compact, toJson, compact_object]
  rfl

theorem printed_eq (report : Report) :
    report.printed =
      (Spacing.lines 0).object ("cniVersion", quote report.cniVersion) report.written ++
        [0x0A] := by
  rw [printed, toJson, indented, indentedAt_object]
  rfl

theorem read_compact (report : Report) : read report.compact = .ok report := by
  have hb : ∀ b ∈ ([] : Bytes), isBlank b = true := by simp
  have h := report.read_object Spacing.none hb
  rw [List.append_nil] at h
  rw [compact_eq, h]

theorem read_printed (report : Report) : read report.printed = .ok report := by
  have hb : ∀ b ∈ ([0x0A] : Bytes), isBlank b = true := by
    intro b hb
    rw [List.mem_singleton.mp hb]
    rfl
  rw [printed_eq, read_object report (Spacing.lines 0) hb]

end Report

namespace Fault

theorem read_printed (fault : Fault) : read (Report.ofFault fault).printed = .ok fault := by
  rw [read, Report.read_printed]
  rfl

theorem read_compact (fault : Fault) : read (Report.ofFault fault).compact = .ok fault := by
  rw [read, Report.read_compact]
  rfl

/-- Where there is room, printing a fault writes its printed report, once. -/
theorem perform_print (fault : Fault) {scene : Scene} (h : scene.output.limit = none) :
    (fault.print.perform scene).2 =
      { scene with output := scene.output.followedBy (Report.ofFault fault).printed } := by
  rw [print, Conduct.perform_writeAndFlush _ h]

theorem eq_of_read {bytes : Bytes} {fault other : Fault} (h : read bytes = .ok fault)
    (ho : read bytes = .ok other) : fault = other := by
  rw [h] at ho
  exact Except.ok.inj ho

/-- Whatever its kind and its texts, a fault is read back from the bytes that printing it writes and
from its report on one line; every report is read back from one line, whatever version it names; the
code, the message and the details make up the fault; and no two faults have the same report. -/
theorem fault_round_trip :
    (∀ fault : Fault,
      (∀ (output : Output) (files : Files), ∃ bytes,
        (fault.print.perform ⟨{ output with limit := none }, files⟩).2.output.content =
            output.content ++ bytes ∧
          bytes = (Report.ofFault fault).printed ∧ read bytes = .ok fault) ∧
      read (Report.ofFault fault).compact = .ok fault ∧
      ofCode fault.kind.code fault.message fault.details = fault) ∧
    (∀ report : Report, Report.read report.compact = .ok report) ∧
    (∀ fault other : Fault,
      ((Report.ofFault fault).printed = (Report.ofFault other).printed ↔ fault = other) ∧
      ((Report.ofFault fault).compact = (Report.ofFault other).compact ↔ fault = other)) := by
  refine ⟨fun fault => ⟨fun output files => ?_, read_compact fault, ofCode_code fault⟩,
    Report.read_compact, fun fault other => ⟨⟨fun h => ?_, ?_⟩, ⟨fun h => ?_, ?_⟩⟩⟩
  · refine ⟨_, ?_, rfl, read_printed fault⟩
    rw [perform_print fault rfl, Output.content_followedBy]
  · exact eq_of_read (read_printed fault) (by rw [h]; exact read_printed other)
  · rintro rfl
    rfl
  · exact eq_of_read (read_compact fault) (by rw [h]; exact read_compact other)
  · rintro rfl
    rfl

end Fault
end CniPlugin
