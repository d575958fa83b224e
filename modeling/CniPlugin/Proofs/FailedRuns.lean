import CniPlugin.Proofs.BreakingSessions
import CniPlugin.Proofs.Footprint
import CniPlugin.Proofs.LogEntries
/-!
# What a failed run leaves on the output stream

A handler writes to the output stream itself, so what it has written before it fails stays there, in
front of the report of the fault.  The stream carries a single document after a failed run exactly
if nothing was written before; a handler that writes only as its last step leaves it so.

Results:
1. `append_printed_eq_iff`: bytes in front of a printed report do not make up another one.
2. `output_of_failed`: what a failed run adds.
3. `written_of_failed`: whoever writes nothing when it fails leaves nothing in front of the report.
4. `failed_run_single_iff`: when a failed run adds a single document.
5. `failed_run_unreadable`: a handler for which it does not.
-/

namespace CniPlugin

/-! ## Printed reports -/

namespace Report
open Json

theorem count_lineFeed_quote (s : String) : (quote s).count 0x0A = 0 :=
  List.count_eq_zero.mpr (lineFeed_not_mem_quote s)

theorem count_lineFeed_code (kind : Fault.Kind) :
    (scalarText (ofWord kind.code)).count 0x0A = 0 := by
  cases kind <;> decide

/-- A report is printed on six lines, whatever its texts are made of. -/
theorem count_lineFeed_printed (report : Report) : report.printed.count 0x0A = 6 := by
  simp [printed_eq, written, Spacing.object, Spacing.more, Spacing.member, Spacing.lines, newLine,
    List.count_append, count_lineFeed_quote, count_lineFeed_code]

/-- The brace that opens a printed report stands on a line of its own. -/
theorem printed_eq_cons (report : Report) : ∃ rest, report.printed = 0x7B :: 0x0A :: rest := by
  rw [printed_eq]
  exact ⟨_, rfl⟩

/-- Bytes in front of a printed report do not make up another one: they would have to stand on its
first line, which has no room for another brace. -/
theorem append_printed_eq_iff {bytes : Bytes} {report other : Report} :
    bytes ++ report.printed = other.printed ↔ bytes = [] ∧ report = other := by
  constructor
  · intro h
    have hcount := congrArg (List.count 0x0A) h
    rw [List.count_append, count_lineFeed_printed, count_lineFeed_printed] at hcount
    have hline : 0x0A ∉ bytes := List.count_eq_zero.mp (by omega)
    obtain ⟨rest, hreport⟩ := report.printed_eq_cons
    obtain ⟨rest', hother⟩ := other.printed_eq_cons
    have hbytes : bytes = [] := by
      rw [hreport, hother] at h
      cases bytes with
      | nil => rfl
      | cons b bs =>
        have hsecond := congrArg (·[1]?) h
        cases bs with
        | nil =>
          -- The brace of the report would stand where the line of the other one ends.
          exact absurd (Option.some.inj hsecond) (by decide)
        | cons c bs =>
          have hc : c = 0x0A := Option.some.inj hsecond
          exact absurd (by simp [hc]) hline
    subst hbytes
    refine ⟨rfl, ?_⟩
    have hread := read_printed report
    rw [List.nil_append] at h
    rw [h, read_printed] at hread
    exact (Except.ok.inj hread).symm
  · rintro ⟨rfl, rfl⟩
    rfl

end Report

/-! ## Failed runs -/

namespace Session

/-- A failed run adds what was written before the failure and then one printed report. -/
theorem output_of_failed {session : Session} (h : session.output.limit = none) {plugin : Plugin}
    {offer : Offer} {about : String} {fault : Fault}
    (hf : (session.dispatch plugin offer about).result = .error fault) :
    ∃ written, session.Writes plugin offer about written ∧
      (session.run plugin offer about).session.output =
        session.output.followedBy (written ++ (Report.ofFault fault).printed) := by
  obtain ⟨written, hwrites, hout⟩ := output_of_dispatch h plugin offer about
  have hroom : (session.dispatch plugin offer about).session.output.limit = none := by
    rw [hout]
    exact h
  refine ⟨written, hwrites, ?_⟩
  rw [run, hf, report_error hroom, hout, Output.followedBy_append]

/-- Where neither a handler nor the answer to VERSION has written anything when it fails, nothing
stands in front of the report. -/
theorem written_of_failed {session : Session} {plugin : Plugin} {offer : Offer} {about : String}
    {fault : Fault} {written : Bytes}
    (hplugin : ∀ action invocation,
      ((plugin.handle action invocation).perform session.scene).1.Fails →
        (plugin.handle action invocation).written session.scene = [])
    (hoffer : (offer.encode.perform session.scene).1 ≠ none →
      offer.encode.written session.scene = [])
    (hf : (session.dispatch plugin offer about).result = .error fault)
    (hw : session.Writes plugin offer about written) : written = [] := by
  unfold Writes at hw
  cases hc : (session.dispatch plugin offer about).call with
  | some call =>
    obtain ⟨action, invocation⟩ := call
    rw [hc] at hw
    rw [(dispatch_of_called hc).1] at hf
    exact hw.trans (hplugin action invocation ⟨fault, hf⟩)
  | none =>
    rw [hc] at hw
    rcases hw with ⟨asks, hanswer⟩ | ⟨-, hnone⟩
    · refine hanswer.trans (hoffer fun hend => ?_)
      rw [(dispatch_of_asksVersions session plugin offer about asks).1, hend] at hf
      cases hf
    · exact hnone

/-- On a stream with room, a failed run adds the printed report of its fault behind what the handler
or the answer to VERSION has written before.  What it adds is a single report exactly if that is
nothing. -/
theorem failed_run_single_iff (session : Session) (h : session.output.limit = none)
    (plugin : Plugin) (offer : Offer) (about : String)
    (hfailed : (session.run plugin offer about).status = 1) :
    ∃ fault written, (session.dispatch plugin offer about).result = .error fault ∧
      session.Writes plugin offer about written ∧
      (session.run plugin offer about).session.output.content =
        session.output.content ++ (written ++ (Report.ofFault fault).printed) ∧
      ((∃ report : Report, written ++ (Report.ofFault fault).printed = report.printed) ↔
        written = []) := by
  obtain ⟨fault, hf⟩ := Dispatched.status_eq_one_iff.mp hfailed
  obtain ⟨written, hwrites, hout⟩ := output_of_failed h hf
  refine ⟨fault, written, hf, hwrites, ?_, ?_⟩
  · rw [hout, Output.content_followedBy]
  · constructor
    · rintro ⟨report, hr⟩
      exact (Report.append_printed_eq_iff.mp hr).1
    · rintro rfl
      exact ⟨_, rfl⟩

/-- A plugin whose handlers write a whole result and fail after that. -/
def failingLate : Plugin where
  handle _ _ := .write (Text.Utf8.ofString "\x7b\"cniVersion\":\"0.4.0\"\x7d\n") fun _ =>
    .done (.failure (.text "late failure") [])

/-- The result of a late failure stands in front of the report, which is then not the only one. -/
theorem failingLate_not_single :
    attaching.output.limit = none ∧
      (attaching.run failingLate (Support.offer ⟨["0.4.0"]⟩) "").status = 1 ∧
      ∃ (fault : Fault) (written : Bytes),
        (attaching.run failingLate (Support.offer ⟨["0.4.0"]⟩) "").session.output.content =
          written ++ (Report.ofFault fault).printed ∧
        ¬ ∃ report : Report, written ++ (Report.ofFault fault).printed = report.printed := by
  have hroom : attaching.output.limit = none := rfl
  have hstatus : (attaching.run failingLate (Support.offer ⟨["0.4.0"]⟩) "").status = 1 := by
    decide +kernel
  have hlines : (attaching.run failingLate (Support.offer ⟨["0.4.0"]⟩)
      "").session.output.content.count 0x0A = 7 := by decide +kernel
  obtain ⟨fault, written, -, -, hadded, hsingle⟩ :=
    failed_run_single_iff attaching hroom failingLate (Support.offer ⟨["0.4.0"]⟩) "" hstatus
  have hempty : attaching.output.content = [] := rfl
  rw [hempty, List.nil_append] at hadded
  refine ⟨hroom, hstatus, fault, written, hadded, fun hreport => ?_⟩
  rw [hadded, hsingle.mp hreport, List.nil_append, Report.count_lineFeed_printed] at hlines
  exact absurd hlines (by decide)

/-- So not every failed run leaves a document that can be read. -/
theorem failed_run_unreadable :
    ¬ ∀ (session : Session) (plugin : Plugin) (support : Support) (about : String),
      session.output.limit = none → (session.run plugin support.offer about).status = 1 →
      ∃ added report,
        (session.run plugin support.offer about).session.output.content =
          session.output.content ++ added ∧ Report.read added = .ok report := by
  intro hall
  have hstatus : (attaching.run failingLate (Support.offer ⟨["0.4.0"]⟩) "").status = 1 := by
    decide +kernel
  have hread : (match Report.read (attaching.run failingLate (Support.offer ⟨["0.4.0"]⟩)
      "").session.output.content with
    | .ok report => some report
    | .error _ => none) = none := by decide +kernel
  obtain ⟨added, report, hadded, hreport⟩ :=
    hall attaching failingLate ⟨["0.4.0"]⟩ "" rfl hstatus
  have hempty : attaching.output.content = [] := rfl
  rw [hempty, List.nil_append] at hadded
  rw [hadded, hreport] at hread
  cases hread

end Session
end CniPlugin
