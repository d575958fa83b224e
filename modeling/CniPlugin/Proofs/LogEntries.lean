import CniPlugin.Recorder.Entry
import CniPlugin.Proofs.WrittenRecords
import CniPlugin.Text.Split
/-!
# Log entries are read back line by line

In a string every line feed is escaped, so an entry is written as one line, whatever its texts are
made of.  A log is split at its line feeds into the entries that were written to it.

Results:
1. `lineFeed_not_mem_quote`, `lineFeed_not_mem_object`: compact JSON is written on one line.
2. `read_compact`: an entry is read back.
3. `split_lines`: a log is split into the entries as they were written.
-/

namespace CniPlugin

/-! ## One line -/

namespace Json

theorem hexDigit_ne_lineFeed : ∀ n < 0x20, hexDigit (n / 16) ≠ 0x0A ∧ hexDigit (n % 16) ≠ 0x0A := by
  decide

theorem lineFeed_not_mem_escapeChar (c : Char) : 0x0A ∉ escapeChar c := by
  unfold escapeChar
  iterate 7
    split
    · decide
  split
  · next h =>
    obtain ⟨hhigh, hlow⟩ := hexDigit_ne_lineFeed c.toNat h
    simp [Ne.symm hhigh, Ne.symm hlow]
  · next hq hb _ _ _ _ _ hc =>
    intro hm
    exact (standsForItself_of_mem hq hb hc hm).2.2 (by decide)

/-- A written string holds no line feed. -/
theorem lineFeed_not_mem_quote (s : String) : 0x0A ∉ quote s := by
  have hescaped : 0x0A ∉ s.toList.flatMap escapeChar := by
    intro hm
    obtain ⟨c, -, hc⟩ := List.mem_flatMap.mp hm
    exact lineFeed_not_mem_escapeChar c hc
  simp [quote, hescaped]

theorem lineFeed_not_mem_members {ms : List (String × Json)} (h : ∀ m ∈ ms, 0x0A ∉ m.2.compact) :
    0x0A ∉ compactMembers ms := by
  induction ms with
  | nil => exact List.not_mem_nil
  | cons m ms ih =>
    have hfirst := h m List.mem_cons_self
    have hkey := lineFeed_not_mem_quote m.1
    cases ms with
    | nil => simp [compactMembers, hfirst, hkey]
    | cons next ms =>
      have hrest := ih fun m hm => h m (List.mem_cons_of_mem _ hm)
      simp [compactMembers, hfirst, hkey, hrest]

/-- A compact object holds a line feed only if one of its values does. -/
theorem lineFeed_not_mem_object {ms : List (String × Json)} (h : ∀ m ∈ ms, 0x0A ∉ m.2.compact) :
    0x0A ∉ (Json.object ms).compact := by
  simp [compact, lineFeed_not_mem_members h]

end Json

namespace Recorder.Entry

open Json

theorem lineFeed_not_mem_compact (entry : Entry) : 0x0A ∉ entry.toJson.compact := by
  have htexts : entry.toJson = .object ([("command", entry.command),
      ("containerId", entry.containerId), ("netns", entry.netns), ("ifName", entry.ifName),
      ("args", entry.args), ("path", entry.path), ("stdin", entry.stdin)].map
        fun field => (field.1, .text field.2)) := rfl
  rw [htexts]
  refine lineFeed_not_mem_object fun m hm => ?_
  obtain ⟨field, -, rfl⟩ := List.mem_map.mp hm
  exact lineFeed_not_mem_quote field.2

/-! ## Reading -/

/-- The written members of an entry after the first. -/
def written (entry : Entry) : List (String × Bytes) :=
  [("containerId", quote entry.containerId), ("netns", quote entry.netns),
    ("ifName", quote entry.ifName), ("args", quote entry.args), ("path", quote entry.path),
    ("stdin", quote entry.stdin)]

/-- What is read of an entry. -/
def draft (entry : Entry) : Draft where
  command := some entry.command
  containerId := some entry.containerId
  netns := some entry.netns
  ifName := some entry.ifName
  args := some entry.args
  path := some entry.path
  stdin := some entry.stdin

theorem readsAll_written (entry : Entry) :
    ReadsAll (readMember shape.fields Stray.pass)
      (("command", quote entry.command) :: entry.written) {} entry.draft := by
  iterate 7 refine .cons (readMember_of_takes rfl rfl (typedText_takes .text _)) ?_
  exact .nil _

/-- An entry is read back from its line, without the line feed. -/
theorem read_compact (entry : Entry) : read entry.toJson.compact = .ok entry := by
  have hlayout : entry.toJson.compact =
      Spacing.none.object ("command", quote entry.command) entry.written := by
    rw [toJson, compact_object]
    rfl
  have htakes := shape_takes entry.readsAll_written rfl Spacing.none
  have hb : ∀ b ∈ ([] : Bytes), isBlank b = true := by simp
  have hread := readDocument_of_takes htakes hb
  rw [List.append_nil, ← hlayout] at hread
  rw [read, hread]
  rfl

/-! ## Lines -/

theorem line_ne_nil (entry : Entry) : entry.line ≠ [] :=
  List.append_ne_nil_of_right_ne_nil _ (List.cons_ne_nil _ _)

/-- The entries of a log, one line for each. -/
def lines (entries : List Entry) : Bytes := entries.flatMap line

/-- A log is split into the entries as they were written; nothing follows the last line feed. -/
theorem split_lines (entries : List Entry) :
    Text.split 0x0A (lines entries) = entries.map (·.toJson.compact) ++ [[]] := by
  induction entries with
  | nil => rfl
  | cons entry entries ih =>
    have hcons : lines (entry :: entries) =
        entry.toJson.compact ++ 0x0A :: lines entries := by
      simp [lines, line]
    rw [hcons, Text.split_append_cons entry.lineFeed_not_mem_compact, ih]
    rfl

end Recorder.Entry
end CniPlugin
