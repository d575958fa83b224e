import CniPlugin.Version.Support
import CniPlugin.Proofs.WrittenValues
import CniPlugin.Proofs.WrittenLines
/-!
# The answer to VERSION is read back

A plugin answers VERSION with its list of versions, on one line.  A runtime reads the same list
from it, in the same order and with every text as it was, unless the list is empty: an answer that
lists no version is refused.

Results:
1. `typedTexts_takes`: a written list of texts is read back.
2. `answer_line`: the answer is one line.
3. `decode_answer`: it is read back as the list it was written from.
-/

namespace CniPlugin

open Json

theorem Json.typedTexts_takes (texts : List String) :
    Takes typedTexts (Json.list (texts.map .text)).compact texts := by
  intro blanks tail hb _
  have hitems : ItemsTake (typedText .text) quote texts :=
    fun text _ => ⟨typedText_takes .text text, startsItem_compact (.text text)⟩
  have htexts : compactItems (texts.map .text) = itemTexts (texts.map quote) := by
    rw [compactItems_eq, List.map_map]
    rfl
  have hread := map_of_ok (inList_items hitems tail) List.reverse
  rw [List.reverse_reverse] at hread
  rw [compact, htexts, List.cons_append, List.append_assoc, typedTexts, skipBlanks_append hb,
    skipBlanks_cons (by decide)]
  exact hread

namespace Support

/-- The answer is one line. -/
theorem answer_line (support : Support) :
    ∃ line, support.answer = line ++ [0x0A] ∧ 0x0A ∉ line :=
  ⟨_, rfl, lineFeed_not_mem_compact support.toJson⟩

theorem read_answer (support : Support) :
    readDocument (shape.read {}) support.answer =
      .ok ⟨some Version.current, some support.versions⟩ := by
  rw [answer, toJson, compact_object]
  refine readDocument_of_takes (shape_takes ?_ rfl _) (Spacing.blank_newLine 0)
  refine .cons (readMember_of_takes rfl rfl (typedText_takes .text Version.current)) ?_
  exact .cons (readMember_of_takes rfl rfl (typedTexts_takes support.versions)) (.nil _)

/-- The answer is read back as the list it was written from, unless that is empty. -/
theorem decode_answer (support : Support) :
    decode support.answer =
      if support.versions = [] then .error .noVersions else .ok support := by
  rw [decode, read_answer]
  obtain ⟨versions⟩ := support
  cases versions with
  | nil => rfl
  | cons version versions => rfl

end Support
end CniPlugin
