import CniPlugin.Stream.Input
/-!
# How a read to the end of the input ends

A read to the end goes through segments that bring bytes or interrupt it, and stops at the first
that says that the end is reached or that reading failed; if there is none, it stops where the
segments are used up.  How the bytes are divided into segments is nowhere seen.

Results:
1. `readToEnd_eq_ok_iff`: it succeeds exactly on input that delivers, with the bytes that arrived.
2. `readToEnd_eq_error_iff`: it fails exactly on input that breaks off, with the text of the
   failure.
-/

namespace CniPlugin

/-- Whether a read to the end goes on after the segment. -/
def Segment.goesOn : Segment → Prop
  | .bytes _ | .interrupted => True
  | .ended | .failed _ => False

namespace Input

/-- The input delivers `config` and leaves `left`: all of it arrives before the first end. -/
def Delivers (input : Input) (config : Bytes) (left : Input) : Prop :=
  ∃ before : Input, (∀ segment ∈ before, segment.goesOn) ∧ before.content = config ∧
    (input = before ++ .ended :: left ∨ input = before ∧ left = [])

/-- The input breaks off with `text` before the first end and leaves `left`. -/
def BreaksOff (input : Input) (text : String) (left : Input) : Prop :=
  ∃ before : Input, (∀ segment ∈ before, segment.goesOn) ∧ input = before ++ .failed text :: left

/-- Segments that a read goes on after only add their bytes. -/
theorem readToEnd_append {before : Input} (h : ∀ segment ∈ before, segment.goesOn)
    (rest : Input) :
    readToEnd (before ++ rest) =
      match readToEnd rest with
      | (.ok more, left) => (.ok (before.content ++ more), left)
      | (.error text, left) => (.error text, left) := by
  induction before with
  | nil =>
    simp only [List.nil_append, content]
    split <;> simp_all
  | cons segment before ih =>
    have hb := ih fun s hs => h s (List.mem_cons_of_mem _ hs)
    cases segment with
    | bytes chunk =>
      simp only [List.cons_append, readToEnd, hb, content]
      cases readToEnd rest with
      | mk result left => cases result <;> simp
    | interrupted =>
      simp only [List.cons_append, readToEnd, hb, content]
    | ended => exact absurd (h _ List.mem_cons_self) id
    | failed text => exact absurd (h _ List.mem_cons_self) id

theorem forall_goesOn_cons {segment : Segment} {before : Input} (hs : segment.goesOn)
    (hb : ∀ s ∈ before, s.goesOn) : ∀ s ∈ segment :: before, s.goesOn := by
  intro s hm
  rcases List.mem_cons.mp hm with rfl | hm
  · exact hs
  · exact hb s hm

theorem Delivers.cons {segment : Segment} {rest left : Input} {config : Bytes}
    (hs : segment.goesOn) (h : rest.Delivers config left) :
    Delivers (segment :: rest) (content [segment] ++ config) left := by
  obtain ⟨before, hb, hc, hi⟩ := h
  refine ⟨segment :: before, forall_goesOn_cons hs hb, ?_, ?_⟩
  · cases segment <;> simp [content, hc]
  · rcases hi with rfl | ⟨rfl, hl⟩
    · exact .inl rfl
    · exact .inr ⟨rfl, hl⟩

theorem BreaksOff.cons {segment : Segment} {rest left : Input} {text : String}
    (hs : segment.goesOn) (h : rest.BreaksOff text left) :
    BreaksOff (segment :: rest) text left := by
  obtain ⟨before, hb, rfl⟩ := h
  exact ⟨segment :: before, forall_goesOn_cons hs hb, rfl⟩

/-- Every input delivers or breaks off, and a read to its end says which. -/
theorem readToEnd_spec (input : Input) :
    (∃ config left, readToEnd input = (.ok config, left) ∧ input.Delivers config left) ∨
      ∃ text left, readToEnd input = (.error text, left) ∧ input.BreaksOff text left := by
  induction input with
  | nil => exact .inl ⟨[], [], rfl, [], by simp, rfl, .inr ⟨rfl, rfl⟩⟩
  | cons segment rest ih =>
    cases segment with
    | ended => exact .inl ⟨[], rest, rfl, [], by simp, rfl, .inl rfl⟩
    | failed text => exact .inr ⟨text, rest, rfl, [], by simp, rfl⟩
    | bytes chunk =>
      rcases ih with ⟨config, left, hr, hd⟩ | ⟨text, left, hr, hb⟩
      · have hc : Delivers (.bytes chunk :: rest) _ left := hd.cons trivial
        exact .inl ⟨chunk ++ config, left, by simp [readToEnd, hr], by simpa [content] using hc⟩
      · exact .inr ⟨text, left, by simp [readToEnd, hr], hb.cons trivial⟩
    | interrupted =>
      rcases ih with ⟨config, left, hr, hd⟩ | ⟨text, left, hr, hb⟩
      · have hc : Delivers (.interrupted :: rest) _ left := hd.cons trivial
        exact .inl ⟨config, left, by simp [readToEnd, hr], by simpa [content] using hc⟩
      · exact .inr ⟨text, left, by simp [readToEnd, hr], hb.cons trivial⟩

theorem readToEnd_of_delivers {input left : Input} {config : Bytes}
    (h : input.Delivers config left) : readToEnd input = (.ok config, left) := by
  obtain ⟨before, hb, hc, rfl | ⟨rfl, rfl⟩⟩ := h
  · simp [readToEnd_append hb, readToEnd, hc]
  · have := readToEnd_append hb []
    simpa [readToEnd, hc] using this

theorem readToEnd_of_breaksOff {input left : Input} {text : String}
    (h : input.BreaksOff text left) : readToEnd input = (.error text, left) := by
  obtain ⟨before, hb, rfl⟩ := h
  simp [readToEnd_append hb, readToEnd]

theorem readToEnd_eq_ok_iff {input left : Input} {config : Bytes} :
    readToEnd input = (.ok config, left) ↔ input.Delivers config left := by
  refine ⟨fun h => ?_, readToEnd_of_delivers⟩
  rcases readToEnd_spec input with ⟨_, _, hr, hd⟩ | ⟨_, _, hr, _⟩
  · rw [h] at hr
    cases hr
    exact hd
  · rw [h] at hr
    cases hr

theorem readToEnd_eq_error_iff {input left : Input} {text : String} :
    readToEnd input = (.error text, left) ↔ input.BreaksOff text left := by
  refine ⟨fun h => ?_, readToEnd_of_breaksOff⟩
  rcases readToEnd_spec input with ⟨_, _, hr, _⟩ | ⟨_, _, hr, hb⟩
  · rw [h] at hr
    cases hr
  · rw [h] at hr
    cases hr
    exact hb

end Input
end CniPlugin
