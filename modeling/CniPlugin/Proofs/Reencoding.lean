import CniPlugin.Proofs.ReconciledVersion
import CniPlugin.Proofs.PlainReading
/-!
# A configuration is written and read again

A configuration is written with its name and its version first, null if they are missing, and the
other members behind them in the order of their keys.  Where the numbers of these are integers, the
configuration is read from that text again as it was, so writing it once more changes nothing, and
both readers of configurations make of the text what they make of the body it came from.

Results:
1. `lists_compact`: the members of a written object are listed as they stand.
2. `read_compact`: a configuration as it may be read is read back.
3. `reencoded`: the text in place of the body.
-/

namespace CniPlugin

namespace Json

/-! ## Written objects -/

/-- The key of a written member; a comma stands in front of every key but the first. -/
theorem keyAhead_quote (first : Bool) (key : String) (r : Bytes) :
    KeyAhead first ((if first then [] else [0x2C]) ++ (quote key ++ r)) key r := by
  have hquote : skipBlanks (quote key ++ r) =
      0x22 :: (key.toList.flatMap escapeChar ++ 0x22 :: r) := by
    rw [quote_append, skipBlanks_cons (by decide)]
  cases first with
  | true => exact .first hquote (textBody_escaped key r)
  | false => exact .further (skipBlanks_cons (by decide) _) hquote (textBody_escaped key r)

/-- A written member in front of others that are listed. -/
theorem membersAhead_cons {depth : Nat} (first : Bool) {m : String × Json}
    {ms : List (String × Json)} {tail rest : Bytes} (hm : Takes (value depth) m.2.compact m.2)
    (ht : Follows tail) (h : MembersAhead depth false tail ms rest) :
    MembersAhead depth first ((if first then [] else [0x2C]) ++
      (quote m.1 ++ 0x3A :: (m.2.compact ++ tail))) (m :: ms) rest :=
  .member (keyAhead_quote first m.1 _) (skipBlanks_cons (by decide) _) (hm [] tail (by simp) ht) h

/-- The written members after the first. -/
theorem membersAhead_more {depth : Nat} {ms : List (String × Json)}
    (h : ∀ m ∈ ms, Takes (value depth) m.2.compact m.2) (rest : Bytes) :
    MembersAhead depth false
      (Spacing.none.more (ms.map fun m => (m.1, m.2.compact)) ++ 0x7D :: rest) ms rest := by
  induction ms with
  | nil => exact .close (skipBlanks_cons (by decide) rest)
  | cons m ms ih =>
    obtain ⟨hm, hms⟩ := List.forall_mem_cons.mp h
    have hmember := membersAhead_cons false hm (follows_more Spacing.none _ rest) (ih hms)
    simpa [Spacing.more, Spacing.member, Spacing.none] using hmember

/-- The members of a written object are listed as they stand, in whatever order that is. -/
theorem lists_compact {m : String × Json} {ms : List (String × Json)}
    (h : ∀ n ∈ m :: ms, Takes (value (depthLimit - 1)) n.2.compact n.2) :
    Lists (Json.object (m :: ms)).compact (m :: ms) := by
  obtain ⟨hm, hms⟩ := List.forall_mem_cons.mp h
  have hmembers := membersAhead_cons true hm (follows_more Spacing.none _ [])
    (membersAhead_more hms [])
  refine ⟨_, [], ?_, hmembers, rfl⟩
  rw [compact_object, Spacing.object, skipBlanks_cons (by decide)]
  simp [Spacing.member, Spacing.none]

/-- Members that are sorted already are collected as they stand. -/
theorem collect_of_sorted {ms : List (String × Json)} (h : SortedKeys ms) : collect ms = ms := by
  have hfrom (acc : List (String × Json)) (hs : SortedKeys (acc ++ ms)) :
      ms.foldl (fun acc m => insert m.1 m.2 acc) acc = acc ++ ms := by
    induction ms generalizing acc with
    | nil => rw [List.foldl_nil, List.append_nil]
    | cons m ms ih =>
      have hbefore : ∀ n ∈ acc, n.1 < m.1 :=
        fun n hn => (List.pairwise_append.mp hs).2.2 n hn m List.mem_cons_self
      have hall : acc ++ m :: ms = acc ++ [(m.1, m.2)] ++ ms := by
        rw [List.append_assoc]
        rfl
      rw [hall] at hs ⊢
      rw [List.foldl_cons, insert_last hbefore]
      exact ih (List.pairwise_cons.mp h).2 _ hs
  exact hfrom [] h

end Json

namespace NetworkConfig

open Json

/-! ## What is written -/

theorem textOrNull_takes {depth : Nat} (text? : Option String) :
    Takes (value depth) (textOrNull text?).compact (textOrNull text?) := by
  have hkept : Kept depth (textOrNull text?) := by
    cases text? <;> cases depth <;> trivial
  have hintegral : Integral (textOrNull text?) := by
    cases text? with
    | none => exact .null
    | some text => exact .text text
  exact value_takes hkept hintegral

theorem nullOr_textOrNull (text : Option String) :
    nullOr text? (textOrNull text) = some text := by
  cases text <;> rfl

/-- A configuration as it may be read is read back from its text. -/
theorem read_compact {document : NetworkConfig} (hsorted : SortedKeys document.rest)
    (hrest : ∀ m ∈ document.rest, isStray m.1 = true ∧ Kept (depthLimit - 1) m.2)
    (hi : ∀ m ∈ document.rest, Integral m.2) :
    read document.toJson.compact = .ok (some document) := by
  have hlists : Lists document.toJson.compact (("name", textOrNull document.name) ::
      ("cniVersion", textOrNull document.cniVersion) :: document.rest) := by
    refine lists_compact (List.forall_mem_cons.mpr ⟨textOrNull_takes _,
      List.forall_mem_cons.mpr ⟨textOrNull_takes _, fun m hm => ?_⟩⟩)
    exact value_takes (hrest m hm).2 (hi m hm)
  have hstrays : strays document.rest = document.rest :=
    List.filter_eq_self.mpr fun m hm => (hrest m hm).1
  have hnone (key : String) (hkey : isStray key = false) :
      document.rest.filter (·.1 = key) = [] := by
    refine List.filter_eq_nil_iff.mpr fun m hm he => ?_
    rw [← of_decide_eq_true he, (hrest m hm).1] at hkey
    cases hkey
  refine read_eq_some_iff.mpr ⟨_, ⟨some document.name, some document.cniVersion, document.rest⟩,
    hlists, foldlM_take_eq_some_iff.mpr ⟨?_, ?_, ?_⟩, rfl⟩
  · refine foldlM_put_eq_some_iff.mpr
      (.inr ⟨("name", textOrNull document.name), _, ?_, nullOr_textOrNull _, rfl⟩)
    simp [hnone "name" rfl]
  · refine foldlM_put_eq_some_iff.mpr
      (.inr ⟨("cniVersion", textOrNull document.cniVersion), _, ?_, nullOr_textOrNull _, rfl⟩)
    simp [hnone "cniVersion" rfl]
  · show (strays document.rest).foldl (fun acc m => insert m.1 m.2 acc) [] = document.rest
    rw [hstrays]
    exact collect_of_sorted hsorted

/-! ## The text in place of the body -/

/-- The text of a configuration whose numbers are integers is read as that configuration, so its
text in turn is the same.  It is valid if the body is, and declares the version that the body
declares; where the body declares none, neither does the text.  Integers are the numerals in range
without a fraction and an exponent, minus zero excepted (`Numeral.value_eq_integer_iff`). -/
theorem reencoded {body : Bytes} {document : NetworkConfig}
    (h : parse body = .ok (some document)) (hi : ∀ m ∈ document.rest, Integral m.2) :
    (∃ again, parse document.toJson.compact = .ok (some again) ∧ again = document ∧
        again.toJson.compact = document.toJson.compact) ∧
      validate document.toJson.compact = validate body ∧
      ∀ valid, validate body = .ok valid →
        (∃ version, declaredVersion body = .ok version ∧
          declaredVersion document.toJson.compact = .ok version) ∨
        ∃ message message', declaredVersion body = .error ⟨.decoding, message, ""⟩ ∧
          declaredVersion document.toJson.compact = .error ⟨.decoding, message', ""⟩ := by
  have hread := parse_eq_ok_iff.mp h
  obtain ⟨hsorted, hrest⟩ := kept_of_read hread
  have hagain := read_compact hsorted hrest hi
  have hparse := parse_eq_ok_iff.mpr hagain
  have hvalidate : validate document.toJson.compact = validate body := by
    rw [validate, validate, hparse, h]
  refine ⟨⟨document, hparse, rfl, rfl⟩, hvalidate, fun valid hvalid => ?_⟩
  have hsame := (validate_eq_ok_iff.mp hvalid).1
  rw [hread] at hsame
  cases hsame
  cases hversion : document.version? with
  | some version =>
    have hdeclared := version?_eq_some_iff.mp hversion
    exact .inl ⟨version, (declaredVersion_eq_ok_iff hread version).mpr hdeclared,
      (declaredVersion_eq_ok_iff hagain version).mpr hdeclared⟩
  | none =>
    obtain ⟨message, hbody⟩ := declaredVersion_of_no_version hvalid hversion
    obtain ⟨message', htext⟩ := declaredVersion_of_no_version (hvalidate.trans hvalid) hversion
    exact .inr ⟨message, message', hbody, htext⟩

/-- A body with repeated members on two levels and in no order, an escaped text, and no version. -/
def unsorted : Bytes := Text.Utf8.ofString ("\x7b\"z\":0,\"name\":\"n\",\"a\":null," ++
  "\"z\":[18446744073709551615,\x7b\"b\":1,\"b\":\"\\u00e9\\n\"\x7d]\x7d")

/-- Whether the members are null and a list of an integer and an object of a text. -/
def isUnsorted : List (String × Json) → Bool
  | [(_, .null), (_, .list [.number (.integer ..), .object [(_, .text _)]])] => true
  | _ => false

theorem integral_of_isUnsorted {ms : List (String × Json)} (h : isUnsorted ms = true) :
    ∀ m ∈ ms, Integral m.2 := by
  unfold isUnsorted at h
  split at h
  · simp only [List.forall_mem_cons]
    refine ⟨.null, .list ?_, List.forall_mem_nil _⟩
    simp only [List.forall_mem_cons]
    refine ⟨.number _ _, .object ?_, List.forall_mem_nil _⟩
    simp only [List.forall_mem_cons]
    exact ⟨.text _, List.forall_mem_nil _⟩
  · cases h

theorem unsorted_reencoded :
    ∃ document, parse unsorted = .ok (some document) ∧
      document.toJson.compact = Text.Utf8.ofString
        ("\x7b\"name\":\"n\",\"cniVersion\":null,\"a\":null," ++
          "\"z\":[18446744073709551615,\x7b\"b\":\"\u00e9\\n\"\x7d]\x7d") ∧
      parse document.toJson.compact = .ok (some document) ∧
      validate document.toJson.compact = .ok document ∧
      ∃ message, declaredVersion document.toJson.compact = .error ⟨.decoding, message, ""⟩ := by
  have hwritten : (validate unsorted).toOption.map (·.toJson.compact) =
      some (Text.Utf8.ofString
        ("\x7b\"name\":\"n\",\"cniVersion\":null,\"a\":null," ++
          "\"z\":[18446744073709551615,\x7b\"b\":\"\u00e9\\n\"\x7d]\x7d")) := by
    decide +kernel
  have hshape : (validate unsorted).toOption.any (isUnsorted ·.rest) = true := by decide +kernel
  have hversion : (declaredVersion unsorted).toOption.isNone = true := by decide +kernel
  obtain ⟨document, hvalid, htext⟩ := Option.map_eq_some_iff.mp hwritten
  rw [hvalid, Option.any_some] at hshape
  have hvalid := ok_of_toOption hvalid
  have hparse := parse_eq_ok_iff.mpr (validate_eq_ok_iff.mp hvalid).1
  obtain ⟨⟨again, hagain, rfl, -⟩, hsame, hdeclared⟩ :=
    reencoded hparse (integral_of_isUnsorted hshape)
  refine ⟨again, hparse, htext, hagain, hsame.trans hvalid, ?_⟩
  rcases hdeclared again hvalid with ⟨version, hbody, -⟩ | ⟨-, message, -, hfails⟩
  · rw [hbody] at hversion
    cases hversion
  · exact ⟨message, hfails⟩

end NetworkConfig
end CniPlugin
