import CniPlugin.Proofs.WellFormedUtf8
import CniPlugin.Proofs.PlainReading
import CniPlugin.Proofs.ReconciledVersion
import CniPlugin.Proofs.LogJournal
/-!
# What is accepted is text

A reader of values that are kept looks at the bytes of a string only once its escapes are resolved.
Since an escape stands for whole characters, and is ASCII itself, the bytes as they stand in the
input are well formed as well; outside of strings there is nothing but ASCII.  So a configuration
that is accepted is UTF-8 from end to end, and the log holds it byte for byte.

Results:
1. `text_of_textBytes`: a string is well formed as it stands if it is with its escapes resolved.
2. `textUpTo_of_value`, `wellFormed_of_parse`: so is a value that is kept, and a whole document.
3. `text_of_parse`: so is a configuration that is accepted.
4. `logged_without_loss`: an entry of the log gives back the configuration as it was read.
-/

namespace CniPlugin

namespace Json

open Text.Utf8 (WellFormed)

/-- Between the two there is a well-formed text. -/
def TextUpTo (s rest : Bytes) : Prop := ∃ used, WellFormed used ∧ s = used ++ rest

variable {s rest middle : Bytes}

theorem TextUpTo.refl (s : Bytes) : TextUpTo s s :=
  ⟨[], Text.Utf8.wellFormed_encode [], rfl⟩

theorem TextUpTo.trans (h : TextUpTo s middle) (h' : TextUpTo middle rest) : TextUpTo s rest := by
  obtain ⟨first, hf, rfl⟩ := h
  obtain ⟨second, hs, rfl⟩ := h'
  exact ⟨first ++ second, hf.append hs, (List.append_assoc ..).symm⟩

theorem textUpTo_append {ascii : Bytes} (h : ∀ b ∈ ascii, b < 0x80) (rest : Bytes) :
    TextUpTo (ascii ++ rest) rest :=
  ⟨ascii, Text.Utf8.wellFormed_of_ascii h, rfl⟩

theorem textUpTo_cons {b : UInt8} (h : b < 0x80) (rest : Bytes) : TextUpTo (b :: rest) rest :=
  @textUpTo_append [b] (by simpa using h) rest

/-! ## Blanks, words and numerals -/

theorem ascii_of_all {bs : Bytes} (h : bs.all (· < 0x80) = true) : ∀ b ∈ bs, b < 0x80 :=
  fun b hb => of_decide_eq_true (List.all_eq_true.mp h b hb)

theorem ascii_of_isBlank {b : UInt8} (h : isBlank b = true) : b < 0x80 := by
  simp only [isBlank, Bool.or_eq_true, decide_eq_true_eq] at h
  rcases h with ((rfl | rfl) | rfl) | rfl <;> decide

theorem ascii_of_isDigit {b : UInt8} (h : isDigit b = true) : b < 0x80 := by
  simp only [isDigit, Bool.and_eq_true, decide_eq_true_eq, UInt8.le_iff_toNat_le] at h
  rw [UInt8.lt_iff_toNat_lt]
  exact Nat.lt_of_le_of_lt h.2 (by decide)

theorem textUpTo_dropWhile {p : UInt8 → Bool} (hp : ∀ b, p b = true → b < 0x80) (s : Bytes) :
    TextUpTo s (s.dropWhile p) := by
  have hascii : ∀ b ∈ s.takeWhile p, b < 0x80 :=
    fun b hb => hp b (List.all_eq_true.mp List.all_takeWhile b hb)
  have h := textUpTo_append hascii (s.dropWhile p)
  rw [List.takeWhile_append_dropWhile] at h
  exact h

theorem textUpTo_skipBlanks (s : Bytes) : TextUpTo s (skipBlanks s) :=
  textUpTo_dropWhile (fun _ => ascii_of_isBlank) s

theorem textUpTo_of_skipBlanks {b : UInt8} (hb : b < 0x80) (h : skipBlanks s = b :: rest) :
    TextUpTo s rest := by
  have hs := textUpTo_skipBlanks s
  rw [h] at hs
  exact hs.trans (textUpTo_cons hb rest)

theorem textUpTo_word {es : Bytes} (hes : ∀ b ∈ es, b < 0x80) (h : word es s = .ok ((), rest)) :
    TextUpTo s rest := by
  rw [eq_append_of_word h]
  exact textUpTo_append hes rest

theorem textUpTo_digits {d : UInt8} (hd : isDigit d = true) (s : Bytes) :
    TextUpTo (d :: s) (s.dropWhile isDigit) :=
  (textUpTo_cons (ascii_of_isDigit hd) s).trans (textUpTo_dropWhile (fun _ => ascii_of_isDigit) s)

theorem textUpTo_wholeDigits {atEnd : Cause} {digits : Bytes}
    (h : wholeDigits atEnd s = .ok (digits, rest)) : TextUpTo s rest := by
  unfold wholeDigits at h
  split at h
  · cases h
  · next b r =>
    split at h
    · next hb =>
      subst hb
      split at h
      · cases h
        exact textUpTo_cons (by decide) []
      · split at h <;> cases h
        exact textUpTo_cons (by decide) _
    · split at h <;> cases h
      next hb => exact textUpTo_digits hb r

theorem textUpTo_fractionDigits {atEnd : Cause} {digits : Bytes}
    (h : fractionDigits atEnd s = .ok (digits, rest)) : TextUpTo s rest := by
  unfold fractionDigits at h
  split at h
  · cases h
    exact .refl []
  · next b r =>
    split at h
    · next hb =>
      subst hb
      split at h
      · cases h
      · next d r' =>
        split at h <;> cases h
        next hd => exact (textUpTo_cons (by decide) _).trans (textUpTo_digits hd r')
    · cases h
      exact .refl (b :: r)

theorem textUpTo_exponentSign (s : Bytes) : TextUpTo s (exponentSign s).2 := by
  unfold exponentSign
  split
  · exact .refl []
  · split
    · next hb => exact textUpTo_cons (by rw [hb]; decide) _
    · split
      · next hb => exact textUpTo_cons (by rw [hb]; decide) _
      · exact .refl _

theorem textUpTo_exponentDigits {atEnd : Cause} {digits : Option (Bool × Bytes)}
    (h : exponentDigits atEnd s = .ok (digits, rest)) : TextUpTo s rest := by
  unfold exponentDigits at h
  split at h
  · cases h
    exact .refl []
  · next b r =>
    have hsign := textUpTo_exponentSign r
    split at h
    · next hb =>
      have hmark : b < 0x80 := by
        simp only [Bool.or_eq_true, decide_eq_true_eq] at hb
        rcases hb with rfl | rfl <;> decide
      split at h
      · cases h
      · next negative d r' hr =>
        rw [hr] at hsign
        split at h <;> cases h
        next hd => exact (textUpTo_cons hmark r).trans (hsign.trans (textUpTo_digits hd r'))
    · cases h
      exact .refl (b :: r)

theorem textUpTo_numberAfterSign {negative : Bool} {n : Number}
    (h : numberAfterSign negative s = .ok (n, rest)) : TextUpTo s rest := by
  obtain ⟨m, hm⟩ := numeral_of_numberAfterSign h
  obtain ⟨whole, s₁, hw, hm⟩ := bind_eq_ok_iff.mp hm
  obtain ⟨fraction, s₂, hf, hm⟩ := bind_eq_ok_iff.mp hm
  obtain ⟨exponent, s₃, he, hm⟩ := bind_eq_ok_iff.mp hm
  cases hm
  exact (textUpTo_wholeDigits hw).trans
    ((textUpTo_fractionDigits hf).trans (textUpTo_exponentDigits he))

/-! ## Strings -/

theorem ascii_of_hexValue? {b : UInt8} {n : Nat} (h : hexValue? b = some n) : b < 0x80 := by
  unfold hexValue? at h
  split at h
  · next hd => exact ascii_of_isDigit hd
  · split at h
    · next hb =>
      simp [UInt8.le_iff_toNat_le, UInt8.lt_iff_toNat_lt] at hb ⊢
      omega
    · split at h
      · next hb =>
        simp [UInt8.le_iff_toNat_le, UInt8.lt_iff_toNat_lt] at hb ⊢
        omega
      · cases h

/-- An escape by a number is ASCII. -/
theorem ascii_of_hexFour? {a b c d : UInt8} {n : Nat} (h : hexFour? a b c d = some n) :
    ∀ x ∈ ([0x5C, 0x75, a, b, c, d] : Bytes), x < 0x80 := by
  obtain ⟨_, ha, h⟩ := Option.bind_eq_some_iff.mp h
  obtain ⟨_, hb, h⟩ := Option.bind_eq_some_iff.mp h
  obtain ⟨_, hc, h⟩ := Option.bind_eq_some_iff.mp h
  obtain ⟨_, hd, -⟩ := Option.bind_eq_some_iff.mp h
  simp [ascii_of_hexValue? ha, ascii_of_hexValue? hb, ascii_of_hexValue? hc,
    ascii_of_hexValue? hd]

theorem ascii_of_unescape? {e c : UInt8} (h : unescape? e = some c) : e < 0x80 ∧ c < 0x80 := by
  unfold unescape? at h
  split at h
  · next he =>
    cases h
    simp only [Bool.or_eq_true, decide_eq_true_eq] at he
    rcases he with (rfl | rfl) | rfl <;> decide
  · repeat' split at h
    all_goals
      cases h
    all_goals
      next he => exact ⟨by rw [he]; decide, by decide⟩

/-- An escape stands for a whole character, so a text may be cut there; the escape itself is
ASCII. -/
theorem text_of_escape {before more r : Bytes} {c : Char}
    (hbefore : WellFormed (before ++ (String.utf8EncodeChar c ++ more))) (escape : Bytes)
    (hescape : ∀ b ∈ escape, b < 0x80)
    (ih : ∀ {before : Bytes}, WellFormed (before ++ more) →
      ∃ used, WellFormed (before ++ used) ∧ r = used ++ rest) :
    ∃ used, WellFormed (before ++ used) ∧ escape ++ r = used ++ rest := by
  obtain ⟨hb, hmore⟩ := Text.Utf8.wellFormed_of_append_encodeChar hbefore
  have hcut : WellFormed ([] ++ more) := hmore
  obtain ⟨used, hused, rfl⟩ := ih hcut
  exact ⟨escape ++ used, hb.append ((Text.Utf8.wellFormed_of_ascii hescape).append hused),
    (List.append_assoc ..).symm⟩

/-- A string is well formed as it stands if it is with its escapes resolved, also behind bytes that
only the string makes up to a character. -/
theorem text_of_textBytes {content before : Bytes} (h : textBytes s = .ok (content, rest))
    (hbefore : WellFormed (before ++ content)) :
    ∃ used, WellFormed (before ++ used) ∧ s = used ++ rest := by
  fun_induction textBytes s generalizing content before with
  | case2 r =>
    cases h
    rw [List.append_nil] at hbefore
    exact ⟨[0x22], hbefore.append (Text.Utf8.wellFormed_of_ascii (ascii_of_all rfl)), rfl⟩
  | case9 h₁ h₂ h₃ h₄ high hh _ _ l₁ l₂ l₃ l₄ r low hl _ _ ih =>
    obtain ⟨more, hm, hcontent⟩ := ok_of_prepend h
    rw [hcontent] at hbefore
    exact text_of_escape hbefore ([0x5C, 0x75, h₁, h₂, h₃, h₄] ++ [0x5C, 0x75, l₁, l₂, l₃, l₄])
      (List.forall_mem_append.mpr ⟨ascii_of_hexFour? hh, ascii_of_hexFour? hl⟩)
      fun hmore => ih hm hmore
  | case14 a b c d r n hn _ _ _ ih =>
    obtain ⟨more, hm, rfl⟩ := ok_of_prepend h
    exact text_of_escape hbefore _ (ascii_of_hexFour? hn) fun hmore => ih hm hmore
  | case17 e r _ c hc _ ih =>
    obtain ⟨more, hm, rfl⟩ := ok_of_prepend h
    obtain ⟨he, hlow⟩ := ascii_of_unescape? hc
    rw [← Text.Utf8.encodeChar_one hlow] at hbefore
    refine text_of_escape hbefore [0x5C, e] ?_ fun hmore => ih hm hmore
    simp [he]
  | case19 b r h1 h2 h3 ih =>
    -- A byte that stands for itself may be a part of a character, so it joins those before it.
    obtain ⟨more, hm, rfl⟩ := ok_of_prepend h
    have hlonger : WellFormed (before ++ [b] ++ more) := by simpa using hbefore
    obtain ⟨used, hused, rfl⟩ := ih hm hlonger
    exact ⟨b :: used, by simpa using hused, rfl⟩
  | case1 | case3 | case4 | case5 | case6 | case7 | case8 | case10 | case11 | case12 | case13
  | case15 | case16 | case18 => cases h

theorem textUpTo_of_textBody {text : String} (h : textBody s = .ok (text, rest)) :
    TextUpTo s rest := by
  unfold textBody at h
  split at h
  · cases h
  · next content r ht =>
    split at h <;> cases h
    next cs hc =>
      have hcontent : WellFormed ([] ++ content) := ⟨cs, hc⟩
      exact text_of_textBytes ht hcontent

/-! ## Lists and objects -/

theorem textUpTo_of_nextItem {first more : Bool} (h : nextItem first s = .ok (more, rest)) :
    TextUpTo s rest := by
  rcases nextItem_of_ok h with ⟨-, r, hs, rfl⟩ | ⟨-, -, b, r, -, hs, rfl⟩ |
    ⟨-, -, r, c, t, hs, hr, rfl⟩
  · exact hs ▸ textUpTo_skipBlanks s
  · exact hs ▸ textUpTo_skipBlanks s
  · exact (textUpTo_of_skipBlanks (by decide) hs).trans (hr ▸ textUpTo_skipBlanks r)

theorem textUpTo_of_itemsWithin {σ : Type} {item : σ → Reader σ}
    (hitem : ∀ acc s acc' rest, item acc s = .ok (acc', rest) → TextUpTo s rest)
    {rounds : Bytes} {first : Bool} {acc out : σ}
    (h : itemsWithin item rounds first acc s = .ok (out, rest)) : TextUpTo s rest := by
  induction rounds generalizing first acc s with
  | nil => cases h
  | cons x rounds ih =>
    obtain ⟨more, s₁, hnext, h⟩ := bind_eq_ok_iff.mp h
    have hcomma := textUpTo_of_nextItem hnext
    cases more with
    | false =>
      cases h
      exact hcomma
    | true =>
      obtain ⟨acc₁, s₂, hi, h⟩ := bind_eq_ok_iff.mp h
      exact hcomma.trans ((hitem _ _ _ _ hi).trans (ih h))

theorem textUpTo_of_keyAhead {first : Bool} {key : String} (h : KeyAhead first s key rest) :
    TextUpTo s rest := by
  cases h with
  | first hs ht => exact (textUpTo_of_skipBlanks (by decide) hs).trans (textUpTo_of_textBody ht)
  | further hs hr ht =>
    exact (textUpTo_of_skipBlanks (by decide) hs).trans
      ((textUpTo_of_skipBlanks (by decide) hr).trans (textUpTo_of_textBody ht))

theorem textUpTo_of_membersAhead {depth : Nat}
    (hvalue : ∀ s v rest, value depth s = .ok (v, rest) → TextUpTo s rest) {first : Bool}
    {ms : List (String × Json)} (h : MembersAhead depth first s ms rest) : TextUpTo s rest := by
  induction h with
  | close hs => exact textUpTo_of_skipBlanks (by decide) hs
  | member hk hc hv _ ih =>
    exact (textUpTo_of_keyAhead hk).trans
      ((textUpTo_of_skipBlanks (by decide) hc).trans ((hvalue _ _ _ hv).trans ih))

/-! ## Values and documents -/

theorem textUpTo_of_valueAhead {list object : Reader Json} {v : Json}
    (hl : ∀ r, list r = .ok (v, rest) → TextUpTo r rest)
    (ho : ∀ r, object r = .ok (v, rest) → TextUpTo r rest)
    (h : ValueAhead list object s v rest) : TextUpTo s rest := by
  cases h with
  | null hs hw | true hs hw | false hs hw =>
    exact (textUpTo_of_skipBlanks (by decide) hs).trans (textUpTo_word (ascii_of_all rfl) hw)
  | minus hs hn =>
    exact (textUpTo_of_skipBlanks (by decide) hs).trans (textUpTo_numberAfterSign hn)
  | digit _ hs hn => exact (hs ▸ textUpTo_skipBlanks s).trans (textUpTo_numberAfterSign hn)
  | text hs ht => exact (textUpTo_of_skipBlanks (by decide) hs).trans (textUpTo_of_textBody ht)
  | list hs hv => exact (textUpTo_of_skipBlanks (by decide) hs).trans (hl _ hv)
  | object hs hv => exact (textUpTo_of_skipBlanks (by decide) hs).trans (ho _ hv)

/-- A value that is kept is well formed as it stands, however deep it is nested. -/
theorem textUpTo_of_value {depth : Nat} {v : Json} (h : value depth s = .ok (v, rest)) :
    TextUpTo s rest := by
  induction depth generalizing s v rest with
  | zero =>
    have hflat : ValueAhead (failHere .tooDeep) (failHere .tooDeep) s v rest :=
      valueWith_eq_ok_iff.mp h
    exact textUpTo_of_valueAhead (fun _ h => by cases h) (fun _ h => by cases h) hflat
  | succ depth ih =>
    refine textUpTo_of_valueAhead (fun r hl => ?_) (fun r ho => ?_) (valueWith_eq_ok_iff.mp h)
    · obtain ⟨acc, hl, -⟩ := map_eq_ok_iff.mp hl
      obtain ⟨middle, hitems, hclose⟩ := inList_eq_ok_iff.mp hl
      refine (textUpTo_of_itemsWithin (fun acc s acc' rest hi => ?_) hitems).trans
        (textUpTo_of_skipBlanks (by decide) hclose)
      obtain ⟨item, hi, -⟩ := map_eq_ok_iff.mp hi
      exact ih hi
    · obtain ⟨acc, ho, -⟩ := map_eq_ok_iff.mp ho
      obtain ⟨ms, hms, -⟩ := (inObject_members_eq_ok_iff (readsBy_insert depth)).mp ho
      exact textUpTo_of_membersAhead (fun _ _ _ hv => ih hv) hms

/-- A document is well formed as it stands. -/
theorem wellFormed_of_parse {input : Bytes} {v : Json} (h : parse input = .ok v) :
    WellFormed input := by
  obtain ⟨rest, hv, hend⟩ := readDocument_eq_ok_iff.mp h
  obtain ⟨used, hused, rfl⟩ := (textUpTo_of_value hv).trans (textUpTo_skipBlanks rest)
  rw [hend, List.append_nil]
  exact hused

end Json

/-! ## Configurations -/

/-- A configuration that is accepted is UTF-8 from end to end. -/
theorem NetworkConfig.text_of_parse {body : Bytes} {config? : Option NetworkConfig}
    (h : parse body = .ok config?) : ∃ text, body = Text.Utf8.ofString text := by
  have hread := parse_eq_ok_iff.mp h
  -- Whatever is accepted as a configuration is accepted as plain JSON.
  have hplain : ∃ v, Json.parse body = .ok v := by
    cases config? with
    | none => exact ⟨_, read_eq_none_iff.mp hread⟩
    | some config =>
      obtain ⟨ms, draft, hlists, -⟩ := read_eq_some_iff.mp hread
      exact ⟨_, Json.parse_eq_object_iff.mpr ⟨ms, hlists, rfl⟩⟩
  obtain ⟨v, hv⟩ := hplain
  obtain ⟨cs, hcs⟩ := Json.wellFormed_of_parse hv
  refine ⟨String.ofList cs, ?_⟩
  rw [Text.Utf8.eq_encode_of_decode hcs, Text.Utf8.ofString, String.toList_ofList]

theorem Text.Utf8.lossyString_ofString (text : String) : lossyString (ofString text) = text := by
  rw [lossyString, ofString, lossy_of_decode (decode_encode _), String.ofList_toList]

namespace Recorder

/-- What is logged has arrived as a configuration that is valid. -/
theorem delivers_of_logsTo {visit : Visit} {files : Files} {location : Location} {entry : Entry}
    (h : visit.LogsTo files location entry) :
    ∃ body left document, visit.session.input.Delivers body left ∧
      NetworkConfig.parse body = .ok (some document) ∧
      entry.stdin = Text.Utf8.lossyString body := by
  cases h.opened with
  | intro hcall _ _ _ _ =>
    obtain ⟨parameters, config, declared, hadmits, rfl⟩ := Session.admits_of_call hcall
    obtain ⟨left, hdelivered⟩ := hadmits.delivered
    obtain ⟨document, hvalid⟩ := hadmits.valid
    have hread := (NetworkConfig.validate_eq_ok_iff.mp hvalid).1
    exact ⟨config, left, document, hdelivered, NetworkConfig.parse_eq_ok_iff.mpr hread, rfl⟩

/-- A configuration that is accepted is UTF-8 as a whole, so nothing in it is replaced.  Wherever
the recorder logs an invocation, the line it appends is read back as a record that has exactly the
bytes that the input has delivered. -/
theorem logged_without_loss :
    (∀ (body : Bytes) (config? : Option NetworkConfig), NetworkConfig.parse body = .ok config? →
      ∃ text, Text.Utf8.toString? body = some text ∧ Text.Utf8.ofString text = body ∧
        Text.Utf8.lossyString body = text) ∧
    ∀ (visit : Visit) (files : Files) (location : Location) (entry : Entry),
      visit.LogsTo files location entry →
      ∃ body left line record, visit.session.input.Delivers body left ∧
        files.Gains (visit.run files).session.files location (line ++ [0x0A]) ∧ 0x0A ∉ line ∧
        Entry.read line = .ok record ∧ Text.Utf8.ofString record.stdin = body := by
  refine ⟨fun body config? hparse => ?_, fun visit files location entry hlogs => ?_⟩
  · obtain ⟨text, rfl⟩ := NetworkConfig.text_of_parse hparse
    exact ⟨text, Text.Utf8.toString?_ofString text, rfl, Text.Utf8.lossyString_ofString text⟩
  · obtain ⟨body, left, document, hdelivered, hparse, hstdin⟩ := delivers_of_logsTo hlogs
    obtain ⟨text, rfl⟩ := NetworkConfig.text_of_parse hparse
    rw [Text.Utf8.lossyString_ofString] at hstdin
    exact ⟨Text.Utf8.ofString text, left, entry.toJson.compact, entry, hdelivered,
      Visit.gains_of_stores (.whole hlogs), entry.lineFeed_not_mem_compact, entry.read_compact,
      congrArg Text.Utf8.ofString hstdin⟩

/-- A configuration with an escape and a character of two bytes, the first of which is the 32nd. -/
def divided : Bytes := Text.Utf8.ofString
  "\x7b\"commandLog\":\"./log\",\"name\":\"n\u00e9\\u0007\",\"cniVersion\":\"0.4.0\"\x7d"

/-- A check with that configuration, which arrives in two parts that the character is divided
between. -/
def dividing : Visit where
  session :=
    { environment := .ofList
        [("CNI_COMMAND", Text.Utf8.ofString "CHECK"), ("CNI_CONTAINERID", Text.Utf8.ofString "c"),
         ("CNI_NETNS", Text.Utf8.ofString "n"), ("CNI_IFNAME", Text.Utf8.ofString "e"),
         ("CNI_PATH", Text.Utf8.ofString "/bin")]
      input := [.bytes (divided.take 32), .bytes (divided.drop 32)] }
  offer := Support.offer ⟨["0.3.1", "0.4.0"]⟩
  about := ""
  quiet := Conduct.leavesFiles_writeAndFlush _

theorem delivers_dividing : dividing.session.input.Delivers divided [] :=
  ⟨dividing.session.input, by simp [dividing, Segment.goesOn],
    by simp [dividing, Input.content], .inr ⟨rfl, rfl⟩⟩

theorem dividing_logged :
    (∃ text, Text.Utf8.toString? divided = some text ∧ Text.Utf8.lossyString divided = text) ∧
    ∃ entry line record, dividing.LogsTo {} ["log"] entry ∧
      ({} : Files).Gains (dividing.run {}).session.files ["log"] (line ++ [0x0A]) ∧
      Entry.read line = .ok record ∧ Text.Utf8.ofString record.stdin = divided := by
  have haccepted : (NetworkConfig.parse divided).toOption.isSome = true := by decide +kernel
  obtain ⟨config?, hparse⟩ := Option.isSome_iff_exists.mp haccepted
  obtain ⟨text, htext, -, hlossy⟩ := logged_without_loss.1 _ _ (Json.ok_of_toOption hparse)
  have hgrown : (dividing.run {}).session.files.find? ["log"] ≠ none := by decide +kernel
  obtain ⟨entry, hlogs⟩ : ∃ entry, dividing.LogsTo {} ["log"] entry := by
    refine Classical.byContradiction fun hnone => hgrown ?_
    exact Visit.find?_of_not_opens fun entry hopens =>
      hnone ⟨entry, Visit.logsTo_of_unlimited rfl hopens⟩
  obtain ⟨body, left, line, record, hdelivered, hgains, -, hread, hstdin⟩ :=
    logged_without_loss.2 dividing {} ["log"] entry hlogs
  have hsame := (Input.readToEnd_of_delivers hdelivered).symm.trans
    (Input.readToEnd_of_delivers delivers_dividing)
  obtain rfl := Except.ok.inj (Prod.mk.inj hsame).1
  exact ⟨⟨text, htext, hlossy⟩, entry, line, record, hlogs, hgains, hread, hstdin⟩

end Recorder
end CniPlugin
