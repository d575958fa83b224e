import CniPlugin.Proofs.CheckSelection
/-!
# What the details of an incompatibility name

The details quote the declared version and the whole list.  Whatever the texts are, also if they
hold quotes, commas, brackets or backslashes themselves, the end of every quoted text and of the
list can be told, so equal details name the same version and the same list.

Results:
1. `PrefixCode.closed`: words of a code one after the other, with an end mark.
2. `prefixCode_encodeChar`, `prefixCode_encode`, `prefixCode_encodeList`: quoted characters, texts
   and lists.
3. `incompatibleDetails_eq_iff`: the details.
4. `details_identify`: the faults that carry them.
-/

namespace CniPlugin

namespace Text

/-! ## Codes -/

/-- The end of every word can be told, whatever follows it. -/
def PrefixCode {α β : Type} (code : α → List β) : Prop :=
  ∀ ⦃a b : α⦄ ⦃rest rest' : List β⦄, code a ++ rest = code b ++ rest' → a = b ∧ rest = rest'

namespace PrefixCode

variable {α β : Type} {code : α → List β}

theorem injective (h : PrefixCode code) : Function.Injective code := by
  intro a b he
  exact (h (congrArg (· ++ []) he)).1

/-- The same in front of every word changes nothing. -/
theorem behind (h : PrefixCode code) (lead : List β) : PrefixCode fun a => lead ++ code a := by
  intro a b rest rest' he
  rw [List.append_assoc, List.append_assoc, List.append_cancel_left_eq] at he
  exact h he

/-- Words one after the other, closed by a mark that starts no word. -/
theorem closed (h : PrefixCode code) {mark : β}
    (hmark : ∀ a rest rest', code a ++ rest ≠ mark :: rest') :
    PrefixCode fun as : List α => as.flatMap code ++ [mark] := by
  intro as bs rest rest' he
  -- Word by word; if one side is at its mark, the other cannot be at a word.
  induction as generalizing bs with
  | nil =>
    cases bs with
    | nil => simpa using he
    | cons b bs =>
      simp only [List.flatMap_nil, List.nil_append, List.flatMap_cons, List.append_assoc,
        List.singleton_append] at he
      exact absurd he.symm (hmark b _ _)
  | cons a as ih =>
    cases bs with
    | nil =>
      simp only [List.flatMap_nil, List.nil_append, List.flatMap_cons, List.append_assoc,
        List.singleton_append] at he
      exact absurd he (hmark a _ _)
    | cons b bs =>
      simp only [List.flatMap_cons, List.append_assoc] at he
      obtain ⟨rfl, he⟩ := h he
      obtain ⟨rfl, rfl⟩ := ih (by simpa using he)
      exact ⟨rfl, rfl⟩

end PrefixCode

namespace Quoted

/-! ## Characters -/

/-- The letters that stand for a character behind a backslash. -/
def letters : List (Char × Char) :=
  [('"', '"'), ('\\', '\\'), ('\n', 'n'), ('\r', 'r'), ('\t', 't'), ('\x00', '0')]

/-- The ways in which a character stands between quotes. -/
inductive Stands : Char → List Char → Prop
  | itself {c : Char} : c ≠ '"' → c ≠ '\\' → Stands c [c]
  | letter {c letter : Char} : (c, letter) ∈ letters → Stands c ['\\', letter]
  | number {c : Char} : Stands c ('\\' :: 'u' :: '{' :: (Nat.toDigits 16 c.toNat ++ ['}']))

theorem stands_encodeChar (c : Char) : Stands c (encodeChar c) := by
  fun_cases encodeChar c
  case case7 => exact .number
  case case8 hquote hbackslash _ _ _ _ _ => exact .itself hquote hbackslash
  all_goals exact .letter (by simp [letters, *])

theorem digitChar_inj : ∀ d < 16, ∀ e < 16, Nat.digitChar d = Nat.digitChar e → d = e := by decide

/-- The last digit of a number and those in front of it. -/
theorem toDigits_eq_append (n : Nat) : Nat.toDigits 16 n =
    (if n < 16 then [] else Nat.toDigits 16 (n / 16)) ++ [Nat.digitChar (n % 16)] := by
  split
  · next hlt => rw [Nat.toDigits_of_lt_base hlt, Nat.mod_eq_of_lt hlt, List.nil_append]
  · next hge => exact Nat.toDigits_of_base_le (by decide) (Nat.le_of_not_lt hge)

theorem exists_digit_of_mem {n : Nat} {c : Char} (h : c ∈ Nat.toDigits 16 n) :
    ∃ d < 16, c = Nat.digitChar d := by
  induction n using Nat.strongRecOn with
  | ind n ih =>
    rw [toDigits_eq_append, List.mem_append, List.mem_singleton] at h
    rcases h with h | h
    · split at h
      · cases h
      · exact ih (n / 16) (by omega) h
    · exact ⟨n % 16, by omega, h⟩

theorem toDigits_inj {m n : Nat} (h : Nat.toDigits 16 m = Nat.toDigits 16 n) : m = n := by
  induction m using Nat.strongRecOn generalizing n with
  | ind m ih =>
    rw [toDigits_eq_append m, toDigits_eq_append n] at h
    obtain ⟨hinit, hlast⟩ := List.append_inj' h rfl
    have hrem : m % 16 = n % 16 :=
      digitChar_inj _ (by omega) _ (by omega) (List.singleton_inj.mp hlast)
    split at hinit <;> split at hinit
    · omega
    · exact absurd hinit.symm Nat.toDigits_ne_nil
    · exact absurd hinit Nat.toDigits_ne_nil
    · have hquot := ih (m / 16) (by omega) hinit
      omega

/-- The brace behind a number ends it. -/
theorem prefixCode_number : PrefixCode fun n => Nat.toDigits 16 n ++ ['}'] := by
  intro m n rest rest' he
  have hbrace (k : Nat) : '}' ∉ Nat.toDigits 16 k := by
    intro hmem
    obtain ⟨d, hd, hc⟩ := exists_digit_of_mem hmem
    exact absurd hc.symm ((by decide : ∀ d < 16, Nat.digitChar d ≠ '}') d hd)
  have hcut := congrArg (cut '}') he
  simp only [List.append_assoc, List.singleton_append, cut_append_cons (hbrace _),
    Option.some.injEq, Prod.mk.injEq] at hcut
  exact ⟨toDigits_inj hcut.1, hcut.2⟩

/-- What stands for a character tells the character and its own end. -/
theorem Stands.ends {c d : Char} {cs ds rest rest' : List Char} (hc : Stands c cs)
    (hd : Stands d ds) (he : cs ++ rest = ds ++ rest') : c = d ∧ rest = rest' := by
  have hletters : ∀ p ∈ letters, p.2 ≠ 'u' ∧ ∀ q ∈ letters, p.2 = q.2 → p.1 = q.1 := by decide
  cases hc with
  | itself _ hbackslash =>
    cases hd with
    | itself => simpa using he
    | letter | number => exact absurd (List.cons.inj he).1 hbackslash
  | letter hl =>
    cases hd with
    | itself _ hbackslash => exact absurd (List.cons.inj he).1.symm hbackslash
    | letter hl' =>
      simp only [List.cons_append, List.nil_append, List.cons.injEq, true_and] at he
      exact ⟨(hletters _ hl).2 _ hl' he.1, he.2⟩
    | number =>
      simp only [List.cons_append, List.nil_append, List.cons.injEq, true_and] at he
      exact absurd he.1 (hletters _ hl).1
  | number =>
    cases hd with
    | itself _ hbackslash => exact absurd (List.cons.inj he).1.symm hbackslash
    | letter hl =>
      simp only [List.cons_append, List.nil_append, List.cons.injEq, true_and] at he
      exact absurd he.1.symm (hletters _ hl).1
    | number =>
      simp only [List.cons_append, List.cons.injEq, true_and] at he
      obtain ⟨hnumber, rfl⟩ := prefixCode_number he
      exact ⟨Char.toNat_inj.mp hnumber, rfl⟩

theorem prefixCode_encodeChar : PrefixCode encodeChar :=
  fun c d _ _ he => (stands_encodeChar c).ends (stands_encodeChar d) he

/-! ## Texts and lists -/

/-- A quote between the quotes stands behind a backslash. -/
theorem encodeChar_append_ne (c : Char) (rest rest' : List Char) :
    encodeChar c ++ rest ≠ '"' :: rest' := by
  intro he
  have hstands := stands_encodeChar c
  generalize encodeChar c = cs at he hstands
  cases hstands with
  | itself hquote => exact hquote (List.cons.inj he).1
  | letter | number => exact absurd (List.cons.inj he).1 (by decide)

theorem prefixCode_encode : PrefixCode encode :=
  (prefixCode_encodeChar.closed encodeChar_append_ne).behind ['"']

/-- The items behind the first one, each with a comma and a blank in front of it, and the bracket
that closes the list. -/
theorem prefixCode_tail : PrefixCode fun items : List (List Char) =>
    items.flatMap (fun item => [',', ' '] ++ encode item) ++ [']'] := by
  refine (prefixCode_encode.behind [',', ' ']).closed fun item rest rest' he => ?_
  exact absurd (List.cons.inj he).1 (by decide)

theorem encodeItems_cons (item : List Char) (items : List (List Char)) :
    encodeItems (item :: items) =
      encode item ++ items.flatMap fun other => [',', ' '] ++ encode other := by
  induction items generalizing item with
  | nil => simp [encodeItems]
  | cons other items ih => simp [encodeItems, ih]

theorem prefixCode_encodeList : PrefixCode encodeList := by
  intro items items' rest rest' he
  cases items with
  | nil =>
    cases items' with
    | nil => exact ⟨rfl, by simpa [encodeList, encodeItems] using he⟩
    | cons item' items' => simp [encodeList, encodeItems, encodeItems_cons, encode] at he
  | cons item items =>
    cases items' with
    | nil => simp [encodeList, encodeItems, encodeItems_cons, encode] at he
    | cons item' items' =>
      -- The first item has no comma in front of it, so it is split off before the others.
      simp only [encodeList, encodeItems_cons, List.cons_append, List.append_assoc,
        List.cons.injEq, true_and] at he
      obtain ⟨rfl, he⟩ := prefixCode_encode he
      obtain ⟨rfl, rfl⟩ := prefixCode_tail (by simpa using he)
      exact ⟨rfl, rfl⟩

end Quoted
end Text

namespace Support

/-! ## Details -/

theorem toList_incompatibleDetails (support : Support) (declared : String) :
    (support.incompatibleDetails declared).toList =
      "config is ".toList ++ (Text.Quoted.encode declared.toList ++
        (", plugin supports ".toList ++
          Text.Quoted.encodeList (support.versions.map String.toList))) := by
  simp only [incompatibleDetails, Text.quoted, Text.quotedList, String.toList_append,
    String.toList_ofList, List.append_assoc]

/-- Details name one declared version and one list. -/
theorem incompatibleDetails_eq_iff {support other : Support} {declared declared' : String} :
    support.incompatibleDetails declared = other.incompatibleDetails declared' ↔
      declared = declared' ∧ support.versions = other.versions := by
  constructor
  · intro h
    have hchars := congrArg String.toList h
    rw [toList_incompatibleDetails, toList_incompatibleDetails,
      List.append_cancel_left_eq] at hchars
    obtain ⟨hdeclared, hrest⟩ := Text.Quoted.prefixCode_encode hchars
    rw [List.append_cancel_left_eq] at hrest
    have hversions := Text.Quoted.prefixCode_encodeList.injective hrest
    refine ⟨String.toList_inj.mp hdeclared, ?_⟩
    exact (List.map_inj_right fun _ _ => String.toList_inj.mp).mp hversions
  · rintro ⟨rfl, hversions⟩
    simp only [incompatibleDetails, hversions]

/-! ## Faults -/

/-- The fault is that of the rule for ADD and DEL, or that of the search for CHECK when no entry
serves. -/
inductive Incompatible (support : Support) (declared : String) : Fault → Prop
  | unlisted {fault : Fault} : support.accept declared = .error fault →
      Incompatible support declared fault
  | outdated {details : String} : support.select declared =
        .error ⟨.incompatibleVersion, "plugin version does not allow CHECK", details⟩ →
      Incompatible support declared
        ⟨.incompatibleVersion, "plugin version does not allow CHECK", details⟩

/-- Both faults name what is declared and listed in the same way. -/
theorem Incompatible.details_eq {support : Support} {declared : String} {fault : Fault}
    (h : support.Incompatible declared fault) :
    fault.details = support.incompatibleDetails declared := by
  cases h with
  | unlisted h =>
    rw [accept] at h
    split at h
    · cases h
    · cases h
      rfl
  | outdated h =>
    cases select_eq_iff.mp h with
    | read _ ha =>
      cases ha with
      | outdated => rfl
    | unlisted => rfl

/-- Faults of incompatibility have the same details exactly if they are about the same declared
version and the same list, whatever texts these are. -/
theorem details_identify {support other : Support} {declared declared' : String}
    {fault fault' : Fault} (h : support.Incompatible declared fault)
    (h' : other.Incompatible declared' fault') :
    fault.details = fault'.details ↔
      declared = declared' ∧ support.versions = other.versions := by
  rw [h.details_eq, h'.details_eq, incompatibleDetails_eq_iff]

/-- An entry that imitates two of them can be told from the two, also if one plugin is asked for
CHECK and the other for something else. -/
theorem imitated_details_differ :
    ∃ details fault, (⟨["0.3.0", "0.4.0"]⟩ : Support).select "0.5.0" =
        .error ⟨.incompatibleVersion, "plugin version does not allow CHECK", details⟩ ∧
      (⟨["0.3.0\", \"0.4.0"]⟩ : Support).accept "0.5.0" = .error fault ∧
      details ≠ fault.details := by
  have hselect : (⟨["0.3.0", "0.4.0"]⟩ : Support).select "0.5.0" =
      .error ⟨.incompatibleVersion, "plugin version does not allow CHECK",
        Support.incompatibleDetails ⟨["0.3.0", "0.4.0"]⟩ "0.5.0"⟩ := by rfl
  have haccept : (⟨["0.3.0\", \"0.4.0"]⟩ : Support).accept "0.5.0" =
      .error ⟨.incompatibleVersion, "incompatible CNI versions",
        Support.incompatibleDetails ⟨["0.3.0\", \"0.4.0"]⟩ "0.5.0"⟩ := by rfl
  have hiff := details_identify (.outdated hselect) (.unlisted haccept)
  exact ⟨_, _, hselect, haccept, fun he => absurd (hiff.mp he).2 (by decide)⟩

end Support
end CniPlugin
