import CniPlugin.Proofs.CheckSelection
import CniPlugin.Proofs.VersionOrder
/-!
# The verdict of CHECK

Which entry serves CHECK depends on the order of the list.  Whether one does, and of which kind the
fault is otherwise, depends on the versions that are declared and listed alone, and not on their
order or spelling, as long as every entry is a version.  An older declared version is served if a
newer one is, and by an entry that does not stand behind the one that serves the newer.

Results:
1. `exists_parseAll_iff`, `mem_iff_of_parseAll`: which lists are read, and as which versions.
2. `ends_verdict`, `Ends.unique`: the verdict in terms of versions.
3. `selectForCheck_of_older`: the entry that serves an older version.
4. `verdict_by_versions`: all of it.
-/

namespace CniPlugin

/-! ## Lists of versions -/

namespace Version

/-- The texts stand for the same version, or neither stands for one. -/
def SameVersion (a b : String) : Prop := ∀ v, parse a = .ok v ↔ parse b = .ok v

theorem SameVersion.malformed {a b : String} (h : SameVersion a b) {e : Malformed}
    (ha : parse a = .error e) : ∃ e', parse b = .error e' := by
  cases hb : parse b with
  | error e' => exact ⟨e', rfl⟩
  | ok v =>
    rw [(h v).mpr hb] at ha
    cases ha

theorem parseAll_eq_mapM (texts : List String) : parseAll texts = texts.mapM parse := by
  induction texts with
  | nil => rfl
  | cons text texts ih =>
    rw [parseAll, List.mapM_cons, ← ih]
    cases parse text with
    | error e => rfl
    | ok v => cases parseAll texts <;> rfl

theorem parseAll_cons_eq_ok_iff {text : String} {texts : List String} {vs : List Version} :
    parseAll (text :: texts) = .ok vs ↔
      ∃ v others, vs = v :: others ∧ parse text = .ok v ∧ parseAll texts = .ok others := by
  simp only [parseAll_eq_mapM, mapM_cons_eq_ok_iff]

/-- A list is read exactly if every text in it is a version. -/
theorem exists_parseAll_iff {texts : List String} :
    (∃ vs, parseAll texts = .ok vs) ↔ ∀ text ∈ texts, ∃ v, parse text = .ok v := by
  induction texts with
  | nil => simp [parseAll]
  | cons text texts ih =>
    rw [List.forall_mem_cons, ← ih]
    constructor
    · rintro ⟨vs, h⟩
      obtain ⟨v, others, rfl, hv, hothers⟩ := parseAll_cons_eq_ok_iff.mp h
      exact ⟨⟨v, hv⟩, others, hothers⟩
    · rintro ⟨⟨v, hv⟩, others, hothers⟩
      exact ⟨v :: others, parseAll_cons_eq_ok_iff.mpr ⟨v, others, rfl, hv, hothers⟩⟩

theorem mem_iff_of_parseAll {texts : List String} {vs : List Version}
    (h : parseAll texts = .ok vs) (v : Version) :
    v ∈ vs ↔ ∃ text ∈ texts, parse text = .ok v := by
  induction texts generalizing vs with
  | nil =>
    cases h
    simp
  | cons text texts ih =>
    obtain ⟨w, others, rfl, hw, hothers⟩ := parseAll_cons_eq_ok_iff.mp h
    simp only [List.mem_cons, exists_eq_or_imp, ih hothers, hw, Except.ok.injEq, @eq_comm _ v w]

end Version

namespace Support

/-! ## Definitions -/

/-- How CHECK ends: a supported version serves it, or there is a fault of some kind. -/
def verdict (support : Support) (declared : String) : Except Fault.Kind Unit :=
  match support.selectForCheck declared with
  | .ok _ => .ok ()
  | .error fault => .error fault.kind

/-- How CHECK ends where these versions are listed. -/
inductive Ends (declared : String) (listed : List Version) : Except Fault.Kind Unit → Prop
  | served {v w : Version} : Version.parse declared = .ok v → (⟨0, 4, 0⟩ : Version) ≤ v →
      w ∈ listed → v ≤ w → Ends declared listed (.ok ())
  | malformed {e : Version.Malformed} : Version.parse declared = .error e →
      Ends declared listed (.error .decoding)
  | tooOld {v : Version} : Version.parse declared = .ok v → ¬ (⟨0, 4, 0⟩ : Version) ≤ v →
      Ends declared listed (.error .incompatibleVersion)
  | outdated {v : Version} : Version.parse declared = .ok v → (⟨0, 4, 0⟩ : Version) ≤ v →
      (∀ w ∈ listed, ¬ v ≤ w) → Ends declared listed (.error .incompatibleVersion)

/-! ## The deciding entry -/

theorem Decides.mem {versions : List String} {v : Version} {entry : String}
    (h : Decides versions v entry) : entry ∈ versions := by
  obtain ⟨before, after, rfl, -⟩ := h.first
  simp

/-- The deciding entry does not stand behind any entry that is not older. -/
theorem Decides.idxOf_le {versions : List String} {v : Version} {served entry : String}
    (h : Decides versions v served) (hn : ¬ OlderThan v entry) :
    versions.idxOf served ≤ versions.idxOf entry := by
  obtain ⟨before, after, rfl, hb⟩ := h.first
  have hserved : served ∉ before := fun hm => h.not_older (hb served hm)
  have hentry : entry ∉ before := fun hm => hn (hb entry hm)
  simp [List.idxOf_append, hserved, hentry]

theorem OlderThan.not_le {v w : Version} {entry : String} (h : OlderThan v entry)
    (he : Version.parse entry = .ok w) : ¬ v ≤ w := by
  obtain ⟨u, hu, hlt⟩ := h
  rw [he] at hu
  cases hu
  exact hlt

variable {support other : Support} {declared : String} {listed : List Version}

/-- In a list of versions an entry serves, or all are older. -/
theorem Answers.served_or_outdated (all : Version.parseAll support.versions = .ok listed)
    {v : Version} {result : Except Fault String} (h : Answers support declared v result) :
    (∃ served w, result = .ok served ∧ Decides support.versions v served ∧
        Version.parse served = .ok w ∧ v ≤ w) ∨
      result = .error ⟨.incompatibleVersion, "plugin version does not allow CHECK",
        support.incompatibleDetails declared⟩ ∧ ∀ entry ∈ support.versions, OlderThan v entry := by
  cases h with
  | chosen hdecides he hle => exact .inl ⟨_, _, rfl, hdecides, he, hle⟩
  | malformedEntry hdecides he =>
    obtain ⟨w, hw⟩ := Version.exists_parseAll_iff.mp ⟨listed, all⟩ _ hdecides.mem
    rw [he] at hw
    cases hw
  | outdated hall => exact .inr ⟨rfl, hall⟩

/-! ## The verdict -/

theorem ends_verdict (all : Version.parseAll support.versions = .ok listed) (declared : String) :
    Ends declared listed (support.verdict declared) := by
  have hs := selects_selectForCheck support declared
  rw [verdict]
  generalize support.selectForCheck declared = result at hs
  cases hs with
  | malformed hd => exact .malformed hd
  | tooOld hd hv => exact .tooOld hd hv
  | read hd hv ha =>
    rcases ha.served_or_outdated all with ⟨served, w, rfl, hdecides, he, hle⟩ | ⟨rfl, hall⟩
    · exact .served hd hv ((Version.mem_iff_of_parseAll all w).mpr ⟨served, hdecides.mem, he⟩) hle
    · refine .outdated hd hv fun w hw => ?_
      obtain ⟨entry, hmem, he⟩ := (Version.mem_iff_of_parseAll all w).mp hw
      exact (hall entry hmem).not_le he

/-- The versions leave no choice. -/
theorem Ends.unique {result result' : Except Fault.Kind Unit} (h : Ends declared listed result)
    (h' : Ends declared listed result') : result = result' := by
  cases h <;> cases h' <;> simp_all

theorem verdict_eq_iff (all : Version.parseAll support.versions = .ok listed)
    {result : Except Fault.Kind Unit} :
    support.verdict declared = result ↔ Ends declared listed result := by
  refine ⟨?_, (ends_verdict all declared).unique⟩
  rintro rfl
  exact ends_verdict all declared

/-- Neither the order of the versions nor the spelling of the declared one matters. -/
theorem Ends.of_mem_iff {listed' : List Version} (hl : ∀ w, w ∈ listed ↔ w ∈ listed')
    {respelled : String} (hd : Version.SameVersion declared respelled)
    {result : Except Fault.Kind Unit} (h : Ends declared listed result) :
    Ends respelled listed' result := by
  cases h with
  | served hv hfloor hw hle => exact .served ((hd _).mp hv) hfloor ((hl _).mp hw) hle
  | malformed he =>
    obtain ⟨e', he'⟩ := hd.malformed he
    exact .malformed he'
  | tooOld hv hfloor => exact .tooOld ((hd _).mp hv) hfloor
  | outdated hv hfloor ho =>
    exact .outdated ((hd _).mp hv) hfloor fun w hw => ho w ((hl w).mpr hw)

theorem verdict_of_perm (all : Version.parseAll support.versions = .ok listed)
    (h : other.versions.Perm support.versions) (declared : String) :
    other.verdict declared = support.verdict declared := by
  obtain ⟨listed', all'⟩ := Version.exists_parseAll_iff.mpr fun entry hmem =>
    Version.exists_parseAll_iff.mp ⟨listed, all⟩ entry (h.mem_iff.mp hmem)
  have hmem (w : Version) : w ∈ listed ↔ w ∈ listed' := by
    simp only [Version.mem_iff_of_parseAll all, Version.mem_iff_of_parseAll all', h.mem_iff]
  exact (verdict_eq_iff all').mpr ((ends_verdict all declared).of_mem_iff hmem fun _ => Iff.rfl)

/-- An inserted entry can only help. -/
theorem verdict_of_sublist {listed' : List Version}
    (all : Version.parseAll support.versions = .ok listed)
    (all' : Version.parseAll other.versions = .ok listed')
    (h : support.versions.Sublist other.versions) (hs : support.verdict declared = .ok ()) :
    other.verdict declared = .ok () := by
  cases (verdict_eq_iff all).mp hs with
  | served hd hfloor hw hle =>
    obtain ⟨entry, hmem, he⟩ := (Version.mem_iff_of_parseAll all _).mp hw
    have hw' := (Version.mem_iff_of_parseAll all' _).mpr ⟨entry, h.subset hmem, he⟩
    exact (verdict_eq_iff all').mpr (.served hd hfloor hw' hle)

theorem verdict_of_respelled {respelled : String}
    (all : Version.parseAll support.versions = .ok listed)
    (all' : Version.parseAll other.versions = .ok listed)
    (hd : Version.SameVersion declared respelled) :
    other.verdict respelled = support.verdict declared :=
  (verdict_eq_iff all').mpr ((ends_verdict all declared).of_mem_iff (fun _ => Iff.rfl) hd)

/-! ## Older declared versions -/

/-- An older declared version is served as well, by an entry that does not stand further behind. -/
theorem selectForCheck_of_older (all : Version.parseAll support.versions = .ok listed)
    {chosen older : String} {v w : Version} (h : support.selectForCheck declared = .ok chosen)
    (hd : Version.parse declared = .ok v) (ho : Version.parse older = .ok w)
    (hfloor : (⟨0, 4, 0⟩ : Version) ≤ w) (hle : w ≤ v) :
    ∃ served, support.selectForCheck older = .ok served ∧
      support.versions.idxOf served ≤ support.versions.idxOf chosen := by
  have ⟨u, hmem, hu, hvu⟩ : ∃ u, chosen ∈ support.versions ∧ Version.parse chosen = .ok u ∧
      v ≤ u := by
    cases selectForCheck_eq_iff.mp h with
    | read hd' _ ha =>
      cases ha with
      | chosen hdecides hu hvu =>
        obtain rfl : v = _ := by simpa [hd] using hd'
        exact ⟨_, hdecides.mem, hu, hvu⟩
  have hn : ¬ OlderThan w chosen := fun hlt => hlt.not_le hu (Version.le_trans hle hvu)
  rcases (answers_select ho).served_or_outdated all with
    ⟨served, w', hs, hdecides, -⟩ | ⟨-, hall⟩
  · exact ⟨served, by rw [selectForCheck_of_le ho hfloor, hs], hdecides.idxOf_le hn⟩
  · exact absurd (hall chosen hmem) hn

/-- If every entry of the list is a version, then CHECK of an older declared version is served as
well, and by an entry that does not stand further behind; and neither another order of the list, nor
more versions in it, nor another spelling of anything turns a declared version away that is served.
The kind of the fault is the same for every order and spelling too: all of it follows from the
versions that are declared and listed. -/
theorem verdict_by_versions (support : Support) (declared : String) {listed : List Version}
    (all : Version.parseAll support.versions = .ok listed) :
    (∀ (chosen older : String) (v w : Version), support.selectForCheck declared = .ok chosen →
        Version.parse declared = .ok v → Version.parse older = .ok w →
        (⟨0, 4, 0⟩ : Version) ≤ w → w ≤ v →
        ∃ served, support.selectForCheck older = .ok served ∧
          support.versions.idxOf served ≤ support.versions.idxOf chosen) ∧
      (∀ other : Support, other.versions.Perm support.versions →
        other.verdict declared = support.verdict declared) ∧
      (∀ (other : Support) (more : List Version), support.versions.Sublist other.versions →
        Version.parseAll other.versions = .ok more → support.verdict declared = .ok () →
        other.verdict declared = .ok ()) ∧
      (∀ (other : Support) (respelled : String), Version.parseAll other.versions = .ok listed →
        Version.SameVersion declared respelled →
        other.verdict respelled = support.verdict declared) ∧
      ∀ result, support.verdict declared = result ↔ Ends declared listed result := by
  refine ⟨?_, ?_, ?_, ?_, fun result => verdict_eq_iff all⟩
  · intro chosen older v w h hd ho hfloor hle
    exact selectForCheck_of_older all h hd ho hfloor hle
  · intro other hperm
    exact verdict_of_perm all hperm declared
  · intro other more hsub all' hs
    exact verdict_of_sublist all all' hsub hs
  · intro other respelled all' hd
    exact verdict_of_respelled all all' hd

/-- Version 0.5 is served by the last of three entries, and 0.4.0 by the one in front of it.  The
list may be reversed, grow by two entries or be respelled, and 0.5 is served all the same. -/
theorem newest_last_verdict :
    Version.parseAll ["0.3.1", "0.4", "1.0.0"] = .ok [⟨0, 3, 1⟩, ⟨0, 4, 0⟩, ⟨1, 0, 0⟩] ∧
      (∃ served, (⟨["0.3.1", "0.4", "1.0.0"]⟩ : Support).selectForCheck "0.4.0" = .ok served ∧
        ["0.3.1", "0.4", "1.0.0"].idxOf served ≤ ["0.3.1", "0.4", "1.0.0"].idxOf "1.0.0") ∧
      (⟨["1.0.0", "0.4", "0.3.1"]⟩ : Support).verdict "0.5" = .ok () ∧
      (⟨["0.3.1", "0.2", "0.4", "1.0.0", "0.1"]⟩ : Support).verdict "0.5" = .ok () ∧
      (⟨["0.3.01", "0.4.0", "1"]⟩ : Support).verdict "00.5" = .ok () := by
  have all : Version.parseAll ["0.3.1", "0.4", "1.0.0"] =
      .ok [⟨0, 3, 1⟩, ⟨0, 4, 0⟩, ⟨1, 0, 0⟩] := by rfl
  have hserved : (⟨["0.3.1", "0.4", "1.0.0"]⟩ : Support).verdict "0.5" = .ok () := by rfl
  obtain ⟨holder, hperm, hsub, hsame, -⟩ :=
    verdict_by_versions ⟨["0.3.1", "0.4", "1.0.0"]⟩ "0.5" all
  refine ⟨all, ?_, ?_, ?_, ?_⟩
  · exact holder "1.0.0" "0.4.0" ⟨0, 5, 0⟩ ⟨0, 4, 0⟩ (by rfl) (by rfl) (by rfl)
      (Version.le_refl _) (by rw [Version.le_iff]; decide)
  · exact (hperm ⟨["1.0.0", "0.4", "0.3.1"]⟩ (by decide)).trans hserved
  · exact hsub ⟨["0.3.1", "0.2", "0.4", "1.0.0", "0.1"]⟩ _ (by decide) rfl hserved
  · exact (hsame ⟨["0.3.01", "0.4.0", "1"]⟩ "00.5" (by rfl) fun _ => by rfl).trans hserved

end Support
end CniPlugin
