import CniPlugin.Proofs.ConfiguredSettings
import CniPlugin.Proofs.RecorderEndings
/-!
# When settings can be read

The two readers of a valid configuration ask different things of its settings.  The first keeps them
as whatever they are; the second wants each of them at most once, and null or of its kind.  That is
all it wants in addition, so no other member can make it fail.

Results:
1. `exists_foldlM_iff_settable`: when the members of the text can be folded.
2. `settings_agree`: when settings are read, and which they are.
-/

namespace CniPlugin.Recorder.Settings

open Json

/-- Each of the members that the settings are taken from is there at most once, and null or of its
kind. -/
structure Settable (ms : List (String × Json)) : Prop where
  once : ∀ key ∈ ["reportResult", "reportError", "reportErrorCode", "commandLog"],
    (ms.filter (·.1 = key)).length ≤ 1
  error : ∀ v, ("reportError", v) ∈ ms → v = .null ∨ ∃ text, v = .text text
  errorCode : ∀ v, ("reportErrorCode", v) ∈ ms → v = .null ∨ ∃ n, v = ofWord n
  logPath : ∀ v, ("commandLog", v) ∈ ms → v = .null ∨ ∃ path, v = .text path

/-- Where there are one name and one version, the members can be folded if the settings can be
taken from them. -/
theorem exists_foldlM_iff_settable {ms : List (String × Json)} {name version : String}
    (hname : ms.filter (·.1 = "name") = [("name", .text name)])
    (hversion : ms.filter (·.1 = "cniVersion") = [("cniVersion", .text version)]) :
    (∃ draft, ms.foldlM Draft.take {} = some draft ∧ draft.name ≠ none ∧
        draft.cniVersion ≠ none) ↔ Settable ms := by
  have htext {v : Json} : (∃ t, nullOr text? v = some t) ↔ v = .null ∨ ∃ t, v = .text t := by
    simp only [exists_nullOr_iff, text?_eq_some_iff]
  have hword {v : Json} : (∃ n, nullOr word? v = some n) ↔ v = .null ∨ ∃ n, v = ofWord n := by
    simp only [exists_nullOr_iff, word?_eq_some_iff]
  constructor
  · rintro ⟨draft, hfold, -, -⟩
    obtain ⟨-, -, hresult, herror, hcode, hpath⟩ := foldlM_take_eq_some_iff.mp hfold
    obtain ⟨oneResult, -⟩ := exists_put_iff.mp ⟨_, hresult⟩
    obtain ⟨oneError, herror⟩ := exists_put_iff.mp ⟨_, herror⟩
    obtain ⟨oneCode, hcode⟩ := exists_put_iff.mp ⟨_, hcode⟩
    obtain ⟨onePath, hpath⟩ := exists_put_iff.mp ⟨_, hpath⟩
    exact
      { once := by
          simp only [List.forall_mem_cons]
          exact ⟨oneResult, oneError, oneCode, onePath, List.forall_mem_nil _⟩
        error := fun v hv => htext.mp (herror v hv)
        errorCode := fun v hv => hword.mp (hcode v hv)
        logPath := fun v hv => htext.mp (hpath v hv) }
  · intro h
    have hone := h.once
    simp only [List.forall_mem_cons] at hone
    obtain ⟨oneResult, oneError, oneCode, onePath, -⟩ := hone
    obtain ⟨result, hresult⟩ := exists_put_iff.mpr
      ⟨oneResult, fun v _ => exists_nullOr_iff.mpr (.inr ⟨v, rfl⟩)⟩
    obtain ⟨error, herror⟩ := exists_put_iff.mpr ⟨oneError, fun v hv => htext.mpr (h.error v hv)⟩
    obtain ⟨code, hcode⟩ := exists_put_iff.mpr ⟨oneCode, fun v hv => hword.mpr (h.errorCode v hv)⟩
    obtain ⟨path, hpath⟩ := exists_put_iff.mpr ⟨onePath, fun v hv => htext.mpr (h.logPath v hv)⟩
    refine ⟨⟨some name, some version, result, error, code, path⟩, ?_, nofun, nofun⟩
    refine foldlM_take_eq_some_iff.mpr ⟨?_, ?_, hresult, herror, hcode, hpath⟩
    · exact foldlM_put_eq_some_iff.mpr (.inr ⟨_, name, hname, rfl, rfl⟩)
    · exact foldlM_put_eq_some_iff.mpr (.inr ⟨_, version, hversion, rfl, rfl⟩)

/-- Of a valid configuration that declares a version, settings are read exactly if they can be taken
from the members in its text, whatever the others are; they are then those of the configuration.
If they cannot be taken, reading them fails.  The code that is read is one written in digits
alone. -/
theorem settings_agree {body : Bytes} {document : NetworkConfig} {declared : String}
    (hvalid : NetworkConfig.validate body = .ok document)
    (hdeclared : NetworkConfig.declaredVersion body = .ok declared) :
    ∃ ms, Lists body ms ∧ ((∃ settings, parse body = .ok settings) ↔ Settable ms) ∧
      (∀ settings, parse body = .ok settings →
        settings.cniVersion = declared ∧ settings.AgreesWith document) ∧
      (¬ Settable ms → ∃ message, parse body =
        .error ⟨.decoding, "failed to load noop config: " ++ message, ""⟩) ∧
      ∀ depth s n rest, value depth s = .ok (ofWord n, rest) ↔ WordAhead s n rest := by
  obtain ⟨hread, name, hname, -⟩ := NetworkConfig.validate_eq_ok_iff.mp hvalid
  obtain ⟨hversion, -⟩ := (NetworkConfig.declaredVersion_eq_ok_iff hread declared).mp hdeclared
  obtain @⟨ms, kept, hlists, -, onceName, onceVersion, -, -⟩ :=
    NetworkConfig.read_eq_some_iff_saysAs.mp hread
  have oneName : ms.filter (·.1 = "name") = [("name", .text name)] := by
    rw [hname] at onceName
    cases onceName
    assumption
  have oneVersion : ms.filter (·.1 = "cniVersion") = [("cniVersion", .text declared)] := by
    rw [hversion] at onceVersion
    cases onceVersion
    assumption
  have hiff : (∃ settings, parse body = .ok settings) ↔ Settable ms := by
    rw [← exists_foldlM_iff_settable oneName oneVersion]
    simp only [parse_eq_ok_iff, read_eq_ok_iff_of_lists hlists]
    exact ⟨fun ⟨_, draft, hfold, _⟩ => ⟨draft, hfold⟩,
      fun ⟨draft, hfold⟩ => ⟨_, draft, hfold, rfl⟩⟩
  refine ⟨ms, hlists, hiff, fun settings hsettings => ?_, fun hnot => ?_,
    fun _ _ _ _ => value_eq_word_iff⟩
  · have hagrees := agreesWith_of_validate hvalid (parse_eq_ok_iff.mp hsettings)
    have hsame := hagrees.cniVersion
    rw [hversion] at hsame
    exact ⟨(Option.some.inj hsame).symm, hagrees⟩
  · cases hsettings : read body with
    | ok settings => exact absurd (hiff.mp ⟨settings, parse_eq_ok_iff.mpr hsettings⟩) hnot
    | error e => exact ⟨e.message, by rw [parse, hsettings]; rfl⟩

/-- Settings of every kind among other members, one of them repeated. -/
def assorted : Bytes := Text.Utf8.ofString ("\x7b\"x\":[1e3],\"reportErrorCode\":7," ++
  "\"cniVersion\":\"0.4.0\",\"reportError\":null,\"name\":\"n\",\"x\":-0," ++
  "\"reportResult\":\x7b\"a\":1\x7d,\"commandLog\":\"./log\"\x7d")

/-- A code with a fraction. -/
def fractional : Bytes := Text.Utf8.ofString
  "\x7b\"name\":\"n\",\"cniVersion\":\"0.4.0\",\"reportErrorCode\":7.0\x7d"

theorem assorted_agrees_fractional_fails :
    (∃ document settings, NetworkConfig.validate assorted = .ok document ∧
      parse assorted = .ok settings ∧ settings.cniVersion = "0.4.0" ∧
      settings.AgreesWith document) ∧
    ∃ ms message, Lists fractional ms ∧ ¬ Settable ms ∧ parse fractional =
      .error ⟨.decoding, "failed to load noop config: " ++ message, ""⟩ := by
  have declares (body : Bytes)
      (h : (NetworkConfig.validate body).toOption.isSome = true ∧
        (NetworkConfig.declaredVersion body).toOption = some "0.4.0") :
      ∃ document, NetworkConfig.validate body = .ok document ∧
        NetworkConfig.declaredVersion body = .ok "0.4.0" := by
    obtain ⟨document, hvalid⟩ := Option.isSome_iff_exists.mp h.1
    exact ⟨document, ok_of_toOption hvalid, ok_of_toOption h.2⟩
  constructor
  · obtain ⟨document, hvalid, hdeclared⟩ := declares assorted (by decide +kernel)
    have hsome : (parse assorted).toOption.isSome = true := by decide +kernel
    obtain ⟨settings, hsettings⟩ := Option.isSome_iff_exists.mp hsome
    have hsettings := ok_of_toOption hsettings
    obtain ⟨ms, -, -, hagrees, -⟩ := settings_agree hvalid hdeclared
    exact ⟨document, settings, hvalid, hsettings, hagrees settings hsettings⟩
  · obtain ⟨document, hvalid, hdeclared⟩ := declares fractional (by decide +kernel)
    have hnone : (parse fractional).toOption.isNone = true := by decide +kernel
    obtain ⟨ms, hlists, hiff, -, hfails, -⟩ := settings_agree hvalid hdeclared
    have hnot : ¬ Settable ms := by
      intro h
      obtain ⟨settings, hsettings⟩ := hiff.mpr h
      rw [hsettings] at hnone
      cases hnone
    obtain ⟨message, herror⟩ := hfails hnot
    exact ⟨ms, message, hlists, hnot, herror⟩

end CniPlugin.Recorder.Settings
