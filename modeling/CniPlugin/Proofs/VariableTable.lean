import CniPlugin.Invocation
import CniPlugin.Proofs.WellFormedUtf8
/-!
# The table of variables

The environment answers each lookup knowing the earlier ones.  So what it holds is said of the
lookups as they are made: each variable after those before it in the table.

Results:
1. `capture_spec`: either every variable is text or unset, and all six are looked up, or the lookups
   stop at the first that is not text.
2. `capture_of_gives`, `capture_of_firstNotText`: the two cases exclude each other, and each of them
   settles what the lookups give.
3. `missing_eq_absent`: what is reported missing are the empty parameters that the command needs, in
   the order of the table.
-/

namespace CniPlugin

/-! ## Definitions -/

namespace Environment

/-- The answer for a parameter when the parameters of a list are looked up in order. -/
def answerAmong (environment : Environment) (ps : List Parameter) (lookups : List String)
    (p : Parameter) : Option Bytes :=
  environment (lookups ++ (ps.takeWhile (· ≠ p)).map (·.variableName)) p.variableName

/-- The answer for a parameter when all parameters are looked up in the order of the table. -/
def answer (environment : Environment) (lookups : List String) (p : Parameter) : Option Bytes :=
  environment.answerAmong Parameter.all lookups p

/-- Every variable is unset and its parameter empty, or it holds the text of its parameter. -/
def Gives (environment : Environment) (lookups : List String) (parameters : Parameters) : Prop :=
  ∀ p, environment.answer lookups p = none ∧ parameters p = "" ∨
    environment.answer lookups p = some (Text.Utf8.ofString (parameters p))

/-- Bytes that are no text. -/
def NotText (bytes : Bytes) : Prop := ∀ text, bytes ≠ Text.Utf8.ofString text

/-- The lookups of a list stop at `p`: its variable is set and no text, and none before it is so. -/
def StopsAt (environment : Environment) (ps : List Parameter) (lookups : List String)
    (p : Parameter) : Prop :=
  (∃ bytes, environment.answerAmong ps lookups p = some bytes ∧ NotText bytes) ∧
    ∀ q ∈ ps.takeWhile (· ≠ p), ∀ bytes, environment.answerAmong ps lookups q = some bytes →
      ¬ NotText bytes

/-- The variable of `p` is the first in the table that is set and no text. -/
def FirstNotText (environment : Environment) (lookups : List String) (p : Parameter) : Prop :=
  environment.StopsAt Parameter.all lookups p

end Environment

/-- Whether the command of a name, which may be unknown, needs the parameter. -/
def Parameter.NeededFor (command : String) : Parameter → Prop
  | .command => True
  | .containerId | .ifName | .path => command = "ADD" ∨ command = "CHECK" ∨ command = "DEL"
  | .netns => command = "ADD" ∨ command = "CHECK"
  | .args => False

instance (command : String) : DecidablePred (Parameter.NeededFor command)
  | .command => inferInstanceAs (Decidable True)
  | .containerId | .ifName | .path =>
    inferInstanceAs (Decidable (command = "ADD" ∨ command = "CHECK" ∨ command = "DEL"))
  | .netns => inferInstanceAs (Decidable (command = "ADD" ∨ command = "CHECK"))
  | .args => inferInstanceAs (Decidable False)

/-- The empty parameters that the command needs, in the order of the table. -/
def Parameters.absent (parameters : Parameters) : List Parameter :=
  Parameter.all.filter fun p => parameters p = "" ∧ p.NeededFor (parameters .command)

/-! ## Lookups -/

namespace Parameters
open Environment

theorem toString?_eq_none_iff {bytes : Bytes} :
    Text.Utf8.toString? bytes = none ↔ NotText bytes := by
  constructor
  · intro h text he
    rw [he, Text.Utf8.toString?_ofString] at h
    cases h
  · intro h
    cases ht : Text.Utf8.toString? bytes with
    | none => rfl
    | some text => exact absurd (Text.Utf8.toString?_eq_some_iff.mp ht) (h text)

theorem answerAmong_cons_self (environment : Environment) (p : Parameter) (ps : List Parameter)
    (lookups : List String) :
    environment.answerAmong (p :: ps) lookups p = environment lookups p.variableName := by
  simp [answerAmong]

theorem answerAmong_cons_of_ne (environment : Environment) {p q : Parameter} (h : p ≠ q)
    (ps : List Parameter) (lookups : List String) :
    environment.answerAmong (p :: ps) lookups q =
      environment.answerAmong ps (lookups ++ [p.variableName]) q := by
  simp [answerAmong, h]

/-- What lookups of a list of parameters give, on top of the values from before. -/
def Extends (environment : Environment) (ps : List Parameter) (lookups : List String)
    (parameters result : Parameters) : Prop :=
  (∀ p ∈ ps, environment.answerAmong ps lookups p = none ∧ result p = parameters p ∨
    environment.answerAmong ps lookups p = some (Text.Utf8.ofString (result p))) ∧
    ∀ p, p ∉ ps → result p = parameters p

theorem Extends.cons {environment : Environment} {p : Parameter} {ps : List Parameter}
    {lookups : List String} {parameters middle result : Parameters} (hp : p ∉ ps)
    (hm : ∀ q, q ≠ p → middle q = parameters q)
    (ha : environment lookups p.variableName = none ∧ middle p = parameters p ∨
      environment lookups p.variableName = some (Text.Utf8.ofString (middle p)))
    (h : Extends environment ps (lookups ++ [p.variableName]) middle result) :
    Extends environment (p :: ps) lookups parameters result := by
  have hself : result p = middle p := h.2 p hp
  constructor
  · intro q hq
    by_cases hqp : p = q
    · subst hqp
      rwa [answerAmong_cons_self, hself]
    · rw [answerAmong_cons_of_ne _ hqp, ← hm q (Ne.symm hqp)]
      exact h.1 q ((List.mem_cons.mp hq).resolve_left (Ne.symm hqp))
  · intro q hq
    rw [List.mem_cons, not_or] at hq
    rw [h.2 q hq.2, hm q hq.1]

theorem stopsAt_cons {environment : Environment} {p r : Parameter} {ps : List Parameter}
    {lookups : List String} (hp : p ∉ ps) (hr : r ∈ ps)
    (ha : ∀ bytes, environment lookups p.variableName = some bytes → ¬ NotText bytes)
    (h : StopsAt environment ps (lookups ++ [p.variableName]) r) :
    StopsAt environment (p :: ps) lookups r := by
  have hne : p ≠ r := fun he => hp (he ▸ hr)
  obtain ⟨⟨bytes, hb, hn⟩, hbefore⟩ := h
  refine ⟨⟨bytes, by rwa [answerAmong_cons_of_ne _ hne], hn⟩, ?_⟩
  intro q hq
  rw [List.takeWhile_cons, if_pos (by simpa using hne)] at hq
  by_cases hqp : p = q
  · subst hqp
    rw [answerAmong_cons_self]
    exact ha
  · rw [answerAmong_cons_of_ne _ hqp]
    exact hbefore q ((List.mem_cons.mp hq).resolve_left (Ne.symm hqp))

/-- What lookups of a list of parameters may end with: the values, after all of them, or the fault
of the first that is no text, right after that one. -/
def Captures (environment : Environment) (ps : List Parameter) (lookups : List String)
    (parameters : Parameters) : Except Fault Parameters × List String → Prop
  | (.ok result, names) =>
    names = lookups ++ ps.map (·.variableName) ∧ Extends environment ps lookups parameters result
  | (.error fault, names) =>
    ∃ p ∈ ps, fault = notText p ∧
      names = lookups ++ (ps.takeWhile (· ≠ p) ++ [p]).map (·.variableName) ∧
      StopsAt environment ps lookups p

/-- The lookups after `p` decide, if `p` itself was unset or text. -/
theorem Captures.cons {environment : Environment} {p : Parameter} {ps : List Parameter}
    {lookups : List String} {parameters middle : Parameters} (hp : p ∉ ps)
    (hm : ∀ q, q ≠ p → middle q = parameters q)
    (ha : environment lookups p.variableName = none ∧ middle p = parameters p ∨
      environment lookups p.variableName = some (Text.Utf8.ofString (middle p)))
    {captured : Except Fault Parameters × List String}
    (h : Captures environment ps (lookups ++ [p.variableName]) middle captured) :
    Captures environment (p :: ps) lookups parameters captured := by
  obtain ⟨result, names⟩ := captured
  cases result with
  | ok result => exact ⟨by simp [h.1], h.2.cons hp hm ha⟩
  | error fault =>
    obtain ⟨q, hq, hf, hn, hs⟩ := h
    have hne : p ≠ q := fun he => hp (he ▸ hq)
    refine ⟨q, List.mem_cons_of_mem _ hq, hf, by simp [hn, hne], stopsAt_cons hp hq ?_ hs⟩
    intro bytes hb
    rcases ha with ⟨ha, -⟩ | ha
    · rw [ha] at hb
      cases hb
    · rw [ha] at hb
      cases hb
      exact fun hn => hn _ rfl

theorem captureFrom_spec (environment : Environment) (ps : List Parameter) (hd : ps.Nodup)
    (lookups : List String) (parameters : Parameters) :
    Captures environment ps lookups parameters
      (captureFrom environment ps lookups parameters) := by
  induction ps generalizing lookups parameters with
  | nil => exact ⟨by simp, by simp, fun _ _ => rfl⟩
  | cons p ps ih =>
    obtain ⟨hp, hd⟩ := List.nodup_cons.mp hd
    cases ha : environment lookups p.variableName with
    | none =>
      simp only [captureFrom, ha]
      exact (ih hd _ _).cons hp (fun _ _ => rfl) (.inl ⟨ha, rfl⟩)
    | some bytes =>
      cases ht : Text.Utf8.toString? bytes with
      | none =>
        simp only [captureFrom, ha, ht]
        refine ⟨p, List.mem_cons_self, rfl, by simp, ⟨bytes, ?_, ?_⟩, by simp⟩
        · rw [answerAmong_cons_self, ha]
        · exact toString?_eq_none_iff.mp ht
      | some text =>
        simp only [captureFrom, ha, ht]
        refine (ih hd _ _).cons hp (fun q hq => by simp [Parameters.set, hq]) (.inr ?_)
        rw [ha, Text.Utf8.toString?_eq_some_iff.mp ht]
        simp [Parameters.set]

/-! ## The whole table -/

theorem Parameter.mem_all (p : Parameter) : p ∈ Parameter.all := by
  cases p <;> decide

/-- Of two parameters one comes first in the table. -/
theorem Parameter.eq_or_before (p q : Parameter) :
    p = q ∨ p ∈ Parameter.all.takeWhile (· ≠ q) ∨ q ∈ Parameter.all.takeWhile (· ≠ p) := by
  cases p <;> cases q <;> decide

/-- Looking up the table gives the parameters after all six lookups, or the fault of the first
variable that is no text right after its lookup. -/
theorem capture_spec (environment : Environment) (lookups : List String) :
    (∃ parameters, capture environment lookups =
        (.ok parameters, lookups ++ Parameter.all.map (·.variableName)) ∧
        environment.Gives lookups parameters) ∨
      ∃ p, capture environment lookups = (.error (notText p),
        lookups ++ (Parameter.all.takeWhile (· ≠ p) ++ [p]).map (·.variableName)) ∧
        environment.FirstNotText lookups p := by
  have h := captureFrom_spec environment Parameter.all (by decide) lookups empty
  change Captures _ _ _ _ (capture environment lookups) at h
  cases hc : capture environment lookups with
  | mk result names =>
    rw [hc] at h
    cases result with
    | ok parameters =>
      obtain ⟨rfl, he, -⟩ := h
      exact .inl ⟨parameters, rfl, fun p => he p (Parameter.mem_all p)⟩
    | error fault =>
      obtain ⟨p, -, rfl, rfl, hs⟩ := h
      exact .inr ⟨p, rfl, hs⟩

theorem not_firstNotText_of_gives {environment : Environment} {lookups : List String}
    {parameters : Parameters} (h : environment.Gives lookups parameters) (p : Parameter) :
    ¬ environment.FirstNotText lookups p := by
  rintro ⟨⟨bytes, hb, hn⟩, -⟩
  change environment.answer lookups p = some bytes at hb
  rcases h p with ⟨ha, -⟩ | ha
  · rw [hb] at ha
    cases ha
  · rw [hb] at ha
    cases ha
    exact hn _ rfl

theorem gives_unique {environment : Environment} {lookups : List String}
    {parameters others : Parameters} (h : environment.Gives lookups parameters)
    (ho : environment.Gives lookups others) : parameters = others := by
  funext p
  rcases h p with ⟨ha, he⟩ | ha <;> rcases ho p with ⟨hb, hf⟩ | hb
  · rw [he, hf]
  · rw [ha] at hb
    cases hb
  · rw [ha] at hb
    cases hb
  · rw [ha] at hb
    exact Text.Utf8.ofString_injective (Option.some.inj hb)

theorem firstNotText_unique {environment : Environment} {lookups : List String} {p q : Parameter}
    (hp : environment.FirstNotText lookups p) (hq : environment.FirstNotText lookups q) :
    p = q := by
  obtain ⟨⟨bytes, hb, hn⟩, hbefore⟩ := hp
  obtain ⟨⟨others, ho, hm⟩, hbefore'⟩ := hq
  rcases Parameter.eq_or_before p q with h | h | h
  · exact h
  · exact absurd hn (hbefore' p h bytes hb)
  · exact absurd hm (hbefore q h others ho)

theorem capture_of_gives {environment : Environment} {lookups : List String}
    {parameters : Parameters} (h : environment.Gives lookups parameters) :
    capture environment lookups =
      (.ok parameters, lookups ++ Parameter.all.map (·.variableName)) := by
  rcases capture_spec environment lookups with ⟨others, hc, ho⟩ | ⟨p, -, hs⟩
  · rw [hc, gives_unique h ho]
  · exact absurd hs (not_firstNotText_of_gives h p)

theorem capture_of_firstNotText {environment : Environment} {lookups : List String} {p : Parameter}
    (h : environment.FirstNotText lookups p) :
    capture environment lookups = (.error (notText p),
      lookups ++ (Parameter.all.takeWhile (· ≠ p) ++ [p]).map (·.variableName)) := by
  rcases capture_spec environment lookups with ⟨others, -, ho⟩ | ⟨q, hc, hs⟩
  · exact absurd h (not_firstNotText_of_gives ho p)
  · rw [hc, firstNotText_unique h hs]

/-! ## Missing parameters -/

theorem required_iff (command : String) (p : Parameter) :
    p.required (Command.ofName? command) = true ↔ p.NeededFor command := by
  unfold Parameter.required Command.ofName?
  by_cases h1 : command = "ADD"
  · subst h1; cases p <;> decide
  by_cases h2 : command = "CHECK"
  · subst h2; cases p <;> decide
  by_cases h3 : command = "DEL"
  · subst h3; cases p <;> decide
  by_cases h4 : command = "VERSION"
  · subst h4; cases p <;> decide
  cases p <;> simp [h1, h2, h3, h4, Parameter.NeededFor]

theorem missing_eq_absent (parameters : Parameters) : parameters.missing = parameters.absent := by
  unfold missing absent
  refine List.filter_congr fun p _ => ?_
  rw [Bool.eq_iff_iff]
  simp [required_iff]

/-- Without a command only the command is missing. -/
theorem absent_of_no_command {parameters : Parameters} (h : parameters .command = "") :
    parameters.absent = [.command] := by
  simp [absent, Parameter.all, Parameter.NeededFor, h]

/-- Nothing is missing for an operation when its parameters are not empty. -/
theorem absent_eq_nil_iff {parameters : Parameters} {action : Action}
    (h : parameters .command = action.name) :
    parameters.absent = [] ↔ parameters .containerId ≠ "" ∧ parameters .ifName ≠ "" ∧
      parameters .path ≠ "" ∧ (action ≠ .del → parameters .netns ≠ "") := by
  cases action <;>
    simp [absent, Parameter.all, Parameter.NeededFor, h, Action.name] <;> grind

end Parameters
end CniPlugin
