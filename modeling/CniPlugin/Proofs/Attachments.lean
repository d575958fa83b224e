import CniPlugin.Proofs.HandlerGate
/-!
# Attachments can be checked and deleted

ADD, CHECK and DEL are asked for by the same variables and the same configuration, and only the
command tells them apart.  What they need differs in two places: DEL needs no network namespace, and
CHECK goes by another rule for versions.  So an attachment that was added can always be deleted,
even by a runtime that has lost the namespace, and it can be checked where versions allow that.

Results:
1. `gives_assigning`, `gives_unsetting`: what an environment gives after variables were changed.
2. `serves_check_of_mem`: of a list of versions, each that is not older than CHECK serves CHECK.
3. `added_released_checked`: what could be added can be deleted and checked.
-/

namespace CniPlugin

/-! ## Definitions -/

/-- The environment with the variable of a parameter set to a text. -/
def Environment.assigning (environment : Environment) (p : Parameter) (text : String) :
    Environment :=
  fun lookups name =>
    if name = p.variableName then some (Text.Utf8.ofString text) else environment lookups name

/-- The environment with the variables of some parameters unset. -/
def Environment.unsetting (environment : Environment) (dropped : List Parameter) : Environment :=
  fun lookups name =>
    if name ∈ dropped.map (·.variableName) then none else environment lookups name

/-- The parameters with some of them empty. -/
def Parameters.clearing (parameters : Parameters) (dropped : List Parameter) : Parameters :=
  fun p => if p ∈ dropped then "" else parameters p

namespace Session

/-- The session with only the command changed. -/
def commanding (session : Session) (action : Action) : Session :=
  { session with environment := session.environment.assigning .command action.name }

/-- The session with the variables of some parameters unset. -/
def unsetting (session : Session) (dropped : List Parameter) : Session :=
  { session with environment := session.environment.unsetting dropped }

/-- If its configuration declares a version not older than CHECK and every supported version is one,
the invocation is also handed to the plugin as a CHECK. -/
def Checks (session : Session) (plugin : Plugin) (offer : Offer) (about : String)
    (invocation : Invocation) : Prop :=
  ∀ declared v, NetworkConfig.declaredVersion invocation.config = .ok declared →
    Version.parse declared = .ok v → (⟨0, 4, 0⟩ : Version) ≤ v →
    (∀ entry ∈ offer.support.versions, ∃ w, Version.parse entry = .ok w) →
    ((session.commanding .check).dispatch plugin offer about).call =
      some (.check, { invocation with command := .perform .check })

end Session

/-! ## Changed variables -/

theorem Parameter.variableName_inj {p q : Parameter} :
    p.variableName = q.variableName ↔ p = q := by
  refine ⟨fun h => ?_, fun h => by rw [h]⟩
  revert h
  cases p <;> cases q <;> decide

namespace Environment

theorem answer_assigning (environment : Environment) (p : Parameter) (text : String)
    (lookups : List String) (q : Parameter) :
    (environment.assigning p text).answer lookups q =
      if q = p then some (Text.Utf8.ofString text) else environment.answer lookups q := by
  simp only [answer, answerAmong, assigning, Parameter.variableName_inj]

theorem answer_unsetting (environment : Environment) (dropped : List Parameter)
    (lookups : List String) (q : Parameter) :
    (environment.unsetting dropped).answer lookups q =
      if q ∈ dropped then none else environment.answer lookups q := by
  simp only [answer, answerAmong, unsetting, List.mem_map, Parameter.variableName_inj,
    exists_eq_right]

theorem gives_assigning {environment : Environment} {lookups : List String}
    {parameters : Parameters} (h : environment.Gives lookups parameters) (p : Parameter)
    (text : String) : (environment.assigning p text).Gives lookups (parameters.set p text) := by
  intro q
  rw [answer_assigning, Parameters.set]
  by_cases hq : q = p
  · rw [if_pos hq, if_pos hq]
    exact .inr rfl
  · rw [if_neg hq, if_neg hq]
    exact h q

theorem gives_unsetting {environment : Environment} {lookups : List String}
    {parameters : Parameters} (h : environment.Gives lookups parameters)
    (dropped : List Parameter) :
    (environment.unsetting dropped).Gives lookups (parameters.clearing dropped) := by
  intro q
  rw [answer_unsetting, Parameters.clearing]
  by_cases hq : q ∈ dropped
  · rw [if_pos hq, if_pos hq]
    exact .inl ⟨rfl, rfl⟩
  · rw [if_neg hq, if_neg hq]
    exact h q

end Environment

/-! ## One version for ADD and for CHECK -/

namespace Support

/-- A listed version that is not older than CHECK serves CHECK, if the whole list are versions: the
search for one that is not older ends with it at the latest. -/
theorem serves_check_of_mem {support : Support} {declared : String} {v : Version}
    (hm : declared ∈ support.versions) (hv : Version.parse declared = .ok v)
    (hfloor : (⟨0, 4, 0⟩ : Version) ≤ v)
    (hall : ∀ entry ∈ support.versions, ∃ w, Version.parse entry = .ok w) :
    support.Serves declared .check := by
  obtain ⟨before, after, hl⟩ := List.append_of_mem hm
  have hbefore : ∀ entry ∈ before, ∃ w, Version.parse entry = .ok w := by
    intro entry he
    refine hall entry ?_
    rw [hl]
    exact List.mem_append_left _ he
  have hself : v ≤ v := Version.notOlder_iff.mp (by simp [Version.notOlder, Version.compare])
  exact ⟨v, hv, hfloor, before, declared, after, v, hl, hbefore, hv, hself⟩

end Support

/-! ## One invocation for every operation -/

namespace Session

variable {session : Session} {support : Support} {action : Action} {parameters : Parameters}
  {config : Bytes} {declared : String}

/-- An invocation that passes all stages also passes them as another operation that serves its
version, with a namespace unless that is DEL. -/
theorem Admits.commanding (h : session.Admits support action parameters config declared)
    (other : Action) (hnetns : other ≠ .del → parameters .netns ≠ "")
    (hserved : support.Serves declared other) :
    (session.commanding other).Admits support other (parameters.set .command other.name) config
      declared :=
  { given := Environment.gives_assigning h.given .command other.name
    command := rfl
    containerId := h.containerId
    ifName := h.ifName
    path := h.path
    netns := hnetns
    delivered := h.delivered
    valid := h.valid
    declares := h.declares
    served := hserved }

/-- DEL passes all stages without a namespace and without extra arguments. -/
theorem Admits.unsetting (h : session.Admits support .del parameters config declared)
    {dropped : List Parameter} (hd : dropped ⊆ [.netns, .args]) :
    (session.unsetting dropped).Admits support .del (parameters.clearing dropped) config
      declared := by
  have kept {p : Parameter} (hp : p ∉ [Parameter.netns, .args]) :
      parameters.clearing dropped p = parameters p := if_neg fun hm => hp (hd hm)
  exact
    { given := Environment.gives_unsetting h.given dropped
      command := (kept (by decide)).trans h.command
      containerId := by rw [kept (by decide)]; exact h.containerId
      ifName := by rw [kept (by decide)]; exact h.ifName
      path := by rw [kept (by decide)]; exact h.path
      netns := fun hne => absurd rfl hne
      delivered := h.delivered
      valid := h.valid
      declares := h.declares
      served := h.served }

/-- What is admitted with a listed version and a namespace is also handed over as a CHECK. -/
theorem Admits.checks {offer : Offer}
    (h : session.Admits offer.support action parameters config declared)
    (hlisted : declared ∈ offer.support.versions) (hnetns : parameters .netns ≠ "")
    (plugin : Plugin) (about : String) :
    session.Checks plugin offer about (parameters.toInvocation (.perform action) config) := by
  intro other v hother hv hfloor hall
  obtain rfl : declared = other := Except.ok.inj (h.declares.symm.trans hother)
  have hserved := Support.serves_check_of_mem hlisted hv hfloor hall
  exact call_of_admits (h.commanding .check (fun _ => hnetns) hserved) plugin about

/-- What could be added can be deleted, even without a namespace or extra arguments; what could be
deleted and has a namespace can be added; and both can be checked, if the declared version is not
older than CHECK and all supported ones are versions.  The plugin is handed the same invocation,
except for the operation and the variables that are unset. -/
theorem added_released_checked (session : Session) (plugin : Plugin) (offer : Offer)
    (about : String) :
    (∀ invocation, (session.dispatch plugin offer about).call = some (.add, invocation) →
      (∀ dropped, dropped ⊆ [Parameter.netns, .args] →
        (((session.commanding .del).unsetting dropped).dispatch plugin offer about).call =
          some (.del, { invocation with
            command := .perform .del
            netns := if .netns ∈ dropped then "" else invocation.netns
            args := if .args ∈ dropped then "" else invocation.args })) ∧
      session.Checks plugin offer about invocation) ∧
    ∀ invocation, (session.dispatch plugin offer about).call = some (.del, invocation) →
      invocation.netns ≠ "" →
      ((session.commanding .add).dispatch plugin offer about).call =
          some (.add, { invocation with command := .perform .add }) ∧
        session.Checks plugin offer about invocation := by
  constructor
  · intro invocation hcall
    obtain ⟨parameters, config, declared, ha, rfl⟩ := admits_of_call hcall
    refine ⟨fun dropped hd => ?_, ha.checks ha.served (ha.netns (by decide)) plugin about⟩
    have hdel := ha.commanding .del (fun hne => absurd rfl hne) ha.served
    rw [call_of_admits (hdel.unsetting hd) plugin about]
    have kept {p : Parameter} (hp : p ∉ [Parameter.netns, .args]) : p ∉ dropped :=
      fun hm => hp (hd hm)
    simp [Parameters.toInvocation, Parameters.clearing, Parameters.set,
      kept (p := .containerId) (by decide), kept (p := .ifName) (by decide),
      kept (p := .path) (by decide)]
  · intro invocation hcall hnetns
    obtain ⟨parameters, config, declared, ha, rfl⟩ := admits_of_call hcall
    have hadd := ha.commanding .add (fun _ => hnetns) ha.served
    exact ⟨call_of_admits hadd plugin about, ha.checks ha.served hnetns plugin about⟩

/-- An attachment of a version that is not written out, next to a supported one that is newer. -/
def attached : Session where
  environment := .ofList
    [("CNI_COMMAND", Text.Utf8.ofString "ADD"), ("CNI_CONTAINERID", Text.Utf8.ofString "c"),
     ("CNI_NETNS", Text.Utf8.ofString "n"), ("CNI_IFNAME", Text.Utf8.ofString "e"),
     ("CNI_ARGS", Text.Utf8.ofString "K=V"), ("CNI_PATH", Text.Utf8.ofString "/bin")]
  input := [.bytes (Text.Utf8.ofString "\x7b\"name\":\"n\",\"cniVersion\":\"0.4\"\x7d")]

theorem attached_released_checked :
    ∃ invocation : Invocation, invocation.netns = "n" ∧ invocation.args = "K=V" ∧
      (((attached.commanding .del).unsetting [.netns, .args]).dispatch ⟨fun _ _ => .done .success⟩
          (Support.offer ⟨["1.0.0", "0.4"]⟩) "").call =
        some (.del, { invocation with command := .perform .del, netns := "", args := "" }) ∧
      ((attached.commanding .check).dispatch ⟨fun _ _ => .done .success⟩
          (Support.offer ⟨["1.0.0", "0.4"]⟩) "").call =
        some (.check, { invocation with command := .perform .check }) := by
  have hadded : (attached.dispatch ⟨fun _ _ => .done .success⟩
      (Support.offer ⟨["1.0.0", "0.4"]⟩) "").call =
        some (.add, ⟨.perform .add, "c", "n", "e", "K=V", "/bin",
          Text.Utf8.ofString "\x7b\"name\":\"n\",\"cniVersion\":\"0.4\"\x7d"⟩) := by
    decide +kernel
  have hboth := (added_released_checked attached ⟨fun _ _ => .done .success⟩
    (Support.offer ⟨["1.0.0", "0.4"]⟩) "").1 _ hadded
  obtain ⟨hdel, hcheck⟩ := hboth
  refine ⟨_, rfl, rfl, hdel [.netns, .args] (fun _ h => h), ?_⟩
  have hversions : ∀ entry ∈ ["1.0.0", "0.4"], ∃ w, Version.parse entry = .ok w := by
    intro entry he
    rcases List.mem_cons.mp he with rfl | he
    · exact ⟨⟨1, 0, 0⟩, rfl⟩
    · rw [List.mem_singleton.mp he]
      exact ⟨⟨0, 4, 0⟩, rfl⟩
  have hdeclared : (NetworkConfig.declaredVersion
      (Text.Utf8.ofString "\x7b\"name\":\"n\",\"cniVersion\":\"0.4\"\x7d")).toOption =
        some "0.4" := by decide +kernel
  exact hcheck "0.4" ⟨0, 4, 0⟩ (Json.ok_of_toOption hdeclared) rfl (Version.notOlder_iff.mp rfl)
    hversions

end Session
end CniPlugin
