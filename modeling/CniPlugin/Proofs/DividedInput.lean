import CniPlugin.Proofs.BreakingSessions
import CniPlugin.Proofs.Footprint
/-!
# The input is divided among the invocations

A session serves one invocation after the other from the same input.  Each of them consumes the
first part of what is left: an operation whose parameters are all there reads to the next end, and
every other invocation reads nothing.  What one invocation has consumed is its configuration, or it
is lost with the read that failed; in neither case does any of it reach a later invocation.  How the
bytes between two marks are divided into segments is nowhere seen.

Results:
1. `readToEnd_arrivals`: a read to the end goes by what arrives, one byte at a time.
2. `consumes_of_idle`, `consumes_of_delivers`, `consumes_of_breaksOff`: the part of the input that
   an invocation consumes, and what becomes of it.
3. `divides_input`: any number of invocations consume one part after the other.
4. `turns_alike`: input that arrives alike is served alike.
5. `input_divided`: all of it for a session of any length.
-/

namespace CniPlugin

/-! ## Definitions -/

/-- A byte that arrives, or a mark between bytes. -/
inductive Arrival where
  | byte (b : UInt8)
  | ended
  | failed (text : String)
  deriving DecidableEq, Repr

/-- Reads to the end, one byte at a time. -/
def Arrival.readToEnd : List Arrival → Except String Bytes × List Arrival
  | [] => (.ok [], [])
  | .byte b :: rest =>
    match Arrival.readToEnd rest with
    | (.ok more, left) => (.ok (b :: more), left)
    | (.error text, left) => (.error text, left)
  | .ended :: rest => (.ok [], rest)
  | .failed text :: rest => (.error text, rest)

/-- What arrives, one byte at a time.  Interruptions and the division into segments are lost. -/
def Input.arrivals : Input → List Arrival
  | [] => []
  | .bytes content :: rest => content.map .byte ++ Input.arrivals rest
  | .interrupted :: rest => Input.arrivals rest
  | .ended :: rest => .ended :: Input.arrivals rest
  | .failed text :: rest => .failed text :: Input.arrivals rest

/-- One of the invocations of a session.  A fault of it is reported on the output stream, or only
returned. -/
structure Turn extends Step where
  reports : Bool

namespace Session

/-- The invocation has no use for input: a variable is no text, the about text is asked for, a
parameter is missing, or the command is no operation. -/
inductive Idle (session : Session) (about : String) : Prop
  | notText {p : Parameter} : session.environment.FirstNotText session.lookups p →
      Idle session about
  | about : session.AsksAbout about → Idle session about
  | missing {parameters : Parameters} : session.environment.Gives session.lookups parameters →
      parameters.absent ≠ [] → Idle session about
  | noOperation {parameters : Parameters} : session.environment.Gives session.lookups parameters →
      parameters .command ∉ ["ADD", "CHECK", "DEL"] → Idle session about

/-- The session in the environment of a turn. -/
def facing (session : Session) (turn : Turn) : Session :=
  { session with environment := turn.environment }

/-- Serves the invocation of a turn. -/
def take (session : Session) (turn : Turn) : Dispatched :=
  if turn.reports then (session.facing turn).run turn.plugin turn.offer turn.about
  else (session.facing turn).dispatch turn.plugin turn.offer turn.about

/-- What becomes of each of some turns. -/
def dispatches (session : Session) : List Turn → List Dispatched
  | [] => []
  | turn :: turns => session.take turn :: (session.take turn).session.dispatches turns

/-- The session after some turns. -/
def afterTurns (session : Session) : List Turn → Session
  | [] => session
  | turn :: turns => (session.take turn).session.afterTurns turns

/-- A turn consumes a part of the input. -/
structure Consumes (session : Session) (turn : Turn) (part : Input) : Prop where
  /-- It is the first part, and the rest is left. -/
  left : session.input = part ++ (session.take turn).session.input
  /-- Where there is no use for input, nothing is consumed. -/
  idle : (session.facing turn).Idle turn.about → part = []
  /-- A read that succeeds has consumed the configuration for which the invocation is planned … -/
  read : (session.facing turn).AsksOperation → ∀ config rest, session.input.Delivers config rest →
    part.content = config ∧ ∃ action parameters, (session.facing turn).Asks action parameters ∧
      ((session.facing turn).plan turn.offer.support turn.about).1 =
        (parameters.toInvocation (.perform action) part.content).plan turn.offer.support
  /-- … and with which the plugin is called. -/
  called : ∀ action invocation, (session.take turn).call = some (action, invocation) →
    invocation.config = part.content
  /-- A read that fails is reported and nothing is called.  What it has consumed is lost: with other
  bytes in its place everything is the same, here and afterwards. -/
  lost : (session.facing turn).AsksOperation → ∀ text rest, session.input.BreaksOff text rest →
    (session.take turn).result = .error ⟨.inputOutput, "error reading from stdin: " ++ text, ""⟩ ∧
      (session.take turn).call = none ∧
      ∀ other : Input, other.BreaksOff text rest →
        { session with input := other }.take turn = session.take turn

/-- Turns consume one part of the input after the other. -/
inductive Divides : Session → List Turn → List Input → Prop
  | nil (session : Session) : Divides session [] []
  | cons {session : Session} {turn : Turn} {turns : List Turn} {part : Input}
      {parts : List Input} : session.Consumes turn part →
      Divides (session.take turn).session turns parts →
      Divides session (turn :: turns) (part :: parts)

end Session

/-! ## Reading -/

namespace Input

theorem content_append (input other : Input) :
    (input ++ other).content = input.content ++ other.content := by
  induction input with
  | nil => rfl
  | cons segment input ih =>
    cases segment with
    | bytes chunk => simp [content, ih]
    | interrupted | ended | failed => exact ih

theorem content_flatten (parts : List Input) :
    content parts.flatten = (parts.map content).flatten := by
  induction parts with
  | nil => rfl
  | cons part parts ih =>
    rw [List.flatten_cons, content_append, ih, List.map_cons, List.flatten_cons]

/-- A read that succeeds takes off the segments with the bytes that it returns. -/
theorem Delivers.part {input left : Input} {config : Bytes} (h : input.Delivers config left) :
    ∃ part, input = part ++ left ∧ part.content = config := by
  obtain ⟨before, -, hc, rfl | ⟨rfl, rfl⟩⟩ := h
  · refine ⟨before ++ [.ended], by simp, ?_⟩
    rw [content_append, hc]
    exact List.append_nil config
  · exact ⟨input, (List.append_nil input).symm, hc⟩

/-- A read to the end goes by what arrives. -/
theorem readToEnd_arrivals (input : Input) :
    Arrival.readToEnd input.arrivals = (input.readToEnd.1, input.readToEnd.2.arrivals) := by
  induction input with
  | nil => rfl
  | cons segment rest ih =>
    cases segment with
    | bytes chunk =>
      rw [arrivals, readToEnd]
      -- The bytes of a segment arrive one after the other.
      induction chunk with
      | nil =>
        rw [List.map_nil, List.nil_append, ih]
        rcases readToEnd rest with ⟨_ | _, left⟩ <;> rfl
      | cons b chunk ihc =>
        rw [List.map_cons, List.cons_append, Arrival.readToEnd, ihc]
        rcases readToEnd rest with ⟨_ | _, left⟩ <;> rfl
    | interrupted => exact ih
    | ended => rfl
    | failed text => rfl

/-- Input that arrives alike is read alike. -/
theorem readToEnd_alike {input other : Input} (h : other.arrivals = input.arrivals) :
    other.readToEnd.1 = input.readToEnd.1 ∧
      other.readToEnd.2.arrivals = input.readToEnd.2.arrivals := by
  have hread := readToEnd_arrivals other
  rw [h, readToEnd_arrivals] at hread
  exact ⟨(congrArg Prod.fst hread).symm, (congrArg Prod.snd hread).symm⟩

end Input

theorem Parameters.invocation_alike (parameters : Parameters) {input other : Input}
    (h : other.arrivals = input.arrivals) :
    (parameters.invocation other).1 = (parameters.invocation input).1 ∧
      (parameters.invocation other).2.arrivals = (parameters.invocation input).2.arrivals := by
  unfold Parameters.invocation
  split
  · exact ⟨rfl, h⟩
  · exact ⟨rfl, h⟩
  · obtain ⟨hresult, hleft⟩ := Input.readToEnd_alike h
    generalize other.readToEnd = read' at hresult hleft ⊢
    generalize input.readToEnd = read at hresult hleft ⊢
    obtain ⟨result', left⟩ := read'
    obtain ⟨result, rest⟩ := read
    obtain rfl : result' = result := hresult
    cases result' with
    | ok config => exact ⟨rfl, hleft⟩
    | error text => exact ⟨rfl, hleft⟩

/-! ## One turn -/

namespace Session

theorem idle_iff (session : Session) (about : String) :
    session.Idle about ↔ ¬ session.AsksOperation := by
  constructor
  · rintro h ⟨parameters, given, hcommand, hcomplete⟩
    cases h with
    | notText hp => exact Parameters.not_firstNotText_of_gives given _ hp
    | about hasks =>
      obtain ⟨others, hothers, hnone, -⟩ := hasks
      rw [Parameters.gives_unique given hothers, hnone] at hcommand
      exact absurd hcommand (by decide)
    | missing hothers habsent =>
      rw [Parameters.gives_unique given hothers] at hcomplete
      exact habsent hcomplete
    | noOperation hothers hnone =>
      rw [Parameters.gives_unique given hothers] at hcommand
      exact hnone hcommand
  · intro h
    rcases Parameters.capture_spec session.environment session.lookups with
      ⟨parameters, -, given⟩ | ⟨p, -, hp⟩
    · by_cases hcommand : parameters .command ∈ ["ADD", "CHECK", "DEL"]
      · exact .missing given fun hcomplete => h ⟨parameters, given, hcommand, hcomplete⟩
      · exact .noOperation given hcommand
    · exact .notText hp

theorem AsksOperation.asks {session : Session} (h : session.AsksOperation) :
    ∃ action parameters, session.Asks action parameters := by
  obtain ⟨parameters, given, hcommand, hcomplete⟩ := h
  simp only [List.mem_cons, List.not_mem_nil, or_false] at hcommand
  rcases hcommand with hcommand | hcommand | hcommand
  · exact ⟨.add, parameters, given, hcommand, hcomplete⟩
  · exact ⟨.check, parameters, given, hcommand, hcomplete⟩
  · exact ⟨.del, parameters, given, hcommand, hcomplete⟩

theorem Admits.asksOperation {session : Session} {support : Support} {action : Action}
    {parameters : Parameters} {config : Bytes} {declared : String}
    (h : session.Admits support action parameters config declared) : session.AsksOperation := by
  refine ⟨parameters, h.given, ?_, ?_⟩
  · rw [h.command]
    cases action <;> decide
  · exact (Parameters.absent_eq_nil_iff h.command).mpr ⟨h.containerId, h.ifName, h.path, h.netns⟩

/-- A report reads nothing. -/
theorem report_with_input (session : Session) (input : Input) (result : Except Fault Unit) :
    { session with input }.report result = { session.report result with input } := by
  cases result <;> rfl

theorem input_report (session : Session) (result : Except Fault Unit) :
    (session.report result).input = session.input := by
  cases result <;> rfl

/-- A turn is a dispatch, but for what is reported. -/
theorem take_spec (session : Session) (turn : Turn) :
    (session.take turn).result =
        ((session.facing turn).dispatch turn.plugin turn.offer turn.about).result ∧
      (session.take turn).call =
        ((session.facing turn).dispatch turn.plugin turn.offer turn.about).call ∧
      (session.take turn).session.input =
        ((session.facing turn).dispatch turn.plugin turn.offer turn.about).session.input := by
  unfold take
  split
  · exact ⟨rfl, rfl, input_report _ _⟩
  · exact ⟨rfl, rfl, rfl⟩

theorem input_of_idle {session : Session} {turn : Turn}
    (h : (session.facing turn).Idle turn.about) :
    (session.take turn).session.input = session.input := by
  have hsame := dispatch_with_input (session.facing turn) turn.plugin turn.offer turn.about
    ((idle_iff _ _).mp h) session.input
  have hinput := congrArg (·.session.input) hsame
  rw [(take_spec session turn).2.2]
  exact hinput

theorem input_of_asksOperation {session : Session} {turn : Turn}
    (h : (session.facing turn).AsksOperation) :
    (session.take turn).session.input = session.input.readToEnd.2 := by
  rw [(take_spec session turn).2.2]
  exact (dispatch_footprint (session.facing turn) turn.plugin turn.offer turn.about).1.read h

/-- An operation whose input breaks off is the same whatever bytes are lost. -/
theorem plan_of_lost {session : Session} (h : session.AsksOperation) {text : String}
    {rest : Input} (hb : session.input.BreaksOff text rest) (support : Support) (about : String) :
    session.plan support about = (.error (Invocation.unreadInput text), { session with
      lookups := session.lookups ++ Parameter.all.map (·.variableName)
      input := rest }) := by
  obtain ⟨action, parameters, asks⟩ := h.asks
  have hawaits : parameters.awaitsInput = true := by
    rw [Parameters.awaitsInput, asks.command_eq]
  refine Prod.ext (plan_of_unread asks hb support about) ?_
  rw [session_plan_of_given asks.given, if_pos hawaits, Input.readToEnd_of_breaksOff hb]

theorem take_of_lost {session : Session} {turn : Turn} (h : (session.facing turn).AsksOperation)
    {text : String} {rest : Input} (hb : session.input.BreaksOff text rest) :
    (session.take turn).result = .error (Invocation.unreadInput text) ∧
      (session.take turn).call = none ∧
      ∀ other : Input, other.BreaksOff text rest →
        { session with input := other }.take turn = session.take turn := by
  have hdispatch : (session.facing turn).dispatch turn.plugin turn.offer turn.about =
      ⟨.error (Invocation.unreadInput text), { session.facing turn with
        lookups := session.lookups ++ Parameter.all.map (·.variableName)
        input := rest }, none⟩ := by
    rw [dispatch_eq, plan_of_lost h hb]
    rfl
  obtain ⟨hresult, hcall, -⟩ := take_spec session turn
  rw [hdispatch] at hresult hcall
  refine ⟨hresult, hcall, fun other ho => ?_⟩
  have h' : (({ session with input := other } : Session).facing turn).AsksOperation := h
  have hother : (({ session with input := other } : Session).facing turn).dispatch turn.plugin
      turn.offer turn.about =
        (session.facing turn).dispatch turn.plugin turn.offer turn.about := by
    rw [hdispatch, dispatch_eq, plan_of_lost h' ho]
    rfl
  simp only [take, run, hother]

theorem asksOperation_of_called {session : Session} {turn : Turn} {action : Action}
    {invocation : Invocation} (h : (session.take turn).call = some (action, invocation)) :
    (session.facing turn).AsksOperation := by
  rw [(take_spec session turn).2.1] at h
  obtain ⟨_, _, _, hadmits, -⟩ := admits_of_call h
  exact hadmits.asksOperation

theorem config_of_called {session : Session} {turn : Turn} {action : Action}
    {invocation : Invocation} (h : (session.take turn).call = some (action, invocation))
    {config : Bytes} {rest : Input} (hd : session.input.Delivers config rest) :
    invocation.config = config := by
  rw [(take_spec session turn).2.1] at h
  obtain ⟨_, config', _, hadmits, rfl⟩ := admits_of_call h
  obtain ⟨rest', hd'⟩ := hadmits.delivered
  cases (Input.readToEnd_of_delivers hd').symm.trans (Input.readToEnd_of_delivers hd)
  rfl

/-- Without a use for input nothing is consumed. -/
theorem consumes_of_idle {session : Session} {turn : Turn}
    (h : (session.facing turn).Idle turn.about) : session.Consumes turn [] := by
  have hnot := (idle_iff _ _).mp h
  exact
    { left := (input_of_idle h).symm
      idle := fun _ => rfl
      read := fun hasks => absurd hasks hnot
      called := fun _ _ hcall => absurd (asksOperation_of_called hcall) hnot
      lost := fun hasks => absurd hasks hnot }

/-- A read that succeeds consumes the configuration. -/
theorem consumes_of_delivers {session : Session} {turn : Turn}
    (h : (session.facing turn).AsksOperation) {config : Bytes} {rest : Input}
    (hd : session.input.Delivers config rest) : ∃ part, session.Consumes turn part := by
  obtain ⟨part, hpart, hcontent⟩ := hd.part
  have hread := Input.readToEnd_of_delivers hd
  have hleft := input_of_asksOperation h
  rw [hread] at hleft
  obtain ⟨action, parameters, asks⟩ := h.asks
  refine ⟨part,
    { left := by rw [hleft, ← hpart]
      idle := fun hidle => absurd h ((idle_iff _ _).mp hidle)
      read := fun _ config' rest' hd' => ?_
      called := fun _ _ hcall => (config_of_called hcall hd).trans hcontent.symm
      lost := fun _ text rest' hb => ?_ }⟩
  · cases hread.symm.trans (Input.readToEnd_of_delivers hd')
    refine ⟨hcontent, action, parameters, asks, ?_⟩
    rw [hcontent]
    exact plan_of_asks asks hd _ _
  · rw [Input.readToEnd_of_breaksOff hb] at hread
    cases hread

/-- A read that fails consumes what comes before the failure, and the failure. -/
theorem consumes_of_breaksOff {session : Session} {turn : Turn}
    (h : (session.facing turn).AsksOperation) {text : String} {rest : Input}
    (hb : session.input.BreaksOff text rest) : ∃ part, session.Consumes turn part := by
  have hlost := take_of_lost h hb
  have hread := Input.readToEnd_of_breaksOff hb
  have hleft := input_of_asksOperation h
  rw [hread] at hleft
  obtain ⟨before, -, hbefore⟩ := hb
  refine ⟨before ++ [.failed text],
    { left := by rw [hleft, hbefore]; simp
      idle := fun hidle => absurd h ((idle_iff _ _).mp hidle)
      read := fun _ config rest' hd => ?_
      called := fun _ _ hcall => ?_
      lost := fun _ text' rest' hb' => ?_ }⟩
  · rw [Input.readToEnd_of_delivers hd] at hread
    cases hread
  · rw [hlost.2.1] at hcall
    cases hcall
  · cases hread.symm.trans (Input.readToEnd_of_breaksOff hb')
    exact hlost

/-- Every turn consumes a part of the input. -/
theorem consumes_part (session : Session) (turn : Turn) :
    ∃ part, session.Consumes turn part := by
  by_cases h : (session.facing turn).AsksOperation
  · rcases session.input.readToEnd_spec with ⟨_, _, -, hd⟩ | ⟨_, _, -, hb⟩
    · exact consumes_of_delivers h hd
    · exact consumes_of_breaksOff h hb
  · exact ⟨[], consumes_of_idle ((idle_iff _ _).mpr h)⟩

/-! ## Any number of turns -/

theorem divides_input (session : Session) (turns : List Turn) :
    ∃ parts, session.Divides turns parts ∧
      session.input = parts.flatten ++ (session.afterTurns turns).input := by
  induction turns generalizing session with
  | nil => exact ⟨[], .nil session, rfl⟩
  | cons turn turns ih =>
    obtain ⟨part, hpart⟩ := session.consumes_part turn
    obtain ⟨parts, hparts, hleft⟩ := ih (session.take turn).session
    refine ⟨part :: parts, .cons hpart hparts, ?_⟩
    rw [List.flatten_cons, List.append_assoc, afterTurns, ← hleft]
    exact hpart.left

/-! ## Input that arrives alike -/

theorem plan_alike {session : Session} {other : Input}
    (h : other.arrivals = session.input.arrivals) (support : Support) (about : String) :
    ∃ left, { session with input := other }.plan support about =
        ((session.plan support about).1,
          { (session.plan support about).2 with input := left }) ∧
      left.arrivals = (session.plan support about).2.input.arrivals := by
  unfold plan
  dsimp only
  split
  · exact ⟨other, rfl, h⟩
  · next parameters _ _ =>
    split
    · exact ⟨other, rfl, h⟩
    · obtain ⟨hresult, hleft⟩ := parameters.invocation_alike h
      generalize parameters.invocation other = completed' at hresult hleft ⊢
      generalize parameters.invocation session.input = completed at hresult hleft ⊢
      obtain ⟨result', left⟩ := completed'
      obtain ⟨result, rest⟩ := completed
      obtain rfl : result' = result := hresult
      cases result' with
      | error fault => exact ⟨left, rfl, hleft⟩
      | ok invocation => exact ⟨left, rfl, hleft⟩

theorem dispatch_alike {session : Session} {other : Input}
    (h : other.arrivals = session.input.arrivals) (plugin : Plugin) (offer : Offer)
    (about : String) :
    ∃ left, { session with input := other }.dispatch plugin offer about =
        (session.dispatch plugin offer about).withInput left ∧
      left.arrivals = (session.dispatch plugin offer about).session.input.arrivals := by
  obtain ⟨left, hplan, hleft⟩ := plan_alike h offer.support about
  refine ⟨left, ?_, ?_⟩
  · rw [dispatch_eq, dispatch_eq session, hplan]
    dsimp only
    split
    · rfl
    · exact carryOut_with_input _ plugin offer about left _
  · rw [(dispatch_after_plan session plugin offer about).2]
    exact hleft

/-- Input that arrives alike makes no difference to a turn, and what is left arrives alike. -/
theorem take_alike {session : Session} {other : Input}
    (h : other.arrivals = session.input.arrivals) (turn : Turn) :
    ∃ left, { session with input := other }.take turn = (session.take turn).withInput left ∧
      left.arrivals = (session.take turn).session.input.arrivals := by
  have h' : other.arrivals = (session.facing turn).input.arrivals := h
  obtain ⟨left, hdispatch, hleft⟩ := dispatch_alike h' turn.plugin turn.offer turn.about
  have hfacing : ({ session with input := other } : Session).facing turn =
      { session.facing turn with input := other } := rfl
  refine ⟨left, ?_, ?_⟩
  · unfold take
    rw [hfacing]
    split
    · rw [run, hdispatch]
      simp only [Dispatched.withInput, report_with_input]
      rfl
    · exact hdispatch
  · rw [(take_spec session turn).2.2]
    exact hleft

/-- Input that arrives alike makes no difference to any number of turns. -/
theorem turns_alike {session : Session} {other : Input}
    (h : other.arrivals = session.input.arrivals) (turns : List Turn) :
    (({ session with input := other } : Session).dispatches turns).map (·.withInput []) =
        (session.dispatches turns).map (·.withInput []) ∧
      ∃ left, { session with input := other }.afterTurns turns =
          { session.afterTurns turns with input := left } ∧
        left.arrivals = (session.afterTurns turns).input.arrivals := by
  induction turns generalizing session other with
  | nil => exact ⟨rfl, other, rfl, h⟩
  | cons turn turns ih =>
    obtain ⟨left, htake, hleft⟩ := take_alike h turn
    obtain ⟨hsame, hafter⟩ := ih hleft
    simp only [dispatches, afterTurns, htake, List.map_cons]
    exact ⟨congrArg _ hsame, hafter⟩

/-- The turns of a session consume one part of its input after the other, and what they leave is the
rest; so the bytes of the input are those of the parts, in order, and of the rest.  With input that
arrives alike, in other segments or with other interruptions, the plugins are called with the same
configurations, each invocation ends the same, and what is left arrives alike. -/
theorem input_divided (session : Session) (turns : List Turn) :
    (∃ parts, session.Divides turns parts ∧
        session.input = parts.flatten ++ (session.afterTurns turns).input ∧
        session.input.content =
          (parts.map Input.content).flatten ++ (session.afterTurns turns).input.content) ∧
      ∀ other : Input, other.arrivals = session.input.arrivals →
        (({ session with input := other } : Session).dispatches turns).map (·.call) =
            (session.dispatches turns).map (·.call) ∧
          (({ session with input := other } : Session).dispatches turns).map (·.result) =
            (session.dispatches turns).map (·.result) ∧
          ({ session with input := other }.afterTurns turns).input.arrivals =
            (session.afterTurns turns).input.arrivals := by
  constructor
  · obtain ⟨parts, hparts, hinput⟩ := session.divides_input turns
    refine ⟨parts, hparts, hinput, ?_⟩
    rw [← Input.content_flatten, ← Input.content_append, ← hinput]
  · intro other h
    obtain ⟨hsame, left, hafter, hleft⟩ := turns_alike h turns
    have kept {α : Type} (f : Dispatched → α) (hf : ∀ d, f (d.withInput []) = f d)
        (ds : List Dispatched) : (ds.map (·.withInput [])).map f = ds.map f := by
      rw [List.map_map]
      exact List.map_congr_left fun d _ => hf d
    refine ⟨?_, ?_, ?_⟩
    · rw [← kept (·.call) (fun _ => rfl), hsame, kept _ fun _ => rfl]
    · rw [← kept (·.result) (fun _ => rfl), hsame, kept _ fun _ => rfl]
    · rw [hafter]
      exact hleft

/-- A release, with the recorder. -/
def releasingTurn : Turn where
  environment := .ofList
    [("CNI_COMMAND", Text.Utf8.ofString "DEL"), ("CNI_CONTAINERID", Text.Utf8.ofString "c"),
     ("CNI_IFNAME", Text.Utf8.ofString "e"), ("CNI_PATH", Text.Utf8.ofString "/bin")]
  plugin := Recorder.plugin
  offer := Support.offer ⟨["0.4.0"]⟩
  about := ""
  reports := true

/-- A question for the versions, which is only dispatched. -/
def inquiringTurn : Turn :=
  { releasingTurn with
    environment := .ofList [("CNI_COMMAND", Text.Utf8.ofString "VERSION")]
    reports := false }

/-- Input whose first read fails, and whose second brings a configuration in pieces. -/
def inPieces : Input :=
  [.bytes [0x7B], .failed "gone", .bytes (Text.Utf8.ofString "\x7b\"name\":\"n\","), .interrupted,
   .bytes (Text.Utf8.ofString "\"cniVersion\":\"0.4.0\"\x7d"), .ended, .bytes [0x20]]

/-- The same with each stretch in one piece. -/
def inOnePiece : Input :=
  [.bytes [0x7B], .failed "gone",
   .bytes (Text.Utf8.ofString "\x7b\"name\":\"n\",\"cniVersion\":\"0.4.0\"\x7d"), .ended,
   .bytes [0x20]]

/-- A session that reads the one or the other. -/
def reading (input : Input) : Session where
  environment := .ofList []
  input := input

/-- Of three releases with a question in between, the first loses what it has read, the second gets
the configuration, and what is left for the third is none. -/
theorem inPieces_divided :
    inOnePiece.arrivals = inPieces.arrivals ∧
      ((reading inPieces).dispatches
          [releasingTurn, inquiringTurn, releasingTurn, releasingTurn]).map
            (fun dispatched => dispatched.call.map (·.2.config)) =
        [none, none,
          some (Text.Utf8.ofString "\x7b\"name\":\"n\",\"cniVersion\":\"0.4.0\"\x7d"), none] ∧
      ((reading inOnePiece).dispatches
          [releasingTurn, inquiringTurn, releasingTurn, releasingTurn]).map (·.call) =
        ((reading inPieces).dispatches
          [releasingTurn, inquiringTurn, releasingTurn, releasingTurn]).map (·.call) := by
  have halike : inOnePiece.arrivals = inPieces.arrivals := by decide +kernel
  refine ⟨halike, by decide +kernel, ?_⟩
  exact ((input_divided (reading inPieces) _).2 inOnePiece halike).1

end Session
end CniPlugin
