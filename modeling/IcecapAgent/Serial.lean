import IcecapAgent.Pipeline
import IcecapAgent.Sessions

/- The agent as a server that takes one command at a time.

   Between the bytes of a client and a call into the game stand three threads, two
   queues and any number of connections. `Serial` is what they are for: commands
   arrive and wait in line, and one step takes the first of them, has the game do it,
   and leaves its verdict. That everything served came from the line, in order, and
   that the outbox and the calls are what serving it gives, are fields of its state.

   1. `agent_serial` — every interleaving of the threads is a run of this server: a
      command takes effect at the moment `processCommand` ends;
   2. `wire_to_game` — so what the agent calls in the game is, at all times, the
      beginning of what the bytes of its clients ask for, whatever the timing, the
      answers of the game, and the exceptions on the way. -/
namespace Icecap.Core
open StepRun

/-! ## The calls a command asks for -/

/-- The calls of game functions that a command leads to. A string is seen by the game
up to its first NUL. -/
def callsFor (command : IncomingMessage) : List GameCall :=
  match command.type with
  | .luaExecute =>
    match command.luaExecutePayload with
    | none => []
    | some payload =>
      if payload.executableCode = [] then []
      else [.dostring (cStr payload.executableCode) (cStr (literal "source"))]
  | .luaReadVariable =>
    match command.luaReadVariablePayload with
    | none => []
    | some payload => if payload.variableName = [] then [] else [.getText (cStr payload.variableName)]
  | .clickToMove =>
    match command.clickToMovePayload with
    | none => []
    | some payload =>
      match payload.position with
      | none => []
      | some position =>
        let address := payload.playerBaseAddress.toUInt32
        if address = 0 then []
        else [.clickToMove address payload.action guidBuf (clickPos position) payload.precision]
  | .other _ => []

/-- The events a command is answered with. -/
def verdictOf (game : GameFunctions) (eventId : Bytes) (command : IncomingMessage) : List OutgoingMessage :=
  (processCommand game eventId command ⟨[], []⟩).outbox

section
variable {game : GameFunctions} {eventId : Bytes} {command : IncomingMessage} {p : Processing}

theorem callsFor_length (command : IncomingMessage) : (callsFor command).length ≤ 1 := by
  unfold callsFor
  split
  · split
    · simp
    · split <;> simp
  · split
    · simp
    · split <;> simp
  · split
    · simp
    · split
      · simp
      · dsimp only
        split <;> simp
  · simp

theorem executeLuaCode_calls_eq (code scriptName : Bytes) :
    (executeLuaCode game code scriptName).2 =
      if code = [] then [] else [.dostring (cStr code) (cStr scriptName)] := by
  by_cases h : code = []
  · rw [if_pos h, h]
    rfl
  · rw [if_neg h, executeLuaCode_calls h]

theorem readLuaVariable_calls_eq (variableName : Bytes) :
    (readLuaVariable game variableName).2 =
      if variableName = [] then [] else [.getText (cStr variableName)] := by
  by_cases h : variableName = []
  · rw [if_pos h, h]
    rfl
  · rw [if_neg h, readLuaVariable_calls h]

theorem executeClickToMove_calls {address precision : UInt32} {position : Position} {action : Int}
    (h : address ≠ 0) :
    (executeClickToMove game address position action precision).2 =
      [.clickToMove address action guidBuf (clickPos position) precision] := by
  unfold executeClickToMove
  rw [if_neg (by simpa using h)]
  dsimp only
  split <;> rfl

theorem callsFor_unanswerable (h : ¬ Answerable command) : callsFor command = [] := by
  unfold Answerable at h
  unfold callsFor
  cases ht : command.type with
  | luaExecute =>
    simp only [ht, Bool.not_eq_true, Option.isSome_eq_false_iff, Option.isNone_iff_eq_none] at h
    simp only [h]
  | luaReadVariable =>
    simp only [ht, Bool.not_eq_true, Option.isSome_eq_false_iff, Option.isNone_iff_eq_none] at h
    simp only [h]
  | clickToMove =>
    simp only [ht] at h
    cases hp : command.clickToMovePayload with
    | none => simp only
    | some payload =>
      cases hposition : payload.position with
      | none => simp only [hposition]
      | some position =>
        have haddress : payload.playerBaseAddress.toUInt32 = 0 := by
          by_contra hne
          exact h ⟨payload, hp, hne, by rw [hposition]; rfl⟩
        simp only [hposition, if_pos haddress]
  | other value => simp only

/-- What the game answers decides the verdict, never what is called. -/
theorem processCommand_calls : (processCommand game eventId command p).calls = p.calls ++ callsFor command := by
  by_cases h : Answerable command
  · unfold Answerable at h
    cases ht : command.type with
    | luaExecute =>
      simp only [ht, Option.isSome_iff_exists] at h
      obtain ⟨payload, hp⟩ := h
      simp only [processCommand_luaExecute ht hp, callsFor, ht, hp, executeLuaCode_calls_eq]
    | luaReadVariable =>
      simp only [ht, Option.isSome_iff_exists] at h
      obtain ⟨payload, hp⟩ := h
      simp only [processCommand_luaReadVariable ht hp, callsFor, ht, hp, readLuaVariable_calls_eq]
    | clickToMove =>
      simp only [ht, Option.isSome_iff_exists] at h
      obtain ⟨payload, hp, haddress, position, hposition⟩ := h
      simp only [processCommand_clickToMove ht hp haddress hposition, callsFor, ht, hp, hposition, if_neg haddress,
        executeClickToMove_calls haddress]
    | other value => simp [ht] at h
  · rw [processCommand_unanswerable h, callsFor_unanswerable h, List.append_nil]

theorem processCommand_verdict :
    (processCommand game eventId command p).outbox = p.outbox ++ verdictOf game eventId command := by
  by_cases h : Answerable command
  · unfold Answerable at h
    cases ht : command.type with
    | luaExecute =>
      simp only [ht, Option.isSome_iff_exists] at h
      obtain ⟨payload, hp⟩ := h
      simp only [verdictOf, processCommand_luaExecute ht hp, List.nil_append]
    | luaReadVariable =>
      simp only [ht, Option.isSome_iff_exists] at h
      obtain ⟨payload, hp⟩ := h
      simp only [verdictOf, processCommand_luaReadVariable ht hp, List.nil_append]
    | clickToMove =>
      simp only [ht, Option.isSome_iff_exists] at h
      obtain ⟨payload, hp, haddress, position, hposition⟩ := h
      simp only [verdictOf, processCommand_clickToMove ht hp haddress hposition, List.nil_append]
    | other value => simp [ht] at h
  · rw [verdictOf, processCommand_unanswerable h, processCommand_unanswerable h, List.append_nil]

end

/-! ## Serving one command -/

/-- How the processing of a command went: what the game did, the id drawn for the event,
and whether an exception left `processCommand` before the event was enqueued. -/
structure Outcome where
  game : GameFunctions
  eventId : Bytes
  lost : Bool

/-- A command that was served. -/
structure Job where
  command : IncomingMessage
  outcome : Outcome

/-- The events a job leaves. -/
def Job.events (job : Job) : List OutgoingMessage :=
  if job.outcome.lost then [] else verdictOf job.outcome.game job.outcome.eventId job.command

/-- What jobs leave, one after the other. -/
def served (jobs : List Job) : Processing :=
  ⟨jobs.flatMap Job.events, jobs.flatMap fun job => callsFor job.command⟩

theorem served_append (jobs : List Job) (job : Job) :
    served (jobs ++ [job]) = ⟨(served jobs).outbox ++ job.events, (served jobs).calls ++ callsFor job.command⟩ := by
  simp [served]

/-- The server of one command at a time. -/
structure Serial where
  arrived : List IncomingMessage
  jobs : List Job
  waiting : List IncomingMessage
  work : Processing
  line : jobs.map (·.command) ++ waiting = arrived
  replay : served jobs = work

inductive SerialAct where
  | arrive (command : IncomingMessage)
  | serve (outcome : Outcome)

def SerialAct.outcome : SerialAct → Option Outcome
  | .arrive _ => none
  | .serve outcome => some outcome

namespace Serial

def idle : Serial := ⟨[], [], [], ⟨[], []⟩, rfl, rfl⟩

def arrive (q : Serial) (command : IncomingMessage) : Serial :=
  ⟨q.arrived ++ [command], q.jobs, q.waiting ++ [command], q.work, by rw [← List.append_assoc, q.line], q.replay⟩

/-- The first in line is served; impossible when nobody waits. -/
def serve (q : Serial) (outcome : Outcome) : Option Serial :=
  match h : q.waiting with
  | [] => none
  | command :: rest =>
    let job : Job := ⟨command, outcome⟩
    some ⟨q.arrived, q.jobs ++ [job], rest,
      ⟨q.work.outbox ++ job.events, q.work.calls ++ callsFor command⟩,
      by rw [← q.line, h]; simp [job], by rw [served_append, q.replay]⟩

def step (q : Serial) : SerialAct → Option Serial
  | .arrive command => some (q.arrive command)
  | .serve outcome => q.serve outcome

theorem arriveAll (q : Serial) (commands : List IncomingMessage) :
    ∃ acts q', run step q acts = some q' ∧ acts.filterMap SerialAct.outcome = [] ∧
      q'.arrived = q.arrived ++ commands ∧ q'.waiting = q.waiting ++ commands ∧ q'.work = q.work := by
  induction commands generalizing q with
  | nil => exact ⟨[], q, rfl, rfl, by simp, by simp, rfl⟩
  | cons command commands ih =>
    obtain ⟨acts, q', hrun, hseen, harrived, hwaiting, hwork⟩ := ih (q.arrive command)
    refine ⟨.arrive command :: acts, q', run_cons.mpr ⟨_, rfl, hrun⟩, ?_, ?_, ?_, hwork⟩
    · rw [List.filterMap_cons_none rfl, hseen]
    · rw [harrived]
      simp [arrive]
    · rw [hwaiting]
      simp [arrive]

theorem serve_first {q : Serial} {command : IncomingMessage} {rest : List IncomingMessage}
    (hwaiting : q.waiting = command :: rest) (outcome : Outcome) :
    ∃ q', q.serve outcome = some q' ∧ q'.arrived = q.arrived ∧ q'.waiting = rest ∧
      q'.work = ⟨q.work.outbox ++ Job.events ⟨command, outcome⟩, q.work.calls ++ callsFor command⟩ ∧
      q'.jobs = q.jobs ++ [⟨command, outcome⟩] := by
  obtain ⟨arrived, jobs, waiting, work, line, replay⟩ := q
  obtain rfl : waiting = command :: rest := hwaiting
  exact ⟨_, rfl, rfl, rfl, rfl, rfl⟩

theorem jobs_of_run {q q' : Serial} {acts : List SerialAct} (hrun : run step q acts = some q') :
    q'.jobs.map (·.outcome) = q.jobs.map (·.outcome) ++ acts.filterMap SerialAct.outcome := by
  induction acts generalizing q with
  | nil =>
    obtain rfl : q = q' := by simpa using hrun
    simp
  | cons act acts ih =>
    obtain ⟨q₁, hstep, hrest⟩ := run_cons.mp hrun
    rw [ih hrest]
    cases act with
    | arrive command =>
      obtain rfl : q.arrive command = q₁ := Option.some.inj hstep
      rfl
    | serve outcome =>
      cases hwaiting : q.waiting with
      | nil =>
        obtain ⟨arrived, jobs, waiting, work, line, replay⟩ := q
        obtain rfl : waiting = [] := hwaiting
        simp [step, serve] at hstep
      | cons command rest =>
        obtain ⟨q₂, hserve, -, -, -, hjobs⟩ := serve_first hwaiting outcome
        obtain rfl : q₂ = q₁ := Option.some.inj (hserve.symm.trans hstep)
        simp [hjobs, SerialAct.outcome]

end Serial

end Icecap.Core

namespace Icecap
open Icecap.Core Icecap.Transport StreamExtract StepRun

/-- The command in process. -/
def RenderPc.current : RenderPc → List IncomingMessage
  | .idle => []
  | .processing command => [command]

/-- The agent as this server sees it: what was pushed has arrived, and a command is
served when its processing is over. -/
structure Agent.Serves (s : Agent) (q : Serial) : Prop where
  arrived : q.arrived = s.server.pushed
  waiting : q.waiting = s.render.current ++ s.server.inbox
  events : q.work.outbox = s.appended
  calls : q.work.calls = s.work.calls

/-- How the processing ended, when the step is its end. -/
def AgentAct.outcome : AgentAct → Option Outcome
  | .render (.returns game eventId) => some ⟨game, eventId, false⟩
  | .render (.throws game eventId enqueued) => some ⟨game, eventId, !enqueued⟩
  | _ => none

/-! ## A step of the agent is some run of the server -/

section
variable {parse : Bytes → Option IncomingMessage} {serialize : OutgoingMessage → Option Bytes} {s s' : Agent}
  {q : Serial} {seen : Option Outcome}

/-- From `q`, some run that shows `seen` leads where the agent is now. -/
def Agent.Follows (s : Agent) (q : Serial) (seen : Option Outcome) : Prop :=
  ∃ acts q', run Serial.step q acts = some q' ∧ acts.filterMap SerialAct.outcome = seen.toList ∧ s.Serves q'

theorem Agent.Serves.still (h : s'.Serves q) : s'.Follows q none := ⟨[], q, rfl, rfl, h⟩

/-- The end of `processCommand` is where the command takes effect. -/
theorem afterProcessing_serves {command : IncomingMessage} {work : Processing} (outcome : Outcome)
    (h : s.Serves q) (hpc : s.render = .processing command)
    (hevents : work.outbox = s.work.outbox ++ Job.events ⟨command, outcome⟩)
    (hcalls : work.calls = s.work.calls ++ callsFor command) : (s.afterProcessing work).Follows q (some outcome) := by
  have hwaiting : q.waiting = command :: s.server.inbox := by rw [h.waiting, hpc]; rfl
  obtain ⟨q', hserve, harrived, hrest, hwork, -⟩ := Serial.serve_first hwaiting outcome
  have hdrop : work.outbox.drop s.work.outbox.length = Job.events ⟨command, outcome⟩ := by
    rw [hevents, List.drop_left]
  refine ⟨[.serve outcome], q', run_cons.mpr ⟨q', hserve, rfl⟩, rfl, ?_, ?_, ?_, ?_⟩
  · exact harrived.trans h.arrived
  · rw [hrest]
    rfl
  · rw [hwork]
    simp only [Agent.afterProcessing, hdrop, h.events]
  · rw [hwork]
    simp only [Agent.afterProcessing, hcalls, h.calls]

theorem renderStep_serves {a : RenderAct} (h : s.Serves q) (hs : renderStep s a = some s') :
    s'.Follows q (AgentAct.outcome (.render a)) := by
  cases a with
  | endScene =>
    simp only [renderStep] at hs
    split at hs
    · simp at hs
    · obtain rfl := Option.some.inj hs
      exact h.still
    · -- a command on its way from the queue to `processCommand` is still in line
      rename_i command rest hpc hinbox
      obtain rfl := Option.some.inj hs
      have hwaiting : q.waiting = command :: rest := by rw [h.waiting, hpc, hinbox]; rfl
      exact Agent.Serves.still ⟨h.arrived, hwaiting, h.events, h.calls⟩
  | returns game eventId =>
    simp only [renderStep] at hs
    split at hs
    · simp at hs
    · rename_i command hpc
      obtain rfl := Option.some.inj hs
      exact afterProcessing_serves ⟨game, eventId, false⟩ h hpc processCommand_verdict processCommand_calls
  | throws game eventId enqueued =>
    simp only [renderStep] at hs
    split at hs
    · simp at hs
    · rename_i command hpc
      obtain rfl := Option.some.inj hs
      cases enqueued with
      | true =>
        exact afterProcessing_serves ⟨game, eventId, false⟩ h hpc processCommand_verdict processCommand_calls
      | false =>
        exact afterProcessing_serves ⟨game, eventId, true⟩ h hpc (by simp [Job.events]) processCommand_calls

theorem outgoingStep_calls {a : OutgoingAct} (h : outgoingStep serialize s a = some s') :
    s'.work.calls = s.work.calls := by
  cases outgoingStep_move h <;> rfl

theorem agentStep_serves {a : AgentAct} (h : s.Serves q) (hs : agentStep parse serialize s a = some s') :
    s'.Follows q a.outcome := by
  cases a with
  | server a =>
    obtain ⟨server, hserver, rfl⟩ := agentStep_server hs
    obtain ⟨wire, torn, hopen⟩ := s.openWire_eq a
    obtain ⟨commands, hinbox, hpushed⟩ := (serverStep_frame hserver).pushes
    obtain ⟨acts, q', hrun, hseen, harrived, hwaiting, hwork⟩ := q.arriveAll commands
    rw [hopen]
    refine ⟨acts, q', hrun, hseen, ?_, ?_, ?_, ?_⟩
    · rw [harrived, h.arrived]
      exact hpushed.symm
    · rw [hwaiting, h.waiting]
      simp only [hinbox, List.append_assoc]
    · rw [hwork]
      exact h.events
    · rw [hwork]
      exact h.calls
  | render a => exact renderStep_serves h hs
  | getNext =>
    simp only [agentStep] at hs
    split at hs
    · obtain rfl := Option.some.inj hs
      exact h.still
    · rename_i event work hnext
      obtain rfl := Option.some.inj hs
      obtain ⟨-, hcalls⟩ := getNextOutgoingEvent_some hnext
      exact Agent.Serves.still ⟨h.arrived, h.waiting, h.events, h.calls.trans hcalls.symm⟩
  | outgoing a =>
    have hframe := outgoingStep_frame hs
    refine Agent.Serves.still ⟨?_, ?_, ?_, ?_⟩
    · rw [hframe.server]
      exact h.arrived
    · rw [hframe.server, hframe.render]
      exact h.waiting
    · rw [hframe.appended]
      exact h.events
    · rw [outgoingStep_calls hs]
      exact h.calls

/-- Every run of the agent is one of the server, with the same outcomes. -/
theorem serves_of_run {tcp : TcpServer} {manager : NetworkManager} {acts : List AgentAct} {t : Agent}
    (hrun : run (agentStep parse serialize) (.boot tcp manager) acts = some t) :
    ∃ q, t.Serves q ∧ q.jobs.map (·.outcome) = acts.filterMap AgentAct.outcome := by
  have hboot : (Agent.boot tcp manager).Serves .idle := ⟨rfl, rfl, rfl, rfl⟩
  obtain ⟨acts', q, hserial, hseen, h⟩ := run_simulation_seen AgentAct.outcome SerialAct.outcome
    (fun s a s' q hq hs => agentStep_serves hq hs) hrun hboot
  refine ⟨q, h, ?_⟩
  rw [Serial.jobs_of_run hserial, hseen]
  rfl

end

/-- **The agent serves one command at a time**: in every interleaving of the threads,
with every behaviour of the game, the commands whose processing is over, the one in
process and the inbox are what was pushed; the events ever appended to the outbox and
the calls made are those of serving the first of these one after the other, with the
outcomes of the run. -/
theorem agent_serial (parse : Bytes → Option IncomingMessage) (serialize : OutgoingMessage → Option Bytes)
    (tcp : TcpServer) (manager : NetworkManager) {acts : List AgentAct} {t : Agent}
    (hrun : run (agentStep parse serialize) (.boot tcp manager) acts = some t) :
    ∃ jobs : List Job, jobs.map (·.outcome) = acts.filterMap AgentAct.outcome ∧
      jobs.map (·.command) ++ t.render.current ++ t.server.inbox = t.server.pushed ∧
      served jobs = ⟨t.appended, t.work.calls⟩ := by
  obtain ⟨q, h, hjobs⟩ := serves_of_run hrun
  refine ⟨q.jobs, hjobs, ?_, ?_⟩
  · rw [List.append_assoc, ← h.waiting, q.line, h.arrived]
  · rw [q.replay, ← h.events, ← h.calls]

theorem agent_serial_exception :
    ∃ t, run (agentStep luaFrame operationOnly) (.boot .listening .started)
        (twoFrames ++ [.render .endScene, .render (.throws obligingGame [] false)]) = some t ∧
      ∃ jobs : List Job, jobs.map (·.outcome) = [⟨obligingGame, [], true⟩] ∧
        jobs.map (·.command) ++ t.render.current ++ t.server.inbox = t.server.pushed ∧
        served jobs = ⟨t.appended, t.work.calls⟩ := by
  have hsome : (run (agentStep luaFrame operationOnly) (.boot .listening .started)
      (twoFrames ++ [.render .endScene, .render (.throws obligingGame [] false)])).isSome = true := by decide +kernel
  obtain ⟨t, hrun⟩ := Option.isSome_iff_exists.mp hsome
  exact ⟨t, hrun, agent_serial luaFrame operationOnly .listening .started hrun⟩

/-! ## From the bytes of the clients to the calls in the game -/

/-- The commands that the bytes of a session ask for. -/
def Transport.Session.asked (parse : Bytes → Option IncomingMessage) (σ : Session) : List IncomingMessage :=
  (frames.drain σ.received).items.filterMap parse

/-- The server thread with the manager it works for, while that serves. -/
structure Transport.ServerState.Attends (parse : Bytes → Option IncomingMessage) (s : ServerState) : Prop where
  wired : s.tcp.Wired
  serving : s.manager.Serving
  sound : s.Sound
  handed : s.Handed parse

section
variable {parse : Bytes → Option IncomingMessage} {serialize : OutgoingMessage → Option Bytes} {s s' : Agent}

theorem agentStep_serverPart {a : AgentAct} (h : agentStep parse serialize s a = some s') :
    (∃ b, a = .server b ∧ serverStep parse s.server b = some s'.server) ∨
      ((∀ b, a ≠ .server b) ∧ ∃ inbox, s'.server = { s.server with inbox }) := by
  cases a with
  | server a =>
    obtain ⟨server, hserver, rfl⟩ := agentStep_server h
    obtain ⟨wire, torn, hopen⟩ := s.openWire_eq a
    rw [hopen]
    exact .inl ⟨a, rfl, hserver⟩
  | render a =>
    refine .inr ⟨by simp, ?_⟩
    cases renderStep_move h with
    | quiet => exact ⟨s.server.inbox, rfl⟩
    | pop command rest hpc hinbox => exact ⟨rest, rfl⟩
    | done command work events hpc hwork hids => exact ⟨s.server.inbox, rfl⟩
  | getNext =>
    refine .inr ⟨by simp, s.server.inbox, ?_⟩
    simp only [agentStep] at h
    split at h <;> obtain rfl := Option.some.inj h <;> rfl
  | outgoing a => exact .inr ⟨by simp, s.server.inbox, (outgoingStep_frame h).server⟩

theorem agentStep_attends {a : AgentAct} (h : s.server.Attends parse)
    (hs : agentStep parse serialize s a = some s') : s'.server.Attends parse := by
  obtain ⟨hw, hserv, hsound, hhanded⟩ := h
  rcases agentStep_serverPart hs with ⟨b, -, hserver⟩ | ⟨-, inbox, hinbox⟩
  · exact ⟨serverStep_wired hserver hw, serverStep_serving hserver hserv,
      serverStep_sound hw (fun _ => hserv.1) hsound hserver, serverStep_handed (fun _ => hserv) hhanded hserver⟩
  · rw [hinbox]
    exact ⟨hw, hserv, ⟨hsound.past, hsound.current⟩, hhanded⟩

theorem attends_of_run {tcp : TcpServer} {manager : NetworkManager} (hw : tcp.Wired) (hserv : manager.Serving)
    {acts : List AgentAct} {t : Agent}
    (hrun : run (agentStep parse serialize) (.boot tcp manager) acts = some t) : t.server.Attends parse := by
  let Inv (s : Agent) : Prop := s.server.Attends parse
  have hstep : ∀ s a s', Inv s → agentStep parse serialize s a = some s' → Inv s' := by
    intro s a s' h hs
    exact agentStep_attends h hs
  have hboot : Inv (.boot tcp manager) := by
    refine ⟨hw, hserv, boot_sound tcp manager [], ?_⟩
    simp [ServerState.Handed, Agent.boot, ServerState.boot, Session.new]
  have hinv : Inv t := run_invariant hstep hrun hboot
  exact hinv

theorem Transport.Session.asked_settled {σ : Session} (h : σ.Settled)
    (hhanded : σ.pushed = σ.extracted.filterMap parse) : σ.pushed = σ.asked parse := by
  rw [hhanded, Session.asked, ← h]

theorem Transport.ServerState.Attends.asked {server : ServerState} (h : server.Attends parse) :
    server.pushed <+: (server.past ++ [server.session]).flatMap (Session.asked parse) ∧
      (server.pc.phase ≠ .draining →
        server.pushed = (server.past ++ [server.session]).flatMap (Session.asked parse)) := by
  have hhanded := h.handed
  simp only [ServerState.Handed, List.forall_mem_append, List.forall_mem_singleton] at hhanded
  obtain ⟨hpast, hcur⟩ := hhanded
  have hbefore : server.past.flatMap (·.pushed) = server.past.flatMap (Session.asked parse) := by
    apply List.flatMap_congr
    intro σ hσ
    exact Session.asked_settled (h.sound.past σ hσ) (hpast σ hσ)
  simp only [ServerState.pushed, List.flatMap_append, List.flatMap_singleton, hbefore]
  have hreads : server.pc.phase = .draining → server.session.Reads server.manager.receiveBuffer := by
    intro hphase
    simpa only [ServerState.Current, hphase] using h.sound.current
  have hsettled : server.pc.phase ≠ .draining → server.session.Settled := by
    intro hphase
    have hmem : server.session ∈ server.sessions := by simp [ServerState.sessions, hphase]
    exact h.sound.settled hmem
  refine ⟨?_, ?_⟩
  · rw [List.prefix_append_right_inj]
    by_cases hphase : server.pc.phase = .draining
    · rw [hcur, Session.asked, (hreads hphase).drain, List.filterMap_append]
      exact List.prefix_append _ _
    · rw [Session.asked_settled (hsettled hphase) hcur]
  · intro hphase
    rw [Session.asked_settled (hsettled hphase) hcur]

end

theorem flatMap_prefix {α β : Type} {xs ys : List α} (f : α → List β) (h : xs <+: ys) :
    xs.flatMap f <+: ys.flatMap f := by
  obtain ⟨zs, rfl⟩ := h
  rw [List.flatMap_append]
  exact List.prefix_append _ _

/-- **From the wire to the game**: on a manager that serves, in every interleaving and
whatever the game answers, the calls made in the game are at all times the beginning of
the calls that the bytes received from the clients ask for, session by session; and all
of them when nothing is on its way. -/
theorem wire_to_game (parse : Bytes → Option IncomingMessage) (serialize : OutgoingMessage → Option Bytes)
    {tcp : TcpServer} {manager : NetworkManager} (hw : tcp.Wired) (hserv : manager.Serving) {acts : List AgentAct}
    {t : Agent} (hrun : run (agentStep parse serialize) (.boot tcp manager) acts = some t) :
    let asked := (t.server.past ++ [t.server.session]).flatMap (Session.asked parse)
    t.work.calls <+: asked.flatMap callsFor ∧
      (t.server.pc.phase ≠ .draining → t.render = .idle → t.server.inbox = [] →
        t.work.calls = asked.flatMap callsFor) := by
  intro asked
  obtain ⟨hpre, hall⟩ := (attends_of_run hw hserv hrun).asked
  obtain ⟨q, h, -⟩ := serves_of_run hrun
  have hcalls : t.work.calls = (q.jobs.map (·.command)).flatMap callsFor := by
    rw [← h.calls, ← q.replay]
    simp only [served, List.flatMap_map]
  have hline : q.jobs.map (·.command) ++ q.waiting = t.server.pushed := q.line.trans h.arrived
  refine ⟨?_, ?_⟩
  · rw [hcalls]
    apply flatMap_prefix
    calc q.jobs.map (·.command) <+: t.server.pushed := hline ▸ List.prefix_append _ _
      _ <+: asked := hpre
  · intro hphase hidle hinbox
    have hwaiting : q.waiting = [] := by rw [h.waiting, hidle, hinbox]; rfl
    rw [hwaiting, List.append_nil] at hline
    rw [hcalls, hline, hall hphase]

theorem wire_to_game_two_frames :
    ∃ t, run (agentStep luaFrame operationOnly) (.boot .listening .started) (twoFrames ++ endScene) = some t ∧
      t.work.calls <+:
        ((t.server.past ++ [t.server.session]).flatMap (Session.asked luaFrame)).flatMap callsFor := by
  have hsome : (run (agentStep luaFrame operationOnly) (.boot .listening .started)
      (twoFrames ++ endScene)).isSome = true := by decide +kernel
  obtain ⟨t, hrun⟩ := Option.isSome_iff_exists.mp hsome
  exact ⟨t, hrun, (wire_to_game luaFrame operationOnly TcpServer.listening_wired (by decide) hrun).1⟩

end Icecap
