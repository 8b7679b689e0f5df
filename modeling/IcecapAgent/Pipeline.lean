import IcecapAgent.Agent
import IcecapAgent.Fifo

/- The two queues between the threads, over all interleavings.

   Each queue of the agent simulates a `Fifo`: a step of any thread is some run of
   operations on it (`inbox_simulates`, `outbox_simulates`). What was pushed, taken
   and is waiting therefore satisfies the equation every `Fifo` carries. The order
   of the answers is that of the commands, because the render thread appends at most
   one event before it takes the next command (`answers_in_order`). -/
namespace Icecap
open Icecap.Core Icecap.Transport StepRun

section
variable {parse : Bytes → Option IncomingMessage} {serialize : OutgoingMessage → Option Bytes} {s s' : Agent}

/-- The inbox with what the server thread pushed and the render thread took. -/
def Agent.Inbox (s : Agent) (q : Fifo IncomingMessage) : Prop :=
  q.Models s.server.pushed s.processed s.server.inbox

/-- The outbox with what was appended to it and removed from it. -/
def Agent.Outbox (s : Agent) (q : Fifo OutgoingMessage) : Prop :=
  q.Models s.appended s.removed s.work.outbox

theorem inbox_simulates {a : AgentAct} {q : Fifo IncomingMessage} (hq : s.Inbox q)
    (h : agentStep parse serialize s a = some s') :
    ∃ ops q', run Fifo.step q ops = some q' ∧ s'.Inbox q' := by
  simp only [Agent.Inbox] at hq ⊢
  cases a with
  | server a =>
    obtain ⟨server, hserver, rfl⟩ := agentStep_server h
    obtain ⟨wire, torn, hopen⟩ := s.openWire_eq a
    obtain ⟨commands, hinbox, hpushed⟩ := (serverStep_frame hserver).pushes
    rw [hopen]
    simp only [hinbox, hpushed]
    exact hq.pushAll commands
  | render a =>
    cases renderStep_move h with
    | quiet => exact hq.still
    | pop command rest hpc hinbox =>
      rw [hinbox] at hq
      exact hq.pop
    | done command work events hpc hwork hids => exact hq.still
  | getNext =>
    simp only [agentStep] at h
    split at h <;> obtain rfl := Option.some.inj h <;> exact hq.still
  | outgoing a =>
    rw [(outgoingStep_frame h).server, (outgoingStep_frame h).processed]
    exact hq.still

theorem outbox_simulates {a : AgentAct} {q : Fifo OutgoingMessage} (hq : s.Outbox q)
    (h : agentStep parse serialize s a = some s') :
    ∃ ops q', run Fifo.step q ops = some q' ∧ s'.Outbox q' := by
  simp only [Agent.Outbox] at hq ⊢
  cases a with
  | server a =>
    obtain ⟨server, -, rfl⟩ := agentStep_server h
    obtain ⟨wire, torn, hopen⟩ := s.openWire_eq a
    rw [hopen]
    exact hq.still
  | render a =>
    cases renderStep_move h with
    | quiet => exact hq.still
    | pop command rest hpc hinbox => exact hq.still
    | done command work events hpc hwork hids =>
      rw [hwork]
      exact hq.pushAll events
  | getNext =>
    simp only [agentStep] at h
    split at h
    · obtain rfl := Option.some.inj h
      exact hq.still
    · rename_i event work hnext
      obtain rfl := Option.some.inj h
      obtain ⟨hout, -⟩ := getNextOutgoingEvent_some hnext
      rw [hout] at hq
      exact hq.pop
  | outgoing a =>
    rw [(outgoingStep_frame h).appended]
    -- the swap takes everything that waits; no other statement touches the queue
    rcases (outgoingStep_frame h).batch with ⟨hwork, hremoved, -⟩ | ⟨hwork, hremoved, -⟩
    · rw [hwork, hremoved]
      exact hq.still
    · rw [hwork, hremoved]
      exact hq.takeAll

/-- The operation ids answered so far follow those of the commands processed; the
command in process, the last one taken, is not answered yet. -/
def Agent.AnswersInOrder (s : Agent) : Prop :=
  match s.render with
  | .idle => (s.appended.map (·.operationId)).Sublist (s.processed.map (·.operationId))
  | .processing command => ∃ before, s.processed = before ++ [command] ∧
      (s.appended.map (·.operationId)).Sublist (before.map (·.operationId))

theorem answers_in_order {a : AgentAct} (hs : s.AnswersInOrder)
    (h : agentStep parse serialize s a = some s') : s'.AnswersInOrder := by
  simp only [Agent.AnswersInOrder] at hs ⊢
  cases a with
  | server a =>
    obtain ⟨server, -, rfl⟩ := agentStep_server h
    obtain ⟨wire, torn, hopen⟩ := s.openWire_eq a
    rw [hopen]
    exact hs
  | render a =>
    cases renderStep_move h with
    | quiet => exact hs
    | pop command rest hpc hinbox =>
      rw [hpc] at hs
      exact ⟨s.processed, rfl, hs⟩
    | done command work events hpc hwork hids =>
      rw [hpc] at hs
      obtain ⟨before, hprocessed, hbefore⟩ := hs
      simp only [hprocessed, List.map_append]
      exact hbefore.append hids
  | getNext =>
    simp only [agentStep] at h
    split at h <;> obtain rfl := Option.some.inj h <;> exact hs
  | outgoing a =>
    have hframe := outgoingStep_frame h
    rw [hframe.render, hframe.processed, hframe.appended]
    exact hs

variable {tcp : TcpServer} {manager : NetworkManager} {acts : List AgentAct} {t : Agent}

/-- What was taken from the inbox and what waits in it is what was pushed. -/
theorem inbox_conserved (hrun : run (agentStep parse serialize) (.boot tcp manager) acts = some t) :
    t.processed ++ t.server.inbox = t.server.pushed := by
  have hboot : (Agent.boot tcp manager).Inbox (.starting []) := Fifo.models_starting []
  obtain ⟨-, q, -, hq⟩ := run_simulation (fun s a s' q hq h => inbox_simulates hq h) hrun hboot
  exact hq.conserved

theorem outbox_conserved (hrun : run (agentStep parse serialize) (.boot tcp manager) acts = some t) :
    t.removed ++ t.work.outbox = t.appended := by
  have hboot : (Agent.boot tcp manager).Outbox (.starting []) := Fifo.models_starting []
  obtain ⟨-, q, -, hq⟩ := run_simulation (fun s a s' q hq h => outbox_simulates hq h) hrun hboot
  exact hq.conserved

end

/-- **The pipeline**, in every interleaving of the threads: the commands processed
and then the inbox are the commands pushed; a `processCommand` appends at most one
event, and the events ever appended answer commands in their order; the events
removed from the outbox and then the outbox are the events appended. -/
theorem pipeline (parse : Bytes → Option IncomingMessage) (serialize : OutgoingMessage → Option Bytes)
    (tcp : TcpServer) (manager : NetworkManager) {acts : List AgentAct} {t : Agent}
    (hrun : run (agentStep parse serialize) (.boot tcp manager) acts = some t) :
    t.processed ++ t.server.inbox = t.server.pushed ∧
    (∀ game eventId command p, ∃ events,
      (processCommand game eventId command p).outbox = p.outbox ++ events ∧ events.length ≤ 1) ∧
    (t.appended.map (·.operationId)).Sublist (t.processed.map (·.operationId)) ∧
    t.removed ++ t.work.outbox = t.appended := by
  refine ⟨inbox_conserved hrun, ?_, ?_, outbox_conserved hrun⟩
  · intro game eventId command p
    obtain ⟨events, hout, hids⟩ := processCommand_outbox game eventId command p
    exact ⟨events, hout, by simpa using hids.length_le⟩
  · have hboot : (Agent.boot tcp manager).AnswersInOrder := by simp [Agent.AnswersInOrder, Agent.boot]
    have hordered := run_invariant (fun s a s' hs h => answers_in_order hs h) hrun hboot
    unfold Agent.AnswersInOrder at hordered
    cases hpc : t.render with
    | idle => simpa only [hpc] using hordered
    | processing command =>
      simp only [hpc] at hordered
      obtain ⟨before, hprocessed, hsub⟩ := hordered
      rw [hprocessed, List.map_append]
      exact hsub.trans (List.sublist_append_left _ _)

/-- A parser that takes a frame for Lua code, with the frame as its operation id. -/
def luaFrame : Bytes → Option IncomingMessage :=
  fun frame => some ⟨frame, frame, .luaExecute, some ⟨frame⟩, none, none⟩

/-- A serializer that keeps the operation id. -/
def operationOnly : OutgoingMessage → Option Bytes := fun event => some event.operationId

/-- Client 5 connects and sends two frames of one byte each. -/
def twoFrames : List AgentAct :=
  [.go, .accept 5, .go, .go, .go, .recv (.data [0, 0, 0, 1, 7, 0, 0, 0, 1, 8]), .go, .go, .go, .go].map .server

/-- One call of `HookedEndScene` that finds a command. -/
def endScene : List AgentAct := [.render .endScene, .render (.returns obligingGame [])]

theorem pipeline_two_frames :
    ∃ t, run (agentStep luaFrame operationOnly) (.boot .listening .started) (twoFrames ++ endScene) = some t ∧
      t.processed ++ t.server.inbox = t.server.pushed := by
  have hsome : (run (agentStep luaFrame operationOnly) (.boot .listening .started)
      (twoFrames ++ endScene)).isSome = true := by decide +kernel
  obtain ⟨t, hrun⟩ := Option.isSome_iff_exists.mp hsome
  exact ⟨t, hrun, (pipeline luaFrame operationOnly .listening .started hrun).1⟩

end Icecap
