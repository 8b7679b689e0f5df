import Mathlib.Data.List.Perm.Subperm
import IcecapAgent.Waiting

/- How long a controller waits for the answer to a request.

   A request that is in the inbox, or in process, waits first for the game and then for
   the outgoing thread. Both waits are bounded in steps of the thread waited for, whatever
   the others do meanwhile, so both together are.

   `requests_answered` — every request that passes the checks of its handler has its
   verdict handled by then. -/
namespace Icecap.Core

/-- `Answerable`, computed. -/
def answerable (command : IncomingMessage) : Bool :=
  match command.type with
  | .luaExecute => command.luaExecutePayload.isSome
  | .luaReadVariable => command.luaReadVariablePayload.isSome
  | .clickToMove =>
    command.clickToMovePayload.any fun payload =>
      payload.playerBaseAddress.toUInt32 != 0 && payload.position.isSome
  | .other _ => false

theorem answerable_iff (command : IncomingMessage) : answerable command = true ↔ Answerable command := by
  unfold answerable Answerable
  cases command.type with
  | luaExecute | luaReadVariable => rfl
  | clickToMove => simp [Option.any_eq_true]
  | other value => simp

theorem verdictOf_answerable {command : IncomingMessage} (h : Answerable command) (game : GameFunctions)
    (eventId : Bytes) :
    ∃ event, event.operationId = command.operationId ∧ verdictOf game eventId command = [event] := by
  have hanswered : ∃ event : OutgoingMessage, event.operationId = command.operationId ∧
      (processCommand game eventId command ⟨[], []⟩).outbox = [] ++ [event] := processCommand_answerable h
  exact hanswered

theorem events_of_answerable {jobs : List Job} (hkept : ∀ job ∈ jobs, job.outcome.lost = false) :
    (((jobs.map (·.command)).filter answerable).map (·.operationId)).Sublist
      ((jobs.flatMap Job.events).map (·.operationId)) := by
  induction jobs with
  | nil => exact List.Sublist.refl _
  | cons job jobs ih =>
    have hrest := ih fun other hmem => hkept other (List.mem_cons_of_mem _ hmem)
    have hlost := hkept job List.mem_cons_self
    rw [List.map_cons, List.flatMap_cons, List.map_append]
    by_cases h : answerable job.command = true
    · obtain ⟨event, hid, hverdict⟩ :=
        verdictOf_answerable ((answerable_iff _).mp h) job.outcome.game job.outcome.eventId
      have hevents : job.events = [event] := by
        rw [Job.events, hlost, ← hverdict]
        rfl
      rw [List.filter_cons_of_pos h, List.map_cons, hevents, List.map_singleton, hid]
      exact hrest.cons_cons _
    · rw [List.filter_cons_of_neg h]
      exact hrest.trans (List.sublist_append_right _ _)

end Icecap.Core

namespace Icecap
open Icecap.Core Icecap.Transport StepRun

section
variable {parse : Bytes → Option IncomingMessage} {serialize : OutgoingMessage → Option Bytes} {s m : Agent}
  {tcp : TcpServer} {manager : NetworkManager} {before first : List AgentAct}

theorem jobs_processed (hrun : run (agentStep parse serialize) (.boot tcp manager) before = some s) {q : Serial}
    (h : s.Serves q) : q.jobs.map (·.command) ++ s.render.current = s.processed := by
  apply List.append_cancel_right
  calc q.jobs.map (·.command) ++ s.render.current ++ s.server.inbox
      = q.jobs.map (·.command) ++ q.waiting := by rw [List.append_assoc, h.waiting]
    _ = s.server.pushed := by rw [q.line, h.arrived]
    _ = s.processed ++ s.server.inbox := (inbox_conserved hrun).symm

/-- After as many calls of `HookedEndScene` as requests wait, and no exception on the way
to the outbox, an event is appended for each of them that is answerable. -/
theorem appended_of_run (hbefore : run (agentStep parse serialize) (.boot tcp manager) before = some s)
    (hfirst : run (agentStep parse serialize) s first = some m)
    (hcalls : s.server.inbox.length ≤ first.countP AgentAct.isEndScene) (hidle : m.render = .idle)
    (hkept : ∀ outcome ∈ first.filterMap AgentAct.outcome, outcome.lost = false) :
    (((s.render.current ++ s.server.inbox).filter answerable).map (·.operationId)).Sublist
      (m.appended.map (·.operationId)) := by
  obtain ⟨q, hq, hjobs⟩ := serves_of_run hbefore
  obtain ⟨q', hq', hjobs'⟩ := serves_of_run (run_append hbefore hfirst)
  have hprocessed := jobs_processed hbefore hq
  have hprocessed' := jobs_processed (run_append hbefore hfirst) hq'
  have hserved := processed_of_run hfirst
  rw [List.take_of_length_le hcalls, ← hprocessed, ← hprocessed', hidle, RenderPc.current, List.append_nil,
    List.append_assoc] at hserved
  -- the jobs after those of `s` begin with the requests that waited there
  obtain ⟨later, hlater⟩ := hserved
  rw [List.append_assoc] at hlater
  obtain ⟨jobs, others, hsplit, hdone, hothers⟩ := List.map_eq_append_iff.mp hlater.symm
  obtain ⟨waited, rest, hwaited, hwait, -⟩ := List.map_eq_append_iff.mp hothers
  have hlength : (jobs.map (·.outcome)).length = (before.filterMap AgentAct.outcome).length := by
    have hcommands := congrArg List.length hdone
    have houtcomes := congrArg List.length hjobs
    simp only [List.length_map] at hcommands houtcomes ⊢
    omega
  rw [hsplit, List.map_append, List.filterMap_append] at hjobs'
  obtain ⟨-, hnew⟩ := List.append_inj hjobs' hlength
  have hall : ∀ job ∈ waited, job.outcome.lost = false := by
    intro job hmem
    apply hkept
    rw [← hnew, hwaited]
    exact List.mem_map_of_mem (List.mem_append_left _ hmem)
  have hevents : m.appended = q'.jobs.flatMap Job.events := by
    rw [← hq'.events, ← q'.replay]
    rfl
  rw [← hwait, hevents, hsplit, hwaited]
  apply (events_of_answerable hall).trans
  apply List.Sublist.map
  rw [List.flatMap_append, List.flatMap_append]
  exact (List.sublist_append_left _ _).trans (List.sublist_append_right _ _)

end

/-- **Every request is answered**, over every interleaving: when `HookedEndScene` was called
as often as requests waited, the last of them is done and none ended with an exception on
the way to the outbox; and when the manager then stays connected for as many steps of the
outgoing thread as it has left; then every request that waited or was in process and passes
the checks of its handler has its event handled, or taken by `getNextOutgoingEvent`. -/
theorem requests_answered (parse : Bytes → Option IncomingMessage) (serialize : OutgoingMessage → Option Bytes)
    {tcp : TcpServer} {manager : NetworkManager} {before first second : List AgentAct} {s m t : Agent}
    (hbefore : run (agentStep parse serialize) (.boot tcp manager) before = some s)
    (hfirst : run (agentStep parse serialize) s first = some m)
    (hcalls : s.server.inbox.length ≤ first.countP AgentAct.isEndScene) (hidle : m.render = .idle)
    (hkept : ∀ outcome ∈ first.filterMap AgentAct.outcome, outcome.lost = false)
    (hsecond : run (agentStep parse serialize) m second = some t)
    (hconnected : Along (agentStep parse serialize)
      (fun s a => a.isOutgoing = true → s.server.manager.Connected) m second)
    (hsteps : m.outgoing.toSwap serialize + sendLoad serialize m.work.outbox + sendLoad serialize t.appended <
      second.countP AgentAct.isOutgoing + sendLoad serialize m.appended) :
    (((s.render.current ++ s.server.inbox).filter answerable).map (·.operationId)).Subperm
      ((t.handled ++ t.taken).map (·.operationId)) := by
  have happended := appended_of_run hbefore hfirst hcalls hidle hkept
  have hthrough := through_of_run (run_append hbefore hfirst) hconnected hsecond hsteps
  obtain ⟨events, hperm, hsub⟩ : m.appended.Subperm (t.handled ++ t.taken) :=
    List.subperm_ext_iff.mpr fun event _ => hthrough event
  exact happended.subperm.trans ⟨_, hperm.map _, hsub.map _⟩

/-- The thread takes both verdicts in one batch, and goes round once more. -/
def bothVerdicts : List AgentAct :=
  [.go, .go, .go, .go, .go, .send (.sent 5), .go, .go, .send (.sent 5), .go].map .outgoing ++
    List.replicate 9 (.outgoing .go)

theorem requests_answered_two_frames :
    ∃ s t, run (agentStep luaFrame operationOnly) (.boot .listening .started) twoFrames = some s ∧
      run (agentStep luaFrame operationOnly) s (endScene ++ endScene ++ bothVerdicts) = some t ∧
      (((s.render.current ++ s.server.inbox).filter answerable).map (·.operationId)).Subperm
        ((t.handled ++ t.taken).map (·.operationId)) := by
  have hsome : ((run (agentStep luaFrame operationOnly) (.boot .listening .started) twoFrames).bind fun s =>
      (run (agentStep luaFrame operationOnly) s (endScene ++ endScene)).bind fun m =>
        (run (agentStep luaFrame operationOnly) m bothVerdicts).bind fun t =>
          if s.server.inbox.length ≤ (endScene ++ endScene).countP AgentAct.isEndScene ∧ m.render = .idle ∧
            Along (agentStep luaFrame operationOnly)
              (fun s a => a.isOutgoing = true → s.server.manager.Connected) m bothVerdicts ∧
            m.outgoing.toSwap operationOnly + sendLoad operationOnly m.work.outbox + sendLoad operationOnly t.appended <
              bothVerdicts.countP AgentAct.isOutgoing + sendLoad operationOnly m.appended
          then some (s, m, t) else none).isSome = true := by decide +kernel
  obtain ⟨p, hp⟩ := Option.isSome_iff_exists.mp hsome
  obtain ⟨s, hbefore, hrest⟩ := Option.bind_eq_some_iff.mp hp
  obtain ⟨m, hfirst, hrest⟩ := Option.bind_eq_some_iff.mp hrest
  obtain ⟨t, hsecond, hmet⟩ := Option.bind_eq_some_iff.mp hrest
  obtain ⟨⟨hcalls, hidle, hconnected, hsteps⟩, -⟩ := Option.ite_none_right_eq_some.mp hmet
  refine ⟨s, t, hbefore, run_append hfirst hsecond,
    requests_answered luaFrame operationOnly hbefore hfirst hcalls hidle ?_ hsecond hconnected hsteps⟩
  intro outcome hmem
  have hpair : outcome ∈ [⟨obligingGame, [], false⟩, ⟨obligingGame, [], false⟩] := hmem
  rcases List.mem_pair.mp hpair with rfl | rfl <;> rfl

end Icecap
