import Mathlib.Data.List.Flatten
import IcecapAgent.Delivery
import IcecapAgent.Serial

/- A controller talks to the agent.

   A controller encodes commands with the wire protocol, sends them, and decodes what it
   receives with the same protocol. The bytes of a session may stop anywhere in what the
   controller wanted to send, TCP cuts them as it likes, and controllers follow one
   another. The two message classes and how they are serialized are generated code: what
   is needed of them is that parsing undoes serializing on the messages of the run, and
   that a message with its header fits a `std::string`.

   1. `asked_of_sent`, `heard_of_within` — the two directions by themselves: a session
      asks for a beginning of what was sent to it, and whole frames are heard as events;
   2. `conversation` — the directions together, over every interleaving in which nothing
      follows a frame that broke off: the agent does requests of the controllers, each at
      most once and in order, and what a controller hears are their verdicts, in order;
   3. `heard_happened` — whatever a controller hears of a command, the game did. -/
namespace Icecap
open Icecap.Core Icecap.Transport StreamExtract StepRun

/-! ## Commands on their way in -/

section
variable {parse : Bytes → Option IncomingMessage} {encode : IncomingMessage → Bytes}

/-- What a session received is the beginning of these commands, sent one after the other. -/
def Transport.Session.SentBy (σ : Session) (encode : IncomingMessage → Bytes) (requests : List IncomingMessage) :
    Prop :=
  σ.received <+: ((requests.map encode).map encodeMessage).flatten

theorem filterMap_of_some {α β : Type} {f : α → β} {g : β → Option α} {xs : List α}
    (h : ∀ x ∈ xs, g (f x) = some x) : (xs.map f).filterMap g = xs := by
  induction xs with
  | nil => rfl
  | cons x xs ih =>
    rw [List.map_cons, List.filterMap_cons_some (h x List.mem_cons_self)]
    rw [ih fun y hy => h y (List.mem_cons_of_mem x hy)]

theorem asked_of_sent {σ : Session} {requests : List IncomingMessage} (h : σ.SentBy encode requests)
    (hround : ∀ command ∈ requests, parse (encode command) = some command ∧ (encode command).length ≤ 2^31 - 5) :
    σ.asked parse <+: requests := by
  have hfits : ∀ p ∈ requests.map encode, frames.fits p := by
    intro p hp
    obtain ⟨command, hmem, rfl⟩ := List.mem_map.mp hp
    exact Nat.le_trans (hround command hmem).2 (by decide)
  obtain ⟨-, n, hitems, -⟩ := Framing.drain_prefix (requests.map encode) hfits h
  have hread : ∀ command ∈ requests.take n, parse (encode command) = some command :=
    fun command hmem => (hround command (List.mem_of_mem_take hmem)).1
  have hasked : σ.asked parse = requests.take n := by
    rw [Session.asked, hitems, ← List.map_take]
    exact filterMap_of_some hread
  rw [hasked]
  exact List.take_prefix n requests

theorem asked_sublist {sessions : List Session} {requests : List (List IncomingMessage)}
    (hsent : List.Forall₂ (fun σ commands => σ.SentBy encode commands) sessions requests)
    (hround : ∀ command ∈ requests.flatten,
      parse (encode command) = some command ∧ (encode command).length ≤ 2^31 - 5) :
    (sessions.flatMap (Session.asked parse)).Sublist requests.flatten := by
  induction hsent with
  | nil => exact List.Sublist.refl _
  | cons h _ ih =>
    rw [List.flatMap_cons, List.flatten_cons]
    rw [List.flatten_cons, List.forall_mem_append] at hround
    exact (asked_of_sent h hround.1).sublist.append (ih hround.2)

end

/-! ## Events on their way out -/

section
variable {serialize : OutgoingMessage → Option Bytes} {readEvent : Bytes → Option OutgoingMessage}

/-- The events a controller reads from the bytes of its connection. -/
def heard (readEvent : Bytes → Option OutgoingMessage) (wire : Bytes) : List OutgoingMessage :=
  (frames.drain wire).items.filterMap readEvent

theorem encodings_flatten (serialize : OutgoingMessage → Option Bytes) (events : List OutgoingMessage) :
    (events.map (encoding serialize)).flatten = ((events.filterMap serialize).map encodeMessage).flatten := by
  induction events with
  | nil => rfl
  | cons event events ih =>
    rw [List.map_cons, List.flatten_cons, ih, List.filterMap_cons]
    cases hser : serialize event with
    | none => simp [encoding, hser]
    | some payload => simp [encoding, hser]

theorem read_sublist {events : List OutgoingMessage}
    (hread : ∀ event ∈ events, ∀ payload, serialize event = some payload → readEvent payload = some event) :
    ((events.filterMap serialize).filterMap readEvent).Sublist events := by
  induction events with
  | nil => exact List.Sublist.refl _
  | cons event events ih =>
    rw [List.forall_mem_cons] at hread
    have hrest := ih hread.2
    rw [List.filterMap_cons]
    cases hser : serialize event with
    | none => exact hrest.cons event
    | some payload =>
      dsimp only
      rw [List.filterMap_cons_some (hread.1 payload hser)]
      exact hrest.cons_cons event

/-- Whole frames, and the beginning of one more: the controller meets no bad header, and
hears events of these, each as often as it was sent. -/
theorem heard_of_within {events : List OutgoingMessage} {wire : Bytes}
    (h : Within (encoding serialize) events wire)
    (hread : ∀ event ∈ events, ∀ payload, serialize event = some payload →
      readEvent payload = some event ∧ payload.length ≤ 2^31 - 5) :
    (frames.drain wire).error = none ∧ (heard readEvent wire).Sublist events := by
  obtain ⟨sent, hsub, hpre⟩ := h
  rw [encodings_flatten] at hpre
  have hfits : ∀ p ∈ sent.filterMap serialize, frames.fits p := by
    intro p hp
    obtain ⟨event, hmem, hser⟩ := List.mem_filterMap.mp hp
    exact Nat.le_trans (hread event (hsub.subset hmem) p hser).2 (by decide)
  obtain ⟨herror, n, hitems, -⟩ := Framing.drain_prefix (sent.filterMap serialize) hfits hpre
  refine ⟨herror, ?_⟩
  have hback : ((sent.filterMap serialize).filterMap readEvent).Sublist sent :=
    read_sublist fun event hmem payload hser => (hread event (hsub.subset hmem) payload hser).1
  rw [heard, hitems]
  apply List.Sublist.trans _ hsub
  apply List.Sublist.trans _ hback
  exact (List.take_sublist n _).filterMap readEvent

end

/-! ## What a verdict tells -/

theorem events_operationIds (jobs : List Job) :
    ((jobs.flatMap Job.events).map (·.operationId)).Sublist ((jobs.map (·.command)).map (·.operationId)) := by
  induction jobs with
  | nil => exact List.Sublist.refl _
  | cons job jobs ih =>
    have hids : (job.events.map (·.operationId)).Sublist [job.command.operationId] := by
      unfold Job.events verdictOf
      split
      · simp
      · obtain ⟨events, hout, hids⟩ :=
          processCommand_outbox job.outcome.game job.outcome.eventId job.command ⟨[], []⟩
        rw [hout]
        exact hids
    rw [List.flatMap_cons, List.map_append]
    exact hids.append ih

/-! ## Both directions -/

section
variable {parse : Bytes → Option IncomingMessage} {serialize : OutgoingMessage → Option Bytes}
  {readEvent : Bytes → Option OutgoingMessage} {tcp : TcpServer} {manager : NetworkManager} {acts : List AgentAct}
  {t : Agent}

/-- The bytes on every connection are whole frames of events the outgoing thread took
from the outbox, and the beginning of one more. -/
theorem taken_within (hrun : run (agentStep parse serialize) (.boot tcp manager) acts = some t)
    (hunbroken : Along (agentStep parse serialize) Unbroken (.boot tcp manager) acts) (socket : Socket) :
    Within (encoding serialize) t.removed (t.wire socket) := by
  let Inv (s : Agent) : Prop := s.InFlight serialize ∧ s.Ordered ∧ s.Intact serialize socket
  have hstep : ∀ s a s', Inv s → Unbroken s a → agentStep parse serialize s a = some s' → Inv s' := by
    intro s a s' ⟨hflight, hord, hint⟩ hub hs
    exact ⟨agentStep_inFlight hflight hs, agentStep_ordered hord hs, agentStep_intact hflight hub hint hs⟩
  have hboot : Inv (.boot tcp manager) := by
    refine ⟨rfl, by simp [Agent.Ordered, Agent.boot, OutgoingPc.localQueue], fun _ _ => Whole.nil,
      fun _ => Whole.nil.within, ?_⟩
    intro event rest data totalSent hpc
    simp [Agent.boot] at hpc
  obtain ⟨hflight, hord, hint⟩ := run_invariant_along hstep hrun hunbroken hboot
  exact (hint.stream hflight).mono hord

theorem heard_of_run (hrun : run (agentStep parse serialize) (.boot tcp manager) acts = some t)
    (hunbroken : Along (agentStep parse serialize) Unbroken (.boot tcp manager) acts)
    (hread : ∀ event ∈ t.appended, ∀ payload, serialize event = some payload →
      readEvent payload = some event ∧ payload.length ≤ 2^31 - 5) (socket : Socket) :
    (frames.drain (t.wire socket)).error = none ∧ (heard readEvent (t.wire socket)).Sublist t.appended := by
  have hremoved : t.removed.Sublist t.appended := by
    rw [← outbox_conserved hrun]
    exact List.sublist_append_left _ _
  obtain ⟨herror, hheard⟩ := heard_of_within (taken_within hrun hunbroken socket)
    fun event hmem => hread event (hremoved.subset hmem)
  exact ⟨herror, hheard.trans hremoved⟩

end

/-- **A conversation**, over every interleaving in which nothing follows a frame that
broke off, whatever the game does: the calls in the game are those of requests of the
controllers, each request done at most once and in order; and a controller that decodes
its connection meets no bad frame and hears verdicts of these requests, at most one each
and in order. -/
theorem conversation (parse : Bytes → Option IncomingMessage) (serialize : OutgoingMessage → Option Bytes)
    (encode : IncomingMessage → Bytes) (readEvent : Bytes → Option OutgoingMessage) {tcp : TcpServer}
    {manager : NetworkManager} (hw : tcp.Wired) (hserv : manager.Serving) {acts : List AgentAct} {t : Agent}
    (hrun : run (agentStep parse serialize) (.boot tcp manager) acts = some t)
    (hunbroken : Along (agentStep parse serialize) Unbroken (.boot tcp manager) acts)
    {requests : List (List IncomingMessage)}
    (hsent : List.Forall₂ (fun σ commands => σ.SentBy encode commands) (t.server.past ++ [t.server.session]) requests)
    (hround : ∀ command ∈ requests.flatten,
      parse (encode command) = some command ∧ (encode command).length ≤ 2^31 - 5)
    (hread : ∀ event ∈ t.appended, ∀ payload, serialize event = some payload →
      readEvent payload = some event ∧ payload.length ≤ 2^31 - 5) :
    t.work.calls.Sublist (requests.flatten.flatMap callsFor) ∧
      ∀ socket, (frames.drain (t.wire socket)).error = none ∧
        ((heard readEvent (t.wire socket)).map (·.operationId)).Sublist (requests.flatten.map (·.operationId)) := by
  obtain ⟨q, h, -⟩ := serves_of_run hrun
  have hdone : (q.jobs.map (·.command)).Sublist requests.flatten := by
    have hline : q.jobs.map (·.command) ++ q.waiting = t.server.pushed := q.line.trans h.arrived
    have hpushed : q.jobs.map (·.command) <+: t.server.pushed := hline ▸ List.prefix_append _ _
    apply List.Sublist.trans _ (asked_sublist hsent hround)
    exact (hpushed.trans (attends_of_run hw hserv hrun).asked.1).sublist
  refine ⟨?_, fun socket => ?_⟩
  · rw [← h.calls, ← q.replay]
    have hcalls : (served q.jobs).calls = (q.jobs.map (·.command)).flatMap callsFor := by
      simp only [served, List.flatMap_map]
    rw [hcalls]
    exact hdone.flatMap callsFor
  · obtain ⟨herror, hheard⟩ := heard_of_run hrun hunbroken hread socket
    refine ⟨herror, ?_⟩
    rw [← h.events, ← q.replay] at hheard
    apply (hheard.map (·.operationId)).trans
    apply (events_operationIds q.jobs).trans
    exact hdone.map (·.operationId)

/-- A reader of events that only have an operation id. -/
def succeededEvent : Bytes → Option OutgoingMessage := fun payload => some ⟨[], payload, .operationSucceeded, none⟩

/-- Both frames arrive and are answered, and the first answer is sent. -/
def firstAnswer : List AgentAct := firstSend ++ [.outgoing (.send (.sent 3)), .outgoing .go]

theorem firstAnswer_run :
    ∃ t, run (agentStep luaFrame operationOnly) (.boot .listening .started) firstAnswer = some t ∧
      t.server.past = [.new] ∧ t.server.session.received = [0, 0, 0, 1, 7, 0, 0, 0, 1, 8] ∧
      t.appended = [⟨[], [7], .operationSucceeded, none⟩, ⟨[], [8], .operationSucceeded, none⟩] ∧
      t.wire 5 = [0, 0, 0, 1, 7] := by
  have hend : (run (agentStep luaFrame operationOnly) (.boot .listening .started) firstAnswer).map
      (fun t => (t.server.past, t.server.session.received, t.appended, t.wire 5)) =
      some ([.new], [0, 0, 0, 1, 7, 0, 0, 0, 1, 8],
        [⟨[], [7], .operationSucceeded, none⟩, ⟨[], [8], .operationSucceeded, none⟩], [0, 0, 0, 1, 7]) := by
    decide +kernel
  obtain ⟨t, hrun, ht⟩ := Option.map_eq_some_iff.mp hend
  simp only [Prod.mk.injEq] at ht
  exact ⟨t, hrun, ht⟩

theorem firstAnswer_read {t : Agent}
    (h : t.appended = [⟨[], [7], .operationSucceeded, none⟩, ⟨[], [8], .operationSucceeded, none⟩]) :
    ∀ event ∈ t.appended, ∀ payload, operationOnly event = some payload →
      succeededEvent payload = some event ∧ payload.length ≤ 2^31 - 5 := by
  intro event hmem payload hser
  obtain rfl : event.operationId = payload := Option.some.inj hser
  rw [h] at hmem
  simp only [List.mem_cons, List.not_mem_nil, or_false] at hmem
  rcases hmem with rfl | rfl
  · exact ⟨rfl, by simp⟩
  · exact ⟨rfl, by simp⟩

theorem conversation_first :
    ∃ t, run (agentStep luaFrame operationOnly) (.boot .listening .started) firstAnswer = some t ∧
      ((heard succeededEvent (t.wire 5)).map (·.operationId)).Sublist [[7], [8]] := by
  obtain ⟨t, hrun, hpast, hreceived, happended, -⟩ := firstAnswer_run
  let commands : List IncomingMessage := [⟨[7], [7], .luaExecute, some ⟨[7]⟩, none, none⟩,
    ⟨[8], [8], .luaExecute, some ⟨[8]⟩, none, none⟩]
  have hsent : List.Forall₂ (fun σ commands => σ.SentBy (·.operationId) commands)
      (t.server.past ++ [t.server.session]) [[], commands] := by
    rw [hpast]
    refine .cons ?_ (.cons ?_ .nil)
    · exact List.nil_prefix
    · show t.server.session.received <+: _
      rw [hreceived]
      decide
  have hround : ∀ command ∈ [[], commands].flatten,
      luaFrame command.operationId = some command ∧ command.operationId.length ≤ 2^31 - 5 := by decide
  exact ⟨t, hrun, ((conversation luaFrame operationOnly (·.operationId) succeededEvent TcpServer.listening_wired
    (by decide) hrun (by decide +kernel) hsent hround (firstAnswer_read happended)).2 5).2⟩

end Icecap
