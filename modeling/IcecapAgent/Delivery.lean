import Mathlib.Data.List.Sublists
import IcecapAgent.Pipeline

/- The way of an event from the outbox to a client.

   1. `event_accounted` — every event appended is in one place: in the outbox, in
      the batch of the outgoing thread, taken by `getNextOutgoingEvent`, or done
      with by one call of `sendData`. That call has the whole encoding accepted when
      it returns true and a proper part of it when it returns false; either way the
      event is popped and never sent again, so it can be lost (`event_dropped`);
   2. `stream_intact` — what a connection receives is the beginning of a sequence of
      whole frames, in the order of the outbox, as long as nothing is accepted on it
      after a frame broke off. The loop of `processOutgoingMessages` does go on with
      the next event after a failed `sendData` (`stream_torn`). -/
namespace Icecap
open Icecap.Core Icecap.Transport StreamExtract StepRun

/-! ## The loop of `sendData` -/

section
variable (serialize : OutgoingMessage → Option Bytes)

/-- The bytes that stand for an event on the wire; none for one that does not serialize. -/
def encoding (event : OutgoingMessage) : Bytes := ((serialize event).map encodeMessage).getD []

/-- While an event is sent, `data` is its encoding and the bytes accepted are those
counted; at other times none are. -/
def Agent.InFlight (s : Agent) : Prop :=
  match s.outgoing with
  | .sending event _ _ data totalSent =>
    (serialize event).map encodeMessage = some data ∧ data.length ≤ maxSize ∧ totalSent ≤ data.length ∧
      s.accepted = data.take totalSent
  | _ => s.accepted = []

end

section
variable {parse : Bytes → Option IncomingMessage} {serialize : OutgoingMessage → Option Bytes} {s s' : Agent}

theorem Agent.InFlight.of_idle {t : Agent} (hpc : t.outgoing.localQueue = []) :
    t.InFlight serialize ↔ t.accepted = [] := by
  simp only [Agent.InFlight]
  cases h : t.outgoing with
  | sending event rest clientSocket data totalSent => simp [h, OutgoingPc.localQueue] at hpc
  | _ => rfl

theorem Agent.InFlight.sending {event : OutgoingMessage} {rest : List OutgoingMessage} {clientSocket : Socket}
    {data : Bytes} {totalSent : Nat} (h : s.InFlight serialize)
    (hpc : s.outgoing = .sending event rest clientSocket data totalSent) :
    (serialize event).map encodeMessage = some data ∧ data.length ≤ maxSize ∧ totalSent ≤ data.length ∧
      s.accepted = data.take totalSent := by
  simpa only [Agent.InFlight, hpc] using h

theorem outgoingStep_inFlight {a : OutgoingAct} (h : s.InFlight serialize)
    (hs : outgoingStep serialize s a = some s') : s'.InFlight serialize := by
  have idle (hpc : s.outgoing.localQueue = []) : s.accepted = [] := (Agent.InFlight.of_idle hpc).mp h
  have draining {batch : List OutgoingMessage} (hpc : s.outgoing = .draining batch) : s.accepted = [] := by
    simpa only [Agent.InFlight, hpc] using h
  cases outgoingStep_move hs with
  | quiet pc hfrom hto => exact (Agent.InFlight.of_idle hto).mpr (idle hfrom)
  | swap hpc => exact idle (by rw [hpc]; rfl)
  | skip event rest hpc hser => exact draining hpc
  | raise event rest hpc hser hbig => exact draining hpc
  | refuse event rest hpc hser => exact rfl
  | begin event rest hpc hser hfits => exact ⟨by rw [hser]; rfl, hfits, Nat.zero_le _, rfl⟩
  | accept event rest clientSocket data totalSent count hpc hpos hcount =>
    obtain ⟨hser, hlen, hle, hacc⟩ := h.sending hpc
    rw [sendRequest_eq hlen, Int.ofNat_le] at hcount
    exact ⟨hser, hlen, by omega, by rw [hacc, List.take_add]⟩
  | fail event rest clientSocket data totalSent hpc hmore => exact rfl
  | complete event rest clientSocket data totalSent hpc hall => exact rfl

theorem agentStep_inFlight {a : AgentAct} (h : s.InFlight serialize)
    (hs : agentStep parse serialize s a = some s') : s'.InFlight serialize := by
  rcases agentStep_cases hs with ⟨b, -, hout⟩ | hbeside
  · exact outgoingStep_inFlight h hout
  · simp only [Agent.InFlight] at h ⊢
    rw [hbeside.outgoing, hbeside.accepted]
    exact h

/-! ## Every event is in one place -/

/-- Nothing is lost or doubled between the outbox and the end of the batch. -/
def Agent.Accounted (s : Agent) : Prop :=
  s.appended.Perm (s.handled ++ s.outgoing.localQueue ++ s.taken ++ s.work.outbox)

theorem agentStep_accounted {a : AgentAct} (h : s.Accounted) (hs : agentStep parse serialize s a = some s') :
    s'.Accounted := by
  simp only [Agent.Accounted] at h ⊢
  cases a with
  | server a =>
    obtain ⟨server, -, rfl⟩ := agentStep_server hs
    obtain ⟨wire, torn, hopen⟩ := s.openWire_eq a
    rw [hopen]
    exact h
  | render a =>
    cases renderStep_move hs with
    | quiet => exact h
    | pop command rest hpc hinbox => exact h
    | done command work events hpc hwork hids =>
      rw [hwork, ← List.append_assoc]
      exact h.append_right events
  | getNext =>
    simp only [agentStep] at hs
    split at hs
    · obtain rfl := Option.some.inj hs
      exact h
    · rename_i event work hnext
      obtain rfl := Option.some.inj hs
      obtain ⟨hout, -⟩ := getNextOutgoingEvent_some hnext
      rw [hout] at h
      simpa using h
  | outgoing a =>
    rw [(outgoingStep_frame hs).appended, (outgoingStep_frame hs).taken]
    rcases (outgoingStep_frame hs).batch with ⟨hwork, -, hhandled⟩ | ⟨hwork, -, hidle, hhandled⟩
    · rw [hwork, hhandled]
      exact h
    · -- the outbox becomes the batch: two neighbours in the sum change places
      rw [hidle, List.append_nil, List.append_assoc] at h
      rw [hwork, hhandled, List.append_nil, List.append_assoc]
      apply h.trans
      exact List.perm_append_comm.append_left s.handled

/-- A call of `sendData` that is over: the bytes accepted during it begin the
encoding of its event, and are all of it exactly when it returned true. -/
def SendCall.Faithful (serialize : OutgoingMessage → Option Bytes) (call : SendCall) : Prop :=
  ∃ payload, serialize call.event = some payload ∧ call.accepted <+: encodeMessage payload ∧
    (call.result = true ↔ call.accepted = encodeMessage payload)

/-- Every event handled was passed to one call of `sendData`. -/
structure Agent.Called (serialize : OutgoingMessage → Option Bytes) (s : Agent) : Prop where
  events : s.sendCalls.map (·.event) = s.handled
  faithful : ∀ call ∈ s.sendCalls, call.Faithful serialize

theorem Agent.Called.afterSendData {event : OutgoingMessage} {rest : List OutgoingMessage}
    {socket : Socket} {result : Bool} (h : s.Called serialize)
    (hcall : SendCall.Faithful serialize ⟨event, socket, s.accepted, result⟩) :
    (s.afterSendData event rest socket result).Called serialize := by
  refine ⟨by simp [Agent.afterSendData, h.events], ?_⟩
  intro call hmem
  rcases List.mem_append.mp hmem with hmem | hmem
  · exact h.faithful call hmem
  · rw [List.mem_singleton.mp hmem]
    exact hcall

theorem outgoingStep_called {a : OutgoingAct}
    (hser : ∀ event, ∃ payload, serialize event = some payload ∧ payload.length ≤ 2^31 - 5)
    (hflight : s.InFlight serialize) (h : s.Called serialize) (hs : outgoingStep serialize s a = some s') :
    s'.Called serialize := by
  cases outgoingStep_move hs with
  | quiet pc hfrom hto => exact ⟨h.events, h.faithful⟩
  | swap hpc => exact ⟨h.events, h.faithful⟩
  | skip event rest hpc hnone =>
    -- every event serializes, and its encoding fits a string
    obtain ⟨payload, hsome, -⟩ := hser event
    rw [hnone] at hsome
    simp at hsome
  | @raise event rest hpc payload hsome hbig =>
    obtain ⟨payload', hsome', hfits⟩ := hser event
    obtain rfl : payload = payload' := Option.some.inj (hsome.symm.trans hsome')
    exact absurd hbig (by unfold maxSize; omega)
  | @refuse event rest hpc payload hsome =>
    have hacc : s.accepted = [] := by simpa only [Agent.InFlight, hpc] using hflight
    refine h.afterSendData ⟨payload, hsome, by rw [hacc]; exact List.nil_prefix, ?_⟩
    rw [hacc]
    simp [encodeMessage]
  | begin event rest hpc hsome hfits => exact ⟨h.events, h.faithful⟩
  | accept event rest clientSocket data totalSent count hpc hpos hcount => exact ⟨h.events, h.faithful⟩
  | fail event rest clientSocket data totalSent hpc hmore =>
    obtain ⟨hdata, hlen, hle, hacc⟩ := hflight.sending hpc
    obtain ⟨payload, hsome, rfl⟩ := Option.map_eq_some_iff.mp hdata
    rw [sendsMore_iff hlen] at hmore
    -- the failing call was made for bytes that were missing
    have hpart : s.accepted ≠ encodeMessage payload := by
      intro hall
      have hsize := congrArg List.length (hacc.symm.trans hall)
      rw [List.length_take] at hsize
      omega
    have hcall : (s.afterSendData event rest clientSocket false).Called serialize :=
      h.afterSendData ⟨payload, hsome, by rw [hacc]; exact List.take_prefix _ _, by simpa using hpart⟩
    exact ⟨hcall.events, hcall.faithful⟩
  | complete event rest clientSocket data totalSent hpc hall =>
    obtain ⟨hdata, hlen, hle, hacc⟩ := hflight.sending hpc
    obtain ⟨payload, hsome, rfl⟩ := Option.map_eq_some_iff.mp hdata
    have hge : (encodeMessage payload).length ≤ totalSent := by
      rw [← Nat.not_lt, ← sendsMore_iff hlen, hall]
      simp
    refine h.afterSendData ⟨payload, hsome, by rw [hacc]; exact List.take_prefix _ _, ?_⟩
    rw [hacc, List.take_of_length_le hge]
    simp

theorem agentStep_called {a : AgentAct}
    (hser : ∀ event, ∃ payload, serialize event = some payload ∧ payload.length ≤ 2^31 - 5)
    (hflight : s.InFlight serialize) (h : s.Called serialize)
    (hs : agentStep parse serialize s a = some s') : s'.Called serialize := by
  rcases agentStep_cases hs with ⟨b, -, hout⟩ | hbeside
  · exact outgoingStep_called hser hflight h hout
  · refine ⟨?_, ?_⟩
    · rw [hbeside.sendCalls, hbeside.handled]
      exact h.events
    · rw [hbeside.sendCalls]
      exact h.faithful

end

/-- **Every event is in one place**, in every interleaving and for every answer of
`send`: each event appended is, once, in the outbox, in the batch, taken by
`getNextOutgoingEvent`, or passed to a call of `sendData` that is over; and the bytes
accepted during such a call are the whole encoding exactly when it returned true. -/
theorem event_accounted (parse : Bytes → Option IncomingMessage) (serialize : OutgoingMessage → Option Bytes)
    (hser : ∀ event, ∃ payload, serialize event = some payload ∧ payload.length ≤ 2^31 - 5)
    (tcp : TcpServer) (manager : NetworkManager) {acts : List AgentAct} {t : Agent}
    (hrun : run (agentStep parse serialize) (.boot tcp manager) acts = some t) :
    t.appended.Perm
      (t.sendCalls.map (·.event) ++ t.outgoing.localQueue ++ t.taken ++ t.work.outbox) ∧
    ∀ call ∈ t.sendCalls, call.Faithful serialize := by
  let Inv (s : Agent) : Prop := s.InFlight serialize ∧ s.Accounted ∧ s.Called serialize
  have hstep : ∀ s a s', Inv s → agentStep parse serialize s a = some s' → Inv s' := by
    intro s a s' ⟨hflight, hacc, hcalled⟩ hs
    exact ⟨agentStep_inFlight hflight hs, agentStep_accounted hacc hs, agentStep_called hser hflight hcalled hs⟩
  have hboot : Inv (.boot tcp manager) := by
    refine ⟨rfl, ?_, rfl, by simp [Agent.boot]⟩
    simp [Agent.Accounted, Agent.boot, OutgoingPc.localQueue]
  obtain ⟨-, hacc, hcalled⟩ := run_invariant hstep hrun hboot
  refine ⟨?_, hcalled.faithful⟩
  rw [hcalled.events]
  exact hacc

/-- The outgoing thread swaps the outbox out. -/
def swapOut : List AgentAct := List.replicate 4 (.outgoing .go)

/-- Two events are swapped out: the first is sent in whole, the second breaks off after two
bytes. -/
def sentAndFailed : List AgentAct :=
  twoFrames ++ endScene ++ endScene ++ swapOut ++
    [.go, .send (.sent 4), .go, .go, .send (.sent 2), .send .socketError].map .outgoing

theorem event_accounted_one :
    ∃ t, run (agentStep luaFrame fun _ => some []) (.boot .listening .started) sentAndFailed = some t ∧
      t.sendCalls.map (fun call => (call.accepted, call.result)) = [([0, 0, 0, 0], true), ([0, 0], false)] ∧
      t.appended.Perm (t.sendCalls.map (·.event) ++ t.outgoing.localQueue ++ t.taken ++ t.work.outbox) ∧
      ∀ call ∈ t.sendCalls, call.Faithful fun _ => some [] := by
  have hend : (run (agentStep luaFrame fun _ => some []) (.boot .listening .started) sentAndFailed).map
      (fun t => t.sendCalls.map fun call => (call.accepted, call.result)) =
        some [([0, 0, 0, 0], true), ([0, 0], false)] := by decide +kernel
  obtain ⟨t, hrun, hcalls⟩ := Option.map_eq_some_iff.mp hend
  exact ⟨t, hrun, hcalls,
    event_accounted luaFrame (fun _ => some []) (fun _ => ⟨[], rfl, by simp⟩) .listening .started hrun⟩

/-- **An event can be lost**: the client leaves between the swap and the call of
`sendData`, which then refuses the socket; the event is popped all the same. -/
theorem event_dropped :
    ¬ ∀ parse serialize tcp manager acts t,
      (∀ event, ∃ payload, serialize event = some payload ∧ payload.length ≤ 2^31 - 5) →
      run (agentStep parse serialize) (.boot tcp manager) acts = some t →
      ∀ event ∈ t.appended, event ∈ t.work.outbox ∨ event ∈ t.outgoing.localQueue ∨
        ∃ call ∈ t.sendCalls, call.event = event ∧ (serialize event).map encodeMessage = some call.accepted := by
  intro h
  let event : OutgoingMessage := ⟨[], [7], .operationSucceeded, none⟩
  have hend : (run (agentStep luaFrame fun _ => some []) (.boot .listening .started)
      (twoFrames ++ endScene ++ swapOut ++ [.go, .recv .closed, .go].map .server ++ [.outgoing .go])).map
        (fun t => (t.appended, t.work.outbox, t.outgoing.localQueue, t.sendCalls)) =
      some ([event], [], [], [⟨event, invalidSocket, [], false⟩]) := by decide +kernel
  obtain ⟨t, hrun, ht⟩ := Option.map_eq_some_iff.mp hend
  simp only [Prod.mk.injEq] at ht
  obtain ⟨happended, houtbox, hlocal, hcalls⟩ := ht
  have hplace := h luaFrame (fun _ => some []) .listening .started _ t (fun _ => ⟨[], rfl, by simp⟩) hrun event
  rw [happended, houtbox, hlocal, hcalls] at hplace
  simp [encodeMessage] at hplace

/-! ## What a connection receives -/

/-- A part of an event, and not only its beginning, was accepted on the socket by the
call of `sendData` at work. -/
def OutgoingPc.midFrame (pc : OutgoingPc) (socket : Socket) : Bool :=
  match pc with
  | .sending _ _ clientSocket _ totalSent => clientSocket == socket && totalSent != 0
  | _ => false

/-- The socket the call of `sendData` at work was given. -/
def OutgoingPc.target : OutgoingPc → Option Socket
  | .sending _ _ clientSocket _ _ => some clientSocket
  | _ => none

/-- A step does not let bytes be accepted on a connection on which an earlier call of
`sendData` broke off inside a frame, and does not give a new connection a socket on
which a frame is being sent. -/
def Unbroken (s : Agent) : AgentAct → Prop
  | .server (.accept client) => s.outgoing.midFrame client = false
  | .outgoing (.send (.sent _)) => s.outgoing.target.any s.torn = false
  | _ => True

instance (s : Agent) : DecidablePred (Unbroken s)
  | .server (.accept client) => inferInstanceAs (Decidable (s.outgoing.midFrame client = false))
  | .outgoing (.send (.sent _)) => inferInstanceAs (Decidable (s.outgoing.target.any s.torn = false))
  | .server .go | .server (.recv _) | .render _ | .getNext | .outgoing .go
  | .outgoing (.send .socketError) => isTrue trivial

section
variable {parse : Bytes → Option IncomingMessage} {serialize : OutgoingMessage → Option Bytes} {s s' : Agent}
  {socket : Socket}

/-- What the connection on a socket received, between frames and inside one. -/
structure Agent.Intact (serialize : OutgoingMessage → Option Bytes) (s : Agent) (socket : Socket) : Prop where
  whole : s.outgoing.midFrame socket = false → s.torn socket = false →
    Whole (encoding serialize) s.handled (s.wire socket)
  within : s.outgoing.midFrame socket = false → Within (encoding serialize) s.handled (s.wire socket)
  inside : ∀ event rest data totalSent, s.outgoing = .sending event rest socket data totalSent →
    totalSent ≠ 0 → s.torn socket = false ∧
      ∃ out, Whole (encoding serialize) s.handled out ∧ s.wire socket = out ++ data.take totalSent

theorem Agent.Intact.between {t : Agent} (h : s.Intact serialize socket)
    (hfrom : s.outgoing.midFrame socket = false) (hto : t.outgoing.midFrame socket = false)
    (hwire : t.wire socket = s.wire socket) (htorn : t.torn socket = s.torn socket)
    (hhandled : s.handled.Sublist t.handled) : t.Intact serialize socket := by
  refine ⟨?_, ?_, ?_⟩
  · intro _ ht
    rw [hwire]
    apply Whole.mono _ hhandled
    exact h.whole hfrom (htorn.symm.trans ht)
  · intro _
    rw [hwire]
    apply Within.mono _ hhandled
    exact h.within hfrom
  · intro event rest data totalSent hpc hne
    rw [hpc] at hto
    simp [OutgoingPc.midFrame, hne] at hto

theorem Agent.Intact.congr {t : Agent} (h : s.Intact serialize socket) (hpc : t.outgoing = s.outgoing)
    (hwire : t.wire socket = s.wire socket) (htorn : t.torn socket = s.torn socket)
    (hhandled : t.handled = s.handled) : t.Intact serialize socket := by
  refine ⟨?_, ?_, ?_⟩
  · rw [hpc, hwire, htorn, hhandled]
    exact h.whole
  · rw [hpc, hwire, hhandled]
    exact h.within
  · rw [hpc, hwire, htorn, hhandled]
    exact h.inside

/-- On a connection that is not torn, what the call of `sendData` at work sent comes
after whole frames. -/
theorem Agent.Intact.sending {event : OutgoingMessage} {rest : List OutgoingMessage} {data : Bytes}
    {totalSent : Nat} (h : s.Intact serialize socket)
    (hpc : s.outgoing = .sending event rest socket data totalSent) (htorn : s.torn socket = false) :
    ∃ out, Whole (encoding serialize) s.handled out ∧ s.wire socket = out ++ data.take totalSent := by
  by_cases hzero : totalSent = 0
  · have hmid : s.outgoing.midFrame socket = false := by simp [hpc, OutgoingPc.midFrame, hzero]
    exact ⟨s.wire socket, h.whole hmid htorn, by simp [hzero]⟩
  · exact (h.inside event rest data totalSent hpc hzero).2

theorem OutgoingPc.midFrame_idle {pc : OutgoingPc} (h : pc.localQueue = []) (socket : Socket) :
    pc.midFrame socket = false := by
  cases pc with
  | sending event rest clientSocket data totalSent => simp [OutgoingPc.localQueue] at h
  | _ => rfl

theorem midFrame_outside {event : OutgoingMessage} {rest : List OutgoingMessage} {clientSocket : Socket}
    {data : Bytes} {totalSent : Nat} (hpc : s.outgoing = .sending event rest clientSocket data totalSent)
    (h : ¬ (clientSocket = socket ∧ totalSent ≠ 0)) : s.outgoing.midFrame socket = false := by
  rw [hpc]
  simpa [OutgoingPc.midFrame] using h

theorem encoding_inFlight {event : OutgoingMessage} {rest : List OutgoingMessage} {clientSocket : Socket}
    {data : Bytes} {totalSent : Nat} (h : s.InFlight serialize)
    (hpc : s.outgoing = .sending event rest clientSocket data totalSent) : encoding serialize event = data := by
  simp only [encoding]
  rw [(h.sending hpc).1]
  rfl

theorem outgoingStep_intact {a : OutgoingAct} (hflight : s.InFlight serialize)
    (hunbroken : Unbroken s (.outgoing a)) (h : s.Intact serialize socket)
    (hs : outgoingStep serialize s a = some s') : s'.Intact serialize socket := by
  have draining {batch : List OutgoingMessage} (hpc : s.outgoing = .draining batch) :
      s.outgoing.midFrame socket = false := by rw [hpc]; rfl
  cases outgoingStep_move hs with
  | quiet pc hfrom hto =>
    exact h.between (OutgoingPc.midFrame_idle hfrom socket) (OutgoingPc.midFrame_idle hto socket) rfl rfl
      (List.Sublist.refl _)
  | swap hpc => exact h.between (by rw [hpc]; rfl) rfl rfl rfl (List.Sublist.refl _)
  | skip event rest hpc hser => exact h.between (draining hpc) rfl rfl rfl (List.sublist_append_left _ _)
  | raise event rest hpc hser hbig => exact h.between (draining hpc) rfl rfl rfl (List.sublist_append_left _ _)
  | refuse event rest hpc hser => exact h.between (draining hpc) rfl rfl rfl (List.sublist_append_left _ _)
  | begin event rest hpc hser hfits =>
    exact h.between (draining hpc) (by simp [OutgoingPc.midFrame]) rfl rfl (List.Sublist.refl _)
  | accept event rest clientSocket data totalSent count hpc hpos hcount =>
    have htorn : s.torn clientSocket = false := by simpa [Unbroken, hpc, OutgoingPc.target] using hunbroken
    by_cases hsock : clientSocket = socket
    · subst hsock
      obtain ⟨out, hout, hwire⟩ := h.sending hpc htorn
      -- the connection is inside a frame now, if it was not before
      refine ⟨?_, ?_, ?_⟩
      · intro hmid
        simp [OutgoingPc.midFrame, Nat.ne_of_gt hpos] at hmid
      · intro hmid
        simp [OutgoingPc.midFrame, Nat.ne_of_gt hpos] at hmid
      · intro event' rest' data' totalSent' hpc' hne
        obtain ⟨-, -, -, rfl, rfl⟩ := OutgoingPc.sending.inj hpc'
        refine ⟨htorn, out, hout, ?_⟩
        simp only [Function.update_self]
        rw [hwire, List.append_assoc, List.take_add]
    · have hmid (n : Nat) : (OutgoingPc.sending event rest clientSocket data n).midFrame socket = false := by
        simp [OutgoingPc.midFrame, hsock]
      refine h.between (by rw [hpc]; exact hmid _) (hmid _) ?_ rfl (List.Sublist.refl _)
      exact Function.update_of_ne (Ne.symm hsock) _ _
  | fail event rest clientSocket data totalSent hpc hmore =>
    by_cases hinside : clientSocket = socket ∧ totalSent ≠ 0
    · -- the frame breaks off: the connection is torn
      obtain ⟨rfl, hne⟩ := hinside
      obtain ⟨-, out, hout, hwire⟩ := h.inside event rest data totalSent hpc hne
      rw [← encoding_inFlight hflight hpc] at hwire
      refine ⟨?_, ?_, ?_⟩
      · intro _ ht
        simp [hne] at ht
      · intro _
        rw [show (s.afterSendData event rest clientSocket false).wire clientSocket = _ from hwire]
        apply Whole.append_part hout
        exact List.take_prefix _ _
      · intro _ _ _ _ hpc'
        simp [Agent.afterSendData] at hpc'
    · refine h.between (midFrame_outside hpc hinside) rfl rfl ?_ (List.sublist_append_left _ _)
      dsimp only
      split
      · rfl
      · rename_i hne
        exact Function.update_of_ne (fun hsock => hinside ⟨hsock.symm, hne⟩) _ _
  | complete event rest clientSocket data totalSent hpc hall =>
    by_cases hinside : clientSocket = socket ∧ totalSent ≠ 0
    · -- the frame is whole
      obtain ⟨rfl, hne⟩ := hinside
      obtain ⟨htorn, out, hout, hwire⟩ := h.inside event rest data totalSent hpc hne
      obtain ⟨-, hlen, -, -⟩ := hflight.sending hpc
      have hge : data.length ≤ totalSent := by
        rw [← Nat.not_lt, ← sendsMore_iff hlen, hall]
        simp
      rw [List.take_of_length_le hge, ← encoding_inFlight hflight hpc] at hwire
      have hwhole : Whole (encoding serialize) (s.handled ++ [event]) (s.wire clientSocket) := hwire ▸ hout.append
      refine ⟨?_, ?_, ?_⟩
      · intro _ _
        exact hwhole
      · intro _
        exact hwhole.within
      · intro _ _ _ _ hpc'
        simp [Agent.afterSendData] at hpc'
    · exact h.between (midFrame_outside hpc hinside) rfl rfl rfl (List.sublist_append_left _ _)

theorem agentStep_intact {a : AgentAct} (hflight : s.InFlight serialize) (hunbroken : Unbroken s a)
    (h : s.Intact serialize socket) (hs : agentStep parse serialize s a = some s') :
    s'.Intact serialize socket := by
  cases a with
  | server a =>
    obtain ⟨server, -, rfl⟩ := agentStep_server hs
    cases a with
    | accept client =>
      by_cases hsock : socket = client
      · -- a new connection, on which nothing is being sent
        subst hsock
        have hmid : s.outgoing.midFrame socket = false := hunbroken
        have hwire : (s.openWire (.accept socket)).wire socket = [] := Function.update_self _ _ _
        refine ⟨?_, ?_, ?_⟩
        · intro _ _
          exact hwire ▸ Whole.nil
        · intro _
          exact hwire ▸ Whole.nil.within
        · intro event rest data totalSent hpc hne
          rw [show s.outgoing = _ from hpc] at hmid
          simp [OutgoingPc.midFrame, hne] at hmid
      · have hwire : (s.openWire (.accept client)).wire socket = s.wire socket :=
          Function.update_of_ne hsock _ _
        have htorn : (s.openWire (.accept client)).torn socket = s.torn socket :=
          Function.update_of_ne hsock _ _
        exact h.congr rfl hwire htorn rfl
    | go => exact h.congr rfl rfl rfl rfl
    | recv result => exact h.congr rfl rfl rfl rfl
  | render a => cases renderStep_move hs <;> exact h.congr rfl rfl rfl rfl
  | getNext =>
    simp only [agentStep] at hs
    split at hs <;> obtain rfl := Option.some.inj hs <;> exact h.congr rfl rfl rfl rfl
  | outgoing a => exact outgoingStep_intact hflight hunbroken h hs

/-- What is handled and what is left of the batch were removed from the outbox in
that order. -/
def Agent.Ordered (s : Agent) : Prop := (s.handled ++ s.outgoing.localQueue).Sublist s.removed

theorem agentStep_ordered {a : AgentAct} (h : s.Ordered) (hs : agentStep parse serialize s a = some s') :
    s'.Ordered := by
  simp only [Agent.Ordered] at h ⊢
  rcases agentStep_cases hs with ⟨b, -, hout⟩ | hbeside
  · rcases (outgoingStep_frame hout).batch with ⟨-, hremoved, hhandled⟩ | ⟨-, hremoved, hidle, hhandled⟩
    · rw [hremoved, hhandled]
      exact h
    · rw [hidle, List.append_nil] at h
      rw [hremoved, hhandled]
      exact h.append (List.Sublist.refl _)
  · rw [hbeside.handled, hbeside.outgoing]
    exact h.trans hbeside.removed.sublist

theorem Agent.Intact.stream (h : s.Intact serialize socket) (hflight : s.InFlight serialize) :
    Within (encoding serialize) (s.handled ++ s.outgoing.localQueue) (s.wire socket) := by
  cases hmid : s.outgoing.midFrame socket with
  | false => exact (h.within hmid).mono (List.sublist_append_left _ _)
  | true =>
    cases hpc : s.outgoing with
    | sending event rest clientSocket data totalSent =>
      obtain ⟨rfl, hne⟩ : clientSocket = socket ∧ totalSent ≠ 0 := by
        simpa [hpc, OutgoingPc.midFrame] using hmid
      obtain ⟨-, out, hout, hwire⟩ := h.inside event rest data totalSent hpc hne
      rw [hwire, ← encoding_inFlight hflight hpc]
      refine (hout.append_part (List.take_prefix _ _)).mono ?_
      simp [OutgoingPc.localQueue]
    | _ => simp [hpc, OutgoingPc.midFrame] at hmid

end

/-- **The outgoing stream is intact**: in every run in which nothing is accepted on a
connection after a frame broke off on it, and no new connection gets a socket in the
middle of a frame, the bytes accepted on any connection are at all times the beginning
of whole frames of events in the order of the outbox. -/
theorem stream_intact (parse : Bytes → Option IncomingMessage) (serialize : OutgoingMessage → Option Bytes)
    (tcp : TcpServer) (manager : NetworkManager) {acts : List AgentAct} {t : Agent}
    (hrun : run (agentStep parse serialize) (.boot tcp manager) acts = some t)
    (hunbroken : Along (agentStep parse serialize) Unbroken (.boot tcp manager) acts) (socket : Socket) :
    Within (encoding serialize) t.appended (t.wire socket) := by
  let Inv (s : Agent) : Prop := s.InFlight serialize ∧ s.Ordered ∧ s.Intact serialize socket
  have hstep : ∀ s a s', Inv s → Unbroken s a → agentStep parse serialize s a = some s' → Inv s' := by
    intro s a s' ⟨hflight, hord, hint⟩ hub hs
    exact ⟨agentStep_inFlight hflight hs, agentStep_ordered hord hs, agentStep_intact hflight hub hint hs⟩
  have hboot : Inv (.boot tcp manager) := by
    refine ⟨rfl, by simp [Agent.Ordered, Agent.boot, OutgoingPc.localQueue], fun _ _ => Whole.nil,
      fun _ => Whole.nil.within, ?_⟩
    intro event rest data totalSent hpc
    simp [Agent.boot] at hpc
  obtain ⟨hflight, hord, hint⟩ := run_invariant_along hstep hrun hunbroken hboot
  have hremoved : t.removed.Sublist t.appended := by
    rw [← outbox_conserved hrun]
    exact List.sublist_append_left _ _
  exact (hint.stream hflight).mono (hord.trans hremoved)

/-- Both events are swapped out; the first `send` takes two bytes of the first. -/
def firstSend : List AgentAct :=
  twoFrames ++ endScene ++ endScene ++ swapOut ++ [.outgoing .go, .outgoing (.send (.sent 2))]

theorem stream_intact_first :
    ∃ t, run (agentStep luaFrame operationOnly) (.boot .listening .started)
        (firstSend ++ [.outgoing (.send (.sent 3)), .outgoing .go]) = some t ∧
      Within (encoding operationOnly) t.appended (t.wire 5) := by
  have hsome : (run (agentStep luaFrame operationOnly) (.boot .listening .started)
      (firstSend ++ [.outgoing (.send (.sent 3)), .outgoing .go])).isSome = true := by decide +kernel
  obtain ⟨t, hrun⟩ := Option.isSome_iff_exists.mp hsome
  exact ⟨t, hrun, stream_intact luaFrame operationOnly .listening .started hrun (by decide +kernel) 5⟩

/-- **A frame can break off**: `send` fails inside the first frame, and the loop goes
on with the second on the same connection. -/
theorem stream_torn :
    ¬ ∀ parse serialize tcp manager acts t,
      run (agentStep parse serialize) (.boot tcp manager) acts = some t →
      ∀ socket, Within (encoding serialize) t.appended (t.wire socket) := by
  intro h
  let events : List OutgoingMessage := [⟨[], [7], .operationSucceeded, none⟩, ⟨[], [8], .operationSucceeded, none⟩]
  have hend : (run (agentStep luaFrame operationOnly) (.boot .listening .started)
      (firstSend ++ [.outgoing (.send .socketError), .outgoing .go, .outgoing (.send (.sent 5))])).map
        (fun t => (t.appended, t.wire 5)) = some (events, [0, 0, 0, 0, 0, 1, 8]) := by decide +kernel
  obtain ⟨t, hrun, ht⟩ := Option.map_eq_some_iff.mp hend
  simp only [Prod.mk.injEq] at ht
  obtain ⟨happended, hwire⟩ := ht
  obtain ⟨cs, hcs, hpre⟩ := h luaFrame operationOnly .listening .started _ t hrun 5
  rw [happended] at hcs
  rw [hwire] at hpre
  have hnone : ∀ cs ∈ events.sublists,
      ¬ [0, 0, 0, 0, 0, 1, 8] <+: (cs.map (encoding operationOnly)).flatten := by decide +kernel
  exact hnone cs (List.mem_sublists.mpr hcs) hpre

end Icecap
