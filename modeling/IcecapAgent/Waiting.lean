import IcecapAgent.Progress

/- How long an event waits.

   The outgoing thread goes round: it sleeps, finds the client, swaps the outbox out and
   goes through the batch. While the client stays, an event that waits in the outbox is
   in the next batch but one at the latest.

   `outbox_served` — over every interleaving in which the manager stays connected, after
   as many steps of the outgoing thread as it takes to get to the end of its batch and
   through the next one, every event that had been appended before is handled, or was
   taken by `getNextOutgoingEvent`. -/
namespace Icecap
open Icecap.Core Icecap.Transport StepRun

section
variable (serialize : OutgoingMessage → Option Bytes)

/-- The manager has a client and everything the outgoing thread asks for. -/
def Transport.NetworkManager.Connected (m : NetworkManager) : Prop :=
  m.running = true ∧ m.currentClient ≠ invalidSocket ∧ m.outboxQueue = true ∧ m.outboxMutex = true

instance (m : NetworkManager) : Decidable m.Connected := inferInstanceAs (Decidable (_ ∧ _))

/-- The steps up to the swap and through the batch it takes, apart from what is in the
outbox. -/
def OutgoingPc.toSwap : OutgoingPc → Nat
  | .swapping => 1
  | .guarding => 2
  | .checking => 3
  | pc => pc.toDo serialize + 3

/-- What an outgoing thread has left to do until it is through with some events: they are
still in the outbox, or none of them is any more. -/
inductive Agent.Owes (serialize : OutgoingMessage → Option Bytes) (events : List OutgoingMessage) (s : Agent) :
    Nat → Prop where
  | waiting (haccounted : s.Accounted) (happended : events <+: s.appended) :
      s.Owes serialize events (s.outgoing.toSwap serialize + sendLoad serialize s.work.outbox)
  | sending (hbusy : s.outgoing.localQueue ≠ [])
      (htaken : ∀ event, events.count event ≤ (s.handled ++ s.outgoing.localQueue ++ s.taken).count event) :
      s.Owes serialize events (s.outgoingToDo serialize - 3)

/-- All of some events are handled, or were taken. -/
def Agent.Through (events : List OutgoingMessage) (s : Agent) : Prop :=
  ∀ event, events.count event ≤ (s.handled ++ s.taken).count event

end

section
variable {parse : Bytes → Option IncomingMessage} {serialize : OutgoingMessage → Option Bytes} {s s' : Agent}
  {events : List OutgoingMessage} {n : Nat}

theorem busy_toDo {a : OutgoingAct} (hbusy : s.outgoing.localQueue ≠ []) (h : outgoingStep serialize s a = some s') :
    1 + s'.outgoingToDo serialize ≤ s.outgoingToDo serialize := by
  unfold outgoingStep at h
  split at h
  case h_6 event rest hpc =>
    obtain rfl := Option.some.inj h
    exact drainTurn_toDo hpc
  case h_7 event rest clientSocket data totalSent hpc =>
    split at h
    · simp at h
    · obtain rfl := Option.some.inj h
      simp only [Agent.outgoingToDo, Agent.afterSendData, hpc, OutgoingPc.toDo]
      omega
  case h_8 event rest clientSocket data totalSent result hpc =>
    split at h
    · exact sendTurn_toDo hpc h
    · simp at h
  case h_10 => simp at h
  all_goals
    rename_i hpc
    exact absurd (by rw [hpc]; rfl) hbusy

theorem busy_pc (serialize : OutgoingMessage → Option Bytes) (hbusy : s.outgoing.localQueue ≠ []) :
    s.outgoing.toSwap serialize = s.outgoing.toDo serialize + 3 ∧ 3 ≤ s.outgoing.toDo serialize := by
  cases hpc : s.outgoing with
  | draining localQueue => exact ⟨rfl, Nat.le_add_left _ _⟩
  | sending event rest clientSocket data totalSent => exact ⟨rfl, by simp only [OutgoingPc.toDo]; omega⟩
  | _ => exact absurd (by rw [hpc]; rfl) hbusy

/-- Where a thread with a batch goes: on with it, to its end, or, after an exception,
back to its loop. -/
theorem busy_goes {a : OutgoingAct} (hbusy : s.outgoing.localQueue ≠ []) (h : outgoingStep serialize s a = some s') :
    s'.outgoing.toSwap serialize = s'.outgoing.toDo serialize + 3 := by
  cases outgoingStep_move h with
  | quiet pc hfrom hto => exact absurd hfrom hbusy
  | swap hpc => exact absurd (by rw [hpc]; rfl) hbusy
  | _ => rfl

/-- The events stay where they are counted, until none is in the batch any more. -/
theorem sending_or_through (serialize : OutgoingMessage → Option Bytes) (hcount : ∀ event, events.count event ≤
      (s.handled ++ s.outgoing.localQueue ++ s.taken).count event) :
    s.Through events ∨ ∃ n, s.Owes serialize events n ∧ n + 3 = s.outgoingToDo serialize := by
  by_cases hidle : s.outgoing.localQueue = []
  · left
    intro event
    have hevent := hcount event
    rwa [hidle, List.append_nil] at hevent
  · right
    refine ⟨_, .sending hidle hcount, ?_⟩
    have hlow := (busy_pc serialize hidle).2
    unfold Agent.outgoingToDo
    omega

theorem outgoingStep_owes {a : OutgoingAct} (h : s.Owes serialize events n) (hconnected : s.server.manager.Connected)
    (hs : outgoingStep serialize s a = some s') :
    s'.Through events ∨ ∃ n', s'.Owes serialize events n' ∧ 1 + n' ≤ n := by
  have hframe := outgoingStep_frame hs
  cases h with
  | waiting haccounted happended =>
    have haccounted' : s'.Accounted :=
      agentStep_accounted haccounted (show agentStep (fun _ => none) serialize s (.outgoing a) = some s' from hs)
    have happended' : events <+: s'.appended := hframe.appended ▸ happended
    by_cases hbusy : s.outgoing.localQueue = []
    · obtain ⟨hrunning, hclient, hqueue, hmutex⟩ := hconnected
      have goto (pc : OutgoingPc) (hgoes : s' = { s with outgoing := pc })
          (hless : 1 + pc.toSwap serialize ≤ s.outgoing.toSwap serialize) :
          s'.Through events ∨ ∃ n', s'.Owes serialize events n' ∧
            1 + n' ≤ s.outgoing.toSwap serialize + sendLoad serialize s.work.outbox := by
        refine .inr ⟨_, .waiting haccounted' happended', ?_⟩
        subst hgoes
        dsimp only
        omega
      unfold outgoingStep at hs
      simp only [hrunning, hqueue, hmutex, if_true, bne_iff_ne, ne_eq, hclient, not_false_eq_true, Bool.not_true,
        Bool.false_or, beq_iff_eq, if_false] at hs
      split at hs
      case h_1 hpc => exact goto _ (Option.some.inj hs).symm (by rw [hpc]; exact Nat.le_refl _)
      case h_2 hpc => exact goto _ (Option.some.inj hs).symm (by rw [hpc]; exact Nat.le_refl _)
      case h_3 hpc => exact goto _ (Option.some.inj hs).symm (by rw [hpc]; exact Nat.le_refl _)
      case h_4 hpc =>
        -- the swap: what was in the outbox is the batch
        have hswapped := (Option.some.inj hs).symm
        have hcount (event : OutgoingMessage) : events.count event ≤
            (s'.handled ++ s'.outgoing.localQueue ++ s'.taken).count event := by
          have hall := haccounted.count_eq event
          have hsome := happended.sublist.count_le event
          rw [hbusy, List.append_nil] at hall
          rw [hswapped]
          simp only [OutgoingPc.localQueue, List.count_append] at hall ⊢
          omega
        rcases sending_or_through serialize hcount with hdone | ⟨n', h', hn'⟩
        · exact .inl hdone
        · refine .inr ⟨n', h', ?_⟩
          rw [hswapped] at hn'
          simp only [Agent.outgoingToDo, OutgoingPc.toDo, sendLoad] at hn'
          rw [hpc]
          simp only [OutgoingPc.toSwap]
          omega
      case h_5 hpc => exact goto _ (Option.some.inj hs).symm (by rw [hpc]; exact Nat.le_refl _)
      case h_6 event rest hpc => simp [hpc, OutgoingPc.localQueue] at hbusy
      case h_7 hpc => simp [hpc, OutgoingPc.localQueue] at hbusy
      case h_8 hpc => simp [hpc, OutgoingPc.localQueue] at hbusy
      case h_9 hpc => exact goto _ (Option.some.inj hs).symm (by rw [hpc]; exact Nat.le_refl _)
      case h_10 => simp at hs
    · have hless := busy_toDo hbusy hs
      have hgoes := busy_goes hbusy hs
      have hfrom := (busy_pc serialize hbusy).1
      refine .inr ⟨_, .waiting haccounted' happended', ?_⟩
      unfold Agent.outgoingToDo at hless
      omega
  | sending hbusy htaken =>
    have hless := busy_toDo hbusy hs
    have hcount (event : OutgoingMessage) : events.count event ≤
        (s'.handled ++ s'.outgoing.localQueue ++ s'.taken).count event := by
      rcases hframe.batch with ⟨-, -, hbatch⟩ | ⟨-, -, hidle, -⟩
      · rw [hbatch, hframe.taken]
        exact htaken event
      · exact absurd hidle hbusy
    rcases sending_or_through serialize hcount with hdone | ⟨n', h', hn'⟩
    · exact .inl hdone
    · exact .inr ⟨n', h', by omega⟩

theorem agentStep_besideOutbox {a : AgentAct} (hs : agentStep parse serialize s a = some s')
    (ha : a.isOutgoing = false) :
    s'.outgoing = s.outgoing ∧ s'.handled = s.handled ∧ s.taken <+: s'.taken ∧ s.appended <+: s'.appended ∧
      sendLoad serialize s'.work.outbox + sendLoad serialize s.appended ≤
        sendLoad serialize s.work.outbox + sendLoad serialize s'.appended := by
  cases a with
  | server a =>
    obtain ⟨server, -, rfl⟩ := agentStep_server hs
    obtain ⟨wire, torn, hopen⟩ := s.openWire_eq a
    rw [hopen]
    exact ⟨rfl, rfl, List.prefix_rfl, List.prefix_rfl, Nat.le_refl _⟩
  | render a =>
    cases renderStep_move hs with
    | quiet => exact ⟨rfl, rfl, List.prefix_rfl, List.prefix_rfl, Nat.le_refl _⟩
    | pop command rest hpc hinbox => exact ⟨rfl, rfl, List.prefix_rfl, List.prefix_rfl, Nat.le_refl _⟩
    | done command work events hpc hwork hids =>
      refine ⟨rfl, rfl, List.prefix_rfl, List.prefix_append _ _, ?_⟩
      simp only [hwork, sendLoad_append]
      omega
  | getNext =>
    simp only [agentStep] at hs
    split at hs
    · obtain rfl := Option.some.inj hs
      exact ⟨rfl, rfl, List.prefix_rfl, List.prefix_rfl, Nat.le_refl _⟩
    · rename_i event work hnext
      obtain rfl := Option.some.inj hs
      obtain ⟨hout, -⟩ := getNextOutgoingEvent_some hnext
      refine ⟨rfl, rfl, List.prefix_append _ _, List.prefix_rfl, ?_⟩
      dsimp only
      rw [hout, sendLoad]
      omega
  | outgoing a => simp [AgentAct.isOutgoing] at ha

theorem agentStep_owes {a : AgentAct} (h : s.Owes serialize events n)
    (hconnected : a.isOutgoing = true → s.server.manager.Connected) (hs : agentStep parse serialize s a = some s') :
    s'.Through events ∨ ∃ n', s'.Owes serialize events n' ∧
      (if a.isOutgoing then 1 else 0) + n' + sendLoad serialize s.appended ≤ n + sendLoad serialize s'.appended := by
  cases a with
  | outgoing a =>
    have happended : s'.appended = s.appended := (outgoingStep_frame hs).appended
    rcases outgoingStep_owes h (hconnected rfl) hs with hdone | ⟨n', h', hless⟩
    · exact .inl hdone
    · refine .inr ⟨n', h', ?_⟩
      rw [happended]
      simp only [AgentAct.isOutgoing, if_true]
      omega
  | _ =>
    obtain ⟨houtgoing, hhandled, htaken, happended, hload⟩ := agentStep_besideOutbox hs rfl
    right
    cases h with
    | waiting haccounted hbefore =>
      refine ⟨_, .waiting (agentStep_accounted haccounted hs) (hbefore.trans happended), ?_⟩
      rw [houtgoing]
      simp only [AgentAct.isOutgoing, Bool.false_eq_true, if_false]
      omega
    | sending hbusy hcount =>
      refine ⟨_, .sending (by rw [houtgoing]; exact hbusy) ?_, ?_⟩
      · intro event
        have hevent := hcount event
        have hmore := htaken.sublist.count_le event
        rw [hhandled, houtgoing]
        simp only [List.count_append] at hevent ⊢
        omega
      · have hlow := (busy_pc serialize hbusy).2
        unfold Agent.outgoingToDo
        rw [houtgoing]
        simp only [AgentAct.isOutgoing, Bool.false_eq_true, if_false]
        omega

theorem outgoingStep_handled {a : OutgoingAct} (hs : outgoingStep serialize s a = some s') :
    s.handled <+: s'.handled := by
  cases outgoingStep_move hs with
  | quiet | swap | begin | accept => exact List.prefix_rfl
  | skip | raise | refuse | fail | complete => exact List.prefix_append _ _

theorem agentStep_through {a : AgentAct} (h : s.Through events) (hs : agentStep parse serialize s a = some s') :
    s'.Through events := by
  have hmore : s.handled <+: s'.handled ∧ s.taken <+: s'.taken := by
    cases a with
    | outgoing a =>
      rw [(outgoingStep_frame hs).taken]
      exact ⟨outgoingStep_handled hs, List.prefix_rfl⟩
    | _ =>
      obtain ⟨-, hhandled, htaken, -, -⟩ := agentStep_besideOutbox hs rfl
      rw [hhandled]
      exact ⟨List.prefix_rfl, htaken⟩
  intro event
  have hevent := h event
  have hhandled := hmore.1.sublist.count_le event
  have htaken := hmore.2.sublist.count_le event
  rw [List.count_append] at hevent ⊢
  omega

theorem through_of_run {tcp : TcpServer} {manager : NetworkManager} {before acts : List AgentAct} {t : Agent}
    (hbefore : run (agentStep parse serialize) (.boot tcp manager) before = some s)
    (hconnected : Along (agentStep parse serialize)
      (fun s a => a.isOutgoing = true → s.server.manager.Connected) s acts)
    (hrun : run (agentStep parse serialize) s acts = some t)
    (hsteps : s.outgoing.toSwap serialize + sendLoad serialize s.work.outbox + sendLoad serialize t.appended <
      acts.countP AgentAct.isOutgoing + sendLoad serialize s.appended) : t.Through s.appended := by
  have hkeep : ∀ s a s', Agent.Accounted s → agentStep parse serialize s a = some s' → s'.Accounted :=
    fun s a s' h hs => agentStep_accounted h hs
  have hboot : (Agent.boot tcp manager).Accounted := by
    simp [Agent.Accounted, Agent.boot, OutgoingPc.localQueue]
  have howes : s.Owes serialize s.appended (s.outgoing.toSwap serialize + sendLoad serialize s.work.outbox) :=
    .waiting (run_invariant hkeep hbefore hboot) List.prefix_rfl
  let Goal (u : Agent) : Prop := u.Through s.appended
  have hgoal : ∀ u a u', Goal u → agentStep parse serialize u a = some u' → Goal u' :=
    fun u a u' h hs => agentStep_through h hs
  have hpay : ∀ u a u' n, Agent.Owes serialize s.appended u n →
      (a.isOutgoing = true → u.server.manager.Connected) → agentStep parse serialize u a = some u' →
      Goal u' ∨ ∃ n', Agent.Owes serialize s.appended u' n' ∧
        (if a.isOutgoing then 1 else 0) + n' + sendLoad serialize u.appended ≤ n + sendLoad serialize u'.appended :=
    fun u a u' n h hconn hs => agentStep_owes h hconn hs
  rcases run_pays_until hgoal hpay hrun hconnected howes with hdone | hfew
  · exact hdone
  · omega

end

/-- **A bounded wait for the wire**: from any state that a run reaches, over every
interleaving in which the manager stays connected, once the outgoing thread has taken more
steps than lead it through its batch and the next one, every event appended before is
handled, or was taken by `getNextOutgoingEvent`; and the thread can always take a step. -/
theorem outbox_served (parse : Bytes → Option IncomingMessage) (serialize : OutgoingMessage → Option Bytes)
    {tcp : TcpServer} {manager : NetworkManager} {before acts : List AgentAct} {s t : Agent}
    (hbefore : run (agentStep parse serialize) (.boot tcp manager) before = some s)
    (hconnected : Along (agentStep parse serialize)
      (fun s a => a.isOutgoing = true → s.server.manager.Connected) s acts)
    (hrun : run (agentStep parse serialize) s acts = some t)
    (hsteps : s.outgoing.toSwap serialize + sendLoad serialize s.work.outbox + sendLoad serialize t.appended <
      acts.countP AgentAct.isOutgoing + sendLoad serialize s.appended) :
    (∀ event, s.appended.count event ≤ (t.handled ++ t.taken).count event) ∧
      (t.outgoing ≠ .finished → ∃ a t', agentStep parse serialize t (.outgoing a) = some t') :=
  ⟨through_of_run hbefore hconnected hrun hsteps, fun h => outgoingStep_enabled serialize h⟩

/-- The thread goes round: it takes the outbox, sends the event in it, and comes back. -/
def oneRound : List AgentAct :=
  [.go, .go, .go, .go, .go, .send (.sent 5), .go, .go, .go, .go, .go, .go].map .outgoing

theorem outbox_served_round :
    ∃ s t, run (agentStep luaFrame operationOnly) (.boot .listening .started) (twoFrames ++ endScene) = some s ∧
      run (agentStep luaFrame operationOnly) s oneRound = some t ∧
      ∀ event, s.appended.count event ≤ (t.handled ++ t.taken).count event := by
  have hsome : ((run (agentStep luaFrame operationOnly) (.boot .listening .started) (twoFrames ++ endScene)).bind
      fun s => (run (agentStep luaFrame operationOnly) s oneRound).bind fun t =>
        if Along (agentStep luaFrame operationOnly)
            (fun s a => a.isOutgoing = true → s.server.manager.Connected) s oneRound ∧
          s.outgoing.toSwap operationOnly + sendLoad operationOnly s.work.outbox + sendLoad operationOnly t.appended <
            oneRound.countP AgentAct.isOutgoing + sendLoad operationOnly s.appended
        then some (s, t) else none).isSome = true := by decide +kernel
  obtain ⟨p, hp⟩ := Option.isSome_iff_exists.mp hsome
  obtain ⟨s, hbefore, hrest⟩ := Option.bind_eq_some_iff.mp hp
  obtain ⟨t, hrun, hmet⟩ := Option.bind_eq_some_iff.mp hrest
  obtain ⟨⟨hconnected, hsteps⟩, -⟩ := Option.ite_none_right_eq_some.mp hmet
  exact ⟨s, t, hbefore, hrun, (outbox_served luaFrame operationOnly hbefore hconnected hrun hsteps).1⟩

end Icecap
