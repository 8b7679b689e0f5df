import Mathlib.Algebra.Order.Group.Nat
import Mathlib.Data.List.Nodup
import Mathlib.Tactic.IntervalCases
import IcecapAgent.Serial
import IcecapAgent.TextTemplate

/- The ids of the events.

   An id is a version 4 UUID, written digit by digit as the numbers come from the
   engine. The engine (`std::mt19937` behind two distributions) is a parameter: what is
   relied on is that a distribution keeps to its bounds.

   1. `generateUUID_exact` — what it writes is a UUID whatever the engine, and every
      version 4 UUID can be written;
   2. `event_ids` — in every run of the agent the ids of the events are ids drawn in
      that order, so all of them are UUIDs, and no two are equal unless the engine gave
      the same 31 numbers twice. -/
namespace Icecap.Core
open TextTemplate StepRun

section
variable {G : Type} (engine : Engine G)

/-- What `std::hex` makes of an `int`. -/
def hex (n : Nat) : Bytes := literal (String.ofList (Nat.toDigits 16 n))

/-- The string stream and the engine. -/
structure Writing (G : Type) where
  ss : Bytes
  gen : G

/-- `ss << text`. -/
def Writing.text (w : Writing G) (text : String) : Writing G := { w with ss := w.ss ++ literal text }

/-- `for (int i = 0; i < count; i++) ss << dis(gen);` -/
def Writing.digits (lo hi : Nat) (w : Writing G) : Nat → Writing G
  | 0 => w
  | count + 1 =>
    let (n, gen) := engine.draw lo hi w.gen
    Writing.digits lo hi ⟨w.ss ++ hex n, gen⟩ count

/-- `EventPublisher::generateUUID`. -/
def generateUUID (gen : G) : Bytes × G :=
  let w := Writing.digits engine 0 15 ⟨[], gen⟩ 8
  let w := w.text "-"
  let w := w.digits engine 0 15 4
  let w := w.text "-4"
  let w := w.digits engine 0 15 3
  let w := w.text "-"
  let w := w.digits engine 8 11 1
  let w := w.digits engine 0 15 3
  let w := w.text "-"
  let w := w.digits engine 0 15 12
  (w.ss, w.gen)

/-- `EventPublisher::generateEventId`. -/
def generateEventId (gen : G) : Bytes × G := generateUUID engine gen

end

/-! ## What an id looks like -/

/-- A version 4 UUID, in lower case. -/
def IsUuid4 (text : Bytes) : Prop :=
  text.length = 36 ∧ ∀ (i : Nat) (h : i < text.length),
    text[i] ∈ literal
      (if i ∈ [8, 13, 18, 23] then "-" else if i = 14 then "4" else if i = 19 then "89ab" else "0123456789abcdef")

instance (text : Bytes) : Decidable (IsUuid4 text) := inferInstanceAs (Decidable (_ ∧ _))

/-- The digit of a number below 16. -/
def digit (n : Nat) : UInt8 := (literal "0123456789abcdef").getD n 0

theorem hex_eq {n : Nat} (h : n ≤ 15) : hex n = [digit n] := by
  interval_cases n <;> decide

theorem digit_inj (n m : Nat) (hn : n ≤ 15) (hm : m ≤ 15) (h : digit n = digit m) : n = m := by
  have hall : ∀ n < 16, ∀ m < 16, digit n = digit m → n = m := by decide
  exact hall n (by omega) m (by omega) h

def dash : Slot UInt8 := .fixed 45

/-- The version, a `4`. -/
def version : Slot UInt8 := .fixed 52

/-- The places that a loop writes. -/
def places (lo hi count : Nat) : List (Slot UInt8) := List.replicate count (.drawn lo hi)

/-- The places of an id. -/
def uuidSlots : List (Slot UInt8) :=
  places 0 15 8 ++ ([dash] ++ (places 0 15 4 ++ ([dash, version] ++ (places 0 15 3 ++ ([dash] ++ (places 8 11 1 ++
    (places 0 15 3 ++ ([dash] ++ places 0 15 12))))))))

theorem uuidSlots_drawn : ∀ lo hi, Slot.drawn lo hi ∈ uuidSlots → lo ≤ hi ∧ hi ≤ 15 := by
  have hall : ∀ slot ∈ uuidSlots, ∀ lo hi, slot = .drawn lo hi → lo ≤ hi ∧ hi ≤ 15 := by
    simp [uuidSlots, places, dash, version]
  intro lo hi hmem
  exact hall _ hmem lo hi rfl

theorem uuidSlots_sound : Sound uuidSlots := fun lo hi hmem => (uuidSlots_drawn lo hi hmem).1

section
variable {G : Type} {engine : Engine G}

theorem Writing.digits_eq {lo hi : Nat} (hle : lo ≤ hi) (hhi : hi ≤ 15) (w : Writing G) (count : Nat) :
    w.digits engine lo hi count =
      ⟨w.ss ++ (emit digit engine (places lo hi count) w.gen).1, (emit digit engine (places lo hi count) w.gen).2⟩ := by
  induction count generalizing w with
  | zero => simp [Writing.digits, places, emit]
  | succ count ih =>
    have hbounds := engine.bounded w.gen hle
    have hplaces : places lo hi (count + 1) = .drawn lo hi :: places lo hi count := List.replicate_succ
    simp only [Writing.digits, hplaces, emit]
    rw [ih, hex_eq (Nat.le_trans hbounds.2 hhi), List.append_assoc]
    rfl

/-- An id is the template filled in by the engine. -/
theorem generateUUID_eq (gen : G) : generateUUID engine gen = emit digit engine uuidSlots gen := by
  simp only [generateUUID, Writing.digits_eq, Writing.text, le_refl, Nat.reduceLeDiff, Nat.zero_le]
  simp only [uuidSlots, emit_append]
  simp [emit, dash, version, literal]

/-- The numbers drawn for an id. -/
def numbers (engine : Engine G) (gen : G) : List Nat := draws engine uuidSlots gen

theorem generateUUID_fill (gen : G) : (generateUUID engine gen).1 = fill digit uuidSlots (numbers engine gen) := by
  rw [generateUUID_eq, emit_eq_fill]
  rfl

theorem generateUUID_inj (gen gen' : G) :
    (generateUUID engine gen).1 = (generateUUID engine gen').1 ↔ numbers engine gen = numbers engine gen' := by
  rw [generateUUID_fill, generateUUID_fill]
  refine ⟨?_, ?_⟩
  · intro h
    exact fill_inj digit_inj (fun lo hi hmem => (uuidSlots_drawn lo hi hmem).2)
      (draws_answer uuidSlots_sound gen) (draws_answer uuidSlots_sound gen') h
  · intro h
    rw [h]

end

theorem uuidSlots_letters : ∀ i : Fin uuidSlots.length, (uuidSlots.get i).letters digit = literal (
    if i.1 ∈ [8, 13, 18, 23] then "-" else if i.1 = 14 then "4" else if i.1 = 19 then "89ab" else "0123456789abcdef") := by
  decide +kernel

theorem isUuid4_iff (text : Bytes) : IsUuid4 text ↔ List.Forall₂ (Slot.Fits digit) uuidSlots text := by
  have hletters (i : Nat) (hi : i < uuidSlots.length) (b : UInt8) : (uuidSlots.get ⟨i, hi⟩).Fits digit b ↔
      b ∈ literal (if i ∈ [8, 13, 18, 23] then "-" else if i = 14 then "4" else if i = 19 then "89ab"
        else "0123456789abcdef") := by
    rw [Slot.fits_iff, uuidSlots_letters ⟨i, hi⟩]
  rw [List.forall₂_iff_get, IsUuid4]
  refine ⟨?_, ?_⟩
  · rintro ⟨hlength, h⟩
    exact ⟨hlength.symm, fun i hi hi' => (hletters i hi _).mpr (h i hi')⟩
  · rintro ⟨hlength, h⟩
    exact ⟨hlength.symm, fun i hi => (hletters i (by omega) _).mp (h i (by omega) hi)⟩

/-- **What an id can be**: the texts that `generateUUID` writes, with any engine that keeps
to the bounds, are the version 4 UUIDs. -/
theorem generateUUID_exact (text : Bytes) :
    IsUuid4 text ↔ ∃ (G : Type) (engine : Engine G) (gen : G), (generateUUID engine gen).1 = text := by
  rw [isUuid4_iff]
  refine ⟨?_, ?_⟩
  · intro h
    obtain ⟨ns, hns, hfill⟩ := fits_fill h
    refine ⟨List Nat, Engine.script, ns, ?_⟩
    rw [generateUUID_fill, numbers, draws_script hns, hfill]
  · rintro ⟨G, engine, gen, rfl⟩
    rw [generateUUID_fill]
    exact fill_fits (draws_answer uuidSlots_sound gen)

/-- An engine that counts. -/
def counting : Engine Nat where
  draw := fun lo hi n => (lo + n % (hi + 1 - lo), n + 1)
  bounded := fun {lo hi} n h => by
    have hlt : n % (hi + 1 - lo) < hi + 1 - lo := Nat.mod_lt _ (by omega)
    exact ⟨by simp, by show lo + n % (hi + 1 - lo) ≤ hi; omega⟩

example : (generateUUID counting 0).1 = literal "01234567-89ab-4cde-b012-3456789abcde" := by decide +kernel

end Icecap.Core

namespace Icecap
open Icecap.Core Icecap.Transport TextTemplate StepRun

/-! ## The ids in a run of the agent -/

/-- How the processing of a command ends: `processCommand` returns, or an exception leaves
it after the event was enqueued, after its id was drawn, or before that. -/
inductive Ending where
  | returned
  | enqueued
  | drew
  | early
  deriving DecidableEq, Repr

/-- The step of the render thread that the ending is. -/
def Ending.act (game : GameFunctions) (eventId : Bytes) : Ending → RenderAct
  | .returned => .returns game eventId
  | .enqueued => .throws game eventId true
  | .drew | .early => .throws game eventId false

/-- The agent and the engine of its ids. -/
structure Drawing (G : Type) where
  agent : Agent
  gen : G

inductive DrawingAct where
  | ends (game : GameFunctions) (ending : Ending)
  | other (a : AgentAct)

/-- The command in process is answered with an event. -/
def Agent.answers (s : Agent) (game : GameFunctions) (eventId : Bytes) : Bool :=
  s.render.current.any fun command => !(verdictOf game eventId command).isEmpty

section
variable {G : Type} (engine : Engine G) (parse : Bytes → Option IncomingMessage)
  (serialize : OutgoingMessage → Option Bytes)

/-- A step of the agent that draws the id of an event where it creates one. -/
def drawingStep (s : Drawing G) : DrawingAct → Option (Drawing G)
  | .ends game ending =>
    let (eventId, gen) := generateEventId engine s.gen
    (agentStep parse serialize s.agent (.render (ending.act game eventId))).map fun agent =>
      ⟨agent, if s.agent.answers game eventId && ending != .early then gen else s.gen⟩
  | .other a =>
    if a.outcome.isSome then none else (agentStep parse serialize s.agent a).map fun agent => ⟨agent, s.gen⟩

/-- The engine after the ids of `n` events. -/
def genAfter (gen : G) (n : Nat) : G := (fun gen => (generateEventId engine gen).2)^[n] gen

/-- The ids that the engine gives, one after the other. -/
def eventIds (gen : G) (n : Nat) : List Bytes :=
  (List.range n).map fun i => (generateEventId engine (genAfter engine gen i)).1

end

section
variable {G : Type} {engine : Engine G} {parse : Bytes → Option IncomingMessage}
  {serialize : OutgoingMessage → Option Bytes} {s s' : Drawing G} {gen : G}

/-- The ids of the events are ids drawn in that order, and as many were drawn. -/
def Drawing.Drew (engine : Engine G) (gen : G) (s : Drawing G) : Prop :=
  ∃ n, s.gen = genAfter engine gen n ∧ (s.agent.appended.map (·.id)).Sublist (eventIds engine gen n)

theorem eventIds_succ (n : Nat) :
    eventIds engine gen (n + 1) = eventIds engine gen n ++ [(generateEventId engine (genAfter engine gen n)).1] := by
  simp [eventIds, List.range_succ]

theorem genAfter_succ (n : Nat) : genAfter engine gen (n + 1) = (generateEventId engine (genAfter engine gen n)).2 :=
  Function.iterate_succ_apply' _ n gen

theorem verdictOf_id (game : GameFunctions) (eventId : Bytes) (command : IncomingMessage) :
    verdictOf game eventId command = [] ∨ ∃ event, verdictOf game eventId command = [event] ∧ event.id = eventId := by
  by_cases h : Answerable command
  · unfold Answerable at h
    right
    cases ht : command.type with
    | luaExecute =>
      simp only [ht, Option.isSome_iff_exists] at h
      obtain ⟨payload, hp⟩ := h
      exact ⟨_, by rw [verdictOf, processCommand_luaExecute ht hp]; rfl, rfl⟩
    | luaReadVariable =>
      simp only [ht, Option.isSome_iff_exists] at h
      obtain ⟨payload, hp⟩ := h
      exact ⟨_, by rw [verdictOf, processCommand_luaReadVariable ht hp]; rfl, rfl⟩
    | clickToMove =>
      simp only [ht, Option.isSome_iff_exists] at h
      obtain ⟨payload, hp, haddress, position, hposition⟩ := h
      exact ⟨_, by rw [verdictOf, processCommand_clickToMove ht hp haddress hposition]; rfl, rfl⟩
    | other value => simp [ht] at h
  · exact .inl (by rw [verdictOf, processCommand_unanswerable h])

theorem renderStep_ends {s s' : Agent} {game : GameFunctions} {eventId : Bytes} {ending : Ending}
    (h : renderStep s (ending.act game eventId) = some s') :
    ∃ events, s'.appended = s.appended ++ events ∧
      (events = [] ∨ s.answers game eventId = true ∧ ending ≠ .early ∧ events.map (·.id) = [eventId]) := by
  have hends (command : IncomingMessage) (work : Processing) (hpc : s.render = .processing command)
      (hearly : ending ≠ .early) (hwork : work.outbox = s.work.outbox ++ verdictOf game eventId command) :
      ∃ events, (s.afterProcessing work).appended = s.appended ++ events ∧
        (events = [] ∨ s.answers game eventId = true ∧ ending ≠ .early ∧ events.map (·.id) = [eventId]) := by
    refine ⟨verdictOf game eventId command, ?_, ?_⟩
    · simp only [Agent.afterProcessing, hwork, List.drop_left]
    · rcases verdictOf_id game eventId command with hnone | ⟨event, hevent, hid⟩
      · exact .inl hnone
      · refine .inr ⟨?_, hearly, ?_⟩
        · simp [Agent.answers, hpc, RenderPc.current, hevent]
        · rw [hevent, List.map_singleton, hid]
  cases ending <;> simp only [Ending.act, renderStep] at h <;> split at h <;> try simp at h
  all_goals
    rename_i command hpc
    subst h
  · exact hends command _ hpc (by decide) processCommand_verdict
  · exact hends command _ hpc (by decide) processCommand_verdict
  · exact ⟨[], by simp [Agent.afterProcessing], .inl rfl⟩
  · exact ⟨[], by simp [Agent.afterProcessing], .inl rfl⟩

theorem agentStep_appended {s s' : Agent} {a : AgentAct} (h : agentStep parse serialize s a = some s')
    (ha : a.outcome = none) : s'.appended = s.appended := by
  cases a with
  | server a =>
    obtain ⟨server, -, rfl⟩ := agentStep_server h
    obtain ⟨wire, torn, hopen⟩ := s.openWire_eq a
    rw [hopen]
  | render a =>
    cases a with
    | endScene =>
      simp only [agentStep, renderStep] at h
      split at h
      · simp at h
      · obtain rfl := Option.some.inj h
        rfl
      · obtain rfl := Option.some.inj h
        rfl
    | returns game eventId => simp [AgentAct.outcome] at ha
    | throws game eventId enqueued => simp [AgentAct.outcome] at ha
  | getNext =>
    simp only [agentStep] at h
    split at h <;> obtain rfl := Option.some.inj h <;> rfl
  | outgoing a => exact (outgoingStep_frame h).appended

theorem drawingStep_drew {a : DrawingAct} (h : s.Drew engine gen)
    (hs : drawingStep engine parse serialize s a = some s') : s'.Drew engine gen := by
  obtain ⟨n, hgen, hids⟩ := h
  cases a with
  | ends game ending =>
    simp only [drawingStep, Option.map_eq_some_iff] at hs
    obtain ⟨agent, hstep, rfl⟩ := hs
    obtain ⟨events, happended, hcreated⟩ := renderStep_ends hstep
    by_cases hdrawn : (s.agent.answers game (generateEventId engine s.gen).1 && ending != .early) = true
    · -- one id more was drawn, whether or not its event was enqueued
      refine ⟨n + 1, ?_, ?_⟩
      · rw [genAfter_succ, ← hgen]
        exact if_pos hdrawn
      · show (agent.appended.map (·.id)).Sublist _
        rw [happended, List.map_append, eventIds_succ]
        apply hids.append
        rcases hcreated with rfl | ⟨-, -, hid⟩
        · exact List.nil_sublist _
        · rw [hid, hgen]
    · refine ⟨n, ?_, ?_⟩
      · rw [← hgen]
        exact if_neg hdrawn
      · rcases hcreated with rfl | ⟨hanswers, hearly, -⟩
        · show (agent.appended.map (·.id)).Sublist _
          rw [happended, List.append_nil]
          exact hids
        · exact absurd (by simp [hanswers, hearly]) hdrawn
  | other a =>
    simp only [drawingStep, Option.ite_none_left_eq_some, Option.map_eq_some_iff] at hs
    obtain ⟨hother, agent, hstep, rfl⟩ := hs
    refine ⟨n, hgen, ?_⟩
    show (agent.appended.map (·.id)).Sublist _
    rw [agentStep_appended hstep (by simpa using hother)]
    exact hids

theorem drawingStep_agent {a : DrawingAct} (hs : drawingStep engine parse serialize s a = some s') :
    ∃ b, agentStep parse serialize s.agent b = some s'.agent := by
  cases a with
  | ends game ending =>
    simp only [drawingStep, Option.map_eq_some_iff] at hs
    obtain ⟨agent, hstep, rfl⟩ := hs
    exact ⟨_, hstep⟩
  | other a =>
    simp only [drawingStep, Option.ite_none_left_eq_some, Option.map_eq_some_iff] at hs
    obtain ⟨-, agent, hstep, rfl⟩ := hs
    exact ⟨a, hstep⟩

theorem agent_of_drawing {acts : List DrawingAct} {t : Drawing G}
    (hrun : run (drawingStep engine parse serialize) s acts = some t) :
    ∃ as, run (agentStep parse serialize) s.agent as = some t.agent := by
  have hstep : ∀ s a s' (q : Agent), s.agent = q → drawingStep engine parse serialize s a = some s' →
      ∃ as q', run (agentStep parse serialize) q as = some q' ∧ s'.agent = q' := by
    rintro s a s' q rfl hs
    obtain ⟨b, hb⟩ := drawingStep_agent hs
    exact ⟨[b], s'.agent, run_cons.mpr ⟨_, hb, rfl⟩, rfl⟩
  obtain ⟨as, q, has, rfl⟩ := run_simulation (R := fun (s : Drawing G) q => s.agent = q) hstep hrun rfl
  exact ⟨as, has⟩

/-- Ids that were drawn in order are as different as the numbers they were drawn from. -/
theorem eventIds_nodup {n : Nat} (h : ((List.range n).map fun i => numbers engine (genAfter engine gen i)).Nodup) :
    (eventIds engine gen n).Nodup := by
  apply List.nodup_range.map_on
  intro i hi j hj hij
  exact List.inj_on_of_nodup_map h hi hj ((generateUUID_inj _ _).mp hij)

theorem isUuid4_of_mem_eventIds {n : Nat} {eventId : Bytes} (h : eventId ∈ eventIds engine gen n) :
    IsUuid4 eventId := by
  simp only [eventIds, List.mem_map] at h
  obtain ⟨i, -, rfl⟩ := h
  rw [isUuid4_iff, generateEventId, generateUUID_fill]
  exact fill_fits (draws_answer uuidSlots_sound _)

end

/-- **The ids of the events**: a run that draws its ids is one of the agent, and in every
interleaving, with every behaviour of the game and every engine, the events appended to the
outbox have ids that the engine gave, in that order; each is a version 4 UUID, and no two
are equal unless the engine gave the same 31 numbers for two ids. -/
theorem event_ids {G : Type} (engine : Engine G) (parse : Bytes → Option IncomingMessage)
    (serialize : OutgoingMessage → Option Bytes) (tcp : TcpServer) (manager : NetworkManager) (gen : G)
    {acts : List DrawingAct} {t : Drawing G}
    (hrun : run (drawingStep engine parse serialize) ⟨.boot tcp manager, gen⟩ acts = some t) :
    (∃ as, run (agentStep parse serialize) (.boot tcp manager) as = some t.agent) ∧
    ∃ n, (t.agent.appended.map (·.id)).Sublist (eventIds engine gen n) ∧
      (∀ event ∈ t.agent.appended, IsUuid4 event.id) ∧
      (((List.range n).map fun i => numbers engine (genAfter engine gen i)).Nodup →
        (t.agent.appended.map (·.id)).Nodup) := by
  have hstep : ∀ s a s', Drawing.Drew engine gen s → drawingStep engine parse serialize s a = some s' →
      Drawing.Drew engine gen s' := by
    intro s a s' h hs
    exact drawingStep_drew h hs
  have hboot : Drawing.Drew engine gen ⟨.boot tcp manager, gen⟩ := ⟨0, rfl, List.nil_sublist _⟩
  obtain ⟨n, -, hids⟩ := run_invariant hstep hrun hboot
  refine ⟨agent_of_drawing hrun, n, hids, ?_, ?_⟩
  · intro event hevent
    exact isUuid4_of_mem_eventIds (hids.subset (List.mem_map_of_mem hevent))
  · intro hnodup
    exact hids.nodup (eventIds_nodup hnodup)

theorem event_ids_two_frames :
    ∃ t, run (drawingStep counting luaFrame operationOnly) ⟨.boot .listening .started, 0⟩
        (twoFrames.map .other ++ [.other (.render .endScene), .ends obligingGame .returned,
          .other (.render .endScene), .ends obligingGame .returned]) = some t ∧
      (∃ as, run (agentStep luaFrame operationOnly) (.boot .listening .started) as = some t.agent) ∧
      ∃ n, (t.agent.appended.map (·.id)).Sublist (eventIds counting 0 n) ∧
        (∀ event ∈ t.agent.appended, IsUuid4 event.id) ∧
        (((List.range n).map fun i => numbers counting (genAfter counting 0 i)).Nodup →
          (t.agent.appended.map (·.id)).Nodup) := by
  have hsome : (run (drawingStep counting luaFrame operationOnly) ⟨.boot .listening .started, 0⟩
      (twoFrames.map .other ++ [.other (.render .endScene), .ends obligingGame .returned,
        .other (.render .endScene), .ends obligingGame .returned])).isSome = true := by decide +kernel
  obtain ⟨t, hrun⟩ := Option.isSome_iff_exists.mp hsome
  exact ⟨t, hrun, event_ids counting luaFrame operationOnly .listening .started 0 hrun⟩

end Icecap
