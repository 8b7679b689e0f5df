import IcecapAgent.Agent

/- `TcpServer::sendData` as a whole: the loop around `send`.

   The loop counts in an `int` and compares with `static_cast<int>(length)`, which is
   negative for a length of `2^31` or more: then the loop is not entered and the call
   returns true, with nothing sent. Below that, every pattern of partial sends ends with
   exact accounts.

   What `send` answers is a function of how often it was called before and of the number
   of bytes it is asked to take. A loop may run for ever, so it is given fuel, and it is
   shown to need no more than one turn for each byte.

   1. `sendData_exact_iff` — `sendData` keeps exact accounts exactly for lengths below
      `2^31`;
   2. `sendLoop_run` — the outgoing thread runs this loop. -/
namespace Icecap
open Icecap.Core Icecap.Transport StepRun

/-- How a call of `sendData` ended: what it returned, the bytes that were accepted, in
order, and what `send` answered. -/
structure SendOutcome where
  result : Bool
  accepted : Bytes
  answers : List SendResult
  deriving DecidableEq, Repr

/-- The loop of `sendData`. -/
def sendLoop (send : Nat → Int → SendResult) (data : Bytes) : Nat → Nat → Nat → Option SendOutcome
  | 0, _, _ => none
  | fuel + 1, calls, totalSent =>
    if sendsMore data.length totalSent then
      match send calls (sendRequest data.length totalSent) with
      | .socketError => some ⟨false, [], [.socketError]⟩
      | .sent count =>
        (sendLoop send data fuel (calls + 1) (totalSent + count)).map fun o =>
          ⟨o.result, (data.drop totalSent).take count ++ o.accepted, .sent count :: o.answers⟩
    else some ⟨true, [], []⟩

/-- `TcpServer::sendData`; the buffer is `none` when its pointer is null. -/
def sendData (send : Nat → Int → SendResult) (fuel : Nat) (clientSocket : Socket) (data : Option Bytes) :
    Option SendOutcome :=
  match data with
  | none => some ⟨false, [], []⟩
  | some data =>
    if clientSocket = invalidSocket ∨ data.length = 0 then some ⟨false, [], []⟩ else sendLoop send data fuel 0 0

/-- `send` answers `SOCKET_ERROR`, or a count between 1 and the number of bytes it was
asked to take. -/
def ValidSend (send : Nat → Int → SendResult) : Prop :=
  ∀ calls request count, send calls request = .sent count → 0 < count ∧ (count : Int) ≤ request

/-- The call ends, after at most one turn for each byte; the bytes accepted are the first
`k` of the buffer; it returns true exactly when these are all, and false exactly when a
`send` failed. -/
def SendsExactly (send : Nat → Int → SendResult) (clientSocket : Socket) (data : Bytes) : Prop :=
  ∃ o, (∀ fuel, data.length < fuel → sendData send fuel clientSocket (some data) = some o) ∧
    ∃ k, k ≤ data.length ∧ o.accepted = data.take k ∧ (o.result = true ↔ k = data.length) ∧
      (o.result = false ↔ .socketError ∈ o.answers)

/-! ## Below the sign boundary -/

section
variable {send : Nat → Int → SendResult} {data : Bytes}

theorem sendLoop_exact (hsend : ValidSend send) (hdata : data.length ≤ maxSize) {fuel : Nat} (calls : Nat)
    {totalSent : Nat} (htotal : totalSent ≤ data.length) (hfuel : data.length - totalSent < fuel) :
    ∃ o k, sendLoop send data fuel calls totalSent = some o ∧ totalSent ≤ k ∧ k ≤ data.length ∧
      o.accepted = (data.drop totalSent).take (k - totalSent) ∧ (o.result = true ↔ k = data.length) ∧
      (o.result = false ↔ .socketError ∈ o.answers) := by
  induction fuel generalizing calls totalSent with
  | zero => omega
  | succ fuel ih =>
    rw [sendLoop]
    by_cases hmore : totalSent < data.length
    · rw [if_pos ((sendsMore_iff hdata).mpr hmore), sendRequest_eq hdata]
      cases hanswer : send calls (data.length - totalSent : Nat) with
      | socketError => exact ⟨_, totalSent, rfl, by omega, htotal, by simp, by simp; omega, by simp⟩
      | sent count =>
        obtain ⟨hpos, hcount⟩ := hsend _ _ _ hanswer
        have hcount : count ≤ data.length - totalSent := by exact_mod_cast hcount
        obtain ⟨o, k, hrun, hlow, hhigh, haccepted, htrue, hfalse⟩ :=
          ih (calls + 1) (show totalSent + count ≤ data.length by omega) (by omega)
        dsimp only
        rw [hrun, Option.map_some]
        -- what was accepted now, and then what the rest of the loop gets accepted
        refine ⟨_, k, rfl, by omega, hhigh, ?_, htrue, by simpa using hfalse⟩
        dsimp only
        rw [haccepted, ← List.drop_drop, ← List.take_add]
        congr 1
        omega
    · rw [if_neg (by rw [sendsMore_iff hdata]; exact hmore)]
      obtain rfl : totalSent = data.length := by omega
      exact ⟨_, data.length, rfl, by omega, by omega, by simp, by simp, by simp⟩

theorem sendLoop_mono {fuel fuel' calls totalSent : Nat} {o : SendOutcome}
    (h : sendLoop send data fuel calls totalSent = some o) (hle : fuel ≤ fuel') :
    sendLoop send data fuel' calls totalSent = some o := by
  induction fuel generalizing fuel' calls totalSent o with
  | zero => simp [sendLoop] at h
  | succ fuel ih =>
    obtain ⟨fuel', rfl⟩ : ∃ n, fuel' = n + 1 := ⟨fuel' - 1, by omega⟩
    rw [sendLoop] at h ⊢
    split
    · rename_i hmore
      rw [if_pos hmore] at h
      cases hanswer : send calls (sendRequest data.length totalSent) with
      | socketError => simpa [hanswer] using h
      | sent count =>
        simp only [hanswer] at h ⊢
        obtain ⟨o', hrun, rfl⟩ := Option.map_eq_some_iff.mp h
        rw [ih hrun (by omega)]
        rfl
    · rename_i hmore
      rwa [if_neg hmore] at h

/-! ## At and above it -/

/-- A length of `2^31` or more is negative as an `int`, so the loop has nothing to do. -/
theorem sendsMore_of_large (hlow : maxSize < data.length) (hhigh : data.length < 2^32) (totalSent : Nat) :
    sendsMore data.length totalSent = false := by
  have hneg : toInt data.length < 0 := by
    unfold toInt maxSize at *
    rw [Int.bmod_def]
    omega
  simp only [sendsMore, decide_eq_false_iff_not]
  omega

theorem sendLoop_of_large (hlow : maxSize < data.length) (hhigh : data.length < 2^32) (fuel calls totalSent : Nat) :
    sendLoop send data (fuel + 1) calls totalSent = some ⟨true, [], []⟩ := by
  rw [sendLoop, sendsMore_of_large hlow hhigh, if_neg (by simp)]

/-! ## The outgoing thread runs the loop -/

variable {parse : Bytes → Option IncomingMessage} {serialize : OutgoingMessage → Option Bytes}

/-- The steps of a call of `sendData`: its answers, and the return after the last one. -/
def SendOutcome.acts (o : SendOutcome) : List AgentAct :=
  o.answers.map (fun a => .outgoing (.send a)) ++ if o.result then [.outgoing .go] else []

/-- From inside `sendData` the outgoing thread goes through the loop, and records what
the loop returns. -/
theorem sendLoop_run (hsend : ValidSend send) {event : OutgoingMessage} {rest : List OutgoingMessage}
    {socket : Socket} {fuel calls totalSent : Nat} {o : SendOutcome} {s : Agent}
    (hloop : sendLoop send data fuel calls totalSent = some o)
    (hpc : s.outgoing = .sending event rest socket data totalSent) :
    ∃ t, run (agentStep parse serialize) s o.acts = some t ∧ t.outgoing = .draining rest ∧
      t.sendCalls = s.sendCalls ++ [⟨event, socket, s.accepted ++ o.accepted, o.result⟩] := by
  induction fuel generalizing calls totalSent o s with
  | zero => simp [sendLoop] at hloop
  | succ fuel ih =>
    rw [sendLoop] at hloop
    by_cases hmore : sendsMore data.length totalSent = true
    · rw [if_pos hmore] at hloop
      cases hanswer : send calls (sendRequest data.length totalSent) with
      | socketError =>
        rw [hanswer] at hloop
        obtain rfl := Option.some.inj hloop
        have hstep : agentStep parse serialize s (.outgoing (.send .socketError)) =
            some { s.afterSendData event rest socket false with
              torn := if totalSent = 0 then s.torn else Function.update s.torn socket true } := by
          unfold agentStep outgoingStep
          rw [hpc]
          exact if_pos hmore
        exact ⟨_, run_cons.mpr ⟨_, hstep, rfl⟩, rfl, by simp [Agent.afterSendData]⟩
      | sent count =>
        rw [hanswer] at hloop
        obtain ⟨o', hrest, rfl⟩ := Option.map_eq_some_iff.mp hloop
        have hcount := hsend _ _ _ hanswer
        have hstep : agentStep parse serialize s (.outgoing (.send (.sent count))) =
            some { s with
              outgoing := .sending event rest socket data (totalSent + count)
              accepted := s.accepted ++ (data.drop totalSent).take count
              wire := Function.update s.wire socket (s.wire socket ++ (data.drop totalSent).take count) } := by
          unfold agentStep outgoingStep
          rw [hpc]
          dsimp only
          rw [if_pos hmore, sendTurn, if_pos hcount]
        obtain ⟨t, hrun, hout, hcalls⟩ := ih hrest (s := { s with
          outgoing := .sending event rest socket data (totalSent + count)
          accepted := s.accepted ++ (data.drop totalSent).take count
          wire := Function.update s.wire socket (s.wire socket ++ (data.drop totalSent).take count) }) rfl
        refine ⟨t, run_cons.mpr ⟨_, hstep, hrun⟩, hout, ?_⟩
        rw [hcalls, List.append_assoc]
    · rw [if_neg hmore] at hloop
      obtain rfl := Option.some.inj hloop
      have hstep : agentStep parse serialize s (.outgoing .go) = some (s.afterSendData event rest socket true) := by
        unfold agentStep outgoingStep
        rw [hpc]
        exact if_neg hmore
      exact ⟨_, run_cons.mpr ⟨_, hstep, rfl⟩, rfl, by simp [Agent.afterSendData]⟩

end

/-! ## The results -/

section
variable {send : Nat → Int → SendResult} {socket : Socket} {data : Bytes}

theorem sendData_eq (send : Nat → Int → SendResult) (fuel : Nat) (hsocket : socket ≠ invalidSocket)
    (hpos : 0 < data.length) : sendData send fuel socket (some data) = sendLoop send data fuel 0 0 := by
  rw [sendData, if_neg (by simp only [hsocket, false_or]; omega)]

theorem not_sendsExactly_of_large (hsocket : socket ≠ invalidSocket) (hlow : maxSize < data.length)
    (hhigh : data.length < 2^32) : ¬ SendsExactly send socket data := by
  rintro ⟨o, hruns, k, hk, haccepted, htrue, -⟩
  have hrun := hruns (data.length + 1) (by omega)
  rw [sendData_eq send _ hsocket (by omega), sendLoop_of_large hlow hhigh] at hrun
  obtain rfl := Option.some.inj hrun
  -- it returned true, so it should have sent everything
  have hall : k = data.length := htrue.mp rfl
  rw [hall, List.take_length] at haccepted
  have hnone : data.length = 0 := by rw [← haccepted]; rfl
  omega

/-- **`sendData` is exact** exactly for lengths that an `int` can hold. -/
theorem sendData_exact_iff (hsend : ValidSend send) (hsocket : socket ≠ invalidSocket) (hpos : 0 < data.length)
    (hsize : data.length < 2^32) : SendsExactly send socket data ↔ data.length < 2^31 := by
  refine ⟨?_, ?_⟩
  · intro hexact
    by_contra hlarge
    exact not_sendsExactly_of_large hsocket (by unfold maxSize; omega) hsize hexact
  · intro hsmall
    have hdata : data.length ≤ maxSize := by unfold maxSize; omega
    obtain ⟨o, k, hrun, -, hk, haccepted, htrue, hfalse⟩ :=
      sendLoop_exact hsend hdata 0 (Nat.zero_le _) (Nat.lt_succ_self _)
    refine ⟨o, fun fuel hfuel => ?_, k, hk, by simpa using haccepted, htrue, hfalse⟩
    rw [sendData_eq send _ hsocket hpos]
    exact sendLoop_mono hrun (by omega)

end

/-- `send` takes one byte at a time, and fails at the third call. -/
def trickle : Nat → Int → SendResult := fun calls request =>
  if calls = 2 ∨ request ≤ 0 then .socketError else .sent 1

theorem trickle_valid : ValidSend trickle := by
  intro calls request count h
  unfold trickle at h
  split at h
  · simp at h
  · obtain rfl := SendResult.sent.inj h
    omega

theorem sendData_exact_iff_three : SendsExactly trickle 5 [1, 2, 3] ↔ ([1, 2, 3] : Bytes).length < 2^31 :=
  sendData_exact_iff trickle_valid (by decide) (by decide) (by decide)

/-- **Two gigabytes are reported as sent**, and no byte of them was. -/
theorem sendData_inexact :
    ¬ ∀ send socket (data : Bytes), ValidSend send → socket ≠ invalidSocket → 0 < data.length →
      data.length < 2^32 → SendsExactly send socket data := by
  intro h
  have hlength : (List.replicate (2^31) 0 : Bytes).length = 2^31 := List.length_replicate
  have hexact := h trickle 5 (List.replicate (2^31) 0) trickle_valid (by decide)
    (by rw [hlength]; decide) (by rw [hlength]; decide)
  exact not_sendsExactly_of_large (by decide) (by rw [hlength]; decide) (by rw [hlength]; decide) hexact

end Icecap
