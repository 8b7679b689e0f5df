import IcecapAgent.Messages

/- The executor calls functions of the game through fixed addresses. What they
   do is a parameter of the model (`GameFunctions`): they may return any value or
   leave by a C++ exception, which the executor catches. An executor function
   returns its result and the calls it made, in order; a string argument is
   recorded as the callee sees it, the bytes up to the first NUL. -/
namespace Icecap.Core

/-- A call of a game function, with its arguments. -/
inductive GameCall where
  | dostring (script scriptName : Bytes)
  | getText (text : Bytes)
  | clickToMove (self : UInt32) (clickType : Int) (interactGuid : Bytes) (clickPos : List UInt32)
      (precision : UInt32)
  deriving DecidableEq, Repr

/-- The behaviour of the game functions; `none` is an exception. The pointer
`GetText` returns is null or points to some memory. -/
structure GameFunctions where
  dostring : Bytes → Bytes → Option Int
  getText : Bytes → Option (Option Bytes)
  clickToMove : UInt32 → Int → Bytes → List UInt32 → UInt32 → Option Bool

/-- A game in which every call succeeds. -/
def obligingGame : GameFunctions := ⟨fun _ _ => some 0, fun _ => some none, fun _ _ _ _ _ => some true⟩

variable (game : GameFunctions)

/-- `CommandExecutor::executeLuaCode`. -/
def executeLuaCode (code scriptName : Bytes) : Bool × List GameCall :=
  if code.isEmpty then (false, [])
  else
    let calls := [.dostring (cStr code) (cStr scriptName)]
    match game.dostring (cStr code) (cStr scriptName) with
    | some result => if result == 0 then (true, calls) else (false, calls)
    | none => (false, calls)

/-- `CommandExecutor::readLuaVariable`. -/
def readLuaVariable (variableName : Bytes) : Bytes × List GameCall :=
  if variableName.isEmpty then ([], [])
  else
    let calls := [.getText (cStr variableName)]
    match game.getText (cStr variableName) with
    | some (some memory) => (cStr memory, calls)
    | some none => ([], calls)
    | none => ([], calls)

/-- The `pos` array of `executeClickToMove`. -/
def clickPos (position : Position) : List UInt32 := [position.y, position.x, position.z]

/-- The zeroed `guidBuf` of `executeClickToMove`. -/
def guidBuf : Bytes := List.replicate 32 0

/-- `CommandExecutor::executeClickToMove`. -/
def executeClickToMove (playerBaseAddress : UInt32) (position : Position) (action : Int) (precision : UInt32) :
    Bool × List GameCall :=
  if playerBaseAddress == 0 then (false, [])
  else
    let calls := [.clickToMove playerBaseAddress action guidBuf (clickPos position) precision]
    match game.clickToMove playerBaseAddress action guidBuf (clickPos position) precision with
    | some result => (result, calls)
    | none => (false, calls)

/-! ## What the executor reports -/

variable {game}

/-- Success means that the code was not empty and `Dostring` returned zero; then it
was called once, with the code up to its first NUL. -/
theorem executeLuaCode_success {code scriptName : Bytes} :
    (executeLuaCode game code scriptName).1 = true ↔
      code ≠ [] ∧ game.dostring (cStr code) (cStr scriptName) = some 0 := by
  simp only [executeLuaCode]
  cases code with
  | nil => simp
  | cons b code =>
    cases h : game.dostring (cStr (b :: code)) (cStr scriptName) with
    | none => simp
    | some result =>
      by_cases hr : result = 0
      · simp [hr]
      · simp [hr]

theorem executeLuaCode_calls {code scriptName : Bytes} (h : code ≠ []) :
    (executeLuaCode game code scriptName).2 = [.dostring (cStr code) (cStr scriptName)] := by
  unfold executeLuaCode
  rw [if_neg (by simpa using h)]
  dsimp only
  split
  · split <;> rfl
  · rfl

theorem readLuaVariable_calls {variableName : Bytes} (h : variableName ≠ []) :
    (readLuaVariable game variableName).2 = [.getText (cStr variableName)] := by
  unfold readLuaVariable
  rw [if_neg (by simpa using h)]
  dsimp only
  split <;> rfl

theorem executeClickToMove_success {address precision : UInt32} {position : Position} {action : Int} :
    (executeClickToMove game address position action precision).1 = true ↔
      address ≠ 0 ∧
        game.clickToMove address action guidBuf (clickPos position) precision = some true := by
  simp only [executeClickToMove]
  by_cases ha : address = 0
  · simp [ha]
  · simp only [beq_iff_eq, ha, if_false, not_false_eq_true, true_and, ne_eq]
    cases game.clickToMove address action guidBuf (clickPos position) precision <;> simp

end Icecap.Core
