/-
**Orders that a message opens.**

A message of the bridge makes the terminal send at most two orders: a pending order and, if the broker
refuses it, a market order in its place. The broker accepts at most one of them (`ordersOpened_le_one`).
The EA remembers no trace id, so nothing of this carries over to the next message.
-/

import ExecRelay.EA.Execute

namespace ExecRelay.EA

open Lib
open Lib.Program (Only)

variable {Number Result Value : Type} (terminal : (op : Op Number) → Answer op)

def isOpened : Op Number → Bool
  | .send order => (terminal (.send order)).done
  | _ => false

def ordersOpened (program : Terminal Number Result) : Nat :=
  (program.calls terminal).countP (isOpened terminal)

theorem ordersOpened_call (op : Op Number) (next : Answer op → Terminal Number Result) :
    ordersOpened terminal (.call op next) =
      ordersOpened terminal (next (terminal op)) + if isOpened terminal op then 1 else 0 := by
  rw [ordersOpened, Program.calls, List.countP_cons]
  rfl

theorem ordersOpened_bind_done (program : Terminal Number Value) (result : Value → Result) :
    ordersOpened terminal (program >>= fun value => pure (result value)) =
      ordersOpened terminal program := by
  induction program with
  | done value => rfl
  | fail error => exact error.elim
  | call op next ih => rw [Program.call_bind, ordersOpened_call, ordersOpened_call, ih]

/-! ### What a command calls -/

/-- A call that neither opens an order nor amends a position. -/
def isQuiet : Op Number → Bool
  | .send _ => false
  | .positionModify _ _ _ => false
  | _ => true

section Calls

variable {allowed : Op Number → Prop} (quiet : ∀ op, isQuiet op = true → allowed op)

theorem only_countDown {body : Nat → Tally → Terminal Number Tally}
    (each : ∀ index tally, (body index tally).Only allowed) :
    ∀ index tally, (countDown body index tally).Only allowed := by
  intro index
  induction index with
  | zero => exact fun _ => trivial
  | succ index ih => exact fun tally => (each index tally).bind ih

include quiet

theorem only_sendFill (traceID status orderID errCode errMsg : Bytes) :
    (sendFill traceID status orderID errCode errMsg : Terminal Number Unit).Only allowed :=
  ⟨quiet _ rfl, fun _ => trivial⟩

theorem only_closePositions (settings : Settings) (traceID sym cmd : Bytes) :
    (closePositions settings traceID sym cmd : Terminal Number Unit).Only allowed := by
  refine Only.bind (Only.perform (quiet _ rfl)) fun total => ?_
  refine Only.bind (only_countDown ?_ total {}) fun _ => only_sendFill quiet ..
  intro index tally
  refine Only.bind (Only.perform (quiet _ rfl)) fun found => ?_
  cases found with
  | none => trivial
  | some position =>
    dsimp only
    split
    · exact ⟨quiet _ rfl, fun _ => trivial⟩
    · trivial

theorem only_cancelPending (settings : Settings) (traceID sym : Bytes) :
    (cancelPending settings traceID sym : Terminal Number Unit).Only allowed := by
  refine Only.bind (Only.perform (quiet _ rfl)) fun total => ?_
  refine Only.bind (only_countDown ?_ total {}) fun _ => only_sendFill quiet ..
  intro index tally
  refine Only.bind (Only.perform (quiet _ rfl)) fun found => ?_
  cases found with
  | none => trivial
  | some order =>
    dsimp only
    split
    · exact ⟨quiet _ rfl, fun _ => trivial⟩
    · trivial

variable (doubles : Doubles Number) {request : Request Number}
  (amends : ∀ ticket (position : Position Number), allowed (.positionModify ticket
    (if doubles.lt (doubles.ofNat 0) request.sl then request.sl else position.sl)
    (if doubles.lt (doubles.ofNat 0) request.tp then request.tp else position.tp)))

include amends

theorem only_modifySLTP (settings : Settings) (traceID sym : Bytes) (want : PositionType)
    (scope : Bytes) :
    (modifySLTP doubles settings traceID sym want request.sl request.tp scope).Only allowed := by
  refine Only.bind (Only.perform (quiet _ rfl)) fun total => ?_
  refine Only.bind (only_countDown ?_ total {}) fun _ => only_sendFill quiet ..
  intro index tally
  refine Only.bind (Only.perform (quiet _ rfl)) fun found => ?_
  cases found with
  | none => trivial
  | some position =>
    dsimp only
    split
    · exact ⟨amends _ _, fun _ => trivial⟩
    · trivial

theorem only_manage (settings : Settings) (traceID cmd sym params : Bytes) :
    (manage doubles settings traceID cmd sym params request).Only allowed := by
  unfold manage
  split
  · exact only_closePositions quiet ..
  · split
    · exact only_cancelPending quiet ..
    · split
      · split
        · exact only_sendFill quiet ..
        · exact only_modifySLTP quiet doubles amends ..
      · exact only_sendFill quiet ..

end Calls

def sendsNothing : Op Number → Prop
  | .send _ => False
  | _ => True

theorem sendsNothing_of_isQuiet (op : Op Number) (quiet : isQuiet op = true) : sendsNothing op := by
  cases op <;> trivial

theorem ordersOpened_of_only {program : Terminal Number Result} (only : program.Only sendsNothing) :
    ordersOpened terminal program = 0 := by
  induction program with
  | done result => rfl
  | fail error => exact error.elim
  | call op next ih =>
    rw [ordersOpened_call, ih _ (only.2 _)]
    cases op with
    | send order => exact only.1.elim
    | _ => rfl

variable (doubles : Doubles Number)

/-! ### At most one order -/

theorem ordersOpened_send_le_one {order : Order Number}
    {next : Answer (.send order) → Terminal Number Result}
    (quiet : ∀ answer, (next answer).Only sendsNothing) :
    ordersOpened terminal (.call (.send order) next) ≤ 1 := by
  rw [ordersOpened_call, ordersOpened_of_only terminal (quiet _), Nat.zero_add]
  split <;> decide

theorem ordersOpened_openMarket (traceID : Bytes) (isBuy : Bool) (sym : Bytes)
    (request : Request Number) :
    ordersOpened terminal (openMarket doubles traceID isBuy sym request) ≤ 1 := by
  unfold openMarket
  split
  · exact Nat.zero_le 1
  · rw [Program.perform_bind]
    refine ordersOpened_send_le_one terminal fun result => ?_
    split <;> exact only_sendFill sendsNothing_of_isQuiet ..

theorem ordersOpened_fallbackMarket (traceID : Bytes) (isBuy : Bool) (sym : Bytes)
    (request : Request Number) (pendRet : Nat) :
    ordersOpened terminal (fallbackMarket doubles traceID isBuy sym request pendRet) ≤ 1 := by
  rw [fallbackMarket, Program.perform_bind]
  refine ordersOpened_send_le_one terminal fun result => ?_
  split <;> exact only_sendFill sendsNothing_of_isQuiet ..

/-- The market order of the fallback is sent only if the pending order was refused. -/
theorem ordersOpened_openPending (settings : Settings) (traceID : Bytes) (isBuy : Bool)
    (type : OrderType) (sym : Bytes) (request : Request Number) :
    ordersOpened terminal (openPending doubles settings traceID isBuy type sym request) ≤ 1 := by
  unfold openPending
  split
  · exact Nat.zero_le 1
  · rw [Program.perform_bind, ordersOpened_call]
    split
    · have tracked : ordersOpened terminal (do
          sendFill traceID (lit "placed")
            (decimal (terminal (.send (pendingOrder type sym request))).order) [] []
          invoke (.trackPending (terminal (.send (pendingOrder type sym request))).order traceID)) =
          0 :=
        ordersOpened_of_only terminal
          (Only.bind (only_sendFill sendsNothing_of_isQuiet ..) fun _ => ⟨trivial, fun _ => trivial⟩)
      rw [tracked, Nat.zero_add]
      split <;> decide
    · rename_i refused
      have nothing : isOpened terminal (.send (pendingOrder type sym request)) = false := by
        rw [isOpened]
        exact Bool.eq_false_iff.mpr refused
      rw [nothing]
      split
      · exact ordersOpened_fallbackMarket ..
      · exact Nat.zero_le 1

theorem ordersOpened_runCommand (settings : Settings) (traceID cmd sym params : Bytes)
    (request : Request Number) :
    ordersOpened terminal (runCommand doubles settings traceID cmd sym params request) ≤ 1 := by
  unfold runCommand
  split
  · exact ordersOpened_openMarket ..
  · split
    · exact ordersOpened_openPending ..
    · rw [ordersOpened_of_only terminal (only_manage sendsNothing_of_isQuiet doubles (fun _ _ => trivial) ..)]
      exact Nat.zero_le 1

theorem ordersOpened_executeSignal (settings : Settings) (traceID cmd rawSym params : Bytes) :
    ordersOpened terminal (executeSignal doubles settings traceID cmd rawSym params) ≤ 1 := by
  unfold executeSignal
  rw [Program.perform_bind, ordersOpened_call]
  split
  · exact ordersOpened_runCommand ..
  · exact Nat.zero_le 1

/-- **A message opens at most one order.** -/
theorem ordersOpened_le_one (settings : Settings) (registered : Bool) (msg : Bytes) :
    ordersOpened terminal (handleMessage doubles settings registered msg) ≤ 1 := by
  unfold handleMessage
  dsimp only
  split_ifs
  · exact Nat.zero_le 1
  · exact Nat.zero_le 1
  · rw [ordersOpened_bind_done]
    exact ordersOpened_executeSignal ..
  · exact Nat.zero_le 1
  · exact Nat.zero_le 1

end ExecRelay.EA
