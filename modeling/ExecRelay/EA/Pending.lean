/-
**Pending orders that a terminal follows** (`TrackPending`, `UntrackPending` and
`CheckPendingActivations` of both terminals).

The tickets of pending orders and the trace ids of their signals stand in two arrays of one length. A pass
goes over them from the end, reports an order that has reached its final state and fills its place with
the last order, which the pass has seen already. What `SendFill` returns is not looked at, so an order
that is reported into a lost connection is followed no more; the terminal of MT4 also drops an order that
it cannot select.
-/

import Mathlib.Data.List.Induction
import ExecRelay.EA.Execute
import ExecRelay.Lib.Machine

namespace ExecRelay.EA.Pending

open Lib

/-! ### The terminals -/

/-- `ENUM_ORDER_STATE`. -/
inductive OrderState
  | started
  | placed
  | canceled
  | partiallyFilled
  | filled
  | rejected
  | expired
  | requestAdd
  | requestModify
  | requestCancel
deriving DecidableEq

def OrderState.code : OrderState → Nat
  | .started => 0
  | .placed => 1
  | .canceled => 2
  | .partiallyFilled => 3
  | .filled => 4
  | .rejected => 5
  | .expired => 6
  | .requestAdd => 7
  | .requestModify => 8
  | .requestCancel => 9

inductive Op
  | orderSelect (ticket : Nat)
  | historyOrderSelect (ticket : Nat)
  | historyOrderState (ticket : Nat)
  /-- Whether `OrderType` is `OP_BUY` or `OP_SELL`. -/
  | isMarketOrder (ticket : Nat)
  | orderCloseTime (ticket : Nat)
  | sendFill (traceID status orderID errCode errMsg : Bytes)

/-- `SendFill` is answered by what `WsSendText` returns, which it does not look at. -/
abbrev Answer : Op → Type
  | .orderSelect _ => Bool
  | .historyOrderSelect _ => Bool
  | .historyOrderState _ => OrderState
  | .isMarketOrder _ => Bool
  | .orderCloseTime _ => Nat
  | .sendFill _ _ _ _ _ => Bool

inductive Stopped
  | arrayOutOfRange

abbrev Program (Result : Type) := Lib.Program Op Answer Stopped Result

abbrev invoke (op : Op) : Program (Answer op) := Lib.Program.perform op

/-- What a pass does with an order. -/
inductive Verdict
  | keep
  | drop
  | report (status errMsg : Bytes)
deriving DecidableEq

def OrderState.verdict (state : OrderState) : Verdict :=
  if state = .filled ∨ state = .partiallyFilled then .report (lit "filled") []
  else if state = .canceled ∨ state = .expired ∨ state = .rejected then
    .report (lit "cancelled")
      (lit "pending order removed before activation (state=" ++ decimal state.code ++ lit ")")
  else .keep

inductive Platform
  | mt5
  | mt4

def lookUp : Platform → Nat → Program Verdict
  | .mt5, ticket => do
    if ← invoke (.orderSelect ticket) then pure .keep
    else if ← invoke (.historyOrderSelect ticket) then
      let state ← invoke (.historyOrderState ticket)
      pure state.verdict
    -- not yet visible in history
    else pure .keep
  | .mt4, ticket => do
    if ← invoke (.orderSelect ticket) then
      if ← invoke (.isMarketOrder ticket) then pure (.report (lit "filled") [])
      else
        let closeTime ← invoke (.orderCloseTime ticket)
        pure (if 0 < closeTime then
          .report (lit "cancelled") (lit "pending order deleted or expired before activation")
          else .keep)
    else pure .drop

/-! ### The arrays -/

structure Tracked where
  tickets : List Nat := []
  traces : List Bytes := []

def trackPending (tracked : Tracked) (ticket : Nat) (traceID : Bytes) : Tracked :=
  ⟨tracked.tickets ++ [ticket], tracked.traces ++ [traceID]⟩

def element {Value : Type} (array : List Value) (index : Nat) : Program Value :=
  match array[index]? with
  | some value => pure value
  | none => .fail .arrayOutOfRange

def untrackPending (tracked : Tracked) (index : Nat) : Program Tracked := do
  let last := tracked.tickets.length - 1
  let ticket ← element tracked.tickets last
  let traceID ← element tracked.traces last
  if index < tracked.tickets.length ∧ index < tracked.traces.length then
    pure ⟨(tracked.tickets.set index ticket).take last, (tracked.traces.set index traceID).take last⟩
  else .fail .arrayOutOfRange

/-- The loop of `CheckPendingActivations`, from an index downwards. -/
def checkFrom (platform : Platform) : Nat → Tracked → Program Tracked
  | 0, tracked => pure tracked
  | index + 1, tracked => do
    let ticket ← element tracked.tickets index
    match ← lookUp platform ticket with
    | .keep => checkFrom platform index tracked
    | .drop =>
      let tracked ← untrackPending tracked index
      checkFrom platform index tracked
    | .report status errMsg =>
      let traceID ← element tracked.traces index
      let _ ← invoke (.sendFill traceID status (decimal ticket) [] errMsg)
      let tracked ← untrackPending tracked index
      checkFrom platform index tracked

def checkPendingActivations (platform : Platform) (tracked : Tracked) : Program Tracked :=
  checkFrom platform tracked.tickets.length tracked

/-! ### One pass -/

/-- A ticket with the trace id of its signal. -/
abbrev Order := Nat × Bytes

/-- The arrays that hold these orders. -/
def arrays (orders : List Order) : Tracked :=
  ⟨orders.map Prod.fst, orders.map Prod.snd⟩

theorem element_eq {Value : Type} {array : List Value} {index : Nat} {value : Value}
    (found : array[index]? = some value) : element array index = pure value := by
  rw [element, found]

/-- The last element fills the place of another one. -/
theorem fill_place {Value : Type} (front : List Value) (value : Value) (back : List Value) :
    ∃ filler rest, rest.Perm back ∧
      (front ++ value :: back)[(front ++ value :: back).length - 1]? = some filler ∧
      ((front ++ value :: back).set front.length filler).take
        ((front ++ value :: back).length - 1) = front ++ rest := by
  rcases List.eq_nil_or_concat' back with rfl | ⟨middle, filler, rfl⟩
  · refine ⟨value, [], .refl _, ?_, ?_⟩ <;> simp
  · refine ⟨filler, filler :: middle, (List.perm_append_singleton _ _).symm, ?_, ?_⟩
    · simp
    · simp [List.take_append, List.take_of_length_le]

theorem untrackPending_arrays (front : List Order) (order : Order) (back : List Order) :
    ∃ rest, rest.Perm back ∧
      untrackPending (arrays (front ++ order :: back)) front.length = pure (arrays (front ++ rest)) := by
  obtain ⟨filler, rest, perm, last, filled⟩ := fill_place front order back
  refine ⟨rest, perm, ?_⟩
  have same {Value : Type} (field : Order → Value) :
      ((front ++ order :: back).map field)[(front ++ order :: back).length - 1]? =
        some (field filler) ∧
      (((front ++ order :: back).map field).set front.length (field filler)).take
        ((front ++ order :: back).length - 1) = (front ++ rest).map field := by
    rw [List.getElem?_map, last, ← List.map_set, ← List.map_take, filled]
    exact ⟨rfl, rfl⟩
  have inside : front.length < (front ++ order :: back).length := by simp
  simp only [untrackPending, arrays, List.length_map, element_eq (same Prod.fst).1,
    element_eq (same Prod.snd).1, pure_bind, (same Prod.fst).2, (same Prod.snd).2, inside, and_self,
    if_true]

variable (platform : Platform) (terminal : (op : Op) → Answer op)

/-- The verdict on a ticket at a terminal. -/
def verdictAt (ticket : Nat) : Verdict :=
  match platform with
  | .mt5 =>
    if !terminal (.orderSelect ticket) && terminal (.historyOrderSelect ticket) then
      (terminal (.historyOrderState ticket)).verdict
    else .keep
  | .mt4 =>
    if !terminal (.orderSelect ticket) then .drop
    else if terminal (.isMarketOrder ticket) then .report (lit "filled") []
    else if 0 < terminal (.orderCloseTime ticket) then
      .report (lit "cancelled") (lit "pending order deleted or expired before activation")
    else .keep

theorem outcome_lookUp (ticket : Nat) :
    (lookUp platform ticket).outcome terminal = .ok (verdictAt platform terminal ticket) := by
  cases platform with
  | mt5 =>
    simp only [lookUp, verdictAt, Program.perform_bind, Program.outcome]
    cases terminal (.orderSelect ticket) with
    | true => rfl
    | false =>
      rw [if_neg Bool.false_ne_true, Program.outcome]
      cases terminal (.historyOrderSelect ticket) <;> rfl
  | mt4 =>
    simp only [lookUp, verdictAt, Program.perform_bind, Program.outcome]
    cases terminal (.orderSelect ticket) with
    | false => rfl
    | true =>
      rw [if_pos rfl, Program.outcome]
      cases terminal (.isMarketOrder ticket) <;> rfl

/-- The call that reports an order, if it is to be reported. -/
def reportOf (order : Order) : Option Op :=
  match verdictAt platform terminal order.1 with
  | .report status errMsg => some (.sendFill order.2 status (decimal order.1) [] errMsg)
  | _ => none

def callsFor (order : Order) : List Op :=
  (lookUp platform order.1).calls terminal ++ (reportOf platform terminal order).toList

def isKept (order : Order) : Bool :=
  verdictAt platform terminal order.1 = .keep

/-- **The loop** has yet to see the orders in front of the index, and those behind it stay. -/
theorem checkFrom_arrays (front : List Order) : ∀ back, ∃ kept,
    kept.Perm (front.filter (isKept platform terminal) ++ back) ∧
    (checkFrom platform front.length (arrays (front ++ back))).outcome terminal = .ok (arrays kept) ∧
    (checkFrom platform front.length (arrays (front ++ back))).calls terminal =
      front.reverse.flatMap (callsFor platform terminal) := by
  induction front using List.reverseRecOn with
  | nil => exact fun back => ⟨back, .refl _, rfl, rfl⟩
  | append_singleton front order ih =>
    intro back
    have whole : front ++ [order] ++ back = front ++ order :: back := (List.append_cons ..).symm
    have ticket : (arrays (front ++ order :: back)).tickets[front.length]? = some order.1 := by
      simp [arrays]
    have traceID : (arrays (front ++ order :: back)).traces[front.length]? = some order.2 := by
      simp [arrays]
    obtain ⟨rest, shuffled, untracked⟩ := untrackPending_arrays front order back
    rw [whole, List.length_append, List.length_singleton, checkFrom, element_eq ticket, pure_bind,
      Program.outcome_bind, Program.calls_bind, outcome_lookUp, List.filter_append,
      List.reverse_append, List.flatMap_append]
    cases found : verdictAt platform terminal order.1 with
    | keep =>
      obtain ⟨kept, perm, ends, calls⟩ := ih (order :: back)
      refine ⟨kept, ?_, ends, ?_⟩
      · simpa [isKept, found] using perm
      · simp [callsFor, reportOf, found, calls]
    | drop =>
      obtain ⟨kept, perm, ends, calls⟩ := ih rest
      refine ⟨kept, ?_, ?_, ?_⟩
      · simpa [isKept, found] using perm.trans (shuffled.append_left _)
      · change (untrackPending _ _ >>= checkFrom platform front.length).outcome terminal = _
        rw [untracked, pure_bind, ends]
      · simp [callsFor, reportOf, found, untracked, calls]
    | report status errMsg =>
      obtain ⟨kept, perm, ends, calls⟩ := ih rest
      refine ⟨kept, ?_, ?_, ?_⟩
      · simpa [isKept, found] using perm.trans (shuffled.append_left _)
      · change (element _ _ >>= _).outcome terminal = _
        rw [element_eq traceID, pure_bind]
        change (untrackPending _ _ >>= checkFrom platform front.length).outcome terminal = _
        rw [untracked, pure_bind, ends]
      · simp [callsFor, reportOf, found, element_eq traceID, untracked, Program.calls, calls]

/-- The status that an order is reported with: `filled` or `cancelled`, if it is final. -/
def finalStatus : OrderState → Option Bytes
  | .filled => some (lit "filled")
  | .partiallyFilled => some (lit "filled")
  | .canceled => some (lit "cancelled")
  | .expired => some (lit "cancelled")
  | .rejected => some (lit "cancelled")
  | _ => none

/-- The status of a ticket that is no pending order any more, if the history has it as final. -/
def statusAt (ticket : Nat) : Option Bytes :=
  if !terminal (.orderSelect ticket) && terminal (.historyOrderSelect ticket) then
    finalStatus (terminal (.historyOrderState ticket))
  else none

def examined : Op → Option Nat
  | .orderSelect ticket => some ticket
  | _ => none

/-- The trace id, the status and the order id of a fill. -/
def filled : Op → Option (Bytes × Bytes × Bytes)
  | .sendFill traceID status orderID _ _ => some (traceID, status, orderID)
  | _ => none

theorem verdict_mt5 (ticket : Nat) :
    (statusAt terminal ticket = none ∧ verdictAt .mt5 terminal ticket = .keep) ∨
      ∃ status errMsg, statusAt terminal ticket = some status ∧
        verdictAt .mt5 terminal ticket = .report status errMsg := by
  unfold statusAt verdictAt
  split
  · cases terminal (.historyOrderState ticket) <;> simp [finalStatus, OrderState.verdict]
  · exact .inl ⟨rfl, rfl⟩

theorem filterMap_lookUp (ticket : Nat) :
    ((lookUp .mt5 ticket).calls terminal).filterMap examined = [ticket] ∧
      ((lookUp .mt5 ticket).calls terminal).filterMap filled = [] := by
  simp only [lookUp, Program.perform_bind, Program.calls]
  cases terminal (.orderSelect ticket) with
  | true => exact ⟨rfl, rfl⟩
  | false =>
    rw [if_neg Bool.false_ne_true, Program.calls]
    cases terminal (.historyOrderSelect ticket) <;> exact ⟨rfl, rfl⟩

theorem filterMap_callsFor (order : Order) :
    (callsFor .mt5 terminal order).filterMap examined = [order.1] ∧
      (callsFor .mt5 terminal order).filterMap filled = ((statusAt terminal order.1).map fun status =>
        (order.2, status, decimal order.1)).toList := by
  rw [callsFor, List.filterMap_append, List.filterMap_append, (filterMap_lookUp terminal _).1,
    (filterMap_lookUp terminal _).2, reportOf]
  rcases verdict_mt5 terminal order.1 with ⟨stays, verdict⟩ | ⟨status, errMsg, final, verdict⟩
  · rw [stays, verdict]
    exact ⟨rfl, rfl⟩
  · rw [final, verdict]
    exact ⟨rfl, rfl⟩

/-- **One pass** of the MT5 terminal over tickets with their trace ids. It ends without an error; the
arrays then hold the orders that are not final, each ticket beside its trace id. Every ticket is examined
once, and one fill is sent for each of the others. -/
theorem check_pass (orders : List Order) :
    ∃ kept, (checkPendingActivations .mt5 (arrays orders)).outcome terminal = .ok (arrays kept) ∧
      kept.Perm (orders.filter fun order => (statusAt terminal order.1).isNone) ∧
      ((checkPendingActivations .mt5 (arrays orders)).calls terminal).filterMap examined =
        (orders.map Prod.fst).reverse ∧
      ((checkPendingActivations .mt5 (arrays orders)).calls terminal).filterMap filled =
        orders.reverse.filterMap fun order =>
          (statusAt terminal order.1).map fun status => (order.2, status, decimal order.1) := by
  obtain ⟨kept, perm, ends, calls⟩ := checkFrom_arrays .mt5 terminal orders []
  rw [List.append_nil] at perm ends calls
  rw [checkPendingActivations, show (arrays orders).tickets.length = orders.length from List.length_map _]
  refine ⟨kept, ends, ?_, ?_, ?_⟩
  · refine perm.trans (.of_eq (List.filter_congr fun order _ => ?_))
    rcases verdict_mt5 terminal order.1 with ⟨stays, verdict⟩ | ⟨status, errMsg, final, verdict⟩
    · rw [isKept, stays, verdict]
      rfl
    · rw [isKept, final, verdict]
      rfl
  · rw [calls, List.filterMap_flatMap, ← List.map_reverse, List.map_eq_flatMap]
    exact List.flatMap_congr fun order _ => (filterMap_callsFor terminal order).1
  · rw [calls, List.filterMap_flatMap, List.filterMap_eq_flatMap_toList]
    exact List.flatMap_congr fun order _ => (filterMap_callsFor terminal order).2

/-! ### The timer -/

/-- What the terminal meets in one call of `OnTimer`: whether the connection is alive, the pending orders
that its messages have placed, and whether it is registered then. -/
structure Tick where
  alive : Bool
  placed : List Order
  registered : Bool
  terminal : (op : Op) → Answer op

structure Session where
  tracked : Tracked := {}
  /-- The orders that were ever tracked. -/
  placed : List Order := []
  log : List (Event Op Answer) := []

def onTimer (platform : Platform) (session : Session) (tick : Tick) : Option Session :=
  if tick.alive then
    let tracked := tick.placed.foldl (fun tracked order => trackPending tracked order.1 order.2)
      session.tracked
    let placed := session.placed ++ tick.placed
    if tick.registered then
      match (checkPendingActivations platform tracked).outcome tick.terminal with
      | .error _ => none
      | .ok after =>
        let calls := (checkPendingActivations platform tracked).calls tick.terminal
        some ⟨after, placed, session.log ++ calls.map fun op => ⟨op, tick.terminal op⟩⟩
    else some ⟨tracked, placed, session.log⟩
  else some session

/-- A fill for the order was sent. -/
def Reported (log : List (Event Op Answer)) (order : Order) : Prop :=
  ∃ status errMsg, ⟨.sendFill order.2 status (decimal order.1) [] errMsg, true⟩ ∈ log

/-- In the pass no order is dropped, and every fill is sent. -/
def Connected (platform : Platform) (session : Session) (tick : Tick) : Prop :=
  tick.alive = true → tick.registered = true →
    ∀ order ∈ session.tracked.tickets.zip session.tracked.traces ++ tick.placed,
      verdictAt platform tick.terminal order.1 ≠ .drop ∧
        ∀ status errMsg, verdictAt platform tick.terminal order.1 = .report status errMsg →
          tick.terminal (.sendFill order.2 status (decimal order.1) [] errMsg) = true

theorem zip_arrays (orders : List Order) : (arrays orders).tickets.zip (arrays orders).traces = orders :=
  (List.zip_of_prod rfl rfl).symm

theorem foldl_trackPending (placed : List Order) : ∀ orders,
    placed.foldl (fun tracked order => trackPending tracked order.1 order.2) (arrays orders) =
      arrays (orders ++ placed) := by
  induction placed with
  | nil => exact fun orders => congrArg arrays (List.append_nil orders).symm
  | cons order placed ih =>
    intro orders
    rw [List.foldl_cons, List.append_cons, ← ih]
    congr 1
    simp [trackPending, arrays]

theorem Reported.append {log : List (Event Op Answer)} {order : Order} (reported : Reported log order)
    (later : List (Event Op Answer)) : Reported (log ++ later) order := by
  obtain ⟨status, errMsg, member⟩ := reported
  exact ⟨status, errMsg, List.mem_append_left _ member⟩

/-- The arrays hold orders, and every order that was placed is among them or reported. -/
def Accounted (session : Session) : Prop :=
  ∃ orders, session.tracked = arrays orders ∧
    ∀ order ∈ session.placed, order ∈ orders ∨ Reported session.log order

theorem accounted_onTimer {platform : Platform} {session next : Session} {tick : Tick}
    (accounted : Accounted session) (connected : Connected platform session tick)
    (stepped : onTimer platform session tick = some next) : Accounted next := by
  obtain ⟨orders, same, every⟩ := accounted
  have placed : ∀ order ∈ session.placed ++ tick.placed,
      order ∈ orders ++ tick.placed ∨ Reported session.log order := by
    intro order member
    rcases List.mem_append.mp member with earlier | new
    · exact (every order earlier).imp_left (List.mem_append_left _)
    · exact .inl (List.mem_append_right _ new)
  rw [onTimer, same, foldl_trackPending] at stepped
  split at stepped
  · rename_i alive
    split at stepped
    · rename_i registered
      have fine := connected alive registered
      rw [same, zip_arrays] at fine
      obtain ⟨kept, perm, ends, calls⟩ :=
        checkFrom_arrays platform tick.terminal (orders ++ tick.placed) []
      rw [List.append_nil] at perm ends calls
      have length : (arrays (orders ++ tick.placed)).tickets.length = (orders ++ tick.placed).length :=
        List.length_map _
      simp only [checkPendingActivations, length, ends, calls] at stepped
      cases stepped
      refine ⟨kept, rfl, fun order member => ?_⟩
      rcases placed order member with held | reported
      · cases verdict : verdictAt platform tick.terminal order.1 with
        | keep =>
          exact .inl (perm.mem_iff.mpr (List.mem_filter.mpr ⟨held, decide_eq_true verdict⟩))
        | drop => exact absurd verdict (fine order held).1
        | report status errMsg =>
          refine .inr ⟨status, errMsg, List.mem_append_right _ (List.mem_map.mpr
            ⟨.sendFill order.2 status (decimal order.1) [] errMsg, ?_, ?_⟩)⟩
          · refine List.mem_flatMap.mpr ⟨order, List.mem_reverse.mpr held, List.mem_append_right _ ?_⟩
            rw [reportOf, verdict]
            exact List.mem_singleton.mpr rfl
          · rw [(fine order held).2 status errMsg verdict]
      · exact .inr (reported.append _)
    · cases stepped
      exact ⟨_, rfl, placed⟩
  · cases stepped
    exact ⟨orders, same, every⟩

/-- **Every pending order is followed or reported**, in every run of the timer in which no pass loses its
connection or an order. -/
theorem tracked_or_reported {platform : Platform} {session : Session}
    (reached : Reaches (onTimer platform) (Connected platform) {} session) :
    ∀ order ∈ session.placed,
      order ∈ session.tracked.tickets.zip session.tracked.traces ∨ Reported session.log order := by
  have accounted : Accounted session := by
    refine reached.invariant ⟨[], rfl, fun order member => absurd member List.not_mem_nil⟩ ?_
    exact fun _ _ _ _ accounted connected stepped => accounted_onTimer accounted connected stepped
  obtain ⟨orders, same, every⟩ := accounted
  rw [same, zip_arrays]
  exact every

def oneFilled (sends : Bool) (selects : Bool) : (op : Op) → Answer op
  | .orderSelect _ => selects
  | .historyOrderSelect _ => true
  | .historyOrderState _ => .filled
  | .isMarketOrder _ => true
  | .orderCloseTime _ => 0
  | .sendFill _ _ _ _ _ => sends

def tickOf (terminal : (op : Op) → Answer op) : Tick :=
  ⟨true, [(7, lit "trace-fixture-0001")], true, terminal⟩

theorem tracked_or_reported_filled : ∃ session,
    onTimer .mt5 {} (tickOf (oneFilled true false)) = some session ∧
      session.placed = [(7, lit "trace-fixture-0001")] ∧
      Reported session.log (7, lit "trace-fixture-0001") := by
  obtain ⟨session, ran⟩ := Option.isSome_iff_exists.mp
    (show (onTimer .mt5 {} (tickOf (oneFilled true false))).isSome = true from rfl)
  have connected : Connected .mt5 {} (tickOf (oneFilled true false)) := by
    intro _ _ order member
    rw [List.mem_singleton.mp member]
    refine ⟨by decide, fun status errMsg _ => rfl⟩
  have all := tracked_or_reported (Reaches.step .start connected ran)
  cases ran
  exact ⟨_, rfl, rfl, (all _ (List.mem_singleton_self _)).resolve_left List.not_mem_nil⟩

def isSent (event : Event Op Answer) : Bool :=
  match event with
  | ⟨.sendFill _ _ _ _ _, sent⟩ => sent
  | _ => false

/-- **A filled order is forgotten**: by MT5 if the connection is lost under the fill, and by MT4 if it
cannot select the order. Nothing was sent, and nothing is tracked. -/
theorem not_tracked_nor_reported :
    (onTimer .mt5 {} (tickOf (oneFilled false false))).any (fun session =>
        session.placed.length = 1 && session.tracked.tickets.isEmpty && !session.log.any isSent) = true ∧
      (onTimer .mt4 {} (tickOf (oneFilled true false))).any (fun session =>
        session.placed.length = 1 && session.tracked.tickets.isEmpty && !session.log.any isSent) =
          true := by
  exact ⟨by decide, by decide⟩

end ExecRelay.EA.Pending
