/-
**One position closes, and its siblings follow** (`_handle_close_oco` of `scripts/ea_shim.py`,
`sibling_order_rows` of `scripts/_tradestore.py`).

The orders of one signal are related through the store only: the ticket has a row in `orders`, the trace
id of the row stands in the list of a row of `signals`, and that list has the trace ids of the others.
When a position closes at its stop loss or its last take profit, the orders of the signal that rest are
removed. At an earlier take profit they stay, and the stops of its open positions move to their own entry
prices, if the channel wants that.

What is logged is left out. The column `trace_ids` is a JSON list of texts or cannot be read.
-/

import ExecRelay.Shim.Execute
import Mathlib.Data.List.Infix

namespace ExecRelay.Shim.Siblings

open Lib
open Lib.Program (OnlyUnder)

/-! ### The store -/

/-- A value of the column `tp`. -/
inductive Level
  | missing
  | unreadable
  | number (value : ℚ)

structure OrderRow where
  brokerOrderID : Option Text
  traceID : Text
  command : Text
  tp : Level

structure SignalRow where
  channel : Option Text
  traceIDs : Option (List Text)

structure Store where
  orders : List OrderRow
  signals : List SignalRow
  /-- Whether `LIKE` finds the trace id in the text of the row. -/
  like : Text → SignalRow → Bool
  /-- The switch of `channel_flags`. -/
  breakeven : Option Text → Bool

namespace Store

variable (store : Store)

/-- The list of the first row that has the trace id, and its channel. -/
def signalOf (traceID : Text) : Option (List Text × Option Text) :=
  (store.signals.filter (store.like traceID)).findSome? fun signal =>
    match signal.traceIDs with
    | none => none
    | some ids => if traceID ∈ ids then some (ids, signal.channel) else none

/-- The rows of the signal and its channel. -/
def siblingOrderRows (id : Text) : List OrderRow × Option Text :=
  if id = [] then ([], none)
  else
    match store.orders.find? fun row => row.brokerOrderID = some id with
    | none => ([], none)
    | some row =>
      if row.traceID = [] then ([], none)
      else
        match store.signalOf row.traceID with
        | none => ([], none)
        | some (ids, channel) =>
          (store.orders.filter fun row => row.traceID ∈ ids && row.brokerOrderID.getD [] ≠ [], channel)

def siblingBrokerOrderIDs (id : Text) : List Text :=
  ((store.siblingOrderRows id).1.filterMap OrderRow.brokerOrderID).filter fun other =>
    other ≠ [] ∧ other ≠ id

end Store

/-! ### The terminal -/

structure RestingOrder where
  ticket : Nat
  magic : Int

structure OpenPosition extends Position where
  symbol : Text
  priceOpen : ℚ

inductive Request
  /-- `TRADE_ACTION_REMOVE`. -/
  | remove (order : Nat)
  /-- `TRADE_ACTION_SLTP`. -/
  | levels (levels : Levels)

inductive Op
  | ordersGet
  | positionsGet
  | orderSend (request : Request)
  | lastError

abbrev Answer : Op → Type
  | .ordersGet => Option (List RestingOrder)
  | .positionsGet => Option (List OpenPosition)
  | .orderSend _ => Option Reply
  | .lastError => Text

abbrev Script (Result : Type) := Program Op Answer Empty Result

abbrev invoke (op : Op) : Script (Answer op) := Program.perform op

def str (ticket : Nat) : Text :=
  (toString ticket).toList

theorem str_ne_nil (ticket : Nat) : str ticket ≠ [] := by
  simp [str]

variable (magic : Int)

/-- A request for a ticket: what went through, and what failed and why. -/
def send (request : Request) (ticket : Nat) (done : List Text × List Text) :
    Script (List Text × List Text) := do
  let failed (reason : Text) : List Text × List Text :=
    (done.1, done.2 ++ [str ticket ++ text ": " ++ reason])
  match ← invoke (.orderSend request) with
  | none =>
    let reason ← invoke .lastError
    return failed reason
  | some reply =>
    return if reply.retcode = retcodeDone then (done.1 ++ [str ticket], done.2)
      else failed (toString reply.retcode).toList

/-- The loop of `cancel_pending_orders`. -/
def removeEach (wanted : List Text) :
    List RestingOrder → List Text × List Text → Script (List Text × List Text)
  | [], done => pure done
  | order :: others, done =>
    if str order.ticket ∈ wanted ∧ order.magic = magic then do
      let done ← send (.remove order.ticket) order.ticket done
      removeEach wanted others done
    else removeEach wanted others done

def cancelPendingOrders (tickets : List Text) : Script (List Text × List Text) :=
  if tickets = [] then pure ([], [])
  else do
    let orders ← invoke .ordersGet
    removeEach magic tickets (orders.getD []) ([], [])

def moveEach (wanted : List Text) :
    List OpenPosition → List Text × List Text → Script (List Text × List Text)
  | [], done => pure done
  | position :: others, done =>
    if position.magic = magic ∧ str position.ticket ∈ wanted then do
      let req : Levels :=
        { symbol := position.symbol
          position := position.ticket
          sl := position.priceOpen
          tp := position.tp
          magic := magic }
      let done ← send (.levels req) position.ticket done
      moveEach wanted others done
    else moveEach wanted others done

def moveSiblingsToBreakeven (siblings : List Text) : Script Unit :=
  if siblings = [] then pure ()
  else do
    let positions ← invoke .positionsGet
    let _ ← moveEach magic siblings (positions.getD []) ([], [])

variable (store : Store)

def cancelSiblingsAfterClose (ticket : Nat) : Script Unit := do
  let _ ← cancelPendingOrders magic (store.siblingBrokerOrderIDs (str ticket))

/-! ### The close of a position -/

inductive Kind
  | half
  | full
deriving DecidableEq

variable (lower : Text → Text)

/-- Whether the profit of a command is upwards. -/
def direction (command : Text) : Option Bool :=
  if text "buy" <:+: lower command then some true
  else if text "sell" <:+: lower command then some false
  else none

def isFurther (up : Bool) (own : ℚ) : Level → Bool
  | .number tp => if up then own < tp else tp < own
  | _ => false

def classifyTpClose (ticket : Nat) (rows : List OrderRow) : Option Kind := do
  let own ← rows.find? fun row => row.brokerOrderID = some (str ticket)
  match own.tp with
  | .number tp =>
    let up ← direction lower own.command
    return if rows.any fun row => row.brokerOrderID ≠ some (str ticket) && isFurther up tp row.tp then
      .half else .full
  | _ => none

/-- `mt5.DEAL_REASON_SL`, `mt5.DEAL_REASON_TP` and the others. -/
inductive Reason
  | sl
  | tp
  | other
deriving DecidableEq

def handleCloseOCO (ticket : Nat) : Reason → Script Unit
  | .sl => cancelSiblingsAfterClose magic store ticket
  | .other => pure ()
  | .tp =>
    let (rows, channel) := store.siblingOrderRows (str ticket)
    if classifyTpClose lower ticket rows = some .half then
      if store.breakeven channel then
        moveSiblingsToBreakeven magic ((rows.filterMap OrderRow.brokerOrderID).filter fun id =>
          id ≠ [] ∧ id ≠ str ticket)
      else pure ()
    else cancelSiblingsAfterClose magic store ticket

/-! ### What is touched -/

variable (ticket : Nat) (reason : Reason) (orders : List RestingOrder) (positions : List OpenPosition)

/-- The terminal lists orders and positions among these, or none. -/
def Lists : (op : Op) → Answer op → Prop
  | .ordersGet, answer => ∀ order ∈ answer.getD [], order ∈ orders
  | .positionsGet, answer => ∀ position ∈ answer.getD [], position ∈ positions
  | _, _ => True

/-- An order with the id has a trace id among these. -/
def Store.Recorded (id : Text) (ids : List Text) : Prop :=
  ∃ row ∈ store.orders, row.brokerOrderID = some id ∧ row.traceID ∈ ids

/-- A signal lists a trace id that is recorded for the ticket. -/
def Store.Resolved : Prop :=
  ∃ signal ∈ store.signals, ∃ ids, signal.traceIDs = some ids ∧ store.Recorded (str ticket) ids

/-- It also lists one of the other ticket. -/
def Store.Related (other : Nat) : Prop :=
  ∃ signal ∈ store.signals, ∃ ids, signal.traceIDs = some ids ∧ store.Recorded (str ticket) ids ∧
    store.Recorded (str other) ids

/-- The take profit of a row is strictly further in the profit direction than that of the own row: above
it for a command that buys, below it for one that sells. -/
def IsBeyond (own row : OrderRow) : Prop :=
  ∃ tp further, own.tp = .number tp ∧ row.tp = .number further ∧
    (text "buy" <:+: lower own.command ∧ tp < further ∨
      ¬ text "buy" <:+: lower own.command ∧ text "sell" <:+: lower own.command ∧ further < tp)

/-- **A leg is left**: in every signal that lists a trace id of the ticket there is an order of the broker
that is beyond the row of the ticket. -/
def LegLeft : Prop :=
  ∀ own ∈ store.orders, own.brokerOrderID = some (str ticket) →
    ∀ signal ∈ store.signals, ∀ ids, signal.traceIDs = some ids → store.Recorded (str ticket) ids →
      ∃ row ∈ store.orders, row.traceID ∈ ids ∧ row.brokerOrderID.getD [] ≠ [] ∧
        row.brokerOrderID ≠ some (str ticket) ∧ IsBeyond lower own row

/-- A request removes an order of the signal that rests, or moves the stop of an open position of it to
its entry price. -/
def Permitted : Op → Prop
  | .orderSend (.remove order) => order ≠ ticket ∧ store.Related ticket order ∧
      (∃ resting ∈ orders, resting.ticket = order ∧ resting.magic = magic) ∧
      ¬ (reason = .tp ∧ LegLeft store lower ticket)
  | .orderSend (.levels levels) => levels.position ≠ ticket ∧ store.Related ticket levels.position ∧
      ∃ position ∈ positions, position.ticket = levels.position ∧ position.magic = magic ∧
        levels.magic = magic ∧ levels.symbol = position.symbol ∧ levels.sl = position.priceOpen ∧
        levels.tp = position.tp
  | _ => True

def isSend : Op → Bool
  | .orderSend _ => true
  | _ => false

variable {magic store lower ticket reason orders positions}

/-- **The rows of a ticket**: none, or the orders of the broker of one signal that lists a trace id of it. -/
theorem siblingOrderRows_cases (store : Store) (id : Text) :
    (store.siblingOrderRows id).1 = [] ∨
      ∃ signal ∈ store.signals, ∃ ids, signal.traceIDs = some ids ∧ store.Recorded id ids ∧
        (store.siblingOrderRows id).1 = store.orders.filter fun row =>
          row.traceID ∈ ids && row.brokerOrderID.getD [] ≠ [] := by
  unfold Store.siblingOrderRows
  split
  · exact .inl rfl
  · split
    · exact .inl rfl
    · rename_i own found
      split
      · exact .inl rfl
      · split
        · exact .inl rfl
        · rename_i ids channel resolved
          obtain ⟨signal, kept, chosen⟩ := List.exists_of_findSome?_eq_some resolved
          split at chosen
          · cases chosen
          · rename_i ids' read
            split at chosen
            · rename_i holds
              cases chosen
              refine .inr ⟨signal, List.mem_of_mem_filter kept, ids, read, ⟨own, ?_, ?_, holds⟩, rfl⟩
              · exact List.mem_of_find?_eq_some found
              · simpa using List.find?_some found
            · cases chosen

theorem mem_siblingOrderRows {id : Text} {row : OrderRow} (member : row ∈ (store.siblingOrderRows id).1) :
    row ∈ store.orders ∧ ∃ signal ∈ store.signals, ∃ ids, signal.traceIDs = some ids ∧
      store.Recorded id ids ∧ row.traceID ∈ ids := by
  rcases siblingOrderRows_cases store id with none | ⟨signal, known, ids, read, own, rows⟩
  · rw [none] at member
    cases member
  · rw [rows] at member
    obtain ⟨inside, listed⟩ := List.mem_filter.mp member
    exact ⟨inside, signal, known, ids, read, own, of_decide_eq_true (Bool.and_eq_true_iff.mp listed).1⟩

theorem related_of_mem {other : Nat} (member : str other ∈
      ((store.siblingOrderRows (str ticket)).1.filterMap OrderRow.brokerOrderID).filter fun id =>
        id ≠ [] ∧ id ≠ str ticket) :
    other ≠ ticket ∧ store.Related ticket other := by
  obtain ⟨inside, apart⟩ := List.mem_filter.mp member
  obtain ⟨row, listed, named⟩ := List.mem_filterMap.mp inside
  obtain ⟨stored, signal, known, ids, read, own, traced⟩ := mem_siblingOrderRows listed
  refine ⟨fun same => (of_decide_eq_true apart).2 (congrArg str same), ?_⟩
  exact ⟨signal, known, ids, read, own, row, stored, named, traced⟩

theorem only_send {allowed : Op → Prop} {request : Request} (permitted : allowed (.orderSend request))
    (asks : allowed .lastError) (ticket : Nat) (done : List Text × List Text) :
    (send request ticket done).Only allowed := by
  refine ⟨permitted, fun reply => ?_⟩
  cases reply with
  | none => exact ⟨asks, fun _ => trivial⟩
  | some reply => trivial

theorem only_removeEach {allowed : Op → Prop} (asks : allowed .lastError) {wanted : List Text}
    (resting : List RestingOrder)
    (permitted : ∀ order ∈ resting, str order.ticket ∈ wanted → order.magic = magic →
      allowed (.orderSend (.remove order.ticket))) :
    ∀ done, (removeEach magic wanted resting done).Only allowed := by
  induction resting with
  | nil => exact fun _ => trivial
  | cons order others ih =>
    have rest := ih fun other member => permitted other (List.mem_cons_of_mem _ member)
    intro done
    rw [removeEach]
    split
    · rename_i chosen
      exact (only_send (permitted order List.mem_cons_self chosen.1 chosen.2) asks ..).bind rest
    · exact rest done

theorem only_moveEach {allowed : Op → Prop} (asks : allowed .lastError) {wanted : List Text}
    (running : List OpenPosition)
    (permitted : ∀ position ∈ running, position.magic = magic → str position.ticket ∈ wanted →
      allowed (.orderSend (.levels
        { symbol := position.symbol
          position := position.ticket
          sl := position.priceOpen
          tp := position.tp
          magic := magic }))) :
    ∀ done, (moveEach magic wanted running done).Only allowed := by
  induction running with
  | nil => exact fun _ => trivial
  | cons position others ih =>
    have rest := ih fun other member => permitted other (List.mem_cons_of_mem _ member)
    intro done
    rw [moveEach]
    split
    · rename_i chosen
      exact (only_send (permitted position List.mem_cons_self chosen.1 chosen.2) asks ..).bind rest
    · exact rest done

/-- The direction of a row, and what is further in it. -/
theorem further_of_isBeyond {own row : OrderRow} (beyond : IsBeyond lower own row) :
    ∃ tp up, own.tp = .number tp ∧ direction lower own.command = some up ∧
      isFurther up tp row.tp = true := by
  obtain ⟨tp, further, level, other, ⟨buys, above⟩ | ⟨none, sells, below⟩⟩ := beyond
  · exact ⟨tp, true, level, if_pos buys, by rw [other]; exact decide_eq_true above⟩
  · refine ⟨tp, false, level, ?_, by rw [other]; exact decide_eq_true below⟩
    rw [direction, if_neg none, if_pos sells]

/-- **A take profit with a leg left** is that of a half, if the signal has rows at all. -/
theorem classify_of_legLeft (left : LegLeft store lower ticket) {row : OrderRow}
    (member : row ∈ (store.siblingOrderRows (str ticket)).1) :
    classifyTpClose lower ticket (store.siblingOrderRows (str ticket)).1 = some .half := by
  rcases siblingOrderRows_cases store (str ticket) with
    none | ⟨signal, known, ids, read, recorded, rows⟩
  · rw [none] at member
    cases member
  obtain ⟨traced, stored, named, listed⟩ := recorded
  -- the row that the ticket is found by is one of its signal, so that there is an own row
  have inside : traced ∈ (store.siblingOrderRows (str ticket)).1 := by
    rw [rows]
    refine List.mem_filter.mpr ⟨stored, ?_⟩
    simp [listed, named, str_ne_nil]
  cases found : (store.siblingOrderRows (str ticket)).1.find? fun row =>
      row.brokerOrderID = some (str ticket) with
  | none => exact absurd named (by simpa using List.find?_eq_none.mp found traced inside)
  | some own =>
    have ownNamed : own.brokerOrderID = some (str ticket) := by simpa using List.find?_some found
    obtain ⟨row, kept, ofSignal, given, other, beyond⟩ := left own
      (mem_siblingOrderRows (List.mem_of_find?_eq_some found)).1 ownNamed signal known ids read
      ⟨traced, stored, named, listed⟩
    obtain ⟨tp, up, level, directed, further⟩ := further_of_isBeyond beyond
    have any : (store.siblingOrderRows (str ticket)).1.any (fun row =>
        row.brokerOrderID ≠ some (str ticket) && isFurther up tp row.tp) = true := by
      rw [rows]
      refine List.any_eq_true.mpr ⟨row, List.mem_filter.mpr ⟨kept, ?_⟩, ?_⟩
      · simp [ofSignal, given]
      · simp [other, further]
    simp only [classifyTpClose, found, level, directed, any, Option.bind_eq_bind, Option.bind_some, if_true]
    rfl

theorem onlyUnder_cancelSiblings
    (apart : reason = .tp → LegLeft store lower ticket → (store.siblingOrderRows (str ticket)).1 = []) :
    (cancelSiblingsAfterClose magic store ticket).OnlyUnder (Lists orders positions)
      (Permitted magic store lower ticket reason orders positions) := by
  unfold cancelSiblingsAfterClose cancelPendingOrders
  split
  · trivial
  · rename_i some
    refine ⟨trivial, fun answer listed => Program.Only.onlyUnder ?_ _⟩
    refine (only_removeEach trivial _ ?_ _).bind fun _ => trivial
    intro order member wanted own
    obtain ⟨distinct, related⟩ := related_of_mem wanted
    refine ⟨distinct, related, ⟨order, listed order member, rfl, own⟩, fun ⟨tp, left⟩ => some ?_⟩
    rw [Store.siblingBrokerOrderIDs, apart tp left]
    rfl

/-- Three legs of one signal: the first is at the broker and has hit its take profit, the second, with the
furthest take profit, has no order of the broker, and the order of the third rests. -/
def threeLegs : Store where
  orders := [⟨some (text "1"), text "a", text "buy", .number 110⟩, ⟨none, text "b", text "buy", .number 120⟩,
    ⟨some (text "2"), text "c", text "buy", .number 105⟩]
  signals := [⟨none, some [text "a", text "b", text "c"]⟩]
  like := fun _ _ => true
  breakeven := fun _ => false

/-- A terminal on which the third leg rests. -/
def resting : (op : Op) → Answer op
  | .ordersGet => some [⟨2, 7⟩]
  | .positionsGet => some []
  | .orderSend _ => none
  | .lastError => []

def isRemoval (ticket : Nat) : Op → Bool
  | .orderSend (.remove order) => order = ticket
  | _ => false

end ExecRelay.Shim.Siblings
