/-
**Positions that are taken for closed** (`position_monitor` of `scripts/ea_shim.py`).

The monitor asks the terminal for the open positions again and again. A position of the shim that it has
seen and that is not in the list any more gets a row in `closed_trades`. An answer `None` of the terminal
counts as an empty list, so that one failed call closes every position in the store.

The snapshots of the equity and the heartbeats of the loop come behind all this and are left out.
-/

import ExecRelay.Lib.Machine
import ExecRelay.Shim.Execute

namespace ExecRelay.Shim.Monitor

open Lib

/-! ### The loop -/

structure OpenPosition extends Position where
  symbol : Text
  priceOpen : ℚ
deriving DecidableEq

structure Deal where
  isEntry : Bool
  profit : ℚ
  commission : ℚ
  swap : ℚ
  price : ℚ
  reason : Nat

structure ClosedTrade where
  /-- The ticket of the position. -/
  positionID : Nat
  symbol : Text
  side : Side
  volume : ℚ
  entryPrice : ℚ
  closePrice : ℚ
  profit : ℚ
  magic : Int
  comment : Text

inductive Raised
  | exception

inductive Op
  | positionsGet
  | historyDealsGet (position : Nat)
  | logTxn (trade : ClosedTrade)
  | recordClosedTrade (trade : ClosedTrade)
  | handleCloseOCO (ticket : Nat) (position : OpenPosition) (reason : Nat)

/-- A call of the terminal may raise, and it may return `None`. -/
abbrev Answer : Op → Type
  | .positionsGet => Except Raised (Option (List OpenPosition))
  | .historyDealsGet _ => Except Raised (Option (List Deal))
  | .logTxn _ => Except Raised Unit
  | .recordClosedTrade _ => Unit
  | .handleCloseOCO _ _ _ => Except Raised Unit

abbrev invoke {Error : Type} (op : Op) : Program Op Answer Error (Answer op) := Program.perform op

structure Options where
  magic : Int
  cancelSiblingsOnClose : Bool
  /-- `mt5.DEAL_REASON_SL` and `mt5.DEAL_REASON_TP`. -/
  oco : List Nat
  /-- `round(profit, 2)`. -/
  round : ℚ → ℚ

/-- The profit, the price and the reason of the deals that close a position. -/
def closedResult (deals : List Deal) : ℚ × ℚ × Option Nat :=
  let out := deals.filter fun deal => !deal.isEntry
  ((out.map fun deal => deal.profit + deal.commission + deal.swap).sum,
    (out.getLast?.map Deal.price).getD 0, out.getLast?.map Deal.reason)

variable (options : Options)

def tradeOf (position : OpenPosition) (profit price : ℚ) : ClosedTrade where
  positionID := position.ticket
  symbol := position.symbol
  side := position.type
  volume := position.volume
  entryPrice := position.priceOpen
  closePrice := price
  profit := options.round profit
  magic := position.magic
  comment := position.comment

/-- What the loop does with the positions that it knows. -/
def sweep (current : List OpenPosition) : List OpenPosition → Program Op Answer Raised Unit
  | [] => pure ()
  | position :: others => do
    if position.ticket ∈ current.map (·.ticket) then sweep current others
    else
      match ← invoke (.historyDealsGet position.ticket) with
      | .error raised => .fail raised
      | .ok deals =>
        let (profit, price, reason) := closedResult (deals.getD [])
        let trade := tradeOf options position profit price
        match ← invoke (.logTxn trade) with
        | .error raised => .fail raised
        | .ok _ =>
          let _ ← invoke (.recordClosedTrade trade)
          if options.cancelSiblingsOnClose && options.oco.any (some · = reason) then
            match ← invoke (.handleCloseOCO position.ticket position (reason.getD 0)) with
            | .error raised => .fail raised
            | .ok _ => sweep current others
          else sweep current others

/-- What follows the answer to `mt5.positions_get()`: the positions that are known next. -/
def answered (known : Option (List OpenPosition)) :
    Except Raised (Option (List OpenPosition)) → Program Op Answer Raised (List OpenPosition)
  | .error raised => .fail raised
  | .ok positions => do
    let current := (positions.getD []).filter fun position => position.magic = options.magic
    sweep options current (known.getD [])
    pure current

/-- An exception is logged, and the positions that were known stay. -/
def concluded (known : Option (List OpenPosition)) :
    Except Raised (List OpenPosition) → Option (List OpenPosition)
  | .ok current => some current
  | .error _ => known

/-- One turn of the loop. -/
def iteration (known : Option (List OpenPosition)) :
    Program Op Answer Empty (Option (List OpenPosition)) := do
  let positions ← invoke .positionsGet
  let result ← (answered options known positions).attempt
  return concluded known result

/-! ### The broker -/

structure Broker where
  running : List OpenPosition
  /-- The tickets of the positions that were closed. -/
  closed : List Nat
  apart : ∀ position ∈ running, position.ticket ∉ closed

namespace Broker

/-- A position stays closed, and one that runs keeps its ticket and its magic number until it is closed. -/
def Becomes (broker later : Broker) : Prop :=
  (∀ ticket ∈ broker.closed, ticket ∈ later.closed) ∧
    ∀ position ∈ broker.running, position.ticket ∈ later.closed ∨
      ∃ other ∈ later.running, other.ticket = position.ticket ∧ other.magic = position.magic

instance (broker later : Broker) : Decidable (broker.Becomes later) :=
  inferInstanceAs (Decidable (_ ∧ _))

/-- The list of the positions is the true one, if there is a list. -/
def isTrue (broker : Broker) : (op : Op) → Answer op → Bool
  | .positionsGet, .ok (some positions) => positions = broker.running
  | _, _ => true

end Broker

structure State where
  broker : Broker
  known : Option (List OpenPosition)
  /-- What is left of the turn. -/
  left : Program Op Answer Empty (Option (List OpenPosition))

inductive Label
  | change (broker : Broker)
  | advance (answer : (op : Op) → Answer op)
  | again

def step (state : State) : Label → Option State
  | .change broker => if state.broker.Becomes broker then some { state with broker := broker } else none
  | .advance answer =>
    match state.left with
    | .call op next =>
      if state.broker.isTrue op (answer op) then some { state with left := next (answer op) } else none
    | _ => none
  | .again =>
    match state.left with
    | .done known => some { state with known := known, left := iteration options known }
    | _ => none

def start (broker : Broker) : State :=
  ⟨broker, none, iteration options none⟩

/-! ### What is closed -/

/-- The terminal fails to list the positions only if those that are known are closed. -/
def Careful (state : State) (label : Label) : Prop :=
  ∀ answer next, label = .advance answer → state.left = .call .positionsGet next →
    answer .positionsGet = .ok none →
      ∀ position ∈ state.known.getD [], position.ticket ∈ state.broker.closed

/-- The position is one of the shim, and it runs or was closed. -/
def Seen (broker : Broker) (position : OpenPosition) : Prop :=
  position.ticket ∈ broker.closed ∨
    ∃ other ∈ broker.running, other.ticket = position.ticket ∧ other.magic = options.magic

def AllSeen (broker : Broker) (known : Option (List OpenPosition)) : Prop :=
  ∀ position ∈ known.getD [], Seen options broker position

/-- A row is for a position that is closed. -/
def Closes (broker : Broker) : Op → Prop
  | .recordClosedTrade trade => trade.positionID ∈ broker.closed
  | _ => True

variable {options} {broker later : Broker} {known : Option (List OpenPosition)}

theorem AllSeen.becomes (seen : AllSeen options broker known) (becomes : broker.Becomes later) :
    AllSeen options later known := by
  intro position member
  rcases seen position member with closed | ⟨other, running, ticket, magic⟩
  · exact .inl (becomes.1 _ closed)
  · rcases becomes.2 other running with closed | ⟨same, runs, kept, magical⟩
    · exact .inl (ticket ▸ closed)
    · exact .inr ⟨same, runs, kept.trans ticket, magical.trans magic⟩

/-- What is left of a turn behind its question: it writes rows for closed positions only, and ends with
positions that were seen. -/
def Sound (options : Options) (broker : Broker)
    (left : Program Op Answer Empty (Option (List OpenPosition))) : Prop :=
  ∃ log, left.Spec (fun op _ => Closes broker op)
    (fun result _ => ∀ known, result = .ok known → AllSeen options broker known) log

theorem only_sweep {current : List OpenPosition} (list : List OpenPosition)
    (closed : ∀ position ∈ list, position.ticket ∉ current.map (·.ticket) →
      position.ticket ∈ broker.closed) :
    (sweep options current list).Only (Closes broker) := by
  induction list with
  | nil => trivial
  | cons position others ih =>
    have rest := ih fun other member => closed other (List.mem_cons_of_mem _ member)
    rw [sweep]
    split
    · exact rest
    · rename_i gone
      refine ⟨trivial, fun deals => ?_⟩
      cases deals with
      | error raised => trivial
      | ok deals =>
        refine ⟨trivial, fun logged => ?_⟩
        cases logged with
        | error raised => trivial
        | ok _ =>
          refine ⟨closed position List.mem_cons_self gone, fun _ => ?_⟩
          split
          · refine ⟨trivial, fun handled => ?_⟩
            cases handled with
            | error raised => trivial
            | ok _ => exact rest
          · exact rest

/-- **The answer of the terminal** makes what is left of the turn sound. -/
theorem sound_of_answer (answer : Except Raised (Option (List OpenPosition)))
    (seen : AllSeen options broker known) (listed : broker.isTrue .positionsGet answer = true)
    (careful : answer = .ok none → ∀ position ∈ known.getD [], position.ticket ∈ broker.closed) :
    Sound options broker
      ((answered options known answer).attempt >>= fun result => pure (concluded known result)) := by
  have spec : (answered options known answer).Spec (fun op _ => Closes broker op)
      (fun result _ => AllSeen options broker (concluded known result)) [] := by
    cases answer with
    | error raised => exact seen
    | ok positions =>
      have current : AllSeen options broker
          (some ((positions.getD []).filter fun position => position.magic = options.magic)) := by
        intro position member
        obtain ⟨inside, own⟩ := List.mem_filter.mp member
        cases positions with
        | none => cases inside
        | some positions =>
          rw [of_decide_eq_true listed] at inside
          exact .inr ⟨position, inside, rfl, of_decide_eq_true own⟩
      refine (Program.Spec.of_only (only_sweep _ ?_) fun _ _ closes => closes).bind
        (fun _ _ _ => current) fun _ _ _ => seen
      intro position member gone
      cases positions with
      | none => exact careful rfl position member
      | some positions =>
        refine (seen position member).resolve_right ?_
        rintro ⟨other, running, ticket, magic⟩
        refine gone (List.mem_map.mpr ⟨other, List.mem_filter.mpr ⟨?_, decide_eq_true magic⟩, ticket⟩)
        rw [of_decide_eq_true listed]
        exact running
  have attempted : ((answered options known answer).attempt : Program Op Answer Empty _).Spec
      (fun op _ => Closes broker op)
      (fun result _ => ∀ value, result = .ok value → AllSeen options broker (concluded known value))
      [] :=
    Program.Spec.attempt (spec.consequence fun result _ ends value same => by cases same; exact ends)
  refine ⟨[], attempted.bind ?_ fun error => error.elim⟩
  rintro result _ ends _ ⟨⟩
  exact ends result rfl

theorem sound_step {state next : State} {label : Label}
    (seen : AllSeen options state.broker state.known)
    (sound : state.left = iteration options state.known ∨ Sound options state.broker state.left)
    (careful : Careful state label) (stepped : step options state label = some next) :
    AllSeen options next.broker next.known ∧
      (next.left = iteration options next.known ∨ Sound options next.broker next.left) := by
  cases label with
  | change broker =>
    rw [step] at stepped
    split at stepped
    · rename_i becomes
      cases stepped
      refine ⟨seen.becomes becomes, sound.imp_right ?_⟩
      rintro ⟨log, spec⟩
      refine ⟨log, (spec.weaken ?_).consequence ?_⟩
      · intro op _ closes
        cases op with
        | recordClosedTrade trade => exact becomes.1 _ closes
        | _ => trivial
      · exact fun result _ ends known same => (ends known same).becomes becomes
    · cases stepped
  | advance answer =>
    rcases sound with begins | ⟨log, spec⟩
    · have listed := careful answer _ rfl begins
      rw [step, begins] at stepped
      change (if state.broker.isTrue .positionsGet (answer .positionsGet) = true then _ else none) = _
        at stepped
      split at stepped
      · rename_i true_
        cases stepped
        exact ⟨seen, .inr (sound_of_answer (answer .positionsGet) seen true_ listed)⟩
      · cases stepped
    · rw [step] at stepped
      split at stepped
      · rename_i op rest here
        split at stepped
        · cases stepped
          rw [here] at spec
          exact ⟨seen, .inr ⟨_, spec.2 (answer op)⟩⟩
        · cases stepped
      · cases stepped
  | again =>
    rw [step] at stepped
    split at stepped
    · rename_i known here
      cases stepped
      rcases sound with begins | ⟨log, spec⟩
      · rw [here] at begins
        cases begins
      · rw [here] at spec
        exact ⟨spec known rfl, .inl rfl⟩
    · cases stepped

/-- **Rows for closed positions only.** Where the monitor is about to write a row, the position is
closed, in every run in which the list of the positions fails only while none that is known is open. -/
theorem recorded_closed {first : Broker} {state : State}
    (reached : Reaches (step options) Careful (start options first) state) {trade : ClosedTrade}
    {rest : Unit → Program Op Answer Empty (Option (List OpenPosition))}
    (writes : state.left = .call (.recordClosedTrade trade) rest) :
    trade.positionID ∈ state.broker.closed := by
  have sound : AllSeen options state.broker state.known ∧
      (state.left = iteration options state.known ∨ Sound options state.broker state.left) := by
    refine reached.invariant ⟨fun position member => absurd member List.not_mem_nil, .inl rfl⟩ ?_
    exact fun _ _ _ _ sound careful stepped => sound_step sound.1 sound.2 careful stepped
  rcases sound.2 with begins | ⟨log, spec⟩
  · rw [writes] at begins
    cases begins
  · rw [writes] at spec
    exact spec.1

def plain : Options where
  magic := 20240101
  cancelSiblingsOnClose := false
  oco := []
  round := id

def heldPosition : OpenPosition where
  ticket := 5
  magic := 20240101
  type := .buy
  volume := 1
  sl := 0
  tp := 0
  comment := []
  symbol := text "EURUSD"
  priceOpen := 1

def isHeld : Broker := ⟨[heldPosition], [], by simp⟩

def isClosed : Broker := ⟨[], [5], by simp⟩

/-- The terminal lists these positions, or none. -/
def lists (positions : Option (List OpenPosition)) : (op : Op) → Answer op
  | .positionsGet => .ok positions
  | .historyDealsGet _ => .ok none
  | .logTxn _ => .ok ()
  | .recordClosedTrade _ => ()
  | .handleCloseOCO _ _ _ => .ok ()

/-- The ticket of the row that is about to be written. -/
def writing (state : State) : Option Nat :=
  match state.left with
  | .call (.recordClosedTrade trade) _ => some trade.positionID
  | _ => none

def isListed : Label → Bool
  | .advance answer => (answer .positionsGet matches .ok none) = false
  | _ => true

/-- The position is seen, then it is closed, and the deals of the position are read. -/
def closedPoll : List Label :=
  [.advance (lists (some [heldPosition])), .again, .change isClosed, .advance (lists (some [])),
    .advance (lists (some [])), .advance (lists (some []))]

theorem recorded_closed_closedPoll : ∃ state trade rest,
    run (step plain) (start plain isHeld) closedPoll = some state ∧
      state.left = .call (.recordClosedTrade trade) rest ∧ trade.positionID ∈ state.broker.closed := by
  obtain ⟨state, ran⟩ := Option.isSome_iff_exists.mp
    (show (run (restrict (step plain) fun _ label => isListed label = true) (start plain isHeld)
      closedPoll).isSome = true from by decide)
  have reached : Reaches (step plain) Careful (start plain isHeld) state := by
    refine (Reaches.of_restrict _ ran).mono fun state label listed answer next same _ failed => ?_
    subst same
    simp [isListed, failed] at listed
  cases ran
  exact ⟨_, _, _, rfl, rfl, recorded_closed reached rfl⟩

/-- The position is seen, then the list of the positions fails, and the deals of the position are read. -/
def failedPoll : List Label :=
  [.advance (lists (some [heldPosition])), .again, .advance (lists none), .advance (lists none),
    .advance (lists none)]

/-- **An open position gets a row** after one failed call. -/
theorem recorded_open : (run (step plain) (start plain isHeld) failedPoll).any (fun state =>
    writing state = some 5 && state.broker.running = [heldPosition] && state.broker.closed.isEmpty) =
      true := by
  decide

end ExecRelay.Shim.Monitor
