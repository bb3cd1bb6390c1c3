/-
**Closing positions.**

The terminal closes positions for the commands `closebuy`, `closesell` and `closeall`. The parser knows
the first two as `closelong` and `closeshort`, and these words are what the signal carries: the terminal
answers them with `UNKNOWN_CMD` and leaves every position open.
-/

import ExecRelay.EA.Orders
import ExecRelay.EA.RoundTrip

namespace ExecRelay.EA

open Lib
open Lib.Program (Only Path)
open Bridge (signalMsg)
open Ingress (LicenseRecord signalProto Time)

variable {Number : Type}

def closedTicket : Op Number → Option Nat
  | .positionClose ticket => some ticket
  | _ => none

def isTarget (settings : Settings) (sym : Bytes) (side : PositionType) (position : Position Number) :
    Bool :=
  isOwn settings sym position && position.type = side

/-! ### The words of the parser -/

def closingSide : Parser.Command → Option PositionType
  | .closeLong => some .buy
  | .closeShort => some .sell
  | _ => none

def closesNothing (op : Op Number) : Prop :=
  closedTicket op = none

variable (doubles : Doubles Number)

theorem closesNothing_runCommand {command : Parser.Command} {side : PositionType}
    (closing : closingSide command = some side) (settings : Settings) (traceID sym params : Bytes)
    (request : Request Number) :
    (runCommand doubles settings traceID command.string sym params request).Only closesNothing := by
  have unknown : runCommand doubles settings traceID command.string sym params request =
      sendFill traceID (lit "rejected") [] (lit "UNKNOWN_CMD")
        (lit "unhandled command: " ++ command.string) := by
    cases command <;> first | (cases closing; done) | rfl
  rw [unknown]
  exact ⟨rfl, fun _ => trivial⟩

theorem closesNothing_executeSignal {command : Parser.Command} {side : PositionType}
    (closing : closingSide command = some side) (settings : Settings) (traceID rawSym params : Bytes) :
    (executeSignal doubles settings traceID command.string rawSym params).Only closesNothing := by
  unfold executeSignal
  refine ⟨rfl, fun selected => ?_⟩
  cases selected with
  | false => exact ⟨rfl, fun _ => trivial⟩
  | true =>
    refine ⟨rfl, fun ask => ⟨rfl, fun bid => ⟨rfl, fun digits => ⟨rfl, fun point => ?_⟩⟩⟩⟩
    exact closesNothing_runCommand doubles closing ..

variable {doubles} {body : Bytes} {signal : Parser.Signal} {side : PositionType}
  {settings : Settings} {log : List (Event (Op Number) Answer)} {rest : Terminal Number Bool}

def attempts (log : List (Event (Op Number) Answer)) : List Nat :=
  log.filterMap fun event => closedTicket event.op

/-- **The terminal closes nothing** for the words of the parser. -/
theorem attempts_eq_nil (closing : closingSide signal.command = some side) (record : LicenseRecord)
    (region traceID : Bytes) (received : Time)
    (path : (handleMessage doubles settings true
      (signalMsg (signalProto signal record region traceID body received)).text).Path log rest) :
    attempts log = [] := by
  have command : jGetStr (signalMsg (signalProto signal record region traceID body received)).text
      (lit "command") = signal.command.string := by
    rw [jGetStr_command]
    exact readBack_of_isPlain (Ingress.word_commandString signal.command).isPlain
  have only : (handleMessage doubles settings true
      (signalMsg (signalProto signal record region traceID body received)).text).Only closesNothing := by
    unfold handleMessage
    rw [jGetStr_type, command]
    exact (closesNothing_executeSignal doubles closing ..).bind fun _ => trivial
  exact List.filterMap_eq_nil_iff.mpr (only.of_path path).2

/-- **The right positions are closed**: those of the EA on the symbol that are of the side. -/
def Closes (settings : Settings) (sym : Bytes) (side : PositionType)
    (positions : List (Position Number)) (log : List (Event (Op Number) Answer)) : Prop :=
  ∀ ticket, ticket ∈ attempts log ↔
    ∃ position ∈ positions, position.ticket = ticket ∧ isTarget settings sym side position = true

theorem closes_iff_of_attempts_eq_nil {sym : Bytes} {positions : List (Position Number)}
    (none_ : attempts log = []) : Closes settings sym side positions log ↔
      ∀ position ∈ positions, isTarget settings sym side position = false := by
  unfold Closes
  rw [none_]
  constructor
  · intro closes position inside
    rw [← Bool.not_eq_true]
    intro target
    exact absurd ((closes position.ticket).mpr ⟨position, inside, rfl, target⟩) List.not_mem_nil
  · intro absent ticket
    refine ⟨fun inside => absurd inside List.not_mem_nil, ?_⟩
    rintro ⟨position, inside, rfl, target⟩
    rw [absent position inside] at target
    cases target

/-- **When an alert with `closelong` or `closeshort` closes the right positions**: exactly if there are
none. The terminal may answer what it likes. -/
theorem closes_iff (closing : closingSide signal.command = some side) (record : LicenseRecord)
    (region traceID : Bytes) (received : Time) (positions : List (Position Number)) {result : Bool}
    (path : (handleMessage doubles settings true
      (signalMsg (signalProto signal record region traceID body received)).text).Path log
        (.done result)) :
    Closes settings (mapSymbol settings signal.symbol) side positions log ↔
      ∀ position ∈ positions,
        isTarget settings (mapSymbol settings signal.symbol) side position = false :=
  closes_iff_of_attempts_eq_nil (attempts_eq_nil closing record region traceID received path)

/-! ### One position -/

def closeAlert : Bytes :=
  lit "60123456789,closelong,EURUSD"

def closeSignal : Parser.Signal where
  licenseID := lit "60123456789"
  command := .closeLong
  rawCommand := lit "closelong"
  symbol := lit "EURUSD"
  params := []

def closeText : Bytes :=
  (signalMsg (signalProto closeSignal { licenseID := lit "60123456789", instanceID := lit "mt5-a" }
    (lit "iad") (lit "trace-fixture-0001") closeAlert 1700000000000000000)).text

def openPosition (type : PositionType) : Position ℚ where
  ticket := 5
  symbol := lit "EURUSD"
  magic := 20240101
  type := type
  comment := lit "ExecRelay"
  sl := 0
  tp := 0

/-- A terminal that knows the symbol, with one position; every request goes through. -/
def onePosition (type : PositionType) : (op : Op ℚ) → Answer op
  | .symbolSelect _ => true
  | .symbolInfoDouble _ .point => 0.00001
  | .symbolInfoDouble _ _ => 1
  | .symbolDigits _ => 5
  | .send _ => ⟨true, 6, 10009, []⟩
  | .positionsTotal => 1
  | .position index => [openPosition type][index]?
  | .positionClose _ => true
  | .positionModify _ _ _ => true
  | .ordersTotal => 0
  | .order _ => none
  | .orderDelete _ => true
  | .wsSendText _ => true
  | .trackPending _ _ => ()

theorem parse_closeAlert : Parser.parse closeAlert = .ok closeSignal := by
  decide +kernel

theorem path_closeText (type : PositionType) : ∃ result,
    (handleMessage Doubles.exact {} true closeText).Path
      (((handleMessage Doubles.exact {} true closeText).calls (onePosition type)).map
        fun op => ⟨op, onePosition type op⟩) (.done result) := by
  cases ends : (handleMessage Doubles.exact {} true closeText).outcome (onePosition type) with
  | ok result => exact ⟨result, Path.of_outcome _ ends⟩
  | error error => exact error.elim

/-- With a sell only there is nothing to close. -/
theorem closes_iff_sell : Parser.parse closeAlert = .ok closeSignal ∧
    Closes {} (lit "EURUSD") .buy [openPosition .sell]
      (((handleMessage Doubles.exact {} true closeText).calls (onePosition .sell)).map
        fun op => ⟨op, onePosition .sell op⟩) := by
  refine ⟨parse_closeAlert, ?_⟩
  obtain ⟨result, path⟩ := path_closeText .sell
  have closes := (closes_iff rfl _ _ _ _ [openPosition .sell] path).mpr
  refine closes fun position inside => ?_
  rw [List.mem_singleton.mp inside]
  rfl

/-- **A buy stays open** when the alert says `closelong`, on a symbol that the terminal knows. -/
theorem not_closes_buy : Parser.parse closeAlert = .ok closeSignal ∧
    isTarget {} (mapSymbol {} (lit "EURUSD")) .buy (openPosition .buy) = true ∧
    onePosition .buy (.symbolSelect (mapSymbol {} (lit "EURUSD"))) = true ∧
    ¬ Closes {} (mapSymbol {} (lit "EURUSD")) .buy [openPosition .buy]
      (((handleMessage Doubles.exact {} true closeText).calls (onePosition .buy)).map
        fun op => ⟨op, onePosition .buy op⟩) := by
  have target : isTarget {} (mapSymbol {} (lit "EURUSD")) .buy (openPosition .buy) = true := by
    decide +kernel
  refine ⟨parse_closeAlert, target, rfl, fun closes => ?_⟩
  obtain ⟨result, path⟩ := path_closeText .buy
  have none_ := attempts_eq_nil (show closingSide closeSignal.command = some .buy from rfl) _ _ _ _
    path
  have absent := (closes_iff_of_attempts_eq_nil none_).mp closes _ (List.mem_singleton_self _)
  cases absent

end ExecRelay.EA
