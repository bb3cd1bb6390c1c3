/-
**Closing positions and cancelling orders.**

`closePositions` and `cancelOrders` list what is open, send one `DELETE` for each entry that the command
is about, and count those that go through. A `DELETE` that fails is passed over, and the result is
`filled` whatever the count. Both loops are `deleteAll` over the addresses of the entries
(`closeEach_eq`, `cancelEach_eq`).
-/

import ExecRelay.DXTrade.Client

namespace ExecRelay.DXTrade

open Lib

variable {Number : Type} (newRequest : Bytes → Option Bytes) (cfg : InstanceConfig)

/-! ### The loop -/

def deleteAll (req : Bytes → HttpRequest Number) (urls : List Bytes) (count : Nat) :
    Worker Number Nat :=
  urls.foldlM (fun count url => deleteOne newRequest (req url) url count) count

def wantSide (cmd : Command Number) : Bytes :=
  if cmd.action = lit "closebuy" then lit "BUY"
  else if cmd.action = lit "closesell" then lit "SELL"
  else []

def closeTargets (cmd : Command Number) (positions : List PositionInfo) : List Bytes :=
  (positions.filter fun position => position.symbol = cmd.symbol ∧
    (wantSide cmd = [] ∨ position.side = wantSide cmd)).map
      fun position => accountURL cfg "/positions/" ++ position.positionID

def cancelTargets (cmd : Command Number) (orders : List OrderInfo) : List Bytes :=
  (orders.filter fun order => order.symbol = cmd.symbol).map
    fun order => accountURL cfg "/orders/" ++ order.orderID

variable {newRequest cfg}

theorem closeEach_eq (token : Bytes) (cmd : Command Number) (positions : List PositionInfo) :
    ∀ count, closeEach newRequest cfg token cmd (wantSide cmd) positions count =
      deleteAll newRequest (.closePosition · token) (closeTargets cfg cmd positions) count := by
  induction positions with
  | nil => exact fun count => rfl
  | cons position rest ih =>
    intro count
    rw [closeEach, closeTargets]
    by_cases wanted : position.symbol = cmd.symbol ∧
        (wantSide cmd = [] ∨ position.side = wantSide cmd)
    · rw [if_pos wanted, List.filter_cons_of_pos (by simpa using wanted), List.map_cons, deleteAll,
        List.foldlM_cons]
      exact congrArg (deleteOne ..  >>= ·) (funext fun count => ih count)
    · rw [if_neg wanted, List.filter_cons_of_neg (by simpa using wanted)]
      exact ih count

theorem cancelEach_eq (token : Bytes) (cmd : Command Number) (orders : List OrderInfo) :
    ∀ count, cancelEach newRequest cfg token cmd orders count =
      deleteAll newRequest (.deleteOrder · token) (cancelTargets cfg cmd orders) count := by
  induction orders with
  | nil => exact fun count => rfl
  | cons order rest ih =>
    intro count
    rw [cancelEach, cancelTargets]
    by_cases wanted : order.symbol = cmd.symbol
    · rw [if_pos wanted, List.filter_cons_of_pos (by simpa using wanted), List.map_cons, deleteAll,
        List.foldlM_cons]
      exact congrArg (deleteOne ..  >>= ·) (funext fun count => ih count)
    · rw [if_neg wanted, List.filter_cons_of_neg (by simpa using wanted)]
      exact ih count

/-! ### The requests of a run -/

/-- A `DELETE` that went through. -/
def deleted : Event (Op Number) Answer → Bool
  | ⟨.http (.closePosition _ _), answer⟩ => isDeleted answer
  | ⟨.http (.deleteOrder _ _), answer⟩ => isDeleted answer
  | _ => false

/-- **All entries are deleted**: there is one `DELETE` for each address, and it went through. -/
def AllDeleted (req : Bytes → HttpRequest Number) (urls : List Bytes)
    (deletes : List (Event (Op Number) Answer)) : Prop :=
  List.Forall₂ (fun url event => event.op = .http (req url) ∧ deleted event = true) urls deletes

variable {req : Bytes → HttpRequest Number}

theorem log_of_deleteAll (urls : List Bytes) :
    ∀ {count total : Nat} {log : List (Event (Op Number) Answer)},
      (deleteAll newRequest req urls count).Path log (.done total) →
      List.Forall₂ (fun url event => event.op = .http (req url)) urls log := by
  induction urls with
  | nil =>
    intro count total log path
    rw [path.of_done.1]
    exact .nil
  | cons url urls ih =>
    intro count total log path
    rw [deleteAll, List.foldlM_cons, deleteOne] at path
    split at path
    · cases path.of_fail.2
    · obtain ⟨answer, later, rfl, rest⟩ := path.done_of_call
      exact .cons rfl (ih rest)

variable {log : List (Event (Op Number) Answer)} {result : Result}

theorem log_of_request {req : HttpRequest Number} {accepted : List Nat} {context : String}
    {next : HttpRequest.Body req → Worker Number Result}
    (path : (request req accepted context >>= next).Path log (.done result)) :
    ∃ reply later, log = ⟨.http req, .ok reply⟩ :: later ∧ reply.status ∈ accepted ∧
      (next reply.body).Path later (.done result) := by
  obtain ⟨answer, later, rfl, checking⟩ := path.done_of_call
  cases answer with
  | error text => cases checking.of_fail.2
  | ok reply =>
    replace checking : Program.Path ((if reply.status = 401 then .fail .auth
      else if accepted.contains reply.status then .done reply.body
      else .fail (.other (lit context ++ statusText reply.status))) >>= next) later
        (.done result) := checking
    split at checking
    · cases checking.of_fail.2
    · split at checking
      · rename_i known
        exact ⟨reply, later, rfl, List.contains_iff_mem.mp known, checking⟩
      · cases checking.of_fail.2

theorem path_of_checkURL {url : Bytes} {next : Unit → Worker Number Result}
    (path : (checkURL newRequest url >>= next).Path log (.done result)) :
    (next ()).Path log (.done result) := by
  unfold checkURL at path
  split at path
  · cases path.of_fail.2
  · exact path

variable {cmd : Command Number} {token : Bytes}

/-- **What a run of `closePositions` that returns has done.** -/
theorem log_of_closePositions
    (path : (closePositions newRequest cfg token cmd).Path log (.done result)) :
    ∃ positions deletes,
      log = ⟨.http (.listPositions (accountURL cfg "/positions") token), .ok ⟨200, .ok positions⟩⟩ ::
        deletes ∧
      List.Forall₂ (fun url event => event.op = .http (.closePosition url token))
        (closeTargets cfg cmd positions) deletes ∧ result.status = lit "filled" := by
  obtain ⟨⟨status, body⟩, later, rfl, known, rest⟩ := log_of_request (path_of_checkURL path)
  cases List.mem_singleton.mp known
  cases body with
  | error text => cases rest.of_fail.2
  | ok positions =>
    replace rest : Program.Path (closeEach newRequest cfg token cmd (wantSide cmd) positions 0 >>=
      fun closed => pure { status := lit "filled", brokerOrderID := lit "closed:" ++ statusText closed })
        later (.done result) := rest
    rw [closeEach_eq] at rest
    obtain ⟨total, deletes, _, ended, rfl, returning⟩ := rest.done_of_bind
    obtain ⟨rfl, same⟩ := returning.of_done
    cases same
    rw [List.append_nil]
    exact ⟨positions, deletes, rfl, log_of_deleteAll _ ended, rfl⟩

/-- **What a run of `cancelOrders` that returns has done.** -/
theorem log_of_cancelOrders (path : (cancelOrders newRequest cfg token cmd).Path log (.done result)) :
    ∃ orders deletes,
      log = ⟨.http (.listOrders (accountURL cfg "/orders") token), .ok ⟨200, .ok orders⟩⟩ ::
        deletes ∧
      List.Forall₂ (fun url event => event.op = .http (.deleteOrder url token))
        (cancelTargets cfg cmd orders) deletes ∧ result.status = lit "filled" := by
  obtain ⟨⟨status, body⟩, later, rfl, known, rest⟩ := log_of_request (path_of_checkURL path)
  cases List.mem_singleton.mp known
  cases body with
  | error text => cases rest.of_fail.2
  | ok orders =>
    replace rest : Program.Path (cancelEach newRequest cfg token cmd orders 0 >>= fun cancelled =>
      pure { status := lit "filled", brokerOrderID := lit "cancelled:" ++ statusText cancelled })
        later (.done result) := rest
    rw [cancelEach_eq] at rest
    obtain ⟨total, deletes, _, ended, rfl, returning⟩ := rest.done_of_bind
    obtain ⟨rfl, same⟩ := returning.of_done
    cases same
    rw [List.append_nil]
    exact ⟨orders, deletes, rfl, log_of_deleteAll _ ended, rfl⟩

/-! ### What `filled` means -/

theorem allDeleted_iff {urls : List Bytes} {deletes : List (Event (Op Number) Answer)}
    (sent : List.Forall₂ (fun url event => event.op = .http (req url)) urls deletes) :
    AllDeleted req urls deletes ↔ ∀ event ∈ deletes, deleted event = true := by
  unfold AllDeleted
  induction sent with
  | nil => simp
  | cons here _ ih => simp [here, ih]

variable (cfg) in
/-- **A result of `closePositions` is `filled` only if every position of the list that the command is
about is deleted.** -/
def FilledMeansClosed (token : Bytes) (cmd : Command Number) (result : Result)
    (log : List (Event (Op Number) Answer)) : Prop :=
  ∃ positions deletes,
    log = ⟨.http (.listPositions (accountURL cfg "/positions") token), .ok ⟨200, .ok positions⟩⟩ ::
      deletes ∧
    (result.status = lit "filled" →
      AllDeleted (.closePosition · token) (closeTargets cfg cmd positions) deletes)

variable (cfg) in
/-- **A result of `cancelOrders` is `filled` only if every order of the list that the command is about is
deleted.** -/
def FilledMeansCancelled (token : Bytes) (cmd : Command Number) (result : Result)
    (log : List (Event (Op Number) Answer)) : Prop :=
  ∃ orders deletes,
    log = ⟨.http (.listOrders (accountURL cfg "/orders") token), .ok ⟨200, .ok orders⟩⟩ :: deletes ∧
    (result.status = lit "filled" →
      AllDeleted (.deleteOrder · token) (cancelTargets cfg cmd orders) deletes)

theorem filledMeansClosed_iff
    (path : (closePositions newRequest cfg token cmd).Path log (.done result)) :
    FilledMeansClosed cfg token cmd result log ↔ ∀ event ∈ log.tail, deleted event = true := by
  obtain ⟨positions, deletes, rfl, sent, filled⟩ := log_of_closePositions path
  rw [List.tail_cons, ← allDeleted_iff sent]
  constructor
  · rintro ⟨_, _, same, closed⟩
    cases same
    exact closed filled
  · exact fun closed => ⟨positions, deletes, rfl, fun _ => closed⟩

theorem filledMeansCancelled_iff
    (path : (cancelOrders newRequest cfg token cmd).Path log (.done result)) :
    FilledMeansCancelled cfg token cmd result log ↔ ∀ event ∈ log.tail, deleted event = true := by
  obtain ⟨orders, deletes, rfl, sent, filled⟩ := log_of_cancelOrders path
  rw [List.tail_cons, ← allDeleted_iff sent]
  constructor
  · rintro ⟨_, _, same, cancelled⟩
    cases same
    exact cancelled filled
  · exact fun cancelled => ⟨orders, deletes, rfl, fun _ => cancelled⟩

/-- **`filled` means deleted exactly in the runs in which no `DELETE` fails**: all requests behind the one
for the list are answered with 200 or 204. -/
theorem filled_iff_deleted (newRequest : Bytes → Option Bytes) (cfg : InstanceConfig) (token : Bytes)
    (cmd : Command Number) (result : Result) (log : List (Event (Op Number) Answer)) :
    ((closePositions newRequest cfg token cmd).Path log (.done result) →
      (FilledMeansClosed cfg token cmd result log ↔ ∀ event ∈ log.tail, deleted event = true)) ∧
    ((cancelOrders newRequest cfg token cmd).Path log (.done result) →
      (FilledMeansCancelled cfg token cmd result log ↔
        ∀ event ∈ log.tail, deleted event = true)) :=
  ⟨filledMeansClosed_iff, filledMeansCancelled_iff⟩

/-! ### Two runs -/

def demoAccount : InstanceConfig where
  instanceID := lit "dx-a"
  host := lit "demo"
  username := lit "u"
  password := lit "p"
  account := lit "A1"

def closeEverything : Command ℚ :=
  ⟨lit "trace-1", lit "closeall", lit "EURUSD", 0⟩

def cancelEverything : Command ℚ :=
  ⟨lit "trace-2", lit "cancel", lit "EURUSD", 0⟩

/-- A server with one position and one order, and its answer to a `DELETE`. -/
def serving (answer : Except Bytes (HttpReply Unit)) : (op : Op ℚ) → Answer op
  | .passBreaker _ => none
  | .report _ _ => ()
  | .readToken _ => lit "session"
  | .storeToken _ _ => ()
  | .http (.login _ _ _) => .ok ⟨200, .ok (lit "session")⟩
  | .http (.placeOrder _ _ _) => .ok ⟨200, some (lit "9")⟩
  | .http (.listPositions _ _) => .ok ⟨200, .ok [⟨lit "EURUSD", lit "BUY", lit "1"⟩]⟩
  | .http (.closePosition _ _) => answer
  | .http (.listOrders _ _) => .ok ⟨200, .ok [⟨lit "EURUSD", lit "2"⟩]⟩
  | .http (.deleteOrder _ _) => answer
  | .publishFill _ _ => none
  | .dispose _ _ => ()

def closing : Worker ℚ Result :=
  closePositions (fun _ => none) demoAccount (lit "session") closeEverything

def cancelling : Worker ℚ Result :=
  cancelOrders (fun _ => none) demoAccount (lit "session") cancelEverything

def logOf (worker : Worker ℚ Result) (answer : Except Bytes (HttpReply Unit)) :
    List (Event (Op ℚ) Answer) :=
  (worker.calls (serving answer)).map fun op => ⟨op, serving answer op⟩

theorem exists_path (worker : Worker ℚ Result) (answer : Except Bytes (HttpReply Unit))
    (returns : (worker.outcome (serving answer)).isOk = true) :
    ∃ result, worker.Path (logOf worker answer) (.done result) := by
  cases ended : worker.outcome (serving answer) with
  | error error =>
    rw [ended] at returns
    cases returns
  | ok result => exact ⟨result, Program.Path.of_outcome _ ended⟩

/-- The position is closed and the order is cancelled. -/
theorem filled_iff_deleted_both :
    (∃ result, closing.Path (logOf closing (.ok ⟨200, ()⟩)) (.done result) ∧
      FilledMeansClosed demoAccount (lit "session") closeEverything result
        (logOf closing (.ok ⟨200, ()⟩))) ∧
    ∃ result, cancelling.Path (logOf cancelling (.ok ⟨204, ()⟩)) (.done result) ∧
      FilledMeansCancelled demoAccount (lit "session") cancelEverything result
        (logOf cancelling (.ok ⟨204, ()⟩)) := by
  obtain ⟨closed, closePath⟩ := exists_path closing (.ok ⟨200, ()⟩)
    (by decide +kernel)
  obtain ⟨cancelled, cancelPath⟩ := exists_path cancelling (.ok ⟨204, ()⟩)
    (by decide +kernel)
  have bothDeleted : (logOf closing (.ok ⟨200, ()⟩)).tail.all deleted = true ∧
      (logOf cancelling (.ok ⟨204, ()⟩)).tail.all deleted = true := by
    decide +kernel
  rw [List.all_eq_true, List.all_eq_true] at bothDeleted
  exact ⟨⟨closed, closePath,
      ((filled_iff_deleted _ _ _ _ _ _).1 closePath).mpr bothDeleted.1⟩,
    cancelled, cancelPath, ((filled_iff_deleted _ _ _ _ _ _).2 cancelPath).mpr bothDeleted.2⟩

/-- **A position and an order that are left open.** The `DELETE` times out, and the results are
`filled`. -/
theorem filled_undeleted :
    (∃ result, closing.Path (logOf closing (.error (lit "timeout"))) (.done result) ∧
      result.status = lit "filled" ∧
      ¬FilledMeansClosed demoAccount (lit "session") closeEverything result
        (logOf closing (.error (lit "timeout")))) ∧
    ∃ result, cancelling.Path (logOf cancelling (.error (lit "timeout"))) (.done result) ∧
      result.status = lit "filled" ∧
      ¬FilledMeansCancelled demoAccount (lit "session") cancelEverything result
        (logOf cancelling (.error (lit "timeout"))) := by
  obtain ⟨closed, closePath⟩ := exists_path closing (.error (lit "timeout"))
    (by decide +kernel)
  obtain ⟨cancelled, cancelPath⟩ := exists_path cancelling
    (.error (lit "timeout")) (by decide +kernel)
  have noneDeleted : (logOf closing (.error (lit "timeout"))).tail.all deleted = false ∧
      (logOf cancelling (.error (lit "timeout"))).tail.all deleted = false := by
    decide +kernel
  obtain ⟨_, _, _, _, closeFilled⟩ := log_of_closePositions closePath
  obtain ⟨_, _, _, _, cancelFilled⟩ := log_of_cancelOrders cancelPath
  refine ⟨⟨closed, closePath, closeFilled, ?_⟩, cancelled, cancelPath, cancelFilled, ?_⟩
  · rw [filledMeansClosed_iff closePath, ← List.all_eq_true]
    exact Bool.eq_false_iff.mp noneDeleted.1
  · rw [filledMeansCancelled_iff cancelPath, ← List.all_eq_true]
    exact Bool.eq_false_iff.mp noneDeleted.2

end ExecRelay.DXTrade
