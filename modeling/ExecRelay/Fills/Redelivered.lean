/-
**Fills that are delivered again.**

JetStream delivers a message again until it is acknowledged. `on_fill` inserts a row each time: the
`ON CONFLICT DO NOTHING` of its statement is about the id, which is generated with the row.

The handlers of all deliveries run at the same time, statement by statement, while other services change
the licenses and the instances. The ids and the times that the database generates are any.
-/

import ExecRelay.Fills.Table

namespace ExecRelay.Fills

open Lib
open Nats (Message)
open Persist (Database Failure)

/-! ### The service -/

/-- A message as the consumer gets it, with its place in the stream. -/
structure Delivered where
  number : Nat
  msg : Message
deriving DecidableEq, Repr

/-- The tables, and how many rows were generated. -/
structure Store where
  db : Database
  fills : FillTable
  generated : Nat := 0

def isSelected (db : Database) (instanceKey : Member) : Option (Nat × Nat) → Bool
  | some row => row ∈ joined db instanceKey
  | none => joined db instanceKey = []

section Service

variable (ids : Nat → Nat) (clock : Nat → Int)

/-- A statement. The ids and the times of the rows come from `ids` and `clock`, in the order in which
the rows are generated. -/
def serve (store : Store) (_ : Nat) : (op : Op) → Answer op → Option Store
  | .selectInstance instanceKey, .ok found =>
    if isSelected store.db instanceKey found then some store else none
  | .insertFill _, .error .refused => some store
  | .insertFill row, _ =>
    (row.stored (ids store.generated) (clock store.generated)).map fun stored =>
      { store with fills := store.fills.insert stored, generated := store.generated + 1 }
  | _, _ => some store

def machine (loads : Bytes → Except Bytes FillDict) (hasPool : Bool) :
    Machine Store Delivered Database Op Answer Empty where
  start := fun delivery => onFill loads hasPool delivery.msg
  arrive := fun store _ => some store
  serve := serve ids clock
  change := fun store db => some { store with db := db }

end Service

abbrev FillState := Machine.State Store Delivered Op Answer Empty

abbrev FillLabel := Machine.Label Delivered Database Op Answer

/-! ### What is inserted -/

def isInsert : Event Op Answer → Bool
  | ⟨.insertFill _, _⟩ => true
  | _ => false

def MadeOf (loads : Bytes → Except Bytes FillDict) (msg : Message) (row : StoredFill) : Prop :=
  ∃ fill licenseId id createdAt, loadFill loads msg = .ok fill ∧
    (fillRow fill licenseId).stored id createdAt = some row

/-- A handler inserts the fill of its message, and nothing before it. -/
def InsertsOnce (loads : Bytes → Except Bytes FillDict) (msg : Message) :
    Op → List (Event Op Answer) → Prop
  | .insertFill row, log => (∃ fill licenseId, loadFill loads msg = .ok fill ∧
      row = fillRow fill licenseId) ∧ ∀ event ∈ log, isInsert event = false
  | _, _ => True

/-- **A handler inserts at most once.** -/
theorem spec_inserts (loads : Bytes → Except Bytes FillDict) (hasPool : Bool) (msg : Message) :
    (onFill loads hasPool msg).Spec (InsertsOnce loads msg) (fun _ _ => True) [] := by
  refine spec_onFill (fun _ => trivial) (fun fill reads => ?_) fun err => ?_
  · refine ⟨trivial, fun acquired => ?_⟩
    cases acquired with
    | error failure => trivial
    | ok _ =>
      refine ⟨trivial, fun answer => ?_⟩
      match answer with
      | .error failure => trivial
      | .ok none => trivial
      | .ok (some found) =>
        refine ⟨⟨⟨fill, found.1, reads, rfl⟩, ?_⟩, fun answer => ?_⟩
        · simp [isInsert]
        · cases answer <;> trivial
  · cases hasPool with
    | false => trivial
    | true =>
      refine ⟨trivial, fun acquired => ?_⟩
      cases acquired with
      | error failure => trivial
      | ok _ =>
        refine ⟨trivial, fun answer => ?_⟩
        cases answer <;> trivial

/-- **What a statement does to the table.** -/
theorem fills_of_serve {ids : Nat → Nat} {clock : Nat → Int} {store next : Store} (index : Nat) {op : Op}
    {answer : Answer op} (served : serve ids clock store index op answer = some next) :
    next.fills = store.fills ∨ ∃ row stored id createdAt, op = .insertFill row ∧
      row.stored id createdAt = some stored ∧ next.fills = store.fills.insert stored := by
  unfold serve at served
  split at served
  · split at served
    · cases served
      exact .inl rfl
    · cases served
  · cases served
    exact .inl rfl
  · obtain ⟨stored, storedAs, rfl⟩ := Option.map_eq_some_iff.mp served
    exact .inr ⟨_, stored, _, _, rfl, storedAs, rfl⟩
  · cases served
    exact .inl rfl

/-! ### Runs -/

section Runs

variable {ids : Nat → Nat} {clock : Nat → Int} {loads : Bytes → Except Bytes FillDict} {hasPool : Bool}
  {allowed : FillState → FillLabel → Prop} {store : Store} {state next : FillState} {label : FillLabel}

/-- A handler has inserted the row. -/
structure Wrote (loads : Bytes → Except Bytes FillDict) (state : FillState) (row : StoredFill)
    (index : Nat) : Prop where
  message : ∃ delivery, state.input index = some delivery ∧ MadeOf loads delivery.msg row
  inserted : ∃ event ∈ state.log index, isInsert event = true

theorem Wrote.step {row : StoredFill} {index : Nat} (wrote : Wrote loads state row index)
    (stepped : (machine ids clock loads hasPool).step state label = some next) :
    Wrote loads next row index := by
  obtain ⟨⟨delivery, given, made⟩, event, member, inserts⟩ := wrote
  exact ⟨⟨delivery, Machine.input_step stepped given, made⟩, event,
    Machine.mem_log_step stepped member, inserts⟩

/-- **The rows that were added**, each by another handler. -/
def Tracked (loads : Bytes → Except Bytes FillDict) (start : FillTable) (state : FillState) : Prop :=
  ∃ added : List (StoredFill × Nat), state.world.fills.rows = start.rows ++ added.map Prod.fst ∧
    (added.map Prod.snd).Nodup ∧ ∀ pair ∈ added, Wrote loads state pair.1 pair.2

theorem insertsOnce_of_call
    (reached : (machine ids clock loads hasPool).Reached allowed store state) {index : Nat}
    {delivery : Delivered} {op : Op} {rest : Answer op → Program Op Answer Empty Unit}
    (found : state.threads[index]? = some ⟨delivery, .call op rest⟩) :
    InsertsOnce loads delivery.msg op (state.log index) := by
  have path := Machine.path_of_reaches reached index _ found
  exact ((spec_inserts loads hasPool delivery.msg).of_path path).1

/-- **In every run the rows were inserted by different handlers.** -/
theorem tracked_of_reaches
    (reached : (machine ids clock loads hasPool).Reached allowed store state) :
    Tracked loads store.fills state := by
  refine reached.invariant ⟨[], by simp, List.nodup_nil, List.forall_mem_nil _⟩ ?_
  rintro state label next reached ⟨added, rows, distinct, wrote⟩ _ stepped
  have kept : ∀ pair ∈ added, Wrote loads next pair.1 pair.2 :=
    fun pair member => (wrote pair member).step stepped
  have same (unchanged : next.world.fills = state.world.fills) : Tracked loads store.fills next :=
    ⟨added, by rw [unchanged, rows], distinct, kept⟩
  rcases Machine.step_cases stepped with ⟨_, world, _, arrived, rfl⟩ |
    ⟨index, answer, delivery, op, rest, world, rfl, found, served, rfl⟩ | ⟨_, world, _, changed, rfl⟩
  · cases arrived
    exact same rfl
  · rcases fills_of_serve index served with unchanged | ⟨row, stored, id, createdAt, rfl, storedAs, changed⟩
    · exact same unchanged
    · obtain ⟨⟨fill, licenseId, reads, rfl⟩, none⟩ := insertsOnce_of_call reached found
      cases known : state.world.fills.has stored.id with
      | true =>
        refine same (changed.trans ?_)
        rw [FillTable.insert, dif_pos known]
      | false =>
        have new : index ∉ added.map Prod.snd := by
          -- a handler that has inserted does not insert again
          intro inside
          obtain ⟨pair, member, rfl⟩ := List.mem_map.mp inside
          obtain ⟨event, made, inserts⟩ := (wrote pair member).inserted
          rw [none event made] at inserts
          cases inserts
        have given := Machine.input_step stepped (Machine.input_of_getElem? found)
        refine ⟨added ++ [(stored, index)], ?_, ?_, ?_⟩
        · rw [Machine.State.record_world, changed, FillTable.rows_insert, known, rows]
          simp
        · rw [List.map_append, List.map_singleton, ← List.concat_eq_append]
          exact distinct.concat new
        · rw [List.forall_mem_append, List.forall_mem_singleton]
          exact ⟨kept, ⟨delivery, given, fill, licenseId, id, createdAt, reads, storedAs⟩, _,
            Machine.mem_log_record.mpr (.inr ⟨rfl, rfl⟩), rfl⟩
  · cases changed
    exact same rfl

/-! ### Deliveries -/

/-- The message holds a fill. -/
def isFill (loads : Bytes → Except Bytes FillDict) (msg : Message) : Bool :=
  (loadFill loads msg).toOption.isSome

/-- **No fill is delivered again.** -/
def isSingle (loads : Bytes → Except Bytes FillDict) (state : FillState) : FillLabel → Bool
  | .begin delivery =>
    state.threads.all (fun thread => thread.input.number ≠ delivery.number) ||
      !isFill loads delivery.msg
  | _ => true

def Single (loads : Bytes → Except Bytes FillDict) (state : FillState) (label : FillLabel) : Prop :=
  isSingle loads state label = true

instance (loads : Bytes → Except Bytes FillDict) (state : FillState) (label : FillLabel) :
    Decidable (Single loads state label) :=
  inferInstanceAs (Decidable (_ = true))

theorem isFill_of_madeOf {msg : Message} {row : StoredFill} (made : MadeOf loads msg row) :
    isFill loads msg = true := by
  obtain ⟨fill, _, _, _, reads, _⟩ := made
  rw [isFill, reads]
  rfl

theorem not_isFill_of_later
    (reached : (machine ids clock loads hasPool).Reached (Single loads) store state)
    {first later : Nat} {delivery other : Delivered} (earlier : first < later)
    (given : state.input first = some delivery) (again : state.input later = some other)
    (same : delivery.number = other.number) : isFill loads other.msg = false := by
  have all : ∀ first later (delivery other : Delivered), first < later →
      state.input first = some delivery → state.input later = some other →
      delivery.number = other.number → isFill loads other.msg = false := by
    refine reached.invariant (fun first later delivery other _ given => ?_) ?_
    · cases given
    · intro state label next _ good single stepped first later delivery other earlier given again same
      have old : state.input first = some delivery := by
        rcases Machine.input_of_step stepped given with old | ⟨_, isLast⟩
        · exact old
        · rcases Machine.input_of_step stepped again with before | ⟨_, last⟩
          · have inside := (Machine.mem_of_input before).1
            omega
          · omega
      rcases Machine.input_of_step stepped again with before | ⟨rfl, _⟩
      · exact good first later delivery other earlier old before same
      · obtain ⟨_, thread, member, rfl⟩ := Machine.mem_of_input old
        rcases (Bool.or_eq_true _ _).mp single with different | noFill
        · exact absurd same (of_decide_eq_true (List.all_eq_true.mp different thread member))
        · exact (Bool.not_eq_true' _).mp noFill
  exact all first later delivery other earlier given again same

theorem index_eq_of_number
    (reached : (machine ids clock loads hasPool).Reached (Single loads) store state)
    {index other : Nat} {delivery again : Delivered} (given : state.input index = some delivery)
    (givenAgain : state.input other = some again) (fill : isFill loads delivery.msg = true)
    (fillAgain : isFill loads again.msg = true) (same : delivery.number = again.number) :
    index = other := by
  rcases Nat.lt_trichotomy index other with before | equal | after
  · have noFill := not_isFill_of_later reached before given givenAgain same
    rw [fillAgain] at noFill
    cases noFill
  · exact equal
  · have noFill := not_isFill_of_later reached after givenAgain given same.symm
    rw [fill] at noFill
    cases noFill

/-- **At most one row for each fill.** The rows that were added hold fills of different messages, and the
handlers of a message that was delivered before insert nothing. -/
structure OneEach (loads : Bytes → Except Bytes FillDict) (start : FillTable) (state : FillState) :
    Prop where
  rows : ∃ added : List (StoredFill × Nat),
    state.world.fills.rows = start.rows ++ added.map Prod.fst ∧ (added.map Prod.snd).Nodup ∧
    ∀ pair ∈ added, ∃ index delivery, state.input index = some delivery ∧ delivery.number = pair.2 ∧
      MadeOf loads delivery.msg pair.1
  again : ∀ first later (delivery other : Delivered), first < later →
    state.input first = some delivery → state.input later = some other →
    delivery.number = other.number → ∀ event ∈ state.log later, isInsert event = false

/-- **One row each**, in every state of every run in which no fill is delivered again. -/
theorem one_row_each_fill
    (reached : (machine ids clock loads hasPool).Reached (Single loads) store state) :
    OneEach loads store.fills state where
  rows := by
    obtain ⟨added, rows, distinct, wrote⟩ := tracked_of_reaches reached
    let number (index : Nat) : Nat := ((state.input index).map Delivered.number).getD 0
    refine ⟨added.map fun pair => (pair.1, number pair.2), ?_, ?_, ?_⟩
    · rw [rows, List.map_map]
      rfl
    · have numbers : (added.map fun pair => (pair.1, number pair.2)).map Prod.snd =
          (added.map Prod.snd).map number := by
        rw [List.map_map, List.map_map]
        rfl
      rw [numbers]
      refine distinct.map_on fun left isLeft right isRight same => ?_
      obtain ⟨⟨_, index⟩, leftMember, rfl⟩ := List.mem_map.mp isLeft
      obtain ⟨⟨_, other⟩, rightMember, rfl⟩ := List.mem_map.mp isRight
      obtain ⟨delivery, given, made⟩ := (wrote _ leftMember).message
      obtain ⟨again, givenAgain, madeAgain⟩ := (wrote _ rightMember).message
      refine index_eq_of_number reached given givenAgain (isFill_of_madeOf made)
        (isFill_of_madeOf madeAgain) ?_
      simpa only [number, given, givenAgain, Option.map_some, Option.getD_some] using same
    · rw [List.forall_mem_map]
      intro pair member
      obtain ⟨delivery, given, made⟩ := (wrote pair member).message
      refine ⟨pair.2, delivery, given, ?_, made⟩
      show delivery.number = ((state.input pair.2).map Delivered.number).getD 0
      rw [given]
      rfl
  again := by
    intro first later delivery other earlier given repeated same event member
    have noFill := not_isFill_of_later reached earlier given repeated same
    cases inserts : isInsert event with
    | false => rfl
    | true =>
      obtain ⟨front, back, _, once⟩ :=
        Machine.before_of_reaches reached repeated (spec_inserts loads hasPool other.msg) member
      obtain ⟨op, answer⟩ := event
      cases op with
      | insertFill row =>
        obtain ⟨⟨fill, _, reads, _⟩, _⟩ := once
        rw [isFill, reads] at noFill
        cases noFill
      | acquire | selectInstance _ | insertDeadLetter _ | ack => cases inserts

end Runs

/-! ### One fill, delivered twice -/

def soleDatabase : Database where
  licenses := [⟨1, lit "60123456789", true⟩]
  instances := [⟨5, 1, lit "main-1"⟩]

def soleFill : Delivered :=
  ⟨1, lit "fills.main-1.t-1", lit "\x7b\"trace_id\":\"t-1\",\"status\":\"filled\"\x7d"⟩

/-- `json.loads`, at the message that is sent. -/
def loadsSole (raw : Bytes) : Except Bytes FillDict :=
  if raw = soleFill.msg.data then
    .ok [(lit "trace_id", .text (lit "t-1")), (lit "status", .text (lit "filled"))]
  else .error []

def soleStore : Store :=
  ⟨soleDatabase, FillTable.empty, 0⟩

def soleMachine : Machine Store Delivered Database Op Answer Empty :=
  machine (fun count => count) (fun _ => 0) loadsSole true

/-- The message is handled, and delivered and handled again because its acknowledgement came too late. -/
def twice : List FillLabel :=
  [.begin soleFill] ++ List.replicate 4 (.advance 0 (returning (1, 5))) ++
    [.begin soleFill] ++ List.replicate 4 (.advance 1 (returning (1, 5)))

def isOk {op : Op} : Answer op → Bool
  | .ok _ => true
  | .error _ => false

theorem one_row_each_once :
    ∃ state, soleMachine.Reached (Single loadsSole) soleStore state ∧
      state.world.fills.rows.length = 1 ∧ OneEach loadsSole soleStore.fills state := by
  have ran : (run (restrict soleMachine.step (Single loadsSole)) { world := soleStore }
      (twice.take 5)).any (fun state => state.world.fills.rows.length == 1) = true := by
    decide +kernel
  obtain ⟨state, same, one⟩ := (Option.any_eq_true _ _).mp ran
  have reached := Reaches.of_restrict _ same
  exact ⟨state, reached, eq_of_beq one, one_row_each_fill reached⟩

/-- **Two rows for one fill**, without an error of the database. -/
theorem two_rows_one_fill :
    ∃ state, soleMachine.Reached (fun _ _ => True) soleStore state ∧
      (∀ entry ∈ state.history, isOk entry.event.answer = true) ∧
      (∀ thread ∈ state.threads, thread.input = soleFill) ∧
      state.world.fills.rows.length = 2 ∧ ¬OneEach loadsSole soleStore.fills state := by
  have ran : (run soleMachine.step { world := soleStore } twice).any (fun state =>
      state.history.all (fun entry => isOk entry.event.answer) &&
        state.threads.all (fun thread => thread.input = soleFill) &&
        state.world.fills.rows.length == 2) = true := by
    decide +kernel
  obtain ⟨state, same, facts⟩ := (Option.any_eq_true _ _).mp ran
  simp only [Bool.and_eq_true, List.all_eq_true, decide_eq_true_eq, beq_iff_eq] at facts
  obtain ⟨⟨fine, sole⟩, two⟩ := facts
  refine ⟨state, Reaches.of_run _ same, fine, sole, two, fun each => ?_⟩
  obtain ⟨added, rows, distinct, made⟩ := each.rows
  have numbered : ∀ pair ∈ added, pair.2 = 1 := by
    intro pair member
    obtain ⟨index, delivery, given, same, _⟩ := made pair member
    obtain ⟨_, thread, inside, rfl⟩ := Machine.mem_of_input given
    rw [← same, sole thread inside]
    rfl
  have length : added.length = 2 := by
    rw [← two, rows]
    simp [soleStore, FillTable.empty]
  obtain ⟨first, second, rfl⟩ := List.length_eq_two.mp length
  have equal : first.2 = second.2 :=
    (numbered first (by simp)).trans (numbered second (by simp)).symm
  simp [equal] at distinct

end ExecRelay.Fills
