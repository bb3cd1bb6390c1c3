/-
**What persist acknowledges is stored.**

The handler catches every exception and acknowledges all the same, so that the row of a signal is there
only in the runs whose steps are `Steady`: a statement fails only if there is nothing left to store, a
fingerprint that is there already has its row, and the other services change no rows while a message is
handled.
-/

import ExecRelay.Persist.Service
import ExecRelay.Proto.Signal

namespace ExecRelay.Persist

open Lib
open Lib.Program (Spec)
open Nats (Message)
open Proto (canonicalSignal)

/-! ### What is to be stored -/

/-- The row is one of the license with the given body. The body's hash has no column of its own; it
is in the message. -/
def AcceptedRow.isOf (row : AcceptedRow) (licenseId : Nat) (bodySha256 : Bytes) : Bool :=
  row.licenseId = licenseId &&
    match parseSignal row.rawPayload with
    | .ok sig => sig.body = bodySha256
    | .error _ => false

/-- Nothing is left to store: the license is not active, or the row is there. -/
def Database.isStored (db : Database) (sig : SignalDict) : Bool :=
  match db.activeLicense sig.key with
  | none => true
  | some licenseId => db.accepted.any fun row => row.isOf licenseId sig.body

/-- **A message that decodes to a signal of an active license is acknowledged with its row in the
database.** -/
def AcknowledgesStored (state : PersistState) : Prop :=
  ∀ (index : Nat) (msg : Message) (rest : Answer .ack → Program Op Answer Empty Unit)
    (sig : SignalDict) (licenseId : Nat), state.threads[index]? = some ⟨msg, .call .ack rest⟩ →
    parseSignal msg.data = .ok sig → state.world.activeLicense sig.key = some licenseId →
    ∃ row ∈ state.world.accepted, row.isOf licenseId sig.body = true

/-! ### Steady runs -/

def isDuplicate (db : Database) : Op → Bool
  | .insertFingerprint fingerprint => fingerprint ∈ db.fingerprints
  | _ => false

/-- A call of the handler of a signal: it succeeds and is no duplicate, or nothing is left to store. -/
def isSteadyCall (db : Database) (sig : SignalDict) (op : Op) (answer : Answer op) : Bool :=
  (answer.isOk && !isDuplicate db op) || db.isStored sig

/-- **The steps of a steady run.** -/
def isSteady (state : PersistState) : PersistLabel → Bool
  | .begin _ => true
  | .advance index answer =>
    match state.threads[index]? with
    | some ⟨_, .call .ack _⟩ => true
    | some ⟨msg, .call op _⟩ =>
      match parseSignal msg.data with
      | .ok sig => isSteadyCall state.world sig op (answer op)
      | .error _ => true
    | _ => true
  | .change _ => state.threads.all fun thread => thread.program.isOver

def Steady (state : PersistState) (label : PersistLabel) : Prop :=
  isSteady state label = true

instance (state : PersistState) (label : PersistLabel) : Decidable (Steady state label) :=
  inferInstanceAs (Decidable (_ = true))

/-! ### The calls of the handler -/

abbrev Log := List (Event Op Answer)

def settles : Event Op Answer → Bool
  | ⟨.selectLicense _, .ok none⟩ => true
  | ⟨.insertFingerprint _, .ok false⟩ => true
  | ⟨.insertAccepted _, .ok _⟩ => true
  | ⟨_, .error _⟩ => true
  | _ => false

def Settled (log : Log) : Prop :=
  ∃ event ∈ log, settles event = true

def Found (sig : SignalDict) (licenseId : Nat) (log : Log) : Prop :=
  ⟨.selectLicense sig.key, .ok (some licenseId)⟩ ∈ log

/-- **The calls that the log of a message permits.** -/
def Permitted (sig : SignalDict) (rawData : Bytes) : Op → Log → Prop
  | .selectLicense licenseKey, _ => licenseKey = sig.key
  | .insertAccepted row, log => row.rawPayload = rawData ∧ Found sig row.licenseId log
  | .ack, log => Settled log
  | _, _ => True

section Handler

variable {sig : SignalDict} {rawData : Bytes} {log : Log}

theorem settled_snoc {event : Event Op Answer} (settled : settles event = true) :
    Settled (log ++ [event]) :=
  ⟨event, List.mem_append_right _ (List.mem_singleton_self _), settled⟩

theorem spec_statement_bind {op : Op} {next : Value op → Program Op Answer Failure Unit}
    (permitted : Permitted sig rawData op log)
    (rest : ∀ value, (next value).Spec (Permitted sig rawData) (fun _ log => Settled log)
      (log ++ [⟨op, .ok value⟩])) :
    (statement op >>= next).Spec (Permitted sig rawData) (fun _ log => Settled log) log := by
  refine ⟨permitted, fun answer => ?_⟩
  cases answer with
  | ok value => exact rest value
  | error failure =>
    refine settled_snoc ?_
    cases op <;> rfl

theorem spec_insertSignal {licenseUuid : Nat} (found : Found sig licenseUuid log) :
    (insertSignal sig rawData licenseUuid).Spec (Permitted sig rawData) (fun _ log => Settled log)
      log := by
  refine spec_statement_bind trivial fun instanceUuid => ?_
  refine ⟨⟨rfl, List.mem_append_left _ found⟩, fun answer => ?_⟩
  cases answer with
  | ok _ => exact settled_snoc rfl
  | error _ => exact settled_snoc rfl

/-- **`persist_signal` settles the message**, whether it fails or not. -/
theorem spec_persistSignal :
    (persistSignal sig rawData).Spec (Permitted sig rawData) (fun _ log => Settled log) log := by
  refine spec_statement_bind trivial fun _ => spec_statement_bind rfl fun license => ?_
  cases license with
  | none => exact settled_snoc rfl
  | some licenseUuid =>
    have found {before : Log} : Found sig licenseUuid
        (before ++ [⟨.selectLicense sig.key, .ok (some licenseUuid)⟩]) :=
      List.mem_append_right _ (List.mem_singleton_self _)
    dsimp only
    split
    · refine spec_statement_bind trivial fun inserted => ?_
      cases inserted with
      | true => exact spec_insertSignal (List.mem_append_left _ found)
      | false => exact settled_snoc rfl
    · exact spec_insertSignal found

end Handler

/-- **`on_signal`** acknowledges behind `persist_signal`. -/
theorem spec_onSignal {msg : Message} {sig : SignalDict} (decodes : parseSignal msg.data = .ok sig) :
    (onSignal true msg).Spec (Permitted sig msg.data) (fun _ _ => True) [] := by
  have attempted : ((persistSignal sig msg.data).attempt :
      Program Op Answer Empty (Except Failure Unit)).Spec (Permitted sig msg.data)
      (fun _ log => Settled log) [] := Spec.attempt spec_persistSignal
  unfold onSignal
  rw [decodes]
  exact attempted.bind (fun _ log settled => ⟨settled, fun _ => trivial⟩) fun error => error.elim

/-! ### The database along a run -/

section Serve

variable {db next : Database} {op : Op} {sig : SignalDict}

theorem activeLicense_execute (db : Database) (op : Op) (licenseKey : Bytes) :
    (db.execute op).2.activeLicense licenseKey = db.activeLicense licenseKey := by
  cases op with
  | insertFingerprint fingerprint =>
    rw [Database.execute]
    split <;> rfl
  | _ => rfl

theorem mem_accepted_execute {row : AcceptedRow} (member : row ∈ db.accepted) (op : Op) :
    row ∈ (db.execute op).2.accepted := by
  cases op with
  | insertFingerprint fingerprint =>
    rw [Database.execute]
    split <;> exact member
  | insertAccepted other => exact List.mem_append_left _ member
  | _ => exact member

theorem isStored_iff : db.isStored sig = true ↔
    ∀ licenseId, db.activeLicense sig.key = some licenseId →
      ∃ row ∈ db.accepted, row.isOf licenseId sig.body = true := by
  rw [Database.isStored]
  cases db.activeLicense sig.key with
  | none => simp
  | some licenseId => simp [List.any_eq_true]

theorem serve_ok {value : Value op} (served : serve db op (.ok value) = some next) :
    value = (db.execute op).1 ∧ next = (db.execute op).2 := by
  rw [serve] at served
  split at served
  · rename_i same
    cases served
    exact ⟨same, rfl⟩
  · cases served

variable {answer : Answer op}

theorem serve_cases (served : serve db op answer = some next) :
    next = db ∨ next = (db.execute op).2 := by
  rcases answer with (refused | lost) | value
  · cases served
    exact Or.inl rfl
  · cases served
    exact Or.inr rfl
  · exact Or.inr (serve_ok served).2

theorem activeLicense_serve (served : serve db op answer = some next) (licenseKey : Bytes) :
    next.activeLicense licenseKey = db.activeLicense licenseKey := by
  rcases serve_cases served with rfl | rfl
  · rfl
  · exact activeLicense_execute db op licenseKey

theorem isStored_serve (served : serve db op answer = some next) (stored : db.isStored sig = true) :
    next.isStored sig = true := by
  rw [isStored_iff] at stored ⊢
  intro licenseId active
  rw [activeLicense_serve served] at active
  obtain ⟨row, member, isOf⟩ := stored licenseId active
  refine ⟨row, ?_, isOf⟩
  rcases serve_cases served with rfl | rfl
  · exact member
  · exact mem_accepted_execute member op

end Serve

/-- **What the calls of a message say about the database** while it is handled: the license that was
found is still the active one, and behind a call that settles the message nothing is left to store. -/
structure Recorded (db : Database) (sig : SignalDict) (log : Log) : Prop where
  found : ∀ licenseId, Found sig licenseId log → db.activeLicense sig.key = some licenseId
  settled : Settled log → db.isStored sig = true

variable {db next : Database} {sig : SignalDict} {log : Log} {op : Op} {answer : Answer op}

theorem Recorded.frame (recorded : Recorded db sig log) (served : serve db op answer = some next) :
    Recorded next sig log where
  found := fun licenseId found => by
    rw [activeLicense_serve served]
    exact recorded.found licenseId found
  settled := fun settled => isStored_serve served (recorded.settled settled)

variable {msg : Message}

/-- **A call that settles the message** in a steady run leaves nothing to store. -/
theorem isStored_of_settles (decodes : parseSignal msg.data = .ok sig)
    (recorded : Recorded db sig log) (permitted : Permitted sig msg.data op log)
    (steady : op = .ack ∨ isSteadyCall db sig op answer = true)
    (served : serve db op answer = some next) (settled : settles ⟨op, answer⟩ = true) :
    next.isStored sig = true := by
  by_cases stored : db.isStored sig = true
  · exact isStored_serve served stored
  · rcases steady with rfl | steady
    · exact absurd (recorded.settled permitted) stored
    · rw [isSteadyCall, Bool.or_eq_true_iff, Bool.and_eq_true] at steady
      obtain ⟨succeeds, original⟩ := steady.resolve_right stored
      cases answer with
      | error _ => cases succeeds
      | ok value =>
        obtain ⟨same, rfl⟩ := serve_ok served
        cases op with
        | selectLicense licenseKey =>
          cases value with
          | some _ => cases settled
          | none =>
            -- the license is not active
            have inactive : none = db.activeLicense sig.key := by
              rw [← show licenseKey = sig.key from permitted]
              exact same
            rw [isStored_iff]
            intro licenseId active
            exact absurd (inactive.trans active) (by simp)
        | insertFingerprint fingerprint =>
          cases value with
          | true => cases settled
          | false =>
            rw [Database.execute] at same
            split at same
            · rename_i duplicate
              simp [isDuplicate, duplicate] at original
            · cases same
        | insertAccepted row =>
          rw [isStored_iff]
          intro licenseId active
          rw [activeLicense_execute, recorded.found _ permitted.2] at active
          refine ⟨row, List.mem_append_right _ (List.mem_singleton_self _), ?_⟩
          simpa [AcceptedRow.isOf, permitted.1, decodes] using active
        | _ => cases settled

/-- **A step of the handler** keeps what its calls say. -/
theorem Recorded.advance (recorded : Recorded db sig log) (decodes : parseSignal msg.data = .ok sig)
    (permitted : Permitted sig msg.data op log)
    (steady : op = .ack ∨ isSteadyCall db sig op answer = true)
    (served : serve db op answer = some next) : Recorded next sig (log ++ [⟨op, answer⟩]) := by
  refine ⟨fun licenseId found => ?_, ?_⟩
  · rw [activeLicense_serve served]
    rcases List.mem_append.mp found with earlier | last
    · exact recorded.found licenseId earlier
    · cases List.mem_singleton.mp last
      exact (serve_ok served).1.symm
  · rintro ⟨event, member, settled⟩
    rcases List.mem_append.mp member with earlier | last
    · exact isStored_serve served (recorded.settled ⟨event, earlier, settled⟩)
    · rw [List.mem_singleton.mp last] at settled
      exact isStored_of_settles decodes recorded permitted steady served settled

variable {state : PersistState}

/-- **In a steady run the calls of every message that is handled are recorded.** -/
theorem recorded_of_steady {db : Database} (reached : (machine true).Reached Steady db state) :
    ∀ (index : Nat) (thread : Machine.Thread Message Op Answer Empty),
      state.threads[index]? = some thread → ∀ sig, parseSignal thread.input.data = .ok sig →
      thread.program.isOver = false → Recorded state.world sig (state.log index) := by
  refine Machine.threads_invariant (motive := fun db msg log program => ∀ sig,
    parseSignal msg.data = .ok sig → program.isOver = false → Recorded db sig log) reached ?_ ?_ ?_
  · intro _ msg after _ sig _ _
    exact ⟨fun _ found => absurd found List.not_mem_nil,
      fun ⟨_, member, _⟩ => absurd member List.not_mem_nil⟩
  · intro state index answer msg op rest after reached steady found served recorded sig decodes _
    have permitted := ((spec_onSignal decodes).of_path
      (Machine.path_of_reaches reached index _ found)).1
    refine (recorded sig decodes rfl).advance decodes permitted ?_ served
    cases op with
    | ack => exact Or.inl rfl
    | _ =>
      simp only [Steady, isSteady, found, decodes] at steady
      exact Or.inr steady
  · intro state label next index thread reached steady stepped found recorded sig decodes running
    have before := recorded sig decodes running
    rcases Machine.step_cases stepped with ⟨_, world, _, admitted, rfl⟩ |
      ⟨_, _, _, _, _, world, _, _, served, rfl⟩ | ⟨change, world, rfl, _, _⟩
    · cases admitted
      exact before
    · exact before.frame served
    · -- no message is handled
      have finished := List.all_eq_true.mp steady thread (List.mem_of_getElem? found)
      rw [finished] at running
      cases running

/-- **What is acknowledged is stored**, in every steady run. -/
theorem acknowledgesStored_of_steady {db : Database} {state : PersistState}
    (reached : (machine true).Reached Steady db state) : AcknowledgesStored state := by
  intro index msg rest sig licenseId found decodes active
  have recorded := recorded_of_steady reached index _ found sig decodes rfl
  have settled : Settled (state.log index) := ((spec_onSignal decodes).of_path
    (Machine.path_of_reaches reached index _ found)).1
  exact isStored_iff.mp (recorded.settled settled) licenseId active

/-! ### Two runs -/

def canonicalMessage : Message where
  subject := lit "signals.mt5.60123456789.mt5-a"
  data := canonicalSignal.encode

def oneLicense : Database where
  licenses := [⟨1, canonicalSignal.licenseId, true⟩]

/-- The message is handled, and its row is there. -/
theorem acknowledgesStored_of_steady_message :
    ∃ state, run (restrict (machine true).step Steady) { world := oneLicense }
        (.begin canonicalMessage :: List.replicate 5 (.advance 0 working)) = some state ∧
      state.world.accepted.length = 1 ∧ AcknowledgesStored state := by
  have ran : (run (restrict (machine true).step Steady) { world := oneLicense }
      (.begin canonicalMessage :: List.replicate 5 (.advance 0 working))).any
      (fun state => state.world.accepted.length = 1) = true := by decide +kernel
  obtain ⟨state, same, one⟩ := (Option.any_eq_true _ _).mp ran
  exact ⟨state, same, of_decide_eq_true one, acknowledgesStored_of_steady (Reaches.of_restrict _ same)⟩

def losesMessage (state : PersistState) (index : Nat) : Bool :=
  match state.threads[index]? with
  | some ⟨msg, .call .ack _⟩ =>
    match parseSignal msg.data with
    | .ok sig => !state.world.isStored sig
    | .error _ => false
  | _ => false

theorem not_acknowledgesStored_of_losesMessage {index : Nat}
    (loses : losesMessage state index = true) : ¬ AcknowledgesStored state := by
  intro acknowledgesStored
  rw [losesMessage] at loses
  split at loses
  · rename_i msg rest found
    split at loses
    · rename_i sig decodes
      have stored : state.world.isStored sig = true :=
        isStored_iff.mpr fun licenseId active =>
          acknowledgesStored index msg rest sig licenseId found decodes active
      rw [stored] at loses
      cases loses
    · cases loses
  · cases loses

def failingInsert : List PersistLabel :=
  .begin canonicalMessage :: List.replicate 5 (.advance 0 fun
    | .insertAccepted _ => .error .refused
    | op => working op)

/-- The message is acknowledged. It would not help to deliver it again: the fingerprint is there. -/
def redelivery : List PersistLabel :=
  .advance 0 working :: .begin canonicalMessage :: List.replicate 4 (.advance 1 fun
    | .insertFingerprint _ => .ok false
    | op => working op)

/-- **A failed insert loses the signal.** -/
theorem not_acknowledgesStored_insert :
    ∃ state later, run (machine true).step { world := oneLicense } failingInsert = some state ∧
      ¬ AcknowledgesStored state ∧ run (machine true).step state redelivery = some later ∧
      (∀ thread ∈ later.threads, thread.program.isOver = true) ∧ later.world.accepted = [] := by
  have ran : (run (machine true).step { world := oneLicense } failingInsert).any (fun state =>
      losesMessage state 0 && (run (machine true).step state redelivery).any (fun later =>
        later.threads.all (fun thread => thread.program.isOver) && later.world.accepted.isEmpty)) =
      true := by decide +kernel
  obtain ⟨state, same, facts⟩ := (Option.any_eq_true _ _).mp ran
  rw [Bool.and_eq_true] at facts
  obtain ⟨later, again, finished⟩ := (Option.any_eq_true _ _).mp facts.2
  rw [Bool.and_eq_true, List.isEmpty_iff] at finished
  exact ⟨state, later, same, not_acknowledgesStored_of_losesMessage facts.1, again,
    List.all_eq_true.mp finished.1, finished.2⟩

end ExecRelay.Persist
