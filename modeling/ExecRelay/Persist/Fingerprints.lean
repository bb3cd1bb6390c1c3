/-
**Fingerprints and the rows they stand for.**

`persist_signal` inserts the fingerprint of a signal and its row in two statements. A handler that has
inserted the fingerprint owes the row (`owed`). If it fails there, or the process stops, the fingerprint
is left alone, and the signal is taken for a duplicate ever after. Every fingerprint has its row in the
runs whose steps are `Careful`: nothing fails between the two inserts.
-/

import ExecRelay.Persist.Acknowledge

namespace ExecRelay.Persist

open Lib
open Nats (Message)

/-! ### The service with restarts -/

inductive Incident
  | begin (msg : Message)
  | advance (index : Nat) (answer : (op : Op) → Answer op)
  /-- The other services change their rows. -/
  | others (licenses : List LicenseRow) (instances : List InstanceRow)
  /-- The process stops and is started again. -/
  | crash

/-- Any message may be delivered at any time and again. Handlers do not survive the process. -/
def incident (hasPool : Bool) (state : PersistState) : Incident → Option PersistState
  | .begin msg => (machine hasPool).step state (.begin msg)
  | .advance index answer => (machine hasPool).step state (.advance index answer)
  | .others licenses instances => (machine hasPool).step state
      (.change { state.world with licenses := licenses, instances := instances })
  | .crash => some { world := state.world }

def Database.isRecorded (db : Database) (fingerprint : Fingerprint) : Bool :=
  db.accepted.any fun row => row.isOf fingerprint.licenseId fingerprint.bodySha256

/-- **Every fingerprint has its row.** -/
def Matched (db : Database) : Prop :=
  ∀ fingerprint ∈ db.fingerprints, db.isRecorded fingerprint = true

/-! ### Careful runs -/

def owed (thread : Machine.Thread Message Op Answer Empty) : Option Fingerprint :=
  match thread.program, parseSignal thread.input.data with
  | .call (.selectInstance licenseId _) _, .ok sig => some ⟨licenseId, sig.body⟩
  | .call (.insertAccepted row) _, .ok sig => some ⟨row.licenseId, sig.body⟩
  | _, _ => none

def owes (db : Database) (thread : Machine.Thread Message Op Answer Empty) : Bool :=
  (owed thread).any fun fingerprint => fingerprint ∈ db.fingerprints

def leads : (op : Op) → Answer op → Bool
  | .insertAccepted _, .error .refused => false
  | .selectInstance _ _, .error _ => false
  | _, _ => true

def losesReply (db : Database) : (op : Op) → Answer op → Bool
  | .insertFingerprint fingerprint, .error .lost => fingerprint ∉ db.fingerprints
  | _, _ => false

/-- **The steps of a careful run.** -/
def isCareful (state : PersistState) : Incident → Bool
  | .advance index answer =>
    match state.threads[index]? with
    | some ⟨msg, .call op rest⟩ =>
      !losesReply state.world op (answer op) &&
        (leads op (answer op) || !owes state.world ⟨msg, .call op rest⟩)
    | _ => true
  | .crash => state.threads.all fun thread => !owes state.world thread
  | _ => true

def Careful (state : PersistState) (incident : Incident) : Prop :=
  isCareful state incident = true

instance (state : PersistState) (incident : Incident) : Decidable (Careful state incident) :=
  inferInstanceAs (Decidable (_ = true))

/-! ### From the fingerprint to the row -/

section Handler

variable {hasPool : Bool} {msg : Message} {sig : SignalDict} {rawData : Bytes}

/-- Behind a new fingerprint the instance is looked up, and then the row is inserted. -/
def Linked (rawData : Bytes) :
    (op : Op) → (Answer op → Program Op Answer Empty Unit) → Prop
  | .insertFingerprint fingerprint, rest =>
    (∃ sig, parseSignal rawData = .ok sig ∧ sig.body = fingerprint.bodySha256) ∧
      ∃ instanceKey next, rest (.ok true) = .call (.selectInstance fingerprint.licenseId instanceKey) next
  | .selectInstance licenseId _, rest => ∀ instanceId, ∃ row next,
      rest (.ok instanceId) = .call (.insertAccepted row) next ∧ row.licenseId = licenseId
  | .insertAccepted row, _ => row.rawPayload = rawData
  | _, _ => True

/-- The exceptions of a handler are caught, and the message is acknowledged. -/
abbrev caught (program : Program Op Answer Failure Unit) : Program Op Answer Empty Unit := do
  let _ ← program.attempt
  let _ ← Program.perform .ack

theorem linked_ack : (caught (return ())).Each (Linked rawData) :=
  ⟨trivial, fun _ => trivial⟩

theorem linked_insertSignal (licenseUuid : Nat) :
    (caught (insertSignal sig rawData licenseUuid)).Each (Linked rawData) := by
  refine ⟨fun instanceId => ⟨_, _, rfl, rfl⟩, fun answer => ?_⟩
  cases answer with
  | error failure => exact ⟨trivial, fun _ => trivial⟩
  | ok instanceId =>
    refine ⟨rfl, fun answer => ?_⟩
    cases answer with
    | error failure => exact ⟨trivial, fun _ => trivial⟩
    | ok _ => exact ⟨trivial, fun _ => trivial⟩

theorem linked_persistSignal (decodes : parseSignal rawData = .ok sig) :
    (caught (persistSignal sig rawData)).Each (Linked rawData) := by
  refine ⟨trivial, fun answer => ?_⟩
  cases answer with
  | error failure => exact ⟨trivial, fun _ => trivial⟩
  | ok _ =>
    refine ⟨trivial, fun answer => ?_⟩
    rcases answer with failure | _ | licenseUuid
    · exact ⟨trivial, fun _ => trivial⟩
    · exact ⟨trivial, fun _ => trivial⟩
    · show (caught (if sig.body ≠ [] then _ else _)).Each (Linked rawData)
      split
      · refine ⟨⟨⟨sig, decodes, rfl⟩, _, _, rfl⟩, fun answer => ?_⟩
        rcases answer with failure | _ | _
        · exact ⟨trivial, fun _ => trivial⟩
        · exact ⟨trivial, fun _ => trivial⟩
        · exact linked_insertSignal licenseUuid
      · exact linked_insertSignal licenseUuid

theorem linked_deadletter (reason err : String) :
    (caught (deadletter hasPool msg reason err)).Each (Linked rawData) := by
  cases hasPool with
  | false => exact linked_ack
  | true =>
    refine ⟨trivial, fun answer => ?_⟩
    cases answer with
    | error failure => exact ⟨trivial, fun _ => trivial⟩
    | ok _ =>
      refine ⟨trivial, fun answer => ?_⟩
      cases answer with
      | error failure => exact ⟨trivial, fun _ => trivial⟩
      | ok _ => exact ⟨trivial, fun _ => trivial⟩

/-- **`on_signal`** inserts the row behind the fingerprint. -/
theorem linked_onSignal : (onSignal hasPool msg).Each (Linked msg.data) := by
  unfold onSignal
  split
  · exact linked_deadletter _ _
  · rename_i sig decodes
    split
    · exact linked_persistSignal decodes
    · exact ⟨trivial, fun _ => trivial⟩

end Handler

/-! ### The database along a step -/

section Serve

variable {db next : Database} {op : Op} {answer : Answer op} {fingerprint : Fingerprint}

theorem isRecorded_serve (served : serve db op answer = some next)
    (recorded : db.isRecorded fingerprint = true) : next.isRecorded fingerprint = true := by
  obtain ⟨row, member, isOf⟩ := List.any_eq_true.mp recorded
  refine List.any_eq_true.mpr ⟨row, ?_, isOf⟩
  rcases serve_cases served with rfl | rfl
  · exact member
  · exact mem_accepted_execute member op

theorem mem_fingerprints_execute (member : fingerprint ∈ (db.execute op).2.fingerprints) :
    fingerprint ∈ db.fingerprints ∨ op = .insertFingerprint fingerprint := by
  cases op with
  | insertFingerprint other =>
    rw [Database.execute] at member
    split at member
    · exact .inl member
    · rcases List.mem_append.mp member with old | new
      · exact .inl old
      · rw [List.mem_singleton.mp new]
        exact .inr rfl
  | _ => exact .inl member

/-- A fingerprint that is new was inserted, and the handler knows it unless the reply was lost. -/
theorem mem_fingerprints_serve (served : serve db op answer = some next)
    (kept : losesReply db op answer = false) (member : fingerprint ∈ next.fingerprints) :
    fingerprint ∈ db.fingerprints ∨
      (⟨op, answer⟩ : Event Op Answer) = ⟨.insertFingerprint fingerprint, .ok true⟩ := by
  rcases answer with (_ | _) | value
  · cases served
    exact .inl member
  · cases served
    rcases mem_fingerprints_execute member with old | rfl
    · exact .inl old
    · exact .inl (not_not.mp (of_decide_eq_false kept))
  · obtain ⟨same, rfl⟩ := serve_ok served
    rcases mem_fingerprints_execute member with old | rfl
    · exact .inl old
    · by_cases old : fingerprint ∈ db.fingerprints
      · exact .inl old
      · rw [Database.execute, if_neg old] at same
        rw [same]
        exact .inr rfl

theorem accepted_serve {row : AcceptedRow} {answer : Answer (.insertAccepted row)}
    (served : serve db (.insertAccepted row) answer = some next)
    (leading : leads (.insertAccepted row) answer = true) : row ∈ next.accepted := by
  have inserted : row ∈ (db.execute (.insertAccepted row)).2.accepted :=
    List.mem_append_right _ (List.mem_singleton_self _)
  rcases answer with (_ | _) | value
  · cases leading
  · cases served
    exact inserted
  · rw [(serve_ok served).2]
    exact inserted

end Serve

/-! ### Runs -/

section Runs

variable {hasPool : Bool} {db : Database} {state next : PersistState}

/-- **A fingerprint has its row**, or a handler that is about to insert it. -/
def Covered (state : PersistState) (fingerprint : Fingerprint) : Prop :=
  state.world.isRecorded fingerprint = true ∨
    ∃ (index : Nat) (thread : Machine.Thread Message Op Answer Empty),
      state.threads[index]? = some thread ∧ owed thread = some fingerprint

/-- **The handler that owes a row** comes closer to it. -/
theorem covered_of_owed {index : Nat} {msg : Message} {op : Op} {answer : Answer op}
    {rest : Answer op → Program Op Answer Empty Unit} {world : Database} {fingerprint : Fingerprint}
    (running : state.threads[index]? = some ⟨msg, .call op rest⟩)
    (served : serve state.world op answer = some world)
    (linked : Linked msg.data op rest) (leading : leads op answer = true)
    (owing : owed ⟨msg, .call op rest⟩ = some fingerprint) :
    Covered (state.record world index ⟨msg, rest answer⟩ ⟨op, answer⟩) fingerprint := by
  unfold owed at owing
  split at owing
  · -- the instance has been looked up
    rename_i licenseId instanceKey next sig program decodes
    cases program
    cases owing
    cases answer with
    | error failure => cases leading
    | ok instanceId =>
      obtain ⟨row, later, same, rfl⟩ := linked instanceId
      refine .inr ⟨index, _, Machine.getElem?_record_self running, ?_⟩
      simp only [owed, same, decodes]
  · -- the row has been inserted
    rename_i row next sig program decodes
    cases program
    cases owing
    refine .inl (List.any_eq_true.mpr ⟨row, accepted_serve served leading, ?_⟩)
    have raw : row.rawPayload = msg.data := linked
    simp [AcceptedRow.isOf, raw, decodes]
  · cases owing

/-- **A step of a handler.** -/
theorem covered_of_advance {index : Nat} {msg : Message} {op : Op} {answer : Answer op}
    {rest : Answer op → Program Op Answer Empty Unit} {world : Database}
    (running : state.threads[index]? = some ⟨msg, .call op rest⟩)
    (served : serve state.world op answer = some world) (linked : Linked msg.data op rest)
    (replied : losesReply state.world op answer = false)
    (leading : owes state.world ⟨msg, .call op rest⟩ = true → leads op answer = true)
    (covered : ∀ fingerprint ∈ state.world.fingerprints, Covered state fingerprint) :
    ∀ fingerprint ∈ world.fingerprints,
      Covered (state.record world index ⟨msg, rest answer⟩ ⟨op, answer⟩) fingerprint := by
  intro fingerprint member
  rcases mem_fingerprints_serve served replied member with old | inserted
  · rcases covered fingerprint old with recorded | ⟨other, thread, found, owing⟩
    · exact .inl (isRecorded_serve served recorded)
    · by_cases same : index = other
      · subst same
        cases running.symm.trans found
        refine covered_of_owed running served linked (leading ?_) owing
        rw [owes, owing]
        exact decide_eq_true old
      · exact .inr ⟨other, thread, (Machine.getElem?_record_ne same).trans found, owing⟩
  · -- the handler goes on to the row
    cases inserted
    obtain ⟨⟨sig, decodes, body⟩, instanceKey, later, same⟩ := linked
    refine .inr ⟨index, _, Machine.getElem?_record_self running, ?_⟩
    simp only [owed, same, decodes, body]

theorem service_reached {allowed : PersistState → Incident → Prop}
    (reached : Reaches (incident hasPool) allowed { world := db } state) :
    ∃ world, (machine hasPool).Reached (fun _ _ => True) world state := by
  refine reached.invariant ⟨db, Reaches.start⟩ ?_
  intro state label next _ before _ stepped
  obtain ⟨world, before⟩ := before
  cases label with
  | begin _ | advance _ _ | others _ _ =>
    rw [incident] at stepped
    exact ⟨world, Reaches.step before trivial stepped⟩
  | crash =>
    cases stepped
    exact ⟨state.world, Reaches.start⟩

theorem covered_of_careful (matched : Matched db)
    (reached : Reaches (incident hasPool) Careful { world := db } state) :
    ∀ fingerprint ∈ state.world.fingerprints, Covered state fingerprint := by
  refine reached.invariant (fun fingerprint member => .inl (matched fingerprint member)) ?_
  intro state label next before covered careful stepped
  cases label with
  | begin msg =>
    cases stepped
    intro fingerprint member
    rcases covered fingerprint member with recorded | ⟨index, thread, found, owing⟩
    · exact .inl recorded
    · refine .inr ⟨index, thread, ?_, owing⟩
      exact (List.getElem?_append_left (List.getElem?_eq_some_iff.mp found).1).trans found
  | advance index answer =>
    obtain ⟨world, service⟩ := service_reached before
    rw [incident] at stepped
    rcases Machine.step_cases stepped with ⟨_, _, impossible, _⟩ |
      ⟨other, given, msg, op, rest, after, same, running, served, rfl⟩ | ⟨_, _, impossible, _⟩
    · cases impossible
    · cases same
      have linked := (linked_onSignal.of_path (Machine.path_of_reaches service index _ running)).1
      simp only [Careful, isCareful, running, Bool.and_eq_true, Bool.not_eq_true',
        Bool.or_eq_true] at careful
      refine covered_of_advance running served linked careful.1 (fun owing => ?_) covered
      exact careful.2.resolve_right (by simp [owing])
    · cases impossible
  | others licenses instances =>
    cases stepped
    exact covered
  | crash =>
    cases stepped
    intro fingerprint member
    rcases covered fingerprint member with recorded | ⟨index, thread, found, owing⟩
    · exact .inl recorded
    · -- no handler owes a row
      have idle := List.all_eq_true.mp careful thread (List.mem_of_getElem? found)
      rw [owes, owing] at idle
      simp [member] at idle

/-- **In a careful run every fingerprint has its row**, or a handler that is about to insert it. Once
the handlers are through, all have their rows. -/
theorem fingerprints_of_careful (matched : Matched db)
    (reached : Reaches (incident hasPool) Careful { world := db } state) :
    (∀ fingerprint ∈ state.world.fingerprints, state.world.isRecorded fingerprint = true ∨
        ∃ thread ∈ state.threads, owed thread = some fingerprint) ∧
      ((∀ thread ∈ state.threads, owed thread = none) → Matched state.world) := by
  have covered (fingerprint : Fingerprint) (member : fingerprint ∈ state.world.fingerprints) :
      state.world.isRecorded fingerprint = true ∨
        ∃ thread ∈ state.threads, owed thread = some fingerprint := by
    rcases covered_of_careful matched reached fingerprint member with recorded |
      ⟨index, thread, found, owing⟩
    · exact .inl recorded
    · exact .inr ⟨thread, List.mem_of_getElem? found, owing⟩
  refine ⟨covered, fun idle fingerprint member => ?_⟩
  rcases covered fingerprint member with recorded | ⟨thread, inside, owing⟩
  · exact recorded
  · rw [idle thread inside] at owing
    cases owing

end Runs

/-! ### Two runs -/

def handled : List Incident :=
  .begin canonicalMessage :: List.replicate 6 (.advance 0 working)

/-- The message is handled, the process stops, and the fingerprint has its row. -/
theorem fingerprints_of_careful_message :
    ∃ state, run (restrict (incident true) Careful) { world := oneLicense } (handled ++ [.crash]) =
        some state ∧
      state.world.fingerprints.length = 1 ∧ Matched state.world := by
  have ran : (run (restrict (incident true) Careful) { world := oneLicense }
      (handled ++ [.crash])).any (fun state =>
        state.world.fingerprints.length = 1 && state.threads.isEmpty) = true := by decide +kernel
  obtain ⟨state, same, facts⟩ := (Option.any_eq_true _ _).mp ran
  rw [Bool.and_eq_true, decide_eq_true_eq, List.isEmpty_iff] at facts
  have reached := Reaches.of_restrict _ same
  have matched : Matched oneLicense := fun _ member => absurd member List.not_mem_nil
  refine ⟨state, same, facts.1, (fingerprints_of_careful matched reached).2 fun thread inside => ?_⟩
  rw [facts.2] at inside
  exact absurd inside List.not_mem_nil

/-- The process stops behind the fingerprint. The message is delivered again, taken for a duplicate and
acknowledged. -/
def interrupted : List Incident :=
  .begin canonicalMessage :: List.replicate 3 (.advance 0 working) ++ .crash ::
    .begin canonicalMessage :: List.replicate 4 (.advance 0 fun
      | .insertFingerprint _ => .ok false
      | op => working op)

/-- **A fingerprint blocks a signal that is not recorded.** -/
theorem not_matched_interrupted :
    ∃ state, run (incident true) { world := oneLicense } interrupted = some state ∧
      ¬ Matched state.world ∧ (∀ thread ∈ state.threads, thread.program.isOver = true) ∧
      state.world.accepted = [] := by
  have ran : (run (incident true) { world := oneLicense } interrupted).any (fun state =>
      state.world.fingerprints.any (fun fingerprint => !state.world.isRecorded fingerprint) &&
        state.threads.all (fun thread => thread.program.isOver) && state.world.accepted.isEmpty) =
      true := by decide +kernel
  obtain ⟨state, same, facts⟩ := (Option.any_eq_true _ _).mp ran
  rw [Bool.and_eq_true, Bool.and_eq_true, List.isEmpty_iff] at facts
  obtain ⟨⟨alone, finished⟩, empty⟩ := facts
  obtain ⟨fingerprint, member, missing⟩ := List.any_eq_true.mp alone
  refine ⟨state, same, fun matched => ?_, List.all_eq_true.mp finished, empty⟩
  rw [matched fingerprint member] at missing
  cases missing

end ExecRelay.Persist
