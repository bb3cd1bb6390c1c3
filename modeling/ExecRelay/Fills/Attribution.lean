/-
**The license that a fill is stored under.**

A terminal executes the signals of a license and reports its fills on its connection. The bridge knows
the instance id of the connection, and persist finds a license by that id alone. An instance key is
unique within its license only (`Portal.Tables`), so that the row of a fill may belong to another license
than the signal.
-/

import ExecRelay.Bridge.Decode
import ExecRelay.Bridge.Tenants
import ExecRelay.Fills.Persist

namespace ExecRelay.Fills

open Lib
open Bridge (Config Tenants TenantsLabel decoding registerFrame answering)
open Nats (Delivery Message)
open Persist (Database)
open Portal (Tables LicenseRow CreateInstanceIn)
open Proto (canonicalSignal)

/-! ### The tables of the portal and of persist -/

def rows (tables : Tables) (isActive : Nat → Bool) : Database where
  licenses := tables.licenses.map fun license => ⟨license.id, license.licenseKey, isActive license.id⟩
  instances := tables.instances.zipIdx.map fun row => ⟨row.2, row.1.licenseId, row.1.instanceKey⟩

/-- **The query finds the active licenses with the key.** -/
theorem mem_joined_rows {tables : Tables} {isActive : Nat → Bool} {instanceKey : Bytes} {id : Nat} :
    (∃ found ∈ joined (rows tables isActive) (.text instanceKey), found.1 = id) ↔
      ∃ license ∈ tables.licenses, license.id = id ∧ isActive id = true ∧
        tables.isTaken id instanceKey = true := by
  constructor
  · rintro ⟨found, inside, rfl⟩
    obtain ⟨row, rowInside, inside⟩ := List.mem_flatMap.mp inside
    obtain ⟨license, licenseInside, rfl⟩ := List.mem_map.mp inside
    obtain ⟨licenseInside, joins⟩ := List.mem_filter.mp licenseInside
    obtain ⟨given, givenInside, rfl⟩ := List.mem_map.mp licenseInside
    obtain ⟨⟨instance_, index⟩, instanceInside, rfl⟩ := List.mem_map.mp rowInside
    simp only [Bool.and_eq_true, decide_eq_true_eq, Member.text.injEq] at joins
    obtain ⟨⟨same, sameKey⟩, active⟩ := joins
    exact ⟨given, givenInside, rfl, active, Tables.isTaken_iff.mpr
      ⟨instance_, List.fst_mem_of_mem_zipIdx instanceInside, same.symm, sameKey⟩⟩
  · rintro ⟨license, inside, rfl, active, taken⟩
    obtain ⟨instance_, instanceInside, same, sameKey⟩ := Tables.isTaken_iff.mp taken
    obtain ⟨index, found⟩ := List.mem_iff_getElem?.mp instanceInside
    refine ⟨(license.id, index), List.mem_flatMap.mpr ⟨⟨index, instance_.licenseId,
      instance_.instanceKey⟩, List.mem_map.mpr
        ⟨(instance_, index), List.mem_zipIdx_iff_getElem?.mpr found, rfl⟩, ?_⟩, rfl⟩
    refine List.mem_map.mpr ⟨⟨license.id, license.licenseKey, isActive license.id⟩, ?_, rfl⟩
    refine List.mem_filter.mpr ⟨List.mem_map.mpr ⟨license, inside, rfl⟩, ?_⟩
    simp [same, sameKey, active]

/-! ### The fills of a signal -/

section Attributed

variable (config : Config) (loads : Bytes → Except Bytes FillDict) (accepts : FillDict → Bool)
  (isActive : Nat → Bool)

def isExecuting (state : Bridge.BridgeState) (conn : Nat) (signal : Proto.Signal) : Bool :=
  (List.range state.threads.length).any fun index =>
    match state.input index with
    | some (.deliver msg) => config.codec.unmarshal msg.data = some signal &&
        (state.log index).any fun event =>
          match event with
          | ⟨.write other _, none⟩ => other = conn
          | _ => false
    | _ => false

/-- The message is a fill that the bridge has published for the connection. -/
def isPublished (state : Bridge.BridgeState) (conn : Nat) (msg : Message) : Bool :=
  (state.log conn).any fun event =>
    match event with
    | ⟨.publish subject (.fill raw), _⟩ => subject = msg.subject && raw = msg.data
    | _ => false

def isStorable (msg : Message) : Bool :=
  match loadFill loads msg with
  | .ok fill => accepts fill
  | .error _ => false

/-- **The rows that the message may be written as** belong to the license. -/
def Attributed (tables : Tables) (licenseKey : Bytes) (msg : Message) : Prop :=
  ∀ row, Writes loads (rows tables isActive) accepts msg row →
    ∃ license ∈ tables.licenses, license.id = row.licenseId ∧ license.licenseKey = licenseKey

def isSole (tables : Tables) (licenseKey instanceKey : Bytes) : Bool :=
  tables.licenses.all fun license =>
    !(isActive license.id && tables.isTaken license.id instanceKey) || license.licenseKey = licenseKey

variable {config loads accepts isActive}

theorem subjectInstance_fill {instanceID : Bytes} (plain : 46 ∉ instanceID) (traceID : Bytes) :
    subjectInstance (lit "fills." ++ instanceID ++ lit "." ++ traceID) = instanceID := by
  rw [subjectInstance, splitOn_fillSubject plain]
  rfl

/-- **The lookup**: the licenses with the instance of the subject. -/
theorem attributed_iff_sole {tables : Tables} {licenseKey : Bytes} {msg : Message} :
    Attributed loads accepts isActive tables licenseKey msg ↔
      (isStorable loads accepts msg = true →
        isSole isActive tables licenseKey (subjectInstance msg.subject) = true) := by
  constructor
  · intro attributed storable
    refine List.all_eq_true.mpr fun license inside => ?_
    rw [Bool.or_eq_true, Bool.not_eq_true', decide_eq_true_eq, ← Bool.not_eq_true, Bool.and_eq_true]
    by_cases taken : isActive license.id = true ∧
        tables.isTaken license.id (subjectInstance msg.subject) = true
    · right
      unfold isStorable at storable
      split at storable
      · rename_i fill reads
        obtain ⟨found, joins, same⟩ := mem_joined_rows.mpr ⟨license, inside, rfl, taken⟩
        obtain ⟨other, otherInside, sameID, sameKey⟩ := attributed _
          (writes_iff.mpr ⟨fill, reads, storable, found, joins, rfl⟩)
        -- the ids of licenses are unique
        rw [List.inj_on_of_nodup_map tables.ids inside otherInside (same.symm.trans sameID.symm)]
        exact sameKey
      · cases storable
    · exact Or.inl taken
  · intro sole row writes
    obtain ⟨fill, reads, accepted, found, joins, rfl⟩ := writes_iff.mp writes
    obtain ⟨license, inside, same, active, taken⟩ := mem_joined_rows.mp ⟨found, joins, rfl⟩
    refine ⟨license, inside, same, ?_⟩
    have storable : isStorable loads accepts msg = true := by
      rw [isStorable, reads]
      exact accepted
    have only := List.all_eq_true.mp (sole storable) license inside
    rw [same, active, taken] at only
    exact of_decide_eq_true only

theorem keys_of_reaches {allowed : Tenants → TenantsLabel → Prop} {portal : Tables} {state : Tenants}
    (noInstances : portal.instances = [])
    (reached : Reaches (Tenants.step config) allowed { portal := portal } state) :
    ∀ row ∈ state.portal.instances, Portal.matchesInstanceKey row.instanceKey = true := by
  refine reached.invariant (fun row member => ?_) ?_
  · rw [noInstances] at member
    exact absurd member List.not_mem_nil
  · intro state label next _ keys _ stepped
    cases label with
    | create userID licenseID body =>
      simp only [Tenants.step] at stepped
      split at stepped
      · rename_i tables created
        cases stepped
        obtain ⟨_, _, _, _, new, _, newKey, instances⟩ := Tables.createInstance_eq_ok created
        intro row member
        rw [instances, List.mem_append, List.mem_singleton] at member
        rcases member with old | rfl
        · exact keys row old
        · rw [newKey]
          exact Tables.matches_of_createInstance created
      · cases stepped
        exact keys
    | bridge label =>
      obtain ⟨bridge, _, rfl⟩ := Option.map_eq_some_iff.mp stepped
      exact keys

/-- **The subject of a fill** names the instance of the signals that its connection executes. -/
theorem subjectInstance_of_executing {state : Bridge.BridgeState}
    (reached : (Bridge.machine config).Reached (fun _ _ => True) {} state) {conn : Nat}
    {signal : Proto.Signal} {msg : Message} (plain : 46 ∉ signal.instanceId)
    (executing : isExecuting config state conn signal = true)
    (published : isPublished state conn msg = true) :
    subjectInstance msg.subject = signal.instanceId := by
  have named : Bridge.Named config state signal.instanceId conn := by
    obtain ⟨index, _, wrote⟩ := List.any_eq_true.mp executing
    split at wrote
    · rename_i delivery given
      rw [Bool.and_eq_true, decide_eq_true_eq] at wrote
      obtain ⟨event, member, isWrite⟩ := List.any_eq_true.mp wrote.2
      split at isWrite
      · cases of_decide_eq_true isWrite
        exact Bridge.named_of_write reached given wrote.1 member
      · cases isWrite
    · cases wrote
  obtain ⟨event, member, isFill⟩ := List.any_eq_true.mp published
  split at isFill
  · rw [Bool.and_eq_true, decide_eq_true_eq] at isFill
    obtain ⟨fill, _, same⟩ := Bridge.subject_of_fill reached named member
    rw [← isFill.1, same]
    exact subjectInstance_fill plain fill.traceID
  · cases isFill

/-- **Whose row a fill becomes.** In every state of every run, a fill of a connection that executes a
signal is stored under the license of the signal exactly if no other active license has an instance with
the key of the connection, or the table does not take the fill. -/
theorem attributed_iff {portal : Tables} {state : Tenants} (noInstances : portal.instances = [])
    (reached : Reaches (Tenants.step config) (fun _ _ => True) { portal := portal } state)
    {conn : Nat} {signal : Proto.Signal} {msg : Message}
    (owned : state.portal.owns signal.licenseId signal.instanceId = true)
    (executing : isExecuting config state.bridge conn signal = true)
    (published : isPublished state.bridge conn msg = true) :
    Attributed loads accepts isActive state.portal signal.licenseId msg ↔
      (isStorable loads accepts msg = true →
        isSole isActive state.portal signal.licenseId signal.instanceId = true) := by
  have plain : 46 ∉ signal.instanceId := by
    obtain ⟨_, _, _, taken⟩ := Tables.owns_iff.mp owned
    obtain ⟨row, inside, _, same⟩ := Tables.isTaken_iff.mp taken
    rw [← same]
    exact Tables.not_mem_dot_of_matches (keys_of_reaches noInstances reached row inside)
  rw [attributed_iff_sole,
    subjectInstance_of_executing (Bridge.bridge_reached reached) plain executing published]

end Attributed

/-! ### Two licenses -/

def fillFrame : Bytes :=
  lit ("\x7b\"type\":\"fill\",\"trace_id\":\"trace-fixture-0001\",\"status\":\"filled\"," ++
    "\"broker_order_id\":\"1001\"\x7d")

def fillMessage : Message :=
  ⟨lit "fills.mt5-a.trace-fixture-0001", fillFrame⟩

/-- `json.loads`, at the frame that is sent. -/
def loadsFrame (raw : Bytes) : Except Bytes FillDict :=
  if raw = fillFrame then
    .ok [(lit "type", .text (lit "fill")), (lit "trace_id", .text (lit "trace-fixture-0001")),
      (lit "status", .text (lit "filled")), (lit "broker_order_id", .text (lit "1001"))]
  else .error (lit "JSONDecodeError")

/-- Both licenses get an instance, the second one first. The terminal of the first license registers,
gets a signal of its license and reports the fill. -/
def executed (secondKey : String) : List TenantsLabel :=
  [.create 2 (some 2) ⟨lit secondKey, lit "mt5"⟩, .create 1 (some 1) ⟨lit "mt5-a", lit "mt5"⟩,
    .bridge (.begin (.connect canonicalSignal.licenseId [registerFrame "mt5-a", fillFrame]))] ++
  List.replicate 4 (.bridge (.advance 0 (answering 0))) ++
  [.bridge (.begin (.deliver ⟨1, canonicalSignal.encode, some 1⟩))] ++
  List.replicate 2 (.bridge (.advance 1 (answering 0))) ++
  List.replicate 2 (.bridge (.advance 0 (answering 0)))

abbrev terminals : Config :=
  decoding (lit "t0k3n") Proto.Codec.standard

def isReported (state : Tenants) : Bool :=
  state.portal.owns canonicalSignal.licenseId canonicalSignal.instanceId &&
    isExecuting terminals state.bridge 0 canonicalSignal &&
    isPublished state.bridge 0 fillMessage

/-- With keys of their own the fill is stored under the license of its signal. -/
theorem attributed_iff_ownKeys :
    ∃ state, run (Tenants.step terminals) { portal := Bridge.twoLicenses } (executed "mt5-b") =
        some state ∧
      isReported state = true ∧
      Attributed loadsFrame (fun _ => true) (fun _ => true) state.portal canonicalSignal.licenseId
        fillMessage ∧
      ∃ row, Writes loadsFrame (rows state.portal fun _ => true) (fun _ => true) fillMessage row := by
  have ran : (run (Tenants.step terminals) { portal := Bridge.twoLicenses } (executed "mt5-b")).any
      (fun state => isReported state &&
        isSole (fun _ => true) state.portal canonicalSignal.licenseId canonicalSignal.instanceId &&
        joined (rows state.portal fun _ => true) (.text (lit "mt5-a")) = [(1, 1)]) = true := by
    decide +kernel
  obtain ⟨state, same, facts⟩ := (Option.any_eq_true _ _).mp ran
  simp only [Bool.and_eq_true, decide_eq_true_eq] at facts
  obtain ⟨⟨reported, sole⟩, joins⟩ := facts
  refine ⟨state, same, reported, ?_, ?_⟩
  · simp only [isReported, Bool.and_eq_true] at reported
    obtain ⟨⟨owned, executing⟩, published⟩ := reported
    have noInstances : Bridge.twoLicenses.instances = [] := rfl
    have reached := Reaches.of_run _ same
    exact (attributed_iff noInstances reached owned executing published).mpr fun _ => sole
  · have subject : subjectInstance fillMessage.subject = lit "mt5-a" := by decide +kernel
    refine ⟨_, writes_iff.mpr ⟨_, rfl, rfl, (1, 1), ?_, rfl⟩⟩
    rw [subject, joins]
    exact List.mem_singleton_self _

/-- **Two licenses with the same instance key.** The fill of the signal of the first license is stored
under the second, whose instance is the older one. -/
theorem not_attributed_sharedKey :
    ∃ state, run (Tenants.step terminals) { portal := Bridge.twoLicenses } (executed "mt5-a") =
        some state ∧
      isReported state = true ∧
      (∃ row, Writes loadsFrame (rows state.portal fun _ => true) (fun _ => true) fillMessage row ∧
        row.licenseId = 2) ∧
      ¬Attributed loadsFrame (fun _ => true) (fun _ => true) state.portal canonicalSignal.licenseId
        fillMessage := by
  have ran : (run (Tenants.step terminals) { portal := Bridge.twoLicenses } (executed "mt5-a")).any
      (fun state => isReported state &&
        joined (rows state.portal fun _ => true) (.text (lit "mt5-a")) = [(2, 0), (1, 1)] &&
        state.portal.licenses.all fun license =>
          license.id ≠ 2 || license.licenseKey ≠ canonicalSignal.licenseId) = true := by
    decide +kernel
  obtain ⟨state, same, facts⟩ := (Option.any_eq_true _ _).mp ran
  simp only [Bool.and_eq_true, decide_eq_true_eq] at facts
  obtain ⟨⟨reported, joins⟩, others⟩ := facts
  have writes : ∃ row, Writes loadsFrame (rows state.portal fun _ => true) (fun _ => true)
      fillMessage row ∧ row.licenseId = 2 := by
    have subject : subjectInstance fillMessage.subject = lit "mt5-a" := by decide +kernel
    refine ⟨_, writes_iff.mpr ⟨_, rfl, rfl, (2, 0), ?_, rfl⟩, rfl⟩
    rw [subject, joins]
    exact List.mem_cons_self
  refine ⟨state, same, reported, writes, fun attributed => ?_⟩
  obtain ⟨row, written, second⟩ := writes
  obtain ⟨license, inside, sameID, sameKey⟩ := attributed row written
  have other := List.all_eq_true.mp others license inside
  simp [sameID.trans second, sameKey] at other

end ExecRelay.Fills
