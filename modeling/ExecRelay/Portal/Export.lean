/-
**The licenses that the portal exports** (`apps/portal-api/app.py`).

A license gets its key and its secrets from the portal, and its instances by `create_instance`; the
`Accounts` carry what these requests make sure of. `export_config` writes one entry for every active
instance of a license, all with the key of the license. Ingress keeps one record per key.

Postgres may return the instances in any order.
-/

import ExecRelay.Ingress.Licenses
import ExecRelay.Portal.Instances

namespace ExecRelay.Portal

open Lib
open Ingress (LicenseRecord IsEntry lookupRecord parseFields parseLicenseRecords)

/-! ### Licenses and their secrets -/

/-- Letters, digits, `_` and `-`. -/
def isPlain (text : Bytes) : Bool :=
  text.all isInstanceKeyByte

/-- The secrets of a license. -/
structure Secrets where
  hmacSecret : Bytes
  pendingHMACSecret : Option Bytes := none
  plain : isPlain hmacSecret = true
  pendingPlain : ∀ pending, pendingHMACSecret = some pending → isPlain pending = true

/-- The last digits of a number: `str(number % 10**width).zfill(width)`. -/
def lastDigits : Nat → Nat → Bytes
  | 0, _ => []
  | width + 1, number => lastDigits width (number / 10) ++ [48 + UInt8.ofNat (number % 10)]

example : lastDigits 11 340282366920938463463374607431768211455 = lit "31768211455" := by decide +kernel

example : lastDigits 11 42 = lit "00000000042" := by decide +kernel

theorem isPlain_append {left right : Bytes} :
    isPlain (left ++ right) = true ↔ isPlain left = true ∧ isPlain right = true := by
  rw [isPlain, List.all_append, Bool.and_eq_true]
  rfl

theorem isPlain_lastDigits (width number : Nat) : isPlain (lastDigits width number) = true := by
  induction width generalizing number with
  | zero => rfl
  | succ width ih =>
    have digit : ∀ value : Fin 10, isInstanceKeyByte (48 + UInt8.ofNat value) = true := by
      decide +kernel
    rw [lastDigits, isPlain_append]
    refine ⟨ih _, ?_⟩
    rw [isPlain, List.all_cons, digit ⟨number % 10, Nat.mod_lt _ (by decide)⟩]
    rfl

theorem lastDigits_ne_nil (width number : Nat) : lastDigits (width + 1) number ≠ [] := by
  exact List.append_ne_nil_of_right_ne_nil _ (List.cons_ne_nil _ _)

theorem isPlain_hexEncode (bytes : Bytes) : isPlain (hexEncode bytes) = true := by
  have digits : ∀ byte : UInt8, isPlain [hexDigit (byte / 16), hexDigit (byte % 16)] = true :=
    fun byte => forall_byte byte (by decide +kernel)
  induction bytes with
  | nil => rfl
  | cons byte rest ih =>
    rw [hexEncode, List.flatMap_cons, isPlain_append]
    exact ⟨digits byte, ih⟩

/-! ### The accounts -/

def platforms : List Bytes :=
  [lit "mt4", lit "mt5", lit "dxtrade"]

/-- The tables with the secrets of the licenses by their ids, and what the requests that write them
check. -/
structure Accounts where
  tables : Tables
  secrets : Nat → Secrets
  licenseKeys : ∀ license ∈ tables.licenses,
    license.licenseKey ≠ [] ∧ isPlain license.licenseKey = true
  checked : ∀ row ∈ tables.instances,
    matchesInstanceKey row.instanceKey = true ∧ row.platform ∈ platforms

theorem checked_createInstance {tables next : Tables} {userID : Nat} {licenseID : Option Nat}
    {body : CreateInstanceIn} (created : tables.createInstance userID licenseID body = .ok next)
    (checked : ∀ row ∈ tables.instances,
      matchesInstanceKey row.instanceKey = true ∧ row.platform ∈ platforms) :
    ∀ row ∈ next.instances, matchesInstanceKey row.instanceKey = true ∧ row.platform ∈ platforms := by
  unfold Tables.createInstance at created
  split at created
  · cases created
  · rename_i known
    split at created
    · cases created
    · rename_i fine
      split at created
      · cases created
      · split at created
        · cases created
          intro row member
          rcases List.mem_append.mp member with old | new
          · exact checked row old
          · rw [List.mem_singleton.mp new]
            exact ⟨(Bool.not_eq_false _).mp fine, not_not.mp known⟩
        · cases created

namespace Accounts

variable (accounts : Accounts)

/-- `id` and `number` come from `uuid4`, and `random` from `secrets.token_hex`. The keys of the licenses
are unique. -/
def createLicense (userID id number : Nat) (random : Bytes) : Except HTTPException Accounts :=
  let licenseKey := lastDigits 11 number
  if fresh : ∀ license ∈ accounts.tables.licenses, license.id ≠ id ∧ license.licenseKey ≠ licenseKey then
    .ok
      { tables :=
          { accounts.tables with
            licenses := accounts.tables.licenses ++ [⟨id, userID, licenseKey⟩]
            ids := by
              rw [List.map_append, List.nodup_append]
              refine ⟨accounts.tables.ids, List.nodup_singleton _, fun left member right last => ?_⟩
              obtain ⟨license, inside, rfl⟩ := List.mem_map.mp member
              rw [List.mem_singleton.mp last]
              exact (fresh license inside).1 }
        secrets := fun license =>
          if license = id then
            { hmacSecret := hexEncode random, plain := isPlain_hexEncode random, pendingPlain := by rintro _ ⟨⟩ }
          else accounts.secrets license
        licenseKeys := by
          intro license member
          rcases List.mem_append.mp member with old | new
          · exact accounts.licenseKeys license old
          · rw [List.mem_singleton.mp new]
            exact ⟨lastDigits_ne_nil 10 number, isPlain_lastDigits 11 number⟩
        checked := accounts.checked }
  else .error ⟨500, lit "Internal Server Error"⟩

def createInstance (userID : Nat) (licenseID : Option Nat) (body : CreateInstanceIn) :
    Except HTTPException Accounts :=
  match created : accounts.tables.createInstance userID licenseID body with
  | .error exception => .error exception
  | .ok tables =>
    .ok
      { accounts with
        tables := tables
        licenseKeys := by
          obtain ⟨_, _, _, same, _⟩ := Tables.createInstance_eq_ok created
          rw [same]
          exact accounts.licenseKeys
        checked := checked_createInstance created accounts.checked }

/-! ### The export -/

def activeInstances (license : LicenseRow) : List InstanceRow :=
  accounts.tables.instances.filter fun row => row.licenseId = license.id && row.active

/-- The entry of an instance. -/
def exportEntry (license : LicenseRow) (row : InstanceRow) : Bytes :=
  let secrets := accounts.secrets license.id
  license.licenseKey ++ lit "::" ++ secrets.hmacSecret ++ lit ":" ++ row.instanceKey ++ lit ":" ++
    row.platform ++ lit ":" ++ secrets.pendingHMACSecret.getD []

/-- `order` is the order in which the database returns the rows. -/
def exportConfig (order : List InstanceRow → List InstanceRow) (userID : Nat)
    (licenseID : Option Nat) : Except HTTPException Bytes := do
  let license ← accounts.tables.ownLicense licenseID userID
  return [59].intercalate ((order (accounts.activeInstances license)).map
    (accounts.exportEntry license))

end Accounts

/-! ### What is read of an entry -/

theorem isInstanceKeyByte_plain (byte : UInt8) : isInstanceKeyByte byte = true →
    byte < 128 ∧ byte ≠ 58 ∧ byte ≠ 59 ∧ isSpaceByte byte = false :=
  forall_byte byte (by decide +kernel)

section Plain

variable {text : Bytes} (plain : isPlain text = true)

include plain

theorem plain_byte {byte : UInt8} (member : byte ∈ text) :
    byte < 128 ∧ byte ≠ 58 ∧ byte ≠ 59 ∧ isSpaceByte byte = false :=
  isInstanceKeyByte_plain byte (List.all_eq_true.mp plain byte member)

theorem trim_plain : trim isSpaceByte text = text :=
  trim_eq_self_of_forall fun _ member => (plain_byte plain member).2.2.2

theorem trimSpace_plain : trimSpace text = text := by
  rw [trimSpace_of_ascii fun _ member => (plain_byte plain member).1, trim_plain plain]

theorem trimSpace_plain_line : trimSpace (text ++ [10]) = text := by
  have ascii : ∀ byte ∈ text ++ [10], byte < 128 := by
    intro byte member
    rcases List.mem_append.mp member with inside | last
    · exact (plain_byte plain inside).1
    · rw [List.mem_singleton.mp last]
      decide
  rw [trimSpace_of_ascii ascii]
  cases text with
  | nil => decide
  | cons byte rest =>
    have notSpace : ¬isSpaceByte byte = true := by
      rw [(plain_byte plain List.mem_cons_self).2.2.2]
      exact Bool.false_ne_true
    have kept := trim_plain plain
    rw [trim, List.dropWhile_cons_of_neg notSpace] at kept
    rw [trim, List.cons_append, List.dropWhile_cons_of_neg notSpace, ← List.cons_append,
      List.rdropWhile_concat_pos isSpaceByte _ 10 rfl, kept]

end Plain

theorem exists_core_of_matches {key : Bytes} (fine : matchesInstanceKey key = true) :
    ∃ core, core ≠ [] ∧ isPlain core = true ∧ (key = core ∨ key = core ++ [10]) := by
  unfold matchesInstanceKey at fine
  rw [Bool.and_eq_true, decide_eq_true_eq] at fine
  split at fine
  · rename_i last
    exact ⟨key.dropLast, fine.1, fine.2, Or.inr (List.dropLast_append_getLast? 10 last).symm⟩
  · exact ⟨key, fine.1, fine.2, Or.inl rfl⟩

theorem isPlain_of_platform {platform : Bytes} (known : platform ∈ platforms) :
    isPlain platform = true := by
  have all : platforms.all isPlain = true := by decide +kernel
  exact List.all_eq_true.mp all platform known

section InstanceKey

variable {key : Bytes} (fine : matchesInstanceKey key = true)

include fine

theorem trimSpace_instanceKey_ne_nil : trimSpace key ≠ [] := by
  obtain ⟨core, given, plain, rfl | rfl⟩ := exists_core_of_matches fine
  · rw [trimSpace_plain plain]
    exact given
  · rw [trimSpace_plain_line plain]
    exact given

theorem trimSpace_instanceKey_iff : trimSpace key = key ↔ key.getLast? ≠ some 10 := by
  obtain ⟨core, given, plain, rfl | rfl⟩ := exists_core_of_matches fine
  · refine ⟨fun _ last => ?_, fun _ => trimSpace_plain plain⟩
    cases (plain_byte plain (List.mem_of_getLast? last)).2.2.2
  · rw [trimSpace_plain_line plain]
    refine ⟨fun same => ?_, fun ends => absurd List.getLast?_concat ends⟩
    exact absurd (List.self_eq_append_right.mp same) (List.cons_ne_nil _ _)

end InstanceKey

/-! ### The records of an export -/

namespace Accounts

variable {accounts : Accounts} {license : LicenseRow}

variable (accounts license) in
def entryFields (row : InstanceRow) : List Bytes :=
  [license.licenseKey, [], (accounts.secrets license.id).hmacSecret, row.instanceKey, row.platform,
    (accounts.secrets license.id).pendingHMACSecret.getD []]

theorem exportEntry_eq (row : InstanceRow) :
    accounts.exportEntry license row = [58].intercalate (accounts.entryFields license row) := by
  have colon : lit ":" = [58] := by decide
  have colons : lit "::" = [58] ++ [58] := by decide
  simp only [exportEntry, entryFields, colon, colons, List.intercalate_cons_cons,
    List.intercalate_singleton, List.nil_append, List.append_assoc]

variable (accounts license) in
def recordOf (row : InstanceRow) : LicenseRecord where
  licenseID := license.licenseKey
  hmacSecret := (accounts.secrets license.id).hmacSecret
  instanceID := trimSpace row.instanceKey
  platform := row.platform
  pendingHMACSecret := (accounts.secrets license.id).pendingHMACSecret.getD []

theorem isPlain_pending : isPlain ((accounts.secrets license.id).pendingHMACSecret.getD []) = true := by
  cases waiting : (accounts.secrets license.id).pendingHMACSecret with
  | none => rfl
  | some pending => exact (accounts.secrets license.id).pendingPlain pending waiting

section Rows

variable (listed : license ∈ accounts.tables.licenses) {row : InstanceRow}
  (member : row ∈ accounts.tables.instances)

include listed member

theorem entryFields_bytes :
    ∀ field ∈ accounts.entryFields license row, ∀ byte ∈ field,
      isInstanceKeyByte byte = true ∨ byte = 10 := by
  have plain {text : Bytes} (fine : isPlain text = true) :
      ∀ byte ∈ text, isInstanceKeyByte byte = true ∨ byte = 10 :=
    fun byte inside => Or.inl (List.all_eq_true.mp fine byte inside)
  have fine := accounts.checked row member
  simp only [entryFields, List.forall_mem_cons]
  refine ⟨plain (accounts.licenseKeys license listed).2, plain rfl,
    plain (accounts.secrets license.id).plain, ?_, plain (isPlain_of_platform fine.2),
    plain isPlain_pending, List.forall_mem_nil _⟩
  obtain ⟨core, -, isCore, same | same⟩ := exists_core_of_matches fine.1
  · rw [same]
    exact plain isCore
  · intro byte inside
    rw [same, List.mem_append, List.mem_singleton] at inside
    exact inside.imp (List.all_eq_true.mp isCore byte) id

theorem isEntry_entryFields : IsEntry (accounts.entryFields license row) := by
  have key := accounts.licenseKeys license listed
  have bytes := entryFields_bytes listed member
  have shape : [58].intercalate (accounts.entryFields license row) = license.licenseKey ++
      ([58, 58] ++ (accounts.secrets license.id).hmacSecret ++ [58] ++ row.instanceKey ++ [58] ++
        row.platform) ++ ([58] ++ (accounts.secrets license.id).pendingHMACSecret.getD []) := by
    simp [entryFields, List.intercalate_cons_cons]
  refine ⟨fun field isField byte inside => ?_, fun field isField => ⟨fun inside => ?_, fun inside => ?_⟩,
    ?_, ?_⟩
  · rcases bytes field isField byte inside with fine | rfl
    · exact (isInstanceKeyByte_plain byte fine).1
    · decide
  · rcases bytes field isField 58 inside with fine | same
    · cases fine
    · cases same
  · rcases bytes field isField 59 inside with fine | same
    · cases fine
    · cases same
  · have back : trim isSpaceByte ([58] ++ (accounts.secrets license.id).pendingHMACSecret.getD []) =
        [58] ++ (accounts.secrets license.id).pendingHMACSecret.getD [] := by
      refine trim_eq_self_of_forall fun byte inside => ?_
      rcases List.mem_append.mp inside with first | behind
      · rw [List.mem_singleton.mp first]
        decide
      · exact (plain_byte isPlain_pending behind).2.2.2
    rw [shape]
    exact trim_append (trim_plain key.2) back key.1 (List.cons_ne_nil _ _)
  · exact List.append_ne_nil_of_left_ne_nil key.1 _

theorem parseFields_entryFields :
    parseFields (accounts.entryFields license row) = .ok (accounts.recordOf license row) := by
  have key := (accounts.licenseKeys license listed)
  have fine := accounts.checked row member
  have named : trimSpace license.licenseKey ≠ [] := by
    rw [trimSpace_plain key.2]
    exact key.1
  rw [entryFields, Ingress.parseFields_six named (trimSpace_instanceKey_ne_nil fine.1),
    trimSpace_plain key.2, trimSpace_plain (accounts.secrets license.id).plain,
    trimSpace_plain (isPlain_of_platform fine.2), trimSpace_plain isPlain_pending]
  rfl

end Rows

theorem mem_of_ownLicense {tables : Tables} {licenseID : Option Nat} {userID : Nat}
    (own : tables.ownLicense licenseID userID = .ok license) : license ∈ tables.licenses := by
  unfold Tables.ownLicense at own
  split at own
  · rename_i row found
    cases own
    obtain ⟨id, -, foundRow⟩ := Option.bind_eq_some_iff.mp found
    exact List.mem_of_find?_eq_some foundRow
  · cases own

section Export

variable {order : List InstanceRow → List InstanceRow} (complete : ∀ rows, (order rows).Perm rows)
  {userID : Nat} {licenseID : Option Nat}
  (own : accounts.tables.ownLicense licenseID userID = .ok license)

include complete own

/-- **Ingress reads the export.** -/
theorem parse_exportConfig : ∃ raw, accounts.exportConfig order userID licenseID = .ok raw ∧
    parseLicenseRecords raw =
      .ok ((order (accounts.activeInstances license)).map (accounts.recordOf license)) := by
  have listed := mem_of_ownLicense own
  have inside : ∀ row ∈ order (accounts.activeInstances license), row ∈ accounts.tables.instances :=
    fun row member => List.mem_of_mem_filter ((complete _).mem_iff.mp member)
  refine ⟨_, by rw [exportConfig, own]; rfl, ?_⟩
  rw [List.map_congr_left fun row _ => exportEntry_eq row]
  exact Ingress.parseLicenseRecords_join (fun row member => isEntry_entryFields listed (inside row member))
    fun row member => parseFields_entryFields listed (inside row member)

end Export

variable (accounts license) in
/-- A record with the instance, the platform and the secret of a row. -/
structure Carries (record : LicenseRecord) (row : InstanceRow) : Prop where
  instanceID : record.instanceID = row.instanceKey
  platform : record.platform = row.platform
  hmacSecret : record.hmacSecret = (accounts.secrets license.id).hmacSecret

variable (accounts license) in
def AllFound (records : List LicenseRecord) : Prop :=
  ∀ row ∈ accounts.activeInstances license, ∃ record,
    lookupRecord records license.licenseKey = .ok record ∧ accounts.Carries license record row

variable (accounts license) in
/-- At most one active instance, whose key does not end with a line end. -/
structure Single : Prop where
  only : (accounts.activeInstances license).length ≤ 1
  ends : ∀ row ∈ accounts.activeInstances license, row.instanceKey.getLast? ≠ some 10

theorem lookup_exported (rows : List InstanceRow) :
    lookupRecord (rows.map (accounts.recordOf license)) license.licenseKey =
      match rows.getLast? with
      | none => .error .notFound
      | some row => .ok (accounts.recordOf license row) := by
  rw [Ingress.lookupRecord_of_same]
  · rw [List.getLast?_map]
    cases rows.getLast? <;> rfl
  · intro record member
    obtain ⟨row, _, rfl⟩ := List.mem_map.mp member
    exact ⟨rfl, rfl⟩

theorem mem_activeInstances {row : InstanceRow} (member : row ∈ accounts.activeInstances license) :
    row ∈ accounts.tables.instances ∧ row.licenseId = license.id := by
  obtain ⟨inside, fine⟩ := List.mem_filter.mp member
  rw [Bool.and_eq_true, decide_eq_true_eq] at fine
  exact ⟨inside, fine.1⟩

theorem length_le_one_of_allFound {records : List LicenseRecord}
    (found : accounts.AllFound license records) : (accounts.activeInstances license).length ≤ 1 := by
  have apart : (accounts.activeInstances license).Pairwise InstanceRow.Apart :=
    accounts.tables.instanceKeys.filter _
  unfold AllFound at found
  cases rows : accounts.activeInstances license with
  | nil => exact Nat.zero_le 1
  | cons first others =>
    cases others with
    | nil => exact Nat.le_refl 1
    | cons second rest =>
      have isFirst : first ∈ accounts.activeInstances license := rows ▸ List.mem_cons_self
      have isSecond : second ∈ accounts.activeInstances license :=
        rows ▸ List.mem_cons_of_mem _ List.mem_cons_self
      obtain ⟨record, here, carriesFirst⟩ := found first isFirst
      obtain ⟨other, there, carriesSecond⟩ := found second isSecond
      rw [here] at there
      cases there
      rw [rows, List.pairwise_cons] at apart
      have sameLicense : first.licenseId = second.licenseId :=
        (mem_activeInstances isFirst).2.trans (mem_activeInstances isSecond).2.symm
      have differ := apart.1 second List.mem_cons_self sameLicense
      exact absurd (carriesFirst.instanceID.symm.trans carriesSecond.instanceID) differ

section AllFound

variable {rows : List InstanceRow} (same : rows.Perm (accounts.activeInstances license))

include same

theorem lookup_only {row : InstanceRow} (only : (accounts.activeInstances license).length ≤ 1)
    (member : row ∈ accounts.activeInstances license) :
    lookupRecord (rows.map (accounts.recordOf license)) license.licenseKey =
      .ok (accounts.recordOf license row) := by
  obtain ⟨first, single⟩ := List.length_eq_one_iff.mp
    (Nat.le_antisymm only (List.length_pos_of_mem member))
  rw [single, List.mem_singleton] at member
  rw [single, ← member] at same
  rw [lookup_exported, List.perm_singleton.mp same]
  rfl

theorem allFound_iff :
    accounts.AllFound license (rows.map (accounts.recordOf license)) ↔ accounts.Single license := by
  constructor
  · intro found
    have only := length_le_one_of_allFound found
    refine ⟨only, fun row member => ?_⟩
    obtain ⟨record, here, carries⟩ := found row member
    rw [lookup_only same only member] at here
    cases here
    have fine := accounts.checked row (mem_activeInstances member).1
    exact (trimSpace_instanceKey_iff fine.1).mp carries.instanceID
  · rintro ⟨only, ends⟩ row member
    have fine := accounts.checked row (mem_activeInstances member).1
    have kept := (trimSpace_instanceKey_iff fine.1).mpr (ends row member)
    exact ⟨_, lookup_only same only member, kept, rfl, rfl⟩

end AllFound

/-- **Which exports keep every instance.** -/
theorem allFound_export_iff {order : List InstanceRow → List InstanceRow}
    (complete : ∀ rows, (order rows).Perm rows) {userID : Nat} {licenseID : Option Nat}
    (own : accounts.tables.ownLicense licenseID userID = .ok license) :
    ∃ raw records, accounts.exportConfig order userID licenseID = .ok raw ∧
      parseLicenseRecords raw = .ok records ∧
      (accounts.AllFound license records ↔ accounts.Single license) := by
  obtain ⟨raw, exported, parsed⟩ := parse_exportConfig complete own
  exact ⟨raw, _, exported, parsed, allFound_iff (complete _)⟩

/-! ### A license with one terminal and one with two -/

def noAccounts : Accounts where
  tables := { licenses := [], ids := List.nodup_nil, instanceKeys := List.Pairwise.nil }
  secrets := fun _ => { hmacSecret := [], plain := rfl, pendingPlain := by rintro _ ⟨⟩ }
  licenseKeys := List.forall_mem_nil _
  checked := List.forall_mem_nil _

/-- A license of the user 7 with instances of the given keys on MetaTrader 5. -/
def withInstances (keys : List Bytes) : Except HTTPException Accounts := do
  let accounts ← noAccounts.createLicense 7 1 60123456789 (List.replicate 16 0xA7)
  keys.foldlM (fun accounts key => accounts.createInstance 7 (some 1) ⟨key, lit "mt5"⟩) accounts

theorem exists_withInstances (keys : List Bytes) (test : List InstanceRow → Bool)
    (evaluated : (withInstances keys).toOption.any (fun accounts =>
      (accounts.tables.ownLicense (some 1) 7).toOption.any fun license =>
        test (accounts.activeInstances license)) = true) :
    ∃ accounts license, withInstances keys = .ok accounts ∧
      accounts.tables.ownLicense (some 1) 7 = .ok license ∧
      test (accounts.activeInstances license) = true := by
  obtain ⟨accounts, made, passes⟩ := exists_ok_of_any evaluated
  obtain ⟨license, own, holds⟩ := exists_ok_of_any passes
  exact ⟨accounts, license, made, own, holds⟩

/-- The check of `Single` on the active instances. -/
def isSingle (rows : List InstanceRow) : Bool :=
  rows.length ≤ 1 && rows.all fun row => row.instanceKey.getLast? ≠ some 10

theorem single_iff : accounts.Single license ↔ isSingle (accounts.activeInstances license) = true := by
  rw [isSingle, Bool.and_eq_true, decide_eq_true_eq, List.all_eq_true]
  simp only [decide_eq_true_eq]
  exact ⟨fun single => ⟨single.only, single.ends⟩, fun single => ⟨single.1, single.2⟩⟩

theorem allFound_export_one :
    ∃ accounts license raw records, withInstances [lit "demo"] = .ok accounts ∧
      (accounts.activeInstances license).length = 1 ∧
      accounts.exportConfig id 7 (some 1) = .ok raw ∧ parseLicenseRecords raw = .ok records ∧
      accounts.AllFound license records := by
  obtain ⟨accounts, license, made, own, holds⟩ := exists_withInstances [lit "demo"]
    (fun rows => rows.length == 1 && isSingle rows) (by decide +kernel)
  rw [Bool.and_eq_true, beq_iff_eq, ← single_iff] at holds
  have read : ∃ raw records, accounts.exportConfig id 7 (some 1) = .ok raw ∧
      parseLicenseRecords raw = .ok records ∧
      (accounts.AllFound license records ↔ accounts.Single license) :=
    allFound_export_iff (fun _ => List.Perm.refl _) own
  obtain ⟨raw, records, exported, parsed, found⟩ := read
  exact ⟨accounts, license, raw, records, made, holds.1, exported, parsed, found.mpr holds.2⟩

/-- **Two terminals**: ingress does not find each of them, in whichever order they are exported. -/
theorem not_allFound_two :
    ∃ accounts license, withInstances [lit "demo", lit "live"] = .ok accounts ∧
      (accounts.activeInstances license).length = 2 ∧
      ∀ order : List InstanceRow → List InstanceRow, (∀ rows, (order rows).Perm rows) →
        ∃ raw records, accounts.exportConfig order 7 (some 1) = .ok raw ∧
          parseLicenseRecords raw = .ok records ∧ ¬accounts.AllFound license records := by
  obtain ⟨accounts, license, made, own, holds⟩ := exists_withInstances [lit "demo", lit "live"]
    (fun rows => rows.length == 2 && !isSingle rows) (by decide +kernel)
  rw [Bool.and_eq_true, beq_iff_eq, Bool.not_eq_true', ← Bool.not_eq_true, ← single_iff] at holds
  refine ⟨accounts, license, made, holds.1, fun order complete => ?_⟩
  obtain ⟨raw, exported, parsed⟩ := parse_exportConfig complete own
  exact ⟨raw, _, exported, parsed, fun found => holds.2 ((allFound_iff (complete _)).mp found)⟩

end Accounts

end ExecRelay.Portal
