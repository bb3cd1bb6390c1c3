/-
**The license records of the environment** (`apps/ingress/internal/ingress/config.go`).

`EXECRELAY_LICENSES` holds one entry per license, with a semicolon between them, and the fields of an
entry with a colon between them. `parseLicenseRecords` reads it.
-/

import ExecRelay.Ingress.Service
import ExecRelay.Lib.Blank
import ExecRelay.Lib.Decimal

namespace ExecRelay.Ingress

open Lib

inductive LicensesError
  | fieldCount
  | maxSignalsPerDay
  | required
deriving DecidableEq, Repr

def LicensesError.text : LicensesError → Bytes
  | fieldCount => lit ("EXECRELAY_LICENSES entries must be license:secret:hmac_secret:instance_id" ++
      "[:platform[:pendingHmacSecret[:maxSignalsPerDay]]]")
  | maxSignalsPerDay => lit "EXECRELAY_LICENSES maxSignalsPerDay must be an integer"
  | required => lit "EXECRELAY_LICENSES license and instance_id are required"

def parseFields (fields : List Bytes) : Except LicensesError LicenseRecord := do
  rejectIf (fields.length < 4 ∨ 7 < fields.length) .fieldCount
  let field := fun index => trimSpace (fields.getD index [])
  let limit := if fields.length = 7 then field 6 else []
  let maxSignalsPerDay ←
    if limit = [] then pure 0
    else match parseInt64 limit with
      | some value => pure value
      | none => throw .maxSignalsPerDay
  let record : LicenseRecord :=
    { licenseID := field 0
      secret := field 1
      hmacSecret := field 2
      instanceID := field 3
      platform := if 5 ≤ fields.length then field 4 else lit "mt5"
      pendingHMACSecret := if 6 ≤ fields.length then field 5 else []
      maxSignalsPerDay := maxSignalsPerDay }
  rejectIf (record.licenseID = [] ∨ record.instanceID = []) .required
  return record

def parseLicenseRecords (raw : Bytes) : Except LicensesError (List LicenseRecord) :=
  let raw := trimSpace raw
  if raw = [] then .ok []
  else (((raw.splitOn 59).map trimSpace).filter (· ≠ [])).mapM fun part => parseFields (part.splitOn 58)

example : parseLicenseRecords (lit " L1:s:h:I1 ; ;L2::k:I2:mt4:p:25") =
    .ok [{ licenseID := lit "L1", secret := lit "s", hmacSecret := lit "h", instanceID := lit "I1"
           platform := lit "mt5" },
         { licenseID := lit "L2", hmacSecret := lit "k", instanceID := lit "I2", platform := lit "mt4"
           pendingHMACSecret := lit "p", maxSignalsPerDay := 25 }] := by
  decide +kernel

theorem parseFields_six {license secret hmac instance_ platform pending : Bytes}
    (named : trimSpace license ≠ []) (given : trimSpace instance_ ≠ []) :
    parseFields [license, secret, hmac, instance_, platform, pending] =
      .ok { licenseID := trimSpace license, secret := trimSpace secret, hmacSecret := trimSpace hmac
            instanceID := trimSpace instance_, platform := trimSpace platform
            pendingHMACSecret := trimSpace pending } := by
  have required : ¬(trimSpace license = [] ∨ trimSpace instance_ = []) := not_or.mpr ⟨named, given⟩
  unfold parseFields
  rw [rejectIf_bind_eq_ok]
  exact ⟨by simp, (rejectIf_bind_eq_ok _ _ _ _).mpr ⟨required, rfl⟩⟩

theorem lookupRecord_of_same {records : List LicenseRecord} {licenseID : Bytes}
    (same : ∀ record ∈ records, record.licenseID = licenseID ∧ record.active = true) :
    lookupRecord records licenseID =
      match records.getLast? with
      | none => .error .notFound
      | some record => .ok record := by
  rw [← List.head?_reverse]
  unfold lookupRecord
  cases behind : records.reverse with
  | nil => rfl
  | cons record rest =>
    have here := same record (List.mem_reverse.mp (behind ▸ List.mem_cons_self))
    have found : (record :: rest).find? (fun record => record.licenseID = licenseID) = some record :=
      List.find?_cons_of_pos (decide_eq_true here.1)
    rw [found]
    exact if_pos here.2

/-! ### Reading what was written -/

/-- Fields that an entry can be written with. -/
structure IsEntry (fields : List Bytes) : Prop where
  ascii : ∀ field ∈ fields, ∀ byte ∈ field, byte < 128
  plain : ∀ field ∈ fields, 58 ∉ field ∧ 59 ∉ field
  trimmed : trim isSpaceByte ([58].intercalate fields) = [58].intercalate fields
  nonempty : [58].intercalate fields ≠ []

namespace IsEntry

variable {fields : List Bytes} (entry : IsEntry fields)

include entry

theorem ascii_join : ∀ byte ∈ [58].intercalate fields, byte < 128 := by
  intro byte member
  rcases mem_join member with rfl | ⟨field, inside, found⟩
  · decide
  · exact entry.ascii field inside byte found

theorem plain_join : 59 ∉ [58].intercalate fields := by
  intro member
  rcases mem_join member with same | ⟨field, inside, found⟩
  · cases same
  · exact (entry.plain field inside).2 found

theorem trimSpace_join : trimSpace ([58].intercalate fields) = [58].intercalate fields := by
  rw [trimSpace_of_ascii entry.ascii_join, entry.trimmed]

theorem splitOn_join : ([58].intercalate fields).splitOn 58 = fields := by
  refine List.splitOn_intercalate 58 (fun field inside => (entry.plain field inside).1) fun empty => ?_
  exact entry.nonempty (by rw [empty]; rfl)

end IsEntry

/-- **Entries are read as they were written.** -/
theorem parseLicenseRecords_join {Item : Type} {items : List Item} {fieldsOf : Item → List Bytes}
    {recordOf : Item → LicenseRecord} (entries : ∀ item ∈ items, IsEntry (fieldsOf item))
    (reads : ∀ item ∈ items, parseFields (fieldsOf item) = .ok (recordOf item)) :
    parseLicenseRecords ([59].intercalate (items.map fun item => [58].intercalate (fieldsOf item))) =
      .ok (items.map recordOf) := by
  by_cases none : items = []
  · rw [none]
    rfl
  · generalize same : (items.map fun item => [58].intercalate (fieldsOf item)) = parts
    have given : parts ≠ [] := by rw [← same]; exact mt List.map_eq_nil_iff.mp none
    have each : ∀ part ∈ parts, ∃ item ∈ items, part = [58].intercalate (fieldsOf item) := by
      intro part member
      rw [← same] at member
      obtain ⟨item, inside, rfl⟩ := List.mem_map.mp member
      exact ⟨item, inside, rfl⟩
    have ascii : ∀ byte ∈ [59].intercalate parts, byte < 128 := by
      intro byte member
      rcases mem_join member with rfl | ⟨part, inside, found⟩
      · decide
      · obtain ⟨item, isItem, rfl⟩ := each part inside
        exact (entries item isItem).ascii_join byte found
    have trimmed : trim isSpaceByte ([59].intercalate parts) = [59].intercalate parts ∧
        [59].intercalate parts ≠ [] := by
      refine trim_join (fun part inside => ?_) (fun part inside => ?_) given
      · obtain ⟨item, isItem, rfl⟩ := each part inside
        exact (entries item isItem).trimmed
      · obtain ⟨item, isItem, rfl⟩ := each part inside
        exact (entries item isItem).nonempty
    have split : ([59].intercalate parts).splitOn 59 = parts := by
      refine List.splitOn_intercalate 59 (fun part inside => ?_) given
      obtain ⟨item, isItem, rfl⟩ := each part inside
      exact (entries item isItem).plain_join
    have kept : (parts.map trimSpace).filter (· ≠ []) = parts := by
      rw [List.map_congr_left (g := id) fun part inside => ?_, List.map_id]
      · refine List.filter_eq_self.mpr fun part inside => ?_
        obtain ⟨item, isItem, rfl⟩ := each part inside
        exact decide_eq_true (entries item isItem).nonempty
      · obtain ⟨item, isItem, rfl⟩ := each part inside
        exact (entries item isItem).trimSpace_join
    rw [parseLicenseRecords, trimSpace_of_ascii ascii, trimmed.1]
    rw [if_neg trimmed.2, split, kept, ← same, List.mapM_map]
    refine mapM_eq_ok_map fun item isItem => ?_
    show parseFields (([58].intercalate (fieldsOf item)).splitOn 58) = _
    rw [(entries item isItem).splitOn_join, reads item isItem]

/-! ### Any white space -/

namespace LicenseRecord

variable (record : LicenseRecord)

def texts : List Bytes :=
  [record.licenseID, record.secret, record.hmacSecret, record.instanceID, record.platform,
    record.pendingHMACSecret]

def fields : List Bytes :=
  record.texts ++ [itoa record.maxSignalsPerDay]

/-- **A record that can be written**: it has a license and an instance, its texts have no separators in
them and no white space around them, and its limit is an `int`. -/
structure Writable : Prop where
  license : record.licenseID ≠ []
  placed : record.instanceID ≠ []
  plain : ∀ text ∈ record.texts, 58 ∉ text ∧ 59 ∉ text
  trimmed : ∀ text ∈ record.texts, trimSpace text = text
  low : -2 ^ 63 ≤ record.maxSignalsPerDay
  high : record.maxSignalsPerDay < 2 ^ 63

end LicenseRecord

def Padded (field text : Bytes) : Prop :=
  ∃ left right, Blank left ∧ Blank right ∧ text = left ++ (field ++ right)

def EntryOf (record : LicenseRecord) (text : Bytes) : Prop :=
  ∃ parts, List.Forall₂ Padded record.fields parts ∧ text = [58].intercalate parts

/-- **The entries of some records**, with blank ones among them. -/
inductive EntriesOf : List LicenseRecord → List Bytes → Prop
  | none : EntriesOf [] []
  | blank {records : List LicenseRecord} {texts : List Bytes} {text : Bytes} (isBlank : Blank text)
      (others : EntriesOf records texts) : EntriesOf records (text :: texts)
  | record {records : List LicenseRecord} {texts : List Bytes} {record : LicenseRecord} {text : Bytes}
      (entry : EntryOf record text) (others : EntriesOf records texts) :
      EntriesOf (record :: records) (text :: texts)

theorem colon_not_mem_spaces : ∀ mark ∈ spaces, (58 : UInt8) ∉ mark := by
  have checked : spaces.all (fun mark => !mark.contains 58) = true := by decide +kernel
  intro mark member
  simpa using List.all_eq_true.mp checked mark member

theorem semicolon_not_mem_spaces : ∀ mark ∈ spaces, (59 : UInt8) ∉ mark := by
  have checked : spaces.all (fun mark => !mark.contains 59) = true := by decide +kernel
  intro mark member
  simpa using List.all_eq_true.mp checked mark member

theorem parseFields_map_trimSpace (fields : List Bytes) :
    parseFields (fields.map trimSpace) = parseFields fields := by
  have each (index : Nat) : trimSpace ((fields.map trimSpace).getD index []) =
      trimSpace (fields.getD index []) := by
    have moved : (fields.map trimSpace).getD index (trimSpace []) = trimSpace (fields.getD index []) :=
      List.getD_map ..
    exact (congrArg trimSpace moved).trans (trimSpace_trimSpace _)
  unfold parseFields
  simp only [List.length_map, each]

variable {record : LicenseRecord} {text : Bytes}

namespace LicenseRecord.Writable

variable (writable : record.Writable)
include writable

theorem plain_fields : ∀ field ∈ record.fields, 58 ∉ field ∧ 59 ∉ field := by
  rw [LicenseRecord.fields, List.forall_mem_append]
  refine ⟨writable.plain, fun field member => ?_⟩
  rw [List.mem_singleton.mp member]
  have bytes := (itoa_bytes record.maxSignalsPerDay).2
  constructor
  all_goals
    intro inside
    rcases bytes _ inside with same | digit
    · cases same
    · cases digit

theorem trimmed_fields : ∀ field ∈ record.fields, trimSpace field = field := by
  rw [LicenseRecord.fields, List.forall_mem_append]
  refine ⟨writable.trimmed, fun field member => ?_⟩
  rw [List.mem_singleton.mp member]
  have bytes := (itoa_bytes record.maxSignalsPerDay).2
  have ascii : ∀ byte : UInt8, byte = 45 ∨ isDecimalDigit byte = true →
      byte < 128 ∧ isSpaceByte byte = false := fun byte => forall_byte byte (by decide +kernel)
  rw [trimSpace_of_ascii fun byte inside => (ascii byte (bytes byte inside)).1]
  exact trim_eq_self_of_forall fun byte inside => (ascii byte (bytes byte inside)).2

theorem parseFields_fields : parseFields record.fields = .ok { record with active := true } := by
  have trimmed := writable.trimmed_fields
  have required : ¬(record.licenseID = [] ∨ record.instanceID = []) :=
    not_or.mpr ⟨writable.license, writable.placed⟩
  have limit := parseInt64_itoa writable.low writable.high
  have given := (itoa_bytes record.maxSignalsPerDay).1
  simp only [LicenseRecord.fields, LicenseRecord.texts, List.cons_append, List.nil_append,
    List.forall_mem_cons] at trimmed
  obtain ⟨license, secret, hmac, instance_, platform, pending, max, -⟩ := trimmed
  unfold parseFields
  rw [rejectIf_bind_eq_ok]
  simp [LicenseRecord.fields, LicenseRecord.texts, license, secret, hmac, instance_, platform,
    pending, max, given, limit, rejectIf_of_not required]
  rfl

end LicenseRecord.Writable

variable {fields parts : List Bytes}

theorem map_trimSpace_padded (padded : List.Forall₂ Padded fields parts)
    (trimmed : ∀ field ∈ fields, trimSpace field = field) : parts.map trimSpace = fields := by
  induction padded with
  | nil => rfl
  | cons here _ ih =>
    obtain ⟨left, right, leftBlank, rightBlank, rfl⟩ := here
    rw [List.forall_mem_cons] at trimmed
    rw [List.map_cons, ih trimmed.2, trimSpace_around leftBlank rightBlank, trimmed.1]

theorem not_mem_padded {separator : UInt8} (kept : ∀ mark ∈ spaces, separator ∉ mark)
    (padded : List.Forall₂ Padded fields parts) (plain : ∀ field ∈ fields, separator ∉ field) :
    ∀ part ∈ parts, separator ∉ part := by
  induction padded with
  | nil => exact List.forall_mem_nil _
  | cons here _ ih =>
    obtain ⟨left, right, leftBlank, rightBlank, rfl⟩ := here
    rw [List.forall_mem_cons] at plain ⊢
    refine ⟨?_, ih plain.2⟩
    simp only [List.mem_append, not_or]
    exact ⟨not_mem_madeOf kept leftBlank, plain.1, not_mem_madeOf kept rightBlank⟩

namespace EntryOf

variable (entry : EntryOf record text) (writable : record.Writable)
include entry writable

theorem semicolon_not_mem : 59 ∉ text := by
  obtain ⟨parts, padded, rfl⟩ := entry
  intro member
  rcases mem_join member with same | ⟨part, inside, here⟩
  · cases same
  · exact not_mem_padded semicolon_not_mem_spaces padded
      (fun field known => (writable.plain_fields field known).2) part inside here

theorem map_trimSpace : ((trimSpace text).splitOn 58).map trimSpace = record.fields := by
  obtain ⟨parts, padded, rfl⟩ := entry
  have plain := not_mem_padded colon_not_mem_spaces padded
    fun field known => (writable.plain_fields field known).1
  have given : parts ≠ [] := by
    rintro rfl
    cases padded
  rw [map_trimSpace_splitOn colon_not_mem_spaces, List.splitOn_intercalate 58 plain given]
  exact map_trimSpace_padded padded writable.trimmed_fields

theorem parseFields_splitOn :
    parseFields ((trimSpace text).splitOn 58) = .ok { record with active := true } := by
  rw [← parseFields_map_trimSpace, entry.map_trimSpace writable]
  exact writable.parseFields_fields

theorem trimSpace_ne_nil : trimSpace text ≠ [] := by
  intro empty
  have seven := congrArg List.length (entry.map_trimSpace writable)
  rw [empty] at seven
  cases seven

end EntryOf

variable {records : List LicenseRecord} {texts : List Bytes}

theorem mapM_entries (entries : EntriesOf records texts)
    (writable : ∀ record ∈ records, record.Writable) :
    ((texts.map trimSpace).filter (· ≠ [])).mapM (fun part => parseFields (part.splitOn 58)) =
      .ok (records.map fun record => { record with active := true }) := by
  induction entries with
  | none => rfl
  | blank isBlank _ ih =>
    rw [List.map_cons, trimSpace_blank isBlank]
    exact ih writable
  | record entry _ ih =>
    rw [List.forall_mem_cons] at writable
    have given := entry.trimSpace_ne_nil writable.1
    rw [List.map_cons, List.filter_cons_of_pos (by simpa using given), List.mapM_cons,
      entry.parseFields_splitOn writable.1, ih writable.2]
    rfl

theorem semicolon_not_mem_entries (entries : EntriesOf records texts)
    (writable : ∀ record ∈ records, record.Writable) : ∀ text ∈ texts, 59 ∉ text := by
  induction entries with
  | none => exact List.forall_mem_nil _
  | blank isBlank _ ih =>
    rw [List.forall_mem_cons]
    exact ⟨not_mem_madeOf semicolon_not_mem_spaces isBlank, ih writable⟩
  | record entry _ ih =>
    rw [List.forall_mem_cons] at writable ⊢
    exact ⟨entry.semicolon_not_mem writable.1, ih writable.2⟩

/-- **Records are read as they were written**, with any white space around their fields, and any blank
entries before, between and behind theirs. -/
theorem parseLicenseRecords_written {records : List LicenseRecord} (given : records ≠ [])
    (writable : ∀ record ∈ records, record.Writable) {texts : List Bytes}
    (entries : EntriesOf records texts) :
    parseLicenseRecords ([59].intercalate texts) =
      .ok (records.map fun record => { record with active := true }) := by
  have some_ : texts ≠ [] := by
    rintro rfl
    cases entries
    exact given rfl
  have parts : ((trimSpace ([59].intercalate texts)).splitOn 59).map trimSpace =
      texts.map trimSpace := by
    rw [map_trimSpace_splitOn semicolon_not_mem_spaces,
      List.splitOn_intercalate 59 (semicolon_not_mem_entries entries writable) some_]
  have read := mapM_entries entries writable
  have nonempty : trimSpace ([59].intercalate texts) ≠ [] := by
    intro empty
    rw [empty] at parts
    rw [← parts] at read
    exact given (List.map_eq_nil_iff.mp (Except.ok.inj read).symm)
  rw [parseLicenseRecords, if_neg nonempty, parts]
  exact read

/-- A record with a limit. -/
def limitedRecord : LicenseRecord where
  licenseID := lit "60123456789"
  secret := lit "s"
  hmacSecret := lit "k"
  instanceID := lit "mt5-a"
  platform := lit "mt5"
  maxSignalsPerDay := -1

/-- A no-break space in front of the license, a space behind it, a tab in front of the limit, a line end
behind the entry, and blank entries around it. -/
theorem parseLicenseRecords_written_limited :
    parseLicenseRecords (lit " ;\u00a060123456789 :s:k:mt5-a:mt5::\t-1\n;;") = .ok [limitedRecord] := by
  have blank (marks : List Bytes) (known : marks.all spaces.contains = true) : Blank marks.flatten :=
    ⟨marks, by simpa using known, rfl⟩
  have none (field : Bytes) : Padded field field :=
    ⟨[], [], blank_nil, blank_nil, by simp⟩
  have entry : EntryOf limitedRecord (lit "\u00a060123456789 :s:k:mt5-a:mt5::\t-1\n") := by
    refine ⟨[lit "\u00a060123456789 ", lit "s", lit "k", lit "mt5-a", lit "mt5", [], lit "\t-1\n"],
      .cons ?_ (.cons (none _) (.cons (none _) (.cons (none _) (.cons (none _) (.cons (none _)
        (.cons ?_ .nil)))))), by decide +kernel⟩
    · exact ⟨_, _, blank [[0xC2, 0xA0]] (by decide +kernel), blank [[0x20]] (by decide +kernel),
        by decide +kernel⟩
    · exact ⟨_, _, blank [[0x09]] (by decide +kernel), blank [[0x0A]] (by decide +kernel),
        by decide +kernel⟩
  have writable : limitedRecord.Writable :=
    ⟨by decide, by decide, by decide +kernel, by decide +kernel, by decide, by decide⟩
  have texts : lit " ;\u00a060123456789 :s:k:mt5-a:mt5::\t-1\n;;" = [59].intercalate
      [lit " ", lit "\u00a060123456789 :s:k:mt5-a:mt5::\t-1\n", [], []] := by
    decide +kernel
  rw [texts]
  exact parseLicenseRecords_written (List.cons_ne_nil _ _) (by simpa using writable)
    (.blank (blank [[0x20]] (by decide +kernel)) (.record entry (.blank blank_nil
      (.blank blank_nil .none))))

end ExecRelay.Ingress
