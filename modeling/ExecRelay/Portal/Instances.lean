/-
**The instances of the portal.**

A license belongs to a user, and `create_instance` adds an instance to a license of the requesting
user. The table holds an instance key once per license; the tables of a `Portal` carry that as
their invariant, and `create_instance` keeps it.
-/

import ExecRelay.Lib.Bytes
import Mathlib.Data.List.Nodup

namespace ExecRelay.Portal

open Lib

structure LicenseRow where
  id : Nat
  userId : Nat
  licenseKey : Bytes
deriving DecidableEq, Repr

structure InstanceRow where
  licenseId : Nat
  instanceKey : Bytes
  platform : Bytes
  active : Bool := true
deriving DecidableEq, Repr

/-- Two rows that `UNIQUE (license_id, instance_key)` lets stand. -/
def InstanceRow.Apart (left right : InstanceRow) : Prop :=
  left.licenseId = right.licenseId → left.instanceKey ≠ right.instanceKey

/-- The tables, with their unique columns. -/
structure Tables where
  licenses : List LicenseRow
  instances : List InstanceRow := []
  ids : (licenses.map LicenseRow.id).Nodup
  instanceKeys : instances.Pairwise InstanceRow.Apart

structure HTTPException where
  status : Nat
  detail : Bytes
deriving DecidableEq, Repr

structure CreateInstanceIn where
  instanceKey : Bytes
  platform : Bytes

def isInstanceKeyByte (byte : UInt8) : Bool :=
  65 ≤ byte && byte ≤ 90 || 97 ≤ byte && byte ≤ 122 || 48 ≤ byte && byte ≤ 57 || byte == 95 ||
    byte == 45

/-- `_INSTANCE_KEY_RE.match`. The `$` of the pattern also matches in front of a last line end. -/
def matchesInstanceKey (key : Bytes) : Bool :=
  let core := if key.getLast? = some 10 then key.dropLast else key
  core ≠ [] && core.all isInstanceKeyByte

namespace Tables

variable (tables : Tables)

/-- The license with the id of the path, if it is one of the user. An id that is no UUID is `none`. -/
def ownLicense (licenseID : Option Nat) (userID : Nat) : Except HTTPException LicenseRow :=
  match licenseID.bind fun id => tables.licenses.find? fun row => row.id = id && row.userId = userID with
  | some row => .ok row
  | none => .error ⟨404, lit "license not found"⟩

def isTaken (licenseID : Nat) (instanceKey : Bytes) : Bool :=
  tables.instances.any fun row => row.licenseId = licenseID && row.instanceKey = instanceKey

def insertInstance (row : InstanceRow)
    (free : tables.isTaken row.licenseId row.instanceKey = false) : Tables where
  licenses := tables.licenses
  instances := tables.instances ++ [row]
  ids := tables.ids
  instanceKeys := by
    refine List.pairwise_append.mpr ⟨tables.instanceKeys, List.pairwise_singleton _ _, ?_⟩
    intro other member last isLast sameLicense sameKey
    rw [List.mem_singleton.mp isLast] at sameLicense sameKey
    have apart := List.any_eq_false.mp free other member
    simp [sameLicense, sameKey] at apart

def createInstance (userID : Nat) (licenseID : Option Nat) (body : CreateInstanceIn) :
    Except HTTPException Tables :=
  if body.platform ∉ [lit "mt4", lit "mt5", lit "dxtrade"] then
    .error ⟨422, lit "platform must be mt4, mt5, or dxtrade"⟩
  else if matchesInstanceKey body.instanceKey = false then
    .error ⟨422, lit "instance_key must contain only letters, digits, _ or -"⟩
  else
    match tables.ownLicense licenseID userID with
    | .error exception => .error exception
    | .ok license =>
      if free : tables.isTaken license.id body.instanceKey = false then
        .ok (tables.insertInstance
          { licenseId := license.id, instanceKey := body.instanceKey, platform := body.platform } free)
      else .error ⟨409, lit "instance_key already exists for this license"⟩

/-- The license with the given key has an instance with the given key. -/
def owns (licenseKey instanceKey : Bytes) : Bool :=
  tables.licenses.any fun license =>
    license.licenseKey = licenseKey && tables.isTaken license.id instanceKey

def isUnshared (licenseID : Option Nat) (instanceKey : Bytes) : Bool :=
  tables.licenses.all fun license =>
    some license.id = licenseID || !tables.isTaken license.id instanceKey

variable {tables}

theorem isTaken_iff {licenseID : Nat} {instanceKey : Bytes} :
    tables.isTaken licenseID instanceKey = true ↔
      ∃ row ∈ tables.instances, row.licenseId = licenseID ∧ row.instanceKey = instanceKey := by
  simp [isTaken]

theorem owns_iff {licenseKey instanceKey : Bytes} : tables.owns licenseKey instanceKey = true ↔
    ∃ license ∈ tables.licenses, license.licenseKey = licenseKey ∧
      tables.isTaken license.id instanceKey = true := by
  simp [owns]

/-- **What `create_instance` can do**: it adds a row to a license of the user. -/
theorem createInstance_eq_ok {userID : Nat} {licenseID : Option Nat} {body : CreateInstanceIn}
    {next : Tables} (created : tables.createInstance userID licenseID body = .ok next) :
    ∃ license ∈ tables.licenses, some license.id = licenseID ∧ next.licenses = tables.licenses ∧
      ∃ row, row.licenseId = license.id ∧ row.instanceKey = body.instanceKey ∧
        next.instances = tables.instances ++ [row] := by
  unfold createInstance at created
  split at created
  · cases created
  · split at created
    · cases created
    · split at created
      · cases created
      · rename_i license own
        split at created
        · cases created
          unfold ownLicense at own
          split at own
          · rename_i row found
            cases own
            obtain ⟨id, sameID, foundRow⟩ := Option.bind_eq_some_iff.mp found
            have isID := List.find?_some foundRow
            rw [Bool.and_eq_true, decide_eq_true_eq] at isID
            refine ⟨license, List.mem_of_find?_eq_some foundRow, ?_, rfl, _, rfl, rfl, rfl⟩
            rw [sameID, isID.1]
          · cases own
        · cases created

theorem not_mem_dot_of_matches {key : Bytes} (fine : matchesInstanceKey key = true) : 46 ∉ key := by
  unfold matchesInstanceKey at fine
  rw [Bool.and_eq_true, List.all_eq_true] at fine
  intro member
  split at fine
  · rename_i last
    rw [← List.dropLast_append_getLast? 10 last, List.mem_append, List.mem_singleton] at member
    rcases member with inside | isLast
    · exact absurd (fine.2 46 inside) (by decide)
    · exact absurd isLast (by decide)
  · exact absurd (fine.2 46 member) (by decide)

section Create

variable {userID : Nat} {licenseID : Option Nat} {body : CreateInstanceIn} {next : Tables}
  {licenseKey instanceKey : Bytes}

theorem matches_of_createInstance (created : tables.createInstance userID licenseID body = .ok next) :
    matchesInstanceKey body.instanceKey = true := by
  unfold createInstance at created
  split at created
  · cases created
  · split at created
    · cases created
    · rename_i fine
      exact (Bool.not_eq_false _).mp fine

theorem owns_of_createInstance (created : tables.createInstance userID licenseID body = .ok next)
    (owned : tables.owns licenseKey instanceKey = true) : next.owns licenseKey instanceKey = true := by
  obtain ⟨_, _, _, licenses, row, _, _, instances⟩ := createInstance_eq_ok created
  obtain ⟨license, member, same, taken⟩ := owns_iff.mp owned
  obtain ⟨other, inside, matches_⟩ := isTaken_iff.mp taken
  refine owns_iff.mpr ⟨license, licenses ▸ member, same, isTaken_iff.mpr ⟨other, ?_, matches_⟩⟩
  rw [instances]
  exact List.mem_append_left _ inside

/-- A license that has an instance behind the request had it before, or is the one that got it. -/
theorem owns_createInstance (created : tables.createInstance userID licenseID body = .ok next)
    (owned : next.owns licenseKey instanceKey = true) :
    ∃ license ∈ tables.licenses, license.licenseKey = licenseKey ∧
      (tables.isTaken license.id instanceKey = true ∨
        (some license.id = licenseID ∧ instanceKey = body.instanceKey)) := by
  obtain ⟨given, _, sameID, licenses, row, rowLicense, rowKey, instances⟩ :=
    createInstance_eq_ok created
  obtain ⟨license, member, same, taken⟩ := owns_iff.mp owned
  obtain ⟨other, inside, ofLicense, ofKey⟩ := isTaken_iff.mp taken
  refine ⟨license, licenses ▸ member, same, ?_⟩
  rw [instances, List.mem_append, List.mem_singleton] at inside
  rcases inside with old | rfl
  · exact Or.inl (isTaken_iff.mpr ⟨other, old, ofLicense, ofKey⟩)
  · exact Or.inr ⟨by rw [← sameID, ← ofLicense, rowLicense], by rw [← ofKey, rowKey]⟩

/-- **Keys stay unshared** if a key is given to no second license. -/
theorem unshared_createInstance (created : tables.createInstance userID licenseID body = .ok next)
    (unshared : ∀ first second key, tables.owns first key = true → tables.owns second key = true →
      first = second)
    (free : tables.isUnshared licenseID body.instanceKey = true) {first second : Bytes}
    (firstOwns : next.owns first instanceKey = true)
    (secondOwns : next.owns second instanceKey = true) : first = second := by
  -- a license with the key is the one of the request, and there is only one with its id
  have only {license : LicenseRow} (member : license ∈ tables.licenses)
      (taken : tables.isTaken license.id body.instanceKey = true) : some license.id = licenseID := by
    simpa [taken] using List.all_eq_true.mp free license member
  obtain ⟨left, leftMember, rfl, leftOwns⟩ := owns_createInstance created firstOwns
  obtain ⟨right, rightMember, rfl, rightOwns⟩ := owns_createInstance created secondOwns
  by_cases given : instanceKey = body.instanceKey
  · subst given
    have leftID : some left.id = licenseID := leftOwns.elim (only leftMember) And.left
    have rightID : some right.id = licenseID := rightOwns.elim (only rightMember) And.left
    rw [List.inj_on_of_nodup_map tables.ids leftMember rightMember
      (Option.some.inj (leftID.trans rightID.symm))]
  · have leftOld := leftOwns.resolve_right fun new => given new.2
    have rightOld := rightOwns.resolve_right fun new => given new.2
    exact unshared _ _ instanceKey (owns_iff.mpr ⟨left, leftMember, rfl, leftOld⟩)
      (owns_iff.mpr ⟨right, rightMember, rfl, rightOld⟩)

end Create

end Tables

end ExecRelay.Portal
