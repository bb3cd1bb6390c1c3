/-
**The keys of instances.**

The portal checks the key of an instance with a pattern, ingress checks it with `validSubjectToken` when
a signal is routed, and between the two it is written by `export_config` and read by
`ParseLicenseRecords`. The `$` of the pattern also matches in front of a line end that is last, so the
portal accepts a token with a line end behind it. Ingress would refuse that, and reads the export
without it.
-/

import ExecRelay.Portal.Export

namespace ExecRelay.Portal

open Lib
open Ingress (LicenseRecord validSubjectToken parseLicenseRecords)

/-- `create_instance` accepts the key, for some license and platform. -/
def Accepts (key : Bytes) : Prop :=
  ∃ (tables next : Tables) (userID : Nat) (licenseID : Option Nat) (platform : Bytes),
    tables.createInstance userID licenseID ⟨key, platform⟩ = .ok next

/-- **The key survives the export**: wherever it is exported, the record in its place has it. -/
def Survives (key : Bytes) : Prop :=
  ∀ (accounts : Accounts) (license : LicenseRow) (order : List InstanceRow → List InstanceRow)
    (userID : Nat) (licenseID : Option Nat), (∀ rows, (order rows).Perm rows) →
    accounts.tables.ownLicense licenseID userID = .ok license →
    ∃ raw records, accounts.exportConfig order userID licenseID = .ok raw ∧
      parseLicenseRecords raw = .ok records ∧
      List.Forall₂ (fun row record => row.instanceKey = key → record.instanceID = key)
        (order (accounts.activeInstances license)) records

/-- **The portal and ingress agree on a key.** -/
structure KeysAgree (key : Bytes) : Prop where
  checks : Accepts key ↔ validSubjectToken key = true
  survives : Accepts key → Survives key

/-! ### The two checks -/

theorem accepts_iff_matches (key : Bytes) : Accepts key ↔ matchesInstanceKey key = true := by
  constructor
  · rintro ⟨tables, next, userID, licenseID, platform, created⟩
    unfold Tables.createInstance at created
    split at created
    · cases created
    · split at created
      · cases created
      · rename_i fine
        exact (Bool.not_eq_false _).mp fine
  · intro fine
    let tables : Tables :=
      { licenses := [⟨1, 1, []⟩], ids := List.nodup_singleton _, instanceKeys := List.Pairwise.nil }
    refine ⟨tables, tables.insertInstance ⟨1, key, lit "mt5", true⟩ rfl, 1, some 1, lit "mt5", ?_⟩
    have known : lit "mt5" ∈ [lit "mt4", lit "mt5", lit "dxtrade"] := by decide
    have matching : ¬matchesInstanceKey key = false := by simp [fine]
    unfold Tables.createInstance
    rw [if_neg (not_not.mpr known), if_neg matching]
    rfl

theorem isSubjectByte_eq : Ingress.isSubjectByte = isInstanceKeyByte :=
  funext fun byte => forall_byte byte (by decide +kernel)

theorem validSubjectToken_iff (key : Bytes) :
    validSubjectToken key = true ↔ key ≠ [] ∧ isPlain key = true := by
  rw [validSubjectToken, Bool.and_eq_true, decide_eq_true_eq, isPlain, isSubjectByte_eq]

theorem matches_iff (key : Bytes) : matchesInstanceKey key = true ↔
    validSubjectToken key = true ∨ ∃ core, validSubjectToken core = true ∧ key = core ++ [10] := by
  constructor
  · intro fine
    obtain ⟨core, given, plain, rfl | rfl⟩ := exists_core_of_matches fine
    · exact .inl ((validSubjectToken_iff _).mpr ⟨given, plain⟩)
    · exact .inr ⟨core, (validSubjectToken_iff _).mpr ⟨given, plain⟩, rfl⟩
  · rintro (token | ⟨core, token, rfl⟩)
    · obtain ⟨given, plain⟩ := (validSubjectToken_iff key).mp token
      have ends : ¬key.getLast? = some 10 := fun last =>
        absurd (List.all_eq_true.mp plain 10 (List.mem_of_getLast? last)) (by decide)
      rw [matchesInstanceKey, if_neg ends, Bool.and_eq_true, decide_eq_true_eq]
      exact ⟨given, plain⟩
    · obtain ⟨given, plain⟩ := (validSubjectToken_iff core).mp token
      rw [matchesInstanceKey, if_pos List.getLast?_concat, List.dropLast_concat, Bool.and_eq_true,
        decide_eq_true_eq]
      exact ⟨given, plain⟩

/-! ### The way through the export -/

theorem survives_of_token {key : Bytes} (token : validSubjectToken key = true) : Survives key := by
  intro accounts license order userID licenseID complete own
  obtain ⟨raw, exported, parsed⟩ := Accounts.parse_exportConfig complete own
  refine ⟨raw, _, exported, parsed, ?_⟩
  rw [List.forall₂_map_right_iff, List.forall₂_same]
  rintro row - rfl
  exact trimSpace_plain ((validSubjectToken_iff _).mp token).2

/-- **The checks of the portal and of ingress agree on a key, and it survives the export**, exactly if it
is not a token with a line end behind it. -/
theorem keys_agree_iff (key : Bytes) :
    KeysAgree key ↔ ∀ core, validSubjectToken core = true → key ≠ core ++ [10] := by
  have line (core : Bytes) : validSubjectToken (core ++ [10]) = false := by
    refine Bool.eq_false_iff.mpr fun token => ?_
    exact absurd (List.all_eq_true.mp ((validSubjectToken_iff _).mp token).2 10 (by simp)) (by decide)
  constructor
  · rintro ⟨checks, -⟩ core token rfl
    rw [accepts_iff_matches, matches_iff] at checks
    have accepted := checks.mp (.inr ⟨core, token, rfl⟩)
    rw [line core] at accepted
    cases accepted
  · intro plain
    have checks : Accepts key ↔ validSubjectToken key = true := by
      rw [accepts_iff_matches, matches_iff]
      refine ⟨?_, .inl⟩
      rintro (token | ⟨core, token, same⟩)
      · exact token
      · exact absurd same (plain core token)
    exact ⟨checks, fun accepted => survives_of_token (checks.mp accepted)⟩

/-- **A key with a line end behind it.** The portal accepts it, ingress would not route to it, and it is
exported and read without its line end. -/
theorem not_keys_agree_line :
    Accepts (lit "demo\n") ∧ validSubjectToken (lit "demo\n") = false ∧ ¬Survives (lit "demo\n") := by
  refine ⟨(accepts_iff_matches _).mpr (by decide), by decide, fun survives => ?_⟩
  obtain ⟨accounts, license, -, own, holds⟩ := Accounts.exists_withInstances [lit "demo\n"]
    (fun rows => rows.any fun row => row.instanceKey = lit "demo\n") (by decide +kernel)
  obtain ⟨row, member, same⟩ := List.any_eq_true.mp holds
  obtain ⟨raw, records, exported, parsed, kept⟩ :=
    survives accounts license id 7 (some 1) (fun _ => List.Perm.refl _) own
  have read : ∃ raw, accounts.exportConfig id 7 (some 1) = .ok raw ∧ parseLicenseRecords raw =
      .ok ((accounts.activeInstances license).map (accounts.recordOf license)) :=
    Accounts.parse_exportConfig (fun _ => List.Perm.refl _) own
  obtain ⟨_, exportedToo, parsedToo⟩ := read
  rw [exported] at exportedToo
  cases exportedToo
  rw [parsed] at parsedToo
  cases parsedToo
  rw [List.forall₂_map_right_iff, id, List.forall₂_same] at kept
  have trimmed : trimSpace row.instanceKey = lit "demo\n" := kept row member (of_decide_eq_true same)
  rw [of_decide_eq_true same] at trimmed
  exact absurd trimmed (by decide +kernel)

end ExecRelay.Portal
