/-
**Rotating the secret of a license** (`create_license`, `rotate_hmac` and `confirm_rotation` of
`apps/portal-api/app.py`).

A request reads the license and then writes it with one statement. Requests run at the same time, so that
a rotation may be confirmed twice, or begin again between the check of a confirmation and its update. The
column `hmac_secret` is `NOT NULL`: with nothing pending the update of a confirmation fails.
-/

import ExecRelay.Lib.Machine
import ExecRelay.Portal.Instances

namespace ExecRelay.Portal.Rotation

open Lib

/-! ### The requests -/

/-- What `secrets.token_hex(16)` draws. -/
structure Token where
  random : Bytes
  size : random.length = 16

def Token.hex (token : Token) : Bytes :=
  hexEncode token.random

structure SecretRow where
  userID : Nat
  licenseKey : Bytes
  hmacSecret : Bytes
  pendingHMACSecret : Option Bytes := none
deriving DecidableEq

inductive Op
  | tokenHex
  | insertLicense (userID : Nat) (licenseKey : Bytes) (hmacSecret : Token)
  | selectLicense (id userID : Nat)
  /-- `SET pending_hmac_secret = $1`. -/
  | setPending (id : Nat) (secret : Token)
  /-- `SET hmac_secret = pending_hmac_secret, pending_hmac_secret = NULL`. -/
  | takePending (id : Nat)
  | audit (action : Bytes)

/-- An insertion returns the id of the license, and an update whether the constraints let it through. -/
abbrev Answer : Op → Type
  | .tokenHex => Token
  | .insertLicense _ _ _ => Option Nat
  | .selectLicense _ _ => Option SecretRow
  | .setPending _ _ => Unit
  | .takePending _ => Bool
  | .audit _ => Unit

abbrev Handler (Result : Type) := Program Op Answer HTTPException Result

abbrev invoke (op : Op) : Handler (Answer op) := Program.perform op

def internalError : HTTPException := ⟨500, lit "Internal Server Error"⟩

def createLicense (userID : Nat) (licenseKey : Bytes) : Handler Unit := do
  let hmacSecret ← invoke .tokenHex
  match ← invoke (.insertLicense userID licenseKey hmacSecret) with
  | none => .fail internalError
  | some _ => invoke (.audit (lit "create_license"))

/-- `_own_license` with the id of the row. An id that is no UUID is `none`. -/
def ownLicense (licenseID : Option Nat) (userID : Nat) : Handler (Nat × SecretRow) :=
  match licenseID with
  | none => .fail ⟨404, lit "license not found"⟩
  | some id => do
    match ← invoke (.selectLicense id userID) with
    | none => .fail ⟨404, lit "license not found"⟩
    | some row => pure (id, row)

def rotateHMAC (licenseID : Option Nat) (userID : Nat) : Handler Unit := do
  let (id, _) ← ownLicense licenseID userID
  let newSecret ← invoke .tokenHex
  invoke (.setPending id newSecret)
  invoke (.audit (lit "rotate_hmac_start"))

def confirmRotation (licenseID : Option Nat) (userID : Nat) : Handler Unit := do
  let (id, license) ← ownLicense licenseID userID
  if license.pendingHMACSecret.getD [] = [] then
    .fail ⟨400, lit "no pending rotation in progress"⟩
  else if ← invoke (.takePending id) then
    invoke (.audit (lit "rotate_hmac_confirm"))
  else .fail internalError

inductive Request
  | createLicense (userID : Nat) (licenseKey : Bytes)
  | rotateHMAC (licenseID : Option Nat) (userID : Nat)
  | confirmRotation (licenseID : Option Nat) (userID : Nat)

def handle : Request → Handler Unit
  | .createLicense userID licenseKey => createLicense userID licenseKey
  | .rotateHMAC licenseID userID => rotateHMAC licenseID userID
  | .confirmRotation licenseID userID => confirmRotation licenseID userID

/-! ### The database -/

/-- The licenses by their ids. -/
abbrev Licenses := Nat → Option SecretRow

def serve (licenses : Licenses) : (op : Op) → Answer op → Option Licenses
  | .tokenHex, _ => some licenses
  | .insertLicense _ _ _, none => some licenses
  | .insertLicense userID licenseKey secret, some id =>
    if licenses id = none then
      some (Function.update licenses id (some ⟨userID, licenseKey, secret.hex, none⟩))
    else none
  | .selectLicense id userID, answer =>
    if answer = (licenses id).filter (·.userID = userID) then some licenses else none
  | .setPending id secret, _ =>
    some (Function.update licenses id
      ((licenses id).map fun row => { row with pendingHMACSecret := some secret.hex }))
  | .takePending id, done =>
    match licenses id with
    | none => if done then some licenses else none
    | some row =>
      match row.pendingHMACSecret with
      -- the secret would become null
      | none => if done then none else some licenses
      | some secret =>
        if done then
          some (Function.update licenses id
            (some { row with hmacSecret := secret, pendingHMACSecret := none }))
        else none
  | .audit _, _ => some licenses

def machine : Machine Licenses Request Empty Op Answer HTTPException where
  start := handle
  arrive := fun licenses _ => some licenses
  serve := fun licenses _ => serve licenses
  change := fun _ change => change.elim

/-- **What a statement does to a license.** -/
theorem serve_cases {licenses after : Licenses} {op : Op} {answer : Answer op}
    (served : serve licenses op answer = some after) (id : Nat) :
    after id = licenses id ∨
    (∃ userID licenseKey secret, (⟨op, answer⟩ : Event Op Answer) =
        ⟨.insertLicense userID licenseKey secret, some id⟩ ∧
      licenses id = none ∧ after id = some ⟨userID, licenseKey, secret.hex, none⟩) ∨
    (∃ secret row, op = .setPending id secret ∧ licenses id = some row ∧
      after id = some { row with pendingHMACSecret := some secret.hex }) ∨
    ∃ secret row, (⟨op, answer⟩ : Event Op Answer) = ⟨.takePending id, true⟩ ∧
      licenses id = some row ∧ row.pendingHMACSecret = some secret ∧
      after id = some { row with hmacSecret := secret, pendingHMACSecret := none } := by
  have kept : some licenses = some after → after id = licenses id := fun same => by cases same; rfl
  have elsewhere {other : Nat} {value : Option SecretRow}
      (same : some (Function.update licenses other value) = some after) (apart : id ≠ other) :
      after id = licenses id := by
    cases same
    exact Function.update_of_ne apart _ _
  cases op with
  | tokenHex => exact .inl (kept served)
  | audit action => exact .inl (kept served)
  | selectLicense other userID =>
    rw [serve] at served
    split at served
    · exact .inl (kept served)
    · cases served
  | insertLicense userID licenseKey secret =>
    cases answer with
    | none => exact .inl (kept served)
    | some other =>
      rw [serve] at served
      split at served
      · rename_i free
        by_cases same : id = other
        · subst same
          cases served
          exact .inr (.inl ⟨userID, licenseKey, secret, rfl, free, Function.update_self ..⟩)
        · exact .inl (elsewhere served same)
      · cases served
  | setPending other secret =>
    by_cases same : id = other
    · subst same
      cases served
      cases found : licenses id with
      | none => exact .inl (by rw [Function.update_self]; rfl)
      | some row => exact .inr (.inr (.inl ⟨secret, row, rfl, rfl, by rw [Function.update_self]; rfl⟩))
    · exact .inl (elsewhere served same)
  | takePending other =>
    rw [serve] at served
    split at served
    · split at served
      · exact .inl (kept served)
      · cases served
    · rename_i row found
      split at served
      · split at served
        · cases served
        · exact .inl (kept served)
      · rename_i secret waiting
        split at served
        · rename_i done
          by_cases same : id = other
          · subst same
            cases served
            subst done
            exact .inr (.inr (.inr ⟨secret, row, rfl, found, waiting, Function.update_self ..⟩))
          · exact .inl (elsewhere served same)
        · cases served

/-! ### Runs -/

/-- The secret was issued for the license. -/
def Issued (history : List (Machine.Entry Op Answer)) (id : Nat) (secret : Bytes) : Prop :=
  ∃ token : Token, secret = token.hex ∧ ∃ entry ∈ history,
    entry.event.op = .setPending id token ∨
      ∃ userID licenseKey, entry.event = ⟨.insertLicense userID licenseKey token, some id⟩

variable {history : List (Machine.Entry Op Answer)} {id : Nat} {secret : Bytes}

theorem Issued.append (issued : Issued history id secret) (entry : Machine.Entry Op Answer) :
    Issued (history ++ [entry]) id secret := by
  obtain ⟨token, same, earlier, member, made⟩ := issued
  exact ⟨token, same, earlier, List.mem_append_left _ member, made⟩

theorem Issued.ne_nil (issued : Issued history id secret) : secret ≠ [] := by
  obtain ⟨token, rfl, -⟩ := issued
  obtain ⟨random, size⟩ := token
  cases random with
  | nil => cases size
  | cons byte rest => exact List.cons_ne_nil _ _

abbrev Run := Machine.State Licenses Request Op Answer HTTPException

def AllIssued (state : Run) : Prop :=
  ∀ id row, state.world id = some row → Issued state.history id row.hmacSecret ∧
    ∀ pending, row.pendingHMACSecret = some pending → Issued state.history id pending

theorem allIssued_of_reached {state : Run}
    (reached : machine.Reached (fun _ _ => True) (fun _ => none) state) : AllIssued state := by
  refine reached.invariant (fun id row found => by cases found) ?_
  intro state label next _ issued _ stepped
  rcases Machine.step_cases stepped with ⟨request, world, _, arrived, rfl⟩ |
    ⟨thread, answer, request, op, rest, world, _, _, served, rfl⟩ | ⟨change, _⟩
  · cases arrived
    exact issued
  · intro id row found
    have last : (⟨thread, ⟨op, answer op⟩⟩ : Machine.Entry Op Answer) ∈
        state.history ++ [⟨thread, ⟨op, answer op⟩⟩] := List.mem_append_right _ (List.mem_singleton.mpr rfl)
    change world id = some row at found
    rcases serve_cases served id with same | ⟨userID, licenseKey, token, made, -, new⟩ |
      ⟨token, old, made, held, new⟩ | ⟨secret, old, -, held, waiting, new⟩
    · rw [same] at found
      exact ⟨(issued id row found).1.append _, fun _ waits => ((issued id row found).2 _ waits).append _⟩
    · rw [new] at found
      cases found
      exact ⟨⟨token, rfl, _, last, .inr ⟨userID, licenseKey, made⟩⟩, fun _ waits => by cases waits⟩
    · rw [new] at found
      cases found
      refine ⟨(issued id old held).1.append _, fun _ waits => ?_⟩
      cases waits
      exact ⟨token, rfl, _, last, .inl made⟩
    · rw [new] at found
      cases found
      exact ⟨((issued id old held).2 _ waiting).append _, fun _ waits => by cases waits⟩
  · exact change.elim

/-- **The secret of a license** is at every point one that was issued for it. It changes only where a
confirmation updates the license, to the secret that was pending, and then nothing is pending. -/
theorem secret_issued {state : Run}
    (reached : machine.Reached (fun _ _ => True) (fun _ => none) state) :
    (∀ id row, state.world id = some row →
      row.hmacSecret ≠ [] ∧ Issued state.history id row.hmacSecret) ∧
    ∀ label next, machine.step state label = some next → ∀ id row, state.world id = some row →
      ∃ later, next.world id = some later ∧ (later.hmacSecret ≠ row.hmacSecret →
        (∃ thread, next.since state = [⟨thread, ⟨.takePending id, true⟩⟩]) ∧
          row.pendingHMACSecret = some later.hmacSecret ∧ later.pendingHMACSecret = none) := by
  refine ⟨fun id row found => ?_, fun label next stepped id row found => ?_⟩
  · have issued := (allIssued_of_reached reached id row found).1
    exact ⟨issued.ne_nil, issued⟩
  · rcases Machine.step_cases stepped with ⟨request, world, _, arrived, rfl⟩ |
      ⟨thread, answer, request, op, rest, world, _, _, served, rfl⟩ | ⟨change, _⟩
    · cases arrived
      exact ⟨row, found, fun changed => absurd rfl changed⟩
    · rcases serve_cases served id with same | ⟨userID, licenseKey, token, -, free, -⟩ |
        ⟨token, old, -, held, new⟩ | ⟨secret, old, made, held, waiting, new⟩
      · exact ⟨row, same.trans found, fun changed => absurd rfl changed⟩
      · rw [found] at free
        cases free
      · rw [found] at held
        cases held
        exact ⟨_, new, fun changed => absurd rfl changed⟩
      · rw [found] at held
        cases held
        refine ⟨_, new, fun _ => ⟨⟨thread, ?_⟩, waiting, rfl⟩⟩
        rw [Machine.State.since_record, made]
    · exact change.elim

def zeros : Token := ⟨List.replicate 16 0, List.length_replicate⟩

/-- The first license, and a rotation of it. -/
def answers : (op : Op) → Answer op
  | .tokenHex => zeros
  | .insertLicense _ _ _ => some 1
  | .selectLicense _ _ => some ⟨7, lit "00000000042", zeros.hex, none⟩
  | .setPending _ _ => ()
  | .takePending _ => true
  | .audit _ => ()

def rotated : List (Machine.Label Request Empty Op Answer) :=
  [.begin (.createLicense 7 (lit "00000000042")), .advance 0 answers, .advance 0 answers,
    .begin (.rotateHMAC (some 1) 7), .advance 1 answers, .advance 1 answers, .advance 1 answers]

theorem secret_issued_rotated : ∃ state : Run,
    run machine.step { world := fun _ => none } rotated = some state ∧
      state.world 1 = some ⟨7, lit "00000000042", zeros.hex, some zeros.hex⟩ ∧
      Issued state.history 1 zeros.hex := by
  obtain ⟨state, ran⟩ := Option.isSome_iff_exists.mp
    (show (run machine.step { world := fun _ => none } rotated).isSome = true from by decide +kernel)
  have found : (run machine.step { world := fun _ => none } rotated).bind (fun state => state.world 1) =
      some ⟨7, lit "00000000042", zeros.hex, some zeros.hex⟩ := by decide +kernel
  rw [ran] at found
  exact ⟨state, ran, found, ((secret_issued (Reaches.of_run _ ran)).1 1 _ found).2⟩

end ExecRelay.Portal.Rotation
