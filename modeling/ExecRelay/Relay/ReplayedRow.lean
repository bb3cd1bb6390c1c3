/-
**The row of a replay.**

The portal publishes a recorded signal again under another trace id, and returns that id. The message
keeps the hash of the body, and persist records a body of a license only once: its handler inserts the
pair of license and hash into `signal_fingerprints`, and stops if it is there. It is there from the first
time, until the retention of old rows removes it. **`replayed_row_iff`**: the replay has its row exactly
if the handler finds the pair gone, or somebody else has put the row in.
-/

import ExecRelay.Persist.Fingerprints
import ExecRelay.Portal.Republished

namespace ExecRelay.Relay

open Lib
open Nats (Message)
open Persist (AcceptedRow Database Fingerprint SignalDict caught onSignal parseSignal)
open Portal (ReplayRequest ReplayResponse ReplayRow contents encodeSignalProto replaySignal republish)

/-! ### Tables under a handler -/

/-- A call of a handler of persist, and the tables that it finds. -/
structure Served where
  event : Event Persist.Op Persist.Answer
  found : Database

/-- **A handler without database errors.** Every statement is answered by the tables that it finds. In
front of it, and behind the last one, others may change the tables as `kept` allows. The acknowledgement
of the message is no statement, and may fail. -/
def Processed (kept : Database → Database → Prop) : Database → List Served → Database → Prop
  | db, [], last => kept db last
  | db, ⟨event, found⟩ :: rest, last => kept db found ∧
      (event.op = .ack ∨ event.answer = .ok (found.execute event.op).1) ∧
      Processed kept (found.execute event.op).2 rest last

/-- There is a row with the trace id. -/
def HasRow (db : Database) (traceID : Bytes) : Prop :=
  ∃ row ∈ db.accepted, row.traceId = traceID

instance (db : Database) (traceID : Bytes) : Decidable (HasRow db traceID) :=
  inferInstanceAs (Decidable (∃ row ∈ db.accepted, _))

/-- What others do: the license stays active, and a row with the trace id is not removed. -/
def Kept (key : Bytes) (licenseId : Nat) (traceID : Bytes) (db next : Database) : Prop :=
  next.activeLicense key = some licenseId ∧ (HasRow db traceID → HasRow next traceID)

/-- Others put the first row with the trace id in. -/
def PutIn (traceID : Bytes) : Database → List Served → Database → Prop
  | db, [], last => ¬HasRow db traceID ∧ HasRow last traceID
  | db, ⟨event, found⟩ :: rest, last => (¬HasRow db traceID ∧ HasRow found traceID) ∨
      PutIn traceID (found.execute event.op).2 rest last

/-- The handler finds the pair gone when it inserts it. -/
def Fresh (pair : Fingerprint) (served : List Served) : Prop :=
  ∃ entry ∈ served, entry.event.op = .insertFingerprint pair ∧ pair ∉ entry.found.fingerprints

def Inserts (traceID : Bytes) (op : Persist.Op) : Prop :=
  ∃ row, op = .insertAccepted row ∧ row.traceId = traceID

section Handler

variable {kept : Database → Database → Prop} {db last : Database} {served : List Served}
  {key traceID : Bytes} {licenseId : Nat}

theorem hasRow_execute (db : Database) (op : Persist.Op) : HasRow (db.execute op).2 traceID ↔
    HasRow db traceID ∨ Inserts traceID op := by
  cases op with
  | insertAccepted row => simp [HasRow, Inserts, Database.execute, or_and_right, exists_or]
  | insertFingerprint pair =>
    rw [Database.execute]
    split <;> simp [HasRow, Inserts]
  | _ => simp [HasRow, Inserts, Database.execute]

/-- **Where a row comes from.** -/
theorem Processed.hasRow_iff (processed : Processed (Kept key licenseId traceID) db served last) :
    HasRow last traceID ↔
      HasRow db traceID ∨ PutIn traceID db served last ∨
        ∃ entry ∈ served, Inserts traceID entry.event.op := by
  induction served generalizing db with
  | nil =>
    have stays := processed.2
    simp only [PutIn, List.not_mem_nil, false_and, exists_false, or_false]
    tauto
  | cons entry rest ih =>
    obtain ⟨event, found⟩ := entry
    have stays := processed.1.2
    rw [ih processed.2.2, hasRow_execute]
    simp only [PutIn, List.exists_mem_cons_iff]
    tauto

theorem Processed.of_call {op : Persist.Op}
    {next : Persist.Answer op → Program Persist.Op Persist.Answer Empty Unit}
    (path : (Program.call op next).Path (served.map Served.event) (.done ()))
    (processed : Processed kept db served last) (statement : op ≠ .ack) :
    ∃ found rest, served = ⟨⟨op, .ok (found.execute op).1⟩, found⟩ :: rest ∧ kept db found ∧
      (next (.ok (found.execute op).1)).Path (rest.map Served.event) (.done ()) ∧
      Processed kept (found.execute op).2 rest last := by
  obtain ⟨answer, later, same, behind⟩ := path.done_of_call
  cases served with
  | nil => cases same
  | cons entry rest =>
    obtain ⟨event, found⟩ := entry
    obtain ⟨rfl, rfl⟩ := List.cons.inj same
    have answered : answer = .ok (found.execute op).1 := processed.2.1.resolve_left statement
    subst answered
    exact ⟨found, rest, rfl, processed.1, behind, processed.2.2⟩

/-- Behind the statements there is the acknowledgement only. -/
theorem op_eq_ack (path : (caught (return ())).Path (served.map Served.event) (.done ())) :
    ∀ entry ∈ served, entry.event.op = .ack := by
  obtain ⟨answer, later, same, behind⟩ := path.done_of_call
  rw [behind.of_done.1] at same
  intro entry member
  have inside := List.mem_map_of_mem (f := Served.event) member
  rw [same, List.mem_singleton] at inside
  rw [inside]

/-- **The row and the pair.** A handler that meets no error inserts the row exactly if it finds the pair
gone. -/
theorem inserts_iff {message : Message} {sig : SignalDict}
    (parsed : parseSignal message.data = .ok sig) (hashed : sig.body ≠ [])
    (path : (onSignal true message).Path (served.map Served.event) (.done ()))
    (processed : Processed (Kept sig.key licenseId (sig.traceId.getD [])) db served last) :
    (∃ entry ∈ served, Inserts (sig.traceId.getD []) entry.event.op) ↔
      Fresh ⟨licenseId, sig.body⟩ served := by
  have path : (caught (Persist.persistSignal sig message.data)).Path (served.map Served.event)
      (.done ()) := by
    rw [onSignal, parsed] at path
    exact path
  obtain ⟨_, _, rfl, -, path, processed⟩ := processed.of_call path (by simp)
  obtain ⟨found, _, rfl, active, path, processed⟩ := processed.of_call path (by simp)
  have answer : (found.execute (.selectLicense sig.key)).1 = some licenseId := active.1
  rw [answer] at path
  have path : (caught (if sig.body ≠ [] then _ else _)).Path _ _ := path
  rw [if_pos hashed] at path
  obtain ⟨tables, _, rfl, -, path, processed⟩ := processed.of_call path (by simp)
  by_cases old : (⟨licenseId, sig.body⟩ : Fingerprint) ∈ tables.fingerprints
  · have duplicate : (tables.execute (.insertFingerprint ⟨licenseId, sig.body⟩)).1 = false := by
      rw [Database.execute, if_pos old]
    rw [duplicate] at path
    have acked := op_eq_ack path
    refine iff_of_false ?_ ?_
    · rintro ⟨entry, member, row, isInsert, -⟩
      simp only [List.mem_cons] at member
      rcases member with rfl | rfl | rfl | behind
      · cases isInsert
      · cases isInsert
      · cases isInsert
      · cases (acked entry behind).symm.trans isInsert
    · rintro ⟨entry, member, isPair, missing⟩
      simp only [List.mem_cons] at member
      rcases member with rfl | rfl | rfl | behind
      · cases isPair
      · cases isPair
      · exact missing old
      · cases (acked entry behind).symm.trans isPair
  · have new : (tables.execute (.insertFingerprint ⟨licenseId, sig.body⟩)).1 = true := by
      rw [Database.execute, if_neg old]
    rw [new] at path
    obtain ⟨_, _, rfl, -, path, processed⟩ := processed.of_call path (by simp)
    obtain ⟨_, _, rfl, -, -, -⟩ := processed.of_call path (by simp)
    exact iff_of_true ⟨_, List.mem_of_getElem? (i := 4) rfl, _, rfl, rfl⟩
      ⟨_, List.mem_of_getElem? (i := 2) rfl, rfl, old⟩

end Handler

/-! ### The replay of a recorded signal -/

/-- **The row of a replay.** A stored message that persist has read, with a hash, is published again,
and the trace id is returned. When persist is through with the message and no statement has failed,
there is a row with that trace id exactly if there was one already, or others have put one in, or the
pair of the license and the hash was gone when the handler inserted it. -/
theorem replayed_row_iff {request : ReplayRequest} {calls later : List (Event Portal.Op Portal.Answer)}
    {message : Message} {after : Option Portal.Unacknowledged → Portal.Endpoint ReplayResponse}
    {response : ReplayResponse}
    (published : (replaySignal request).Path calls (.call (.publish message) after))
    (returned : (after none).Path later (.done response))
    {signalID : Nat} {row : ReplayRow} {raw : Bytes}
    (fetched : ⟨.fetchRow signalID request.userID, some (some row)⟩ ∈ calls)
    (stored : row.rawPayload = some raw) {sig : SignalDict} (recorded : parseSignal raw = .ok sig)
    (hashed : sig.body ≠ []) (licenseId : Nat) (first last : Database) (served : List Served)
    (path : (onSignal true message).Path (served.map Served.event) (.done ()))
    (processed : Processed (Kept sig.key licenseId response.traceID) first served last) :
    HasRow last response.traceID ↔ HasRow first response.traceID ∨
      PutIn response.traceID first served last ∨ Fresh ⟨licenseId, sig.body⟩ served := by
  obtain ⟨_, selected, given, original, now, rfl, payload, decoded, data, names⟩ :=
    Portal.publish_of_replaySignal published
  obtain ⟨-, rfl⟩ : signalID = _ ∧ row = selected := by simpa using fetched
  cases stored.symm.trans payload
  cases (Portal.decodeSignalProto_eq_ok recorded).symm.trans decoded
  have parsed := Portal.parseSignal_republish recorded now
  rw [← data] at parsed
  have key : (contents (republish sig now)).dict.key = sig.key := Portal.getD_present _
  have body : (contents (republish sig now)).dict.body = sig.body := Portal.getD_present _
  have named : (contents (republish sig now)).dict.traceId.getD [] = response.traceID :=
    (Portal.getD_present _).trans (names later response returned).symm
  rw [processed.hasRow_iff, ← named, ← body]
  rw [← named, ← key] at processed
  rw [inserts_iff parsed (body ▸ hashed) path processed]

/-! ### Two replays -/

open Persist (canonicalMessage oneLicense)
open Proto (canonicalSignal)

/-- A handler that has the tables to itself. -/
def alone : Program Persist.Op Persist.Answer Empty Unit → Database → List Served × Database
  | .call op next, db =>
    let rest := alone (next (.ok (db.execute op).1)) (db.execute op).2
    (⟨⟨op, .ok (db.execute op).1⟩, db⟩ :: rest.1, rest.2)
  | _, db => ([], db)

theorem processed_alone {key : Bytes} {licenseId : Nat} (traceID : Bytes)
    (program : Program Persist.Op Persist.Answer Empty Unit) {db : Database}
    (active : db.activeLicense key = some licenseId) :
    ∃ served last, alone program db = (served, last) ∧
      program.Path (served.map Served.event) (.done ()) ∧
      Processed (Kept key licenseId traceID) db served last := by
  induction program generalizing db with
  | done value => exact ⟨[], db, rfl, .start, active, id⟩
  | fail error => cases error
  | call op next ih =>
    obtain ⟨served, last, same, path, processed⟩ := ih (.ok (db.execute op).1)
      ((Persist.activeLicense_execute db op key).trans active)
    refine ⟨⟨⟨op, .ok (db.execute op).1⟩, db⟩ :: served, last, ?_, .cons path, ⟨active, id⟩, .inr rfl,
      processed⟩
    rw [alone, same]

/-- The fixture under its new trace id. -/
def replayedMessage : Message :=
  Portal.messageOf canonicalSignal.encode (Persist.dictOf canonicalSignal)

def replayedTraceID : Bytes :=
  (Persist.dictOf canonicalSignal).traceId.getD [] ++ lit "-r"

/-- The pair is gone when the signal is replayed. -/
theorem replayed_row_iff_pruned :
    ∃ served last, alone (onSignal true replayedMessage) oneLicense = (served, last) ∧
      (HasRow last replayedTraceID ↔ HasRow oneLicense replayedTraceID ∨
        PutIn replayedTraceID oneLicense served last ∨
        Fresh ⟨1, (Persist.dictOf canonicalSignal).body⟩ served) ∧
      HasRow last replayedTraceID := by
  obtain ⟨after, published, later, response, returned, named⟩ :=
    Portal.path_replaySignal Portal.decodeSignalProto_canonicalSignal
  have active : oneLicense.activeLicense (Persist.dictOf canonicalSignal).key = some 1 := by decide
  have written : HasRow (alone (onSignal true replayedMessage) oneLicense).2 replayedTraceID := by
    decide +kernel
  obtain ⟨served, last, same, path, processed⟩ :=
    processed_alone response.traceID (onSignal true replayedMessage) active
  rw [same] at written
  have decides := replayed_row_iff published returned (List.mem_cons_self ..) rfl
    Persist.parseSignal_encode_canonicalSignal (by decide) 1 _ _ _ path processed
  rw [named] at decides
  exact ⟨served, last, same, decides, written⟩

/-- **A replay without a row.** The fixture is recorded and then replayed; its pair is there, and the
handler of the replay stops. -/
theorem replay_without_row :
    ∃ recorded, recorded = (alone (onSignal true canonicalMessage) oneLicense).2 ∧
      recorded.accepted.map AcceptedRow.rawPayload = [canonicalSignal.encode] ∧
      (∃ calls after later response,
        (replaySignal ⟨1, some 7⟩).Path calls (.call (.publish replayedMessage) after) ∧
        ⟨.fetchRow 7 1, some (some (Portal.rowOf canonicalSignal.encode))⟩ ∈ calls ∧
        (after none).Path later (.done response) ∧ response.traceID = replayedTraceID) ∧
      ¬HasRow (alone (onSignal true replayedMessage) recorded).2 replayedTraceID := by
  obtain ⟨after, published, later, response, returned, named⟩ :=
    Portal.path_replaySignal Portal.decodeSignalProto_canonicalSignal
  exact ⟨_, rfl, by decide +kernel, ⟨_, after, later, response, published, List.mem_cons_self ..,
    returned, named⟩, by decide +kernel⟩

end ExecRelay.Relay
