/-
**The test signal of the portal** (`apps/portal-api/app.py`).

`test_signal` posts a signal for the first active instance of a license to ingress, signed with the
secret of the license. It writes the parts with colons between them, and the parser of ingress splits at
commas.
-/

import ExecRelay.Lib.Runes
import ExecRelay.Parser.Alike
import ExecRelay.Portal.InstanceKeys

namespace ExecRelay.Portal.TestSignal

open Lib
open ExecRelay.Parser (comma isASCIISpace parse parsePieces parse_eq_parsePieces parse_parts pieces
  requiredPiece)

/-! ### The endpoint -/

/-- The columns of a license that `test_signal` reads. -/
structure OwnLicense where
  id : Nat
  licenseKey : Bytes
  hmacSecret : Bytes
deriving DecidableEq, Repr

/-- The request to `{INGRESS_URL}/webhook`. -/
structure WebhookPost where
  content : Bytes
  contentType : Bytes
  timestamp : Bytes
  signature : Bytes
deriving DecidableEq, Repr

/-- The response of ingress. The trace id is that of the object in the text, empty if it has none; a text
that is no object has `none`. -/
structure IngressReply where
  status : Nat
  text : Bytes
  traceID : Option Bytes
deriving DecidableEq, Repr

inductive Op
  | ownLicense (licenseID userID : Nat)
  /-- The key of some active instance of the license. -/
  | activeInstance (licenseID : Nat)
  /-- The seconds of the clock. -/
  | time
  | post (request : WebhookPost)
  | audit (userID : Nat) (action : Bytes) (traceID : Bytes) (licenseID : Nat)

/-- The answers. A query or a request that fails has none; `_audit` catches its failures. -/
@[reducible]
def Answer : Op → Type
  | .ownLicense _ _ => Option (Option OwnLicense)
  | .activeInstance _ => Option (Option Bytes)
  | .time => Nat
  | .post _ => Option IngressReply
  | .audit _ _ _ _ => Unit

abbrev Endpoint := Program Op Answer HTTPException

abbrev invoke (op : Op) : Endpoint (Answer op) :=
  Program.perform op

/-- The user of a request and the license of its path; an id that is no UUID is `none`. -/
structure Request where
  userID : Nat
  licenseID : Option Nat
deriving DecidableEq, Repr

structure Response where
  traceID : Bytes
  status : Bytes
deriving DecidableEq, Repr

def internalServerError : HTTPException := ⟨500, lit "Internal Server Error"⟩

def testSignalBody (licenseKey instanceKey : Bytes) : Bytes :=
  licenseKey ++ lit ":buy:" ++ instanceKey ++ lit ":symbol=EURUSD"

def webhookPost (license : OwnLicense) (instanceKey : Bytes) (now : Nat) : WebhookPost :=
  let body := testSignalBody license.licenseKey instanceKey
  { content := body
    contentType := lit "text/plain"
    timestamp := digitsOf now
    signature := lit "sha256=" ++ hexEncode (hmacSha256 license.hmacSecret body) }

def answerReply (userID licenseID : Nat) (reply : IngressReply) : Endpoint Response :=
  if reply.status ∉ [200, 202] then
    .fail ⟨502, lit "ingress returned " ++ digitsOf reply.status ++ lit ": " ++
      ((runes reply.text).take 200).flatten⟩
  else
    match reply.traceID with
    | none => .fail internalServerError
    | some traceID => do
        invoke (.audit userID (lit "test_signal") traceID licenseID)
        return ⟨traceID, lit "accepted"⟩

def testSignal (request : Request) : Endpoint Response :=
  match request.licenseID with
  | none => .fail ⟨404, lit "license not found"⟩
  | some licenseID => do
      match ← invoke (.ownLicense licenseID request.userID) with
      | none => .fail internalServerError
      | some none => .fail ⟨404, lit "license not found"⟩
      | some (some license) =>
        match ← invoke (.activeInstance license.id) with
        | none => .fail internalServerError
        | some none => .fail ⟨422, lit "no active instances — add one first"⟩
        | some (some instanceKey) =>
          let now ← invoke .time
          match ← invoke (.post (webhookPost license instanceKey now)) with
          | none => .fail internalServerError
          | some reply => answerReply request.userID licenseID reply

/-! ### What it posts -/

/-- The endpoint may post the request for the license and the instance. -/
def Posted (license : OwnLicense) (instanceKey : Bytes) (posted : WebhookPost) : Prop :=
  ∃ request licenseID log next, (testSignal request).Path log (.call (.post posted) next) ∧
    ⟨.ownLicense licenseID request.userID, some (some license)⟩ ∈ log ∧
    ⟨.activeInstance license.id, some (some instanceKey)⟩ ∈ log

section Posts

variable {posted : WebhookPost} {next : Answer (.post posted) → Endpoint Response}

theorem not_posted_of_answerReply {userID licenseID : Nat} {reply : IngressReply}
    {log : List (Event Op Answer)} :
    ¬(answerReply userID licenseID reply).Path log (.call (.post posted) next) := by
  intro path
  unfold answerReply at path
  split at path
  · cases path.of_fail.2
  · split at path
    · cases path.of_fail.2
    · rcases path.of_call with ⟨_, impossible⟩ | ⟨_, _, _, returning⟩
      · cases impossible
      · cases returning.of_done.2

theorem log_of_post {request : Request} {log : List (Event Op Answer)}
    (path : (testSignal request).Path log (.call (.post posted) next)) :
    ∃ licenseID license instanceKey now,
      log = [⟨.ownLicense licenseID request.userID, some (some license)⟩,
        ⟨.activeInstance license.id, some (some instanceKey)⟩, ⟨.time, now⟩] ∧
      posted = webhookPost license instanceKey now := by
  unfold testSignal at path
  split at path
  · cases path.of_fail.2
  · rename_i licenseID _
    rcases path.of_call with ⟨_, impossible⟩ | ⟨license, _, rfl, licensed⟩
    · cases impossible
    match license, licensed with
    | none, failed | some none, failed => cases failed.of_fail.2
    | some (some license), found =>
      rcases found.of_call with ⟨_, impossible⟩ | ⟨instanceKey, _, rfl, placed⟩
      · cases impossible
      match instanceKey, placed with
      | none, failed | some none, failed => cases failed.of_fail.2
      | some (some instanceKey), timing =>
        rcases timing.of_call with ⟨_, impossible⟩ | ⟨now, _, rfl, posting⟩
        · cases impossible
        rcases posting.of_call with ⟨rfl, same⟩ | ⟨reply, _, _, replied⟩
        · cases same
          exact ⟨licenseID, license, instanceKey, now, rfl, rfl⟩
        match reply, replied with
        | none, failed => cases failed.of_fail.2
        | some reply, behind => exact absurd behind not_posted_of_answerReply

end Posts

/-- **The endpoint posts the body** under the time of the clock, with its signature. -/
theorem posted_iff {license : OwnLicense} {instanceKey : Bytes} {posted : WebhookPost} :
    Posted license instanceKey posted ↔ ∃ now, posted = webhookPost license instanceKey now := by
  constructor
  · rintro ⟨request, _, log, next, path, licensed, placed⟩
    obtain ⟨_, _, _, now, rfl, rfl⟩ := log_of_post path
    simp only [List.mem_cons, List.not_mem_nil, or_false] at licensed placed
    rcases licensed with same | same | same <;> cases same
    rcases placed with same | same | same <;> cases same
    exact ⟨now, rfl⟩
  · rintro ⟨now, rfl⟩
    have path : (testSignal ⟨0, some license.id⟩).Path
        [⟨.ownLicense license.id 0, some (some license)⟩,
          ⟨.activeInstance license.id, some (some instanceKey)⟩, ⟨.time, now⟩]
        (.call (.post (webhookPost license instanceKey now)) _) :=
      .cons (.cons (.cons .start))
    exact ⟨_, license.id, _, _, path, by simp, by simp⟩

/-! ### What the parser returns -/

/-- **The parser returns the signal**: a buy of EURUSD for the license. -/
def Carried (licenseKey body : Bytes) : Prop :=
  ∃ signal, parse body = .ok signal ∧ signal.licenseID = licenseKey ∧ signal.command = .buy ∧
    signal.symbol = lit "EURUSD"

theorem not_comma_of_accepts {instanceKey : Bytes} (accepted : Accepts instanceKey) :
    comma ∉ instanceKey := by
  have plain {core : Bytes} (token : isPlain core = true) : comma ∉ core := fun inside =>
    absurd (List.all_eq_true.mp token _ inside) (by decide)
  obtain ⟨core, _, token, rfl | rfl⟩ := exists_core_of_matches ((accepts_iff_matches _).mp accepted)
  · exact plain token
  · simpa using ⟨plain token, by decide⟩

theorem not_comma_of_pieces {body piece : Bytes} (member : piece ∈ pieces body) : comma ∉ piece := by
  obtain ⟨part, inside, rfl⟩ := List.mem_map.mp member
  obtain ⟨before, after, split⟩ := List.append_of_mem inside
  obtain ⟨_, _, _, absent, _⟩ := exists_splitOn split
  rw [← List.count_eq_zero, count_trim (by decide), List.count_eq_zero]
  exact absent

theorem pieces_of_not_mem {body : Bytes} (absent : comma ∉ body) :
    pieces body = [trim isASCIISpace body] := by
  rw [pieces, map_trim_splitOn (by decide), List.splitOn_eq_singleton absent]
  rfl

theorem not_comma_of_testSignalBody {licenseKey instanceKey : Bytes} (accepted : Accepts instanceKey)
    (absent : comma ∉ licenseKey) : comma ∉ testSignalBody licenseKey instanceKey := by
  have apart : comma ∉ lit ":buy:" ∧ comma ∉ lit ":symbol=EURUSD" := by decide
  simp only [testSignalBody, List.mem_append, not_or]
  exact ⟨⟨⟨absent, apart.1⟩, not_comma_of_accepts accepted⟩, apart.2⟩

/-- **The parser finds no command** behind a key without a comma. -/
theorem parse_testSignalBody {licenseKey instanceKey : Bytes} (accepted : Accepts instanceKey)
    (absent : comma ∉ licenseKey) : parse (testSignalBody licenseKey instanceKey) =
      .error { code := .missingField, field := lit "command" } := by
  have body := not_comma_of_testSignalBody accepted absent
  have given : trim isASCIISpace (testSignalBody licenseKey instanceKey) ≠ [] := by
    intro empty
    have colon := count_trim (by decide : isASCIISpace 58 = false)
      (testSignalBody licenseKey instanceKey)
    rw [empty, List.count_nil] at colon
    have inside : (58 : UInt8) ∈ testSignalBody licenseKey instanceKey :=
      List.mem_append_right _ (by decide)
    exact absurd inside (List.count_eq_zero.mp colon.symm)
  rw [parse_eq_parsePieces, pieces_of_not_mem body, parsePieces, rejectIf_of_not (by simpa using given),
    requiredPiece, rejectIf_of_not given]
  rfl

/-- **The parser never returns the signal**: the first of its pieces is no key with a comma, and behind
another key there is no second piece. -/
theorem test_signal_not_carried {license : OwnLicense} {instanceKey : Bytes} {posted : WebhookPost}
    (accepted : Accepts instanceKey) (sent : Posted license instanceKey posted) :
    ¬Carried license.licenseKey posted.content := by
  obtain ⟨now, rfl⟩ := posted_iff.mp sent
  rintro ⟨signal, parses, licensed, _, _⟩
  by_cases inside : comma ∈ license.licenseKey
  · obtain ⟨first, _, _, _, split, _, kept, _⟩ := parse_parts parses
    have absent : comma ∉ first := not_comma_of_pieces (by rw [split]; exact List.mem_cons_self ..)
    rw [licensed] at kept
    exact absent (kept ▸ inside)
  · have refused := parse_testSignalBody accepted inside
    rw [webhookPost] at parses
    rw [refused] at parses
    cases parses

def sampleLicense : OwnLicense :=
  ⟨1, lit "00000000042", lit "00112233445566778899aabbccddeeff"⟩

theorem accepts_main : Accepts (lit "main-1") :=
  (accepts_iff_matches _).mpr (by decide)

theorem posted_sample :
    Posted sampleLicense (lit "main-1") (webhookPost sampleLicense (lit "main-1") 1700000000) :=
  posted_iff.mpr ⟨_, rfl⟩

theorem test_signal_not_carried_sample :
    Accepts (lit "main-1") ∧
      Posted sampleLicense (lit "main-1") (webhookPost sampleLicense (lit "main-1") 1700000000) ∧
      ¬Carried sampleLicense.licenseKey
        (webhookPost sampleLicense (lit "main-1") 1700000000).content :=
  ⟨accepts_main, posted_sample, test_signal_not_carried accepts_main posted_sample⟩

theorem parse_sample : parse (testSignalBody (lit "00000000042") (lit "main-1")) =
    .error { code := .missingField, field := lit "command" } := by
  decide +kernel

/-- `00000000042:buy:main-1:symbol=EURUSD` has no command for the parser. -/
theorem test_signal_refused :
    Accepts (lit "main-1") ∧
      Posted sampleLicense (lit "main-1") (webhookPost sampleLicense (lit "main-1") 1700000000) ∧
      ¬Carried sampleLicense.licenseKey
        (webhookPost sampleLicense (lit "main-1") 1700000000).content := by
  refine ⟨accepts_main, posted_sample, fun ⟨signal, parses, _⟩ => ?_⟩
  cases parse_sample.symm.trans parses

end ExecRelay.Portal.TestSignal
