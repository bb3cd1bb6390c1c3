/-
**A replayed signal is the signal.**

The portal writes a message with an encoder of its own. What it writes is what persist reads
(`parseSignal_encodeSignalProto`), so that a message of ingress that is decoded, given another trace id
and time, and written again is decoded to the same signal otherwise: **`replay_keeps_signal`**.
-/

import ExecRelay.Ingress.Published
import ExecRelay.Portal.Decode

namespace ExecRelay.Portal

open Lib
open Ingress (Config Input Log Relayed AlertOf IsNewTraceID validSubjectToken)
open Persist (ParamDict SignalDict Contents contentsOf parseSignal parseSignal_contents
  parseSignal_contentsOf parseParam_texts present)

/-! ### The encoder -/

/-- A text that is not empty. -/
def IsText (text : Bytes) : Prop :=
  text ≠ [] ∧ validUtf8 text = true

/-- **What the encoder is for**: a dictionary with the required texts and a positive time, whose other
texts are missing or not empty, and whose parameters have a key and a value. -/
structure Encodable (sig : SignalDict) : Prop where
  required : ∀ entry ∈ [sig.traceId, sig.licenseId, sig.command, sig.symbol],
    ∃ text, entry = some text ∧ IsText text
  others : ∀ entry ∈ [sig.instanceId, sig.rawCommand, sig.ingressRegion, sig.bodySha256],
    ∀ text, entry = some text → IsText text
  time : ∃ time : Int, sig.receivedUnixNano = some time ∧ 0 < time
  params : ∀ param ∈ sig.params, ∃ key value, param = ⟨some key, some value⟩ ∧
    validUtf8 key = true ∧ validUtf8 value = true

/-- A parameter as it comes back: what was missing is an empty text. -/
def filled (param : ParamDict) : ParamDict :=
  ⟨some (param.key.getD []), some (param.value.getD [])⟩

/-- What the encoder writes. -/
def contents (sig : SignalDict) : Contents where
  traceId := sig.traceId.getD []
  licenseId := sig.licenseId.getD []
  instanceId := sig.instanceId.getD []
  command := sig.command.getD []
  rawCommand := sig.rawCommand.getD []
  symbol := sig.symbol.getD []
  ingressRegion := sig.ingressRegion.getD []
  time := (sig.receivedUnixNano.getD 0).toNat
  bodySha256 := sig.bodySha256.getD []
  params := sig.params.map fun param => (encodeParam param, filled param)

theorem encodeSignalProto_eq (sig : SignalDict) :
    encodeSignalProto sig = encodeFields (contents sig).fields := by
  unfold encodeSignalProto Contents.fields
  simp only [contents, List.map_map]
  rfl

theorem present_getD {entry : Option Bytes} (text : ∀ text, entry = some text → IsText text) :
    present (entry.getD []) = entry := by
  cases entry with
  | none => rfl
  | some given => exact if_neg (text given rfl).1

theorem validUtf8_getD {entry : Option Bytes} (text : ∀ text, entry = some text → IsText text) :
    validUtf8 (entry.getD []) = true := by
  cases entry with
  | none => rfl
  | some given => exact (text given rfl).2

namespace Encodable

variable {sig : SignalDict} (encodable : Encodable sig)
include encodable

theorem text : ∀ entry ∈ [sig.traceId, sig.licenseId, sig.command, sig.symbol, sig.instanceId,
    sig.rawCommand, sig.ingressRegion, sig.bodySha256], ∀ text, entry = some text → IsText text := by
  intro entry member text given
  rcases List.mem_append.mp (show entry ∈ [sig.traceId, sig.licenseId, sig.command, sig.symbol] ++
    [sig.instanceId, sig.rawCommand, sig.ingressRegion, sig.bodySha256] from member) with member | member
  · obtain ⟨found, same, isText⟩ := encodable.required entry member
    rw [given] at same
    rw [Option.some.inj same]
    exact isText
  · exact encodable.others entry member text given

theorem required_ne_nil : ∀ entry ∈ [sig.traceId, sig.licenseId, sig.command, sig.symbol],
    entry.getD [] ≠ [] := by
  intro entry member
  obtain ⟨text, rfl, isText⟩ := encodable.required entry member
  exact isText.1

theorem dict_contents : (contents sig).dict = sig := by
  obtain ⟨time, given, positive⟩ := encodable.time
  have kept (entry : Option Bytes) (member : entry ∈ [sig.traceId, sig.licenseId, sig.command,
      sig.symbol, sig.instanceId, sig.rawCommand, sig.ingressRegion, sig.bodySha256]) :
      present (entry.getD []) = entry := present_getD (encodable.text entry member)
  have timed : (if (contents sig).time = 0 then none else some ((contents sig).time : Int)) =
      sig.receivedUnixNano := by
    have same : (contents sig).time = time.toNat := by rw [contents, given, Option.getD_some]
    rw [same, if_neg (by omega), given, Int.toNat_of_nonneg positive.le]
  have listed : (contents sig).params.map Prod.snd = sig.params := by
    rw [contents, List.map_map]
    refine (List.map_congr_left fun param member => ?_).trans (List.map_id sig.params)
    obtain ⟨key, value, rfl, -⟩ := encodable.params param member
    rfl
  rw [Contents.dict, timed, listed]
  show SignalDict.mk (present (sig.traceId.getD [])) _ _ _ _ _ _ _ _ _ = sig
  simp only [contents]
  rw [kept sig.traceId (by simp), kept sig.licenseId (by simp), kept sig.instanceId (by simp),
    kept sig.command (by simp), kept sig.rawCommand (by simp), kept sig.symbol (by simp),
    kept sig.ingressRegion (by simp), kept sig.bodySha256 (by simp)]

end Encodable

section Written

variable {sig : SignalDict}

/-- **persist reads what the portal writes**, if the texts are UTF-8 and the required ones are there. -/
theorem parseSignal_contents_of_texts (valid : Persist.Raising.Texts sig)
    (required : ∀ entry ∈ [sig.traceId, sig.licenseId, sig.command, sig.symbol], entry.getD [] ≠ []) :
    parseSignal (encodeSignalProto sig) = .ok (contents sig).dict := by
  have texts : ∀ text ∈ (contents sig).texts, validUtf8 text = true := by
    intro text member
    obtain ⟨entry, inside, rfl⟩ := List.mem_map.mp (show text ∈ [sig.traceId, sig.licenseId,
      sig.instanceId, sig.command, sig.rawCommand, sig.symbol, sig.ingressRegion,
      sig.bodySha256].map (Option.getD · []) from member)
    exact valid entry (List.mem_append_left _ inside)
  have given : ∀ param ∈ (contents sig).params, Persist.parseParam param.1 = .ok param.2 := by
    intro param member
    obtain ⟨source, inside, rfl⟩ := List.mem_map.mp member
    have texts (entry : Option Bytes) (here : entry ∈ [source.key, source.value]) :
        validUtf8 (entry.getD []) = true :=
      valid entry (List.mem_append_right _ (List.mem_flatMap.mpr ⟨source, inside, here⟩))
    exact parseParam_texts (texts source.key (by simp)) (texts source.value (by simp))
  rw [encodeSignalProto_eq]
  exact parseSignal_contents texts given (required sig.traceId (by simp))
    (required sig.licenseId (by simp)) (required sig.command (by simp))
    (required sig.symbol (by simp))

theorem parseSignal_encodeSignalProto (encodable : Encodable sig) :
    parseSignal (encodeSignalProto sig) = .ok sig := by
  have valid : Persist.Raising.Texts sig := by
    intro entry member
    rcases List.mem_append.mp member with member | member
    · refine validUtf8_getD (encodable.text entry ?_)
      simp only [List.mem_cons, List.not_mem_nil, or_false] at member ⊢
      tauto
    · obtain ⟨param, inside, here⟩ := List.mem_flatMap.mp member
      obtain ⟨key, value, rfl, keyValid, valueValid⟩ := encodable.params param inside
      simp only [List.mem_cons, List.not_mem_nil, or_false] at here
      rcases here with rfl | rfl
      · exact keyValid
      · exact valueValid
  rw [parseSignal_contents_of_texts valid encodable.required_ne_nil, encodable.dict_contents]

end Written

/-! ### Replaying -/

/-- **A message that persist has read is read again** when it is published once more. -/
theorem parseSignal_republish {raw : Bytes} {sig : SignalDict} (recorded : parseSignal raw = .ok sig)
    (now : Nat) : parseSignal (encodeSignalProto (republish sig now)) =
      .ok (contents (republish sig now)).dict := by
  obtain ⟨valid, required⟩ := Persist.Raising.of_parseSignal recorded
  refine parseSignal_contents_of_texts ?_ ?_
  · intro entry member
    rcases List.mem_cons.mp member with rfl | other
    · exact validUtf8_append (valid sig.traceId (by simp [Persist.Raising.texts])) (by decide)
    · exact valid entry (List.mem_cons_of_mem _ other)
  · intro entry member
    simp only [List.mem_cons, List.not_mem_nil, or_false] at member
    rcases member with rfl | rfl | rfl | rfl
    · exact List.append_ne_nil_of_right_ne_nil _ (by decide)
    · exact required ("license_id", sig.licenseId) (by simp [SignalDict.required])
    · exact required ("command", sig.command) (by simp [SignalDict.required])
    · exact required ("symbol", sig.symbol) (by simp [SignalDict.required])

theorem getD_present (text : Bytes) : (present text).getD [] = text := by
  unfold present
  split
  · rename_i empty
    rw [empty]
    rfl
  · rfl

/-- Of a signal nothing is missing or empty that comes back otherwise. -/
theorem dict_contents_republish (signal : Proto.Signal) {now : Nat} (positive : 0 < now) :
    (contents (republish (contentsOf signal).dict now)).dict =
      republish (contentsOf signal).dict now := by
  have named : present ((present signal.traceId).getD [] ++ lit "-r") =
      some ((present signal.traceId).getD [] ++ lit "-r") :=
    if_neg (List.append_ne_nil_of_right_ne_nil _ (by decide))
  have time : (if now = 0 then none else some (now : Int)) = some (now : Int) := if_neg positive.ne'
  rw [getD_present] at named
  simp only [contents, republish, Contents.dict, contentsOf, getD_present, List.map_map, named,
    Option.getD_some, Int.toNat_natCast, time]
  rfl

/-- **What `replay_signal` publishes**, and what it has asked for before. -/
theorem publish_of_replaySignal {request : ReplayRequest} {log : List (Event Op Answer)}
    {message : Nats.Message} {next : Option Unacknowledged → Endpoint ReplayResponse}
    (path : (replaySignal request).Path log (.call (.publish message) next)) :
    ∃ signalID row raw original now,
      log = [⟨.fetchRow signalID request.userID, some (some row)⟩, ⟨.hasNats, true⟩, ⟨.timeNs, now⟩] ∧
        row.rawPayload = some raw ∧ decodeSignalProto raw = .ok original ∧
        message.data = encodeSignalProto (republish original now) ∧
        ∀ later response, (next none).Path later (.done response) →
          response.traceID = (republish original now).traceId.getD [] := by
  unfold replaySignal at path
  cases named : request.signalID with
  | none =>
    rw [named] at path
    cases path.of_fail.2
  | some signalID =>
    rw [named] at path
    obtain ⟨-, same⟩ | ⟨found, later, rfl, selected⟩ := path.of_call
    · cases same
    rcases found with _ | _ | row
    · cases selected.of_fail.2
    · cases selected.of_fail.2
    dsimp only [Program.bind] at selected
    cases stored : row.rawPayload with
    | none =>
      rw [stored] at selected
      cases selected.of_fail.2
    | some raw =>
      rw [stored] at selected
      obtain ⟨-, same⟩ | ⟨connected, later, rfl, checked⟩ := selected.of_call
      · cases same
      cases connected with
      | false => cases checked.of_fail.2
      | true =>
        dsimp only [Program.bind] at checked
        rw [if_pos rfl] at checked
        cases decoded : decodeSignalProto raw with
        | error error =>
          rw [decoded] at checked
          cases checked.of_fail.2
        | ok original =>
          rw [decoded] at checked
          obtain ⟨-, same⟩ | ⟨now, later, rfl, timed⟩ := checked.of_call
          · cases same
          obtain ⟨rfl, same⟩ | ⟨outcome, later, -, published⟩ := timed.of_call
          · cases same
            refine ⟨signalID, row, raw, original, now, rfl, stored, decoded, rfl, fun _ _ ended => ?_⟩
            obtain ⟨_, _, -, returned⟩ := ended.done_of_call
            cases returned.of_done.2
            rfl
          · -- behind the publication there is the entry of the audit only
            cases outcome with
            | some failure => cases published.of_fail.2
            | none =>
              obtain ⟨-, same⟩ | ⟨_, _, -, audited⟩ := published.of_call
              · cases same
              · cases audited.of_done.2

/-- A replayed dictionary is the original in every field but two. -/
theorem republish_fields (original : SignalDict) (now : Nat) :
    (republish original now).traceId = some (original.traceId.getD [] ++ lit "-r") ∧
      (republish original now).receivedUnixNano = some (now : Int) ∧
      { republish original now with
        traceId := original.traceId, receivedUnixNano := original.receivedUnixNano } = original :=
  ⟨rfl, rfl, rfl⟩

/-- **A replayed signal is the signal.** What the portal encodes, persist decodes to the dictionary it
was encoded from. A message that ingress publishes is read by both decoders; and whatever `replay_signal`
publishes for a row that holds the message, persist reads as the same signal in every field but the trace
id, which ends in `-r`, and the time, which is that of the clock. -/
theorem replay_keeps_signal :
    (∀ sig, Encodable sig → parseSignal (encodeSignalProto sig) = .ok sig) ∧
    ∀ (config : Config) (input : Input) (log : Log) (subject payload : Bytes)
      (next : Option Bytes → Program Ingress.Op Ingress.Answer Empty Unit),
      (∀ value, config.formatFloat value ≠ []) → Ingress.MadeTraceIDs log →
      (Ingress.start config input).Path log (.call (.publish subject payload) next) →
      ∃ original, parseSignal payload = .ok original ∧ decodeSignalProto payload = .ok original ∧
        ∀ request calls message after,
          (replaySignal request).Path calls (.call (.publish message) after) →
          (∀ signalID userID row, ⟨.fetchRow signalID userID, some (some row)⟩ ∈ calls →
            row.rawPayload = some payload) →
          (∀ now : Nat, ⟨.timeNs, now⟩ ∈ calls → 0 < now) →
          ∃ again, ∃ now : Nat, parseSignal message.data = .ok again ∧ ⟨.timeNs, now⟩ ∈ calls ∧
            again.traceId = some (original.traceId.getD [] ++ lit "-r") ∧
            again.receivedUnixNano = some (now : Int) ∧
            { again with
              traceId := original.traceId, receivedUnixNano := original.receivedUnixNano } =
                original := by
  refine ⟨fun sig encodable => parseSignal_encodeSignalProto encodable, ?_⟩
  intro config input log subject payload next formats made path
  obtain ⟨r, alert, record, traceID, received, alertOf, trace, license, -, encoded, -⟩ :=
    Ingress.relayed_of_path path
  unfold Proto.Signal.marshal at encoded
  split at encoded
  · rename_i valid
    have publishable := alertOf.publishable valid
    have traceGiven := trace.ne_nil made
    have licenseGiven := Ingress.ne_nil_of_validSubjectToken license
    have commandGiven := publishable.word_command.given
    have symbolGiven := alertOf.symbol_ne_nil
    have paramsGiven := publishable.sound_params formats
    have parsed := parseSignal_contentsOf traceGiven licenseGiven commandGiven symbolGiven valid
      fun param member => ⟨(paramsGiven param member).1.given, (paramsGiven param member).2⟩
    rw [Option.some.inj encoded] at parsed
    refine ⟨_, parsed, decodeSignalProto_eq_ok parsed, fun request calls message after replayed holds
      clock => ?_⟩
    obtain ⟨signalID, row, raw, original, now, rfl, stored, decoded, data, -⟩ :=
      publish_of_replaySignal replayed
    cases stored.symm.trans (holds _ _ row (List.mem_cons_self ..))
    cases (decodeSignalProto_eq_ok parsed).symm.trans decoded
    have asked : (⟨.timeNs, now⟩ : Event Op Answer) ∈
        [⟨.fetchRow signalID request.userID, some (some row)⟩, ⟨.hasNats, true⟩, ⟨.timeNs, now⟩] := by
      simp
    refine ⟨republish _ now, now, ?_, asked, republish_fields _ now⟩
    rw [data, parseSignal_republish parsed now, dict_contents_republish _ (clock now asked)]
  · cases encoded

/-- A stored message, of an instance. -/
def rowOf (payload : Bytes) : ReplayRow :=
  ⟨lit "trace-1", some payload, lit "60123456789", some (lit "mt5-a"), none⟩

/-- What is published for it, in the first nanosecond. -/
def messageOf (payload : Bytes) (original : SignalDict) : Nats.Message :=
  ⟨replaySubject (rowOf payload), encodeSignalProto (republish original 1)⟩

/-- A stored message that is decoded is published again. -/
theorem path_replaySignal {payload : Bytes} {original : SignalDict}
    (decoded : decodeSignalProto payload = .ok original) :
    ∃ after, (replaySignal ⟨1, some 7⟩).Path
      [⟨.fetchRow 7 1, some (some (rowOf payload))⟩, ⟨.hasNats, true⟩, ⟨.timeNs, (1 : Nat)⟩]
      (.call (.publish (messageOf payload original)) after) ∧
      ∃ later response, (after none).Path later (.done response) ∧
        response.traceID = original.traceId.getD [] ++ lit "-r" := by
  obtain ⟨after, publishes, returns⟩ : ∃ after, (publishAgain 1 (rowOf payload) original).Path
      [⟨.timeNs, (1 : Nat)⟩] (.call (.publish (messageOf payload original)) after) ∧
      ∃ later response, (after none).Path later (.done response) ∧
        response.traceID = original.traceId.getD [] ++ lit "-r" :=
    ⟨_, .cons .start, [⟨_, ()⟩], _, .cons .start, rfl⟩
  refine ⟨after, Program.Path.cons (Program.Path.cons ?_), returns⟩
  dsimp only [Program.bind]
  rw [if_pos rfl, decoded]
  exact publishes

/-- The required texts, a time and no more. -/
def leastDict : SignalDict where
  traceId := some (lit "trace-1")
  licenseId := some (lit "60123456789")
  command := some (lit "buy")
  symbol := some (lit "EURUSD")
  receivedUnixNano := some 1

/-- The least dictionary, and a request to the ML route. -/
theorem replay_keeps_signal_buy :
    (∃ sig, Encodable sig ∧ parseSignal (encodeSignalProto sig) = .ok sig) ∧
    ∃ log subject payload next,
      (Ingress.start (Ingress.scoring Ingress.buyRequest) (.webhookML Ingress.plainRequest)).Path log
        (.call (.publish subject payload) next) ∧
      ∃ original calls message after, parseSignal payload = .ok original ∧
        (replaySignal ⟨1, some 7⟩).Path calls (.call (.publish message) after) ∧
        ∃ again, parseSignal message.data = .ok again ∧ again.receivedUnixNano = some 1 := by
  have given (text : Bytes) (isText : text ≠ [] ∧ validUtf8 text = true) :
      ∃ found, some text = some found ∧ IsText found := ⟨text, rfl, isText⟩
  have fixture : Encodable leastDict := by
    refine ⟨?_, by simp [leastDict], ⟨1, rfl, Int.one_pos⟩, by simp [leastDict]⟩
    simp only [List.forall_mem_cons]
    exact ⟨given _ (by decide), given _ (by decide), given _ (by decide), given _ (by decide),
      List.forall_mem_nil _⟩
  refine ⟨⟨_, fixture, replay_keeps_signal.1 _ fixture⟩, ?_⟩
  obtain ⟨log, subject, payload, next, path, answers⟩ :=
    Ingress.publishes_of_calls Ingress.tracing
      (by decide +kernel : ((Ingress.start (Ingress.scoring Ingress.buyRequest)
        (.webhookML Ingress.plainRequest)).calls Ingress.tracing).any Ingress.isPublish = true)
  obtain ⟨original, parsed, decoded, again⟩ := replay_keeps_signal.2 _ _ _ _ _ _
    (Ingress.formats_scoring _).given (Ingress.madeTraceIDs_tracing answers) path
  obtain ⟨after, replayed, -⟩ := path_replaySignal decoded
  have clock (now : Nat) (asked : (⟨.timeNs, now⟩ : Event Op Answer) ∈
      [⟨.fetchRow 7 1, some (some (rowOf payload))⟩, ⟨.hasNats, true⟩, ⟨.timeNs, (1 : Nat)⟩]) : now = 1 := by
    simpa using asked
  obtain ⟨found, now, read, asked, -, time, -⟩ := again _ _ _ after replayed
    (by
      intro signalID userID row member
      rcases List.mem_cons.mp member with same | member
      · cases same
        rfl
      · simp at member)
    fun now asked => clock now asked ▸ Nat.one_pos
  rw [clock now asked] at time
  exact ⟨log, subject, payload, next, path, original, _, _, after, parsed, replayed, found, read,
    time⟩

end ExecRelay.Portal
