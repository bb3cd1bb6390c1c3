/-
**The decoder of the portal beside the one of persist.**

`decode_signal_proto` is lenient where `parse_signal` is strict. Here it is as it runs, turn by turn,
with the slices it cuts from its buffers, which may reach behind their ends.
-/

import ExecRelay.Persist.Raising
import ExecRelay.Portal.Replay

namespace ExecRelay.Portal

open Lib
open Lib.Reading (Ends Simulates)
open Persist (ParamDict SignalDict parseParamField parseField parseSignal lengthDelimited
  decodeUtf8)
open Persist.Raising (orRaise_eq_ok pos_lt_varint ends_varint indexed)

/-! ### The function -/

namespace Running

abbrev Reader (Value : Type) := Reading IndexError Value

def varint (data : Bytes) (pos : Nat) : Reader (Nat × Nat) :=
  Persist.Raising.varint .outOfRange data pos

def paramTurn (raw : Bytes) (pos : Nat) (param : ParamDict) :
    Reader (Turn (Nat × ParamDict) ParamDict) := do
  let (tag, pos) ← varint raw pos
  if tag &&& 0x7 = 2 then
    let (length, pos) ← varint raw pos
    let text := decodeReplace (← Reading.cut raw pos (pos + length))
    pure (.again (pos + length, param.store (tag >>> 3) text))
  else
    pure (.again (pos, param))

def decodeParam (raw : Bytes) : Reader ParamDict :=
  Reading.readWhile raw.length (paramTurn raw) 0 {}

def storePayload (sig : SignalDict) (field : Nat) (raw : Bytes) : Reader SignalDict :=
  match sig.storeText field (decodeReplace raw) with
  | some stored => pure stored
  | none =>
    if field = 10 then do
      let param ← decodeParam raw
      pure { sig with params := sig.params ++ [param] }
    else
      pure sig

def fieldTurn (data : Bytes) (pos : Nat) (sig : SignalDict) :
    Reader (Turn (Nat × SignalDict) SignalDict) := do
  let (tag, pos) ← varint data pos
  match tag &&& 0x7 with
  | 0 => do
      let (value, pos) ← varint data pos
      pure (.again (pos, if tag >>> 3 = 8 then { sig with receivedUnixNano := some value } else sig))
  | 2 => do
      let (length, pos) ← varint data pos
      let raw ← Reading.cut data pos (pos + length)
      let sig ← storePayload sig (tag >>> 3) raw
      pure (.again (pos + length, sig))
  | _ => pure (.leave sig)

def decodeSignalProto (data : Bytes) : Reader SignalDict :=
  Reading.readWhile data.length (fieldTurn data) 0 {}

end Running

/-! ### It ends -/

def Anywhere (_ : Access) : Prop :=
  True

variable {bound pos : Nat} {data raw : Bytes}

theorem simulates_varint (most : data.length < bound) (pos : Nat) :
    Simulates Anywhere bound id id (Running.varint data pos) (varint data pos) := by
  have ends : Ends Anywhere bound (Running.varint data pos)
      (indexed .outOfRange (Persist.varint data pos)) :=
    ends_varint _ (fun _ _ => trivial) most pos
  unfold varint
  cases read : Persist.varint data pos <;> rw [read] at ends <;> exact ends

variable {read : Nat × Nat}

theorem pos_lt_of_varint (found : varint data pos = .ok read) : pos < read.2 := by
  unfold varint at found
  cases here : Persist.varint data pos with
  | none =>
    rw [here] at found
    cases found
  | some other =>
    rw [here] at found
    rw [← Except.ok.inj found]
    exact pos_lt_varint here

theorem simulates_param (most : raw.length < bound) (pos : Nat) (param : ParamDict) :
    Simulates Anywhere bound id Turn.again (Running.paramTurn raw pos param)
      (decodeParamField raw pos param) := by
  unfold Running.paramTurn decodeParamField
  refine (simulates_varint most pos).bind fun tagged _ => ?_
  by_cases wire : tagged.1 &&& 0x7 = 2
  · simp only [wire, if_true]
    refine (simulates_varint most tagged.2).bind fun sized _ => ?_
    have whole : Ends Anywhere bound
        (Reading.cut raw sized.2 (sized.2 + sized.1) : Running.Reader Bytes) _ :=
      Reading.Ends.cut trivial
    exact whole.bind Reading.Ends.done
  · simp only [wire, if_false]
    exact Simulates.done _

variable {param : ParamDict}

theorem pos_lt_paramField {next : Nat × ParamDict}
    (taken : decodeParamField raw pos param = .ok next) : pos < next.1 := by
  unfold decodeParamField at taken
  obtain ⟨tagged, found, rest⟩ := (bind_eq_ok _ _ _).mp taken
  have first := pos_lt_of_varint found
  dsimp only at rest
  split at rest
  · obtain ⟨sized, read, ended⟩ := (bind_eq_ok _ _ _).mp rest
    have second := pos_lt_of_varint read
    rw [← Except.ok.inj ended]
    dsimp only
    omega
  · rw [← Except.ok.inj rest]
    exact first

theorem simulates_decodeParam (most : raw.length < bound) :
    Simulates Anywhere bound id id (Running.decodeParam raw) (decodeParam raw) :=
  Reading.Ends.readWhile (fun pos param _ => .of_simulates (simulates_param most pos param)
    fun _ taken => pos_lt_paramField taken) {} (by omega) most

theorem simulates_storePayload (most : raw.length < bound) (sig : SignalDict) (field : Nat) :
    Simulates Anywhere bound id id (Running.storePayload sig field raw)
      (storePayload sig field raw) := by
  unfold Running.storePayload storePayload
  cases sig.storeText field (decodeReplace raw) with
  | some stored => exact Simulates.done stored
  | none =>
    by_cases nested : field = 10
    · simp only [nested, if_true]
      exact (simulates_decodeParam most).bind fun param _ => Simulates.done _
    · simp only [nested, if_false]
      exact Simulates.done sig

variable {tagged : Nat × Nat}

theorem simulates_field (most : data.length < bound) (sig : SignalDict)
    (found : varint data pos = .ok tagged) (known : tagged.1 &&& 0x7 = 0 ∨ tagged.1 &&& 0x7 = 2) :
    Simulates Anywhere bound id Turn.again (Running.fieldTurn data pos sig)
      (decodeField data pos sig) := by
  unfold Running.fieldTurn decodeField
  refine (simulates_varint most pos).bind fun other found' => ?_
  obtain rfl : tagged = other := by
    rw [found] at found'
    exact Except.ok.inj found'
  rcases known with wire | wire
  · simp only [wire]
    exact (simulates_varint most tagged.2).bind fun value _ => Simulates.done _
  · simp only [wire]
    refine (simulates_varint most tagged.2).bind fun sized _ => ?_
    have shorter : (slice data sized.2 (sized.2 + sized.1)).length < bound := by
      rw [slice, List.length_take, List.length_drop]
      omega
    have whole : Ends Anywhere bound
        (Reading.cut data sized.2 (sized.2 + sized.1) : Running.Reader Bytes) _ :=
      Reading.Ends.cut trivial
    exact whole.bind ((simulates_storePayload shorter sig _).bind fun stored _ => Simulates.done _)

variable {sig : SignalDict} {next : Nat × SignalDict}

theorem pos_lt_field (found : varint data pos = .ok tagged)
    (known : tagged.1 &&& 0x7 = 0 ∨ tagged.1 &&& 0x7 = 2)
    (taken : decodeField data pos sig = .ok next) : pos < next.1 := by
  have first := pos_lt_of_varint found
  unfold decodeField at taken
  rw [found] at taken
  change (match tagged.1 &&& 0x7 with | 0 => _ | 2 => _ | _ => _) = _ at taken
  rcases known with wire | wire
  · simp only [wire] at taken
    obtain ⟨value, read, ended⟩ := (bind_eq_ok _ _ _).mp taken
    have second := pos_lt_of_varint read
    rw [← Except.ok.inj ended]
    exact first.trans second
  · simp only [wire] at taken
    obtain ⟨sized, read, rest⟩ := (bind_eq_ok _ _ _).mp taken
    obtain ⟨stored, _, ended⟩ := (bind_eq_ok _ _ _).mp rest
    have second := pos_lt_of_varint read
    rw [← Except.ok.inj ended]
    dsimp only
    omega

/-- One turn of the loop over the message, which is left at a wire type that is not known. -/
theorem follows_field (most : data.length < bound) (pos : Nat) (sig : SignalDict) :
    Reading.Ends.Follows Anywhere bound data.length id (Running.fieldTurn data pos sig) pos
      (decodeField data pos sig) := by
  have begins := simulates_varint most pos
  cases found : varint data pos with
  | error error =>
    rw [found] at begins
    rw [decodeField, found]
    exact .raises (Reading.Ends.bind_error begins)
  | ok tagged =>
    by_cases known : tagged.1 &&& 0x7 = 0 ∨ tagged.1 &&& 0x7 = 2
    · exact .of_simulates (simulates_field most sig found known)
        fun _ taken => pos_lt_field found known taken
    · rw [found] at begins
      have left : decodeField data pos sig = .ok (data.length, sig) := by
        rw [decodeField, found]
        show (match tagged.1 &&& 0x7 with | 0 => _ | 2 => _ | _ => _) = _
        split
        · rename_i wire
          exact absurd (.inl wire) known
        · rename_i wire
          exact absurd (.inr wire) known
        · rfl
      rw [left]
      refine .leaves ?_ le_rfl
      refine Reading.Ends.bind begins ?_
      show Ends _ _ (match tagged.1 &&& 0x7 with | 0 => _ | 2 => _ | _ => _) _
      split
      · rename_i wire
        exact absurd (.inl wire) known
      · rename_i wire
        exact absurd (.inr wire) known
      · exact Reading.Ends.done

/-- **The function ends on all bytes**, with what `Replay` computes. -/
theorem simulates_decodeSignalProto (data : Bytes) :
    Simulates Anywhere (data.length + 1) id id (Running.decodeSignalProto data)
      (decodeSignalProto data) :=
  Reading.Ends.readWhile (fun pos sig _ => follows_field (Nat.lt_succ_self _) pos sig) {} (by omega)
    (Nat.lt_succ_self _)

/-! ### It reads what persist reads -/

variable {error : Persist.ProtoParseError}

theorem varint_of_orRaise (found : Persist.orRaise error (Persist.varint data pos) = .ok read) :
    varint data pos = .ok read := by
  rw [varint, orRaise_eq_ok.mp found]
  rfl

theorem varint_of_lengthDelimited {truncated : Persist.ProtoParseError}
    {overruns : Nat → Persist.ProtoParseError} {payload : Bytes × Nat}
    (read : lengthDelimited data pos truncated overruns = .ok payload) :
    ∃ sized : Nat × Nat, varint data pos = .ok sized ∧
      payload = (slice data sized.2 (sized.2 + sized.1), sized.2 + sized.1) := by
  unfold lengthDelimited at read
  obtain ⟨sized, found, rest⟩ := (bind_eq_ok _ _ _).mp read
  rw [rejectIf_bind_eq_ok] at rest
  exact ⟨sized, varint_of_orRaise found, (Except.ok.inj rest.2).symm⟩

variable {text : Bytes}

theorem text_of_decodeUtf8 (decodes : decodeUtf8 error raw = .ok text) :
    text = raw ∧ decodeReplace raw = raw := by
  unfold decodeUtf8 at decodes
  rw [rejectIf_bind_eq_ok, Bool.not_eq_false] at decodes
  exact ⟨(Except.ok.inj decodes.2).symm, decodeReplace_of_valid decodes.1⟩

theorem decodeParamField_of_parseParamField {next : Nat × ParamDict}
    (taken : parseParamField raw pos param = .ok next) :
    decodeParamField raw pos param = .ok next := by
  unfold parseParamField at taken
  obtain ⟨tagged, found, rest⟩ := (bind_eq_ok _ _ _).mp taken
  rw [rejectIf_bind_eq_ok, not_not] at rest
  obtain ⟨wire, rest⟩ := rest
  obtain ⟨payload, read, rest⟩ := (bind_eq_ok _ _ _).mp rest
  obtain ⟨text, decodes, ended⟩ := (bind_eq_ok _ _ _).mp rest
  obtain ⟨sized, found', cut⟩ := varint_of_lengthDelimited read
  obtain ⟨same, whole⟩ := text_of_decodeUtf8 decodes
  rw [decodeParamField, varint_of_orRaise found]
  show (if tagged.1 &&& 0x7 = 2 then _ else _) = _
  rw [if_pos wire, found', ← Except.ok.inj ended, same]
  rw [cut] at whole ⊢
  show Except.ok (_, param.store _ (decodeReplace _)) = _
  rw [whole]

theorem decodeParam_of_parseParam (parsed : Persist.parseParam raw = .ok param) :
    decodeParam raw = .ok param :=
  readAll_simulates (fun _ _ _ => decodeParamField_of_parseParamField) _ _ _ _ parsed

variable {field : Nat}

theorem storeText_eq_none (unknown : sig.storeText field text = none) (other : Bytes) :
    sig.storeText field other = none := by
  unfold SignalDict.storeText at *
  split at unknown <;> cases unknown
  rfl

theorem storePayload_of_storePayload {sig stored : SignalDict}
    (stores : Persist.storePayload sig field raw = .ok stored) :
    storePayload sig field raw = .ok stored := by
  unfold Persist.storePayload at stores
  unfold storePayload
  cases known : sig.storeText field raw with
  | some next =>
    rw [known] at stores
    obtain ⟨text, decodes, same⟩ := (bind_eq_ok _ _ _).mp stores
    rw [(text_of_decodeUtf8 decodes).2, known, ← Except.ok.inj same]
    rfl
  | none =>
    rw [known] at stores
    rw [storeText_eq_none known (decodeReplace raw)]
    by_cases nested : field = 10
    · rw [if_pos nested] at stores ⊢
      obtain ⟨param, parsed, same⟩ := (bind_eq_ok _ _ _).mp stores
      rw [decodeParam_of_parseParam parsed, ← Except.ok.inj same]
      rfl
    · rw [if_neg nested] at stores ⊢
      rw [← Except.ok.inj stores]
      rfl

theorem decodeField_of_parseField (taken : parseField data pos sig = .ok next) :
    decodeField data pos sig = .ok next := by
  unfold parseField at taken
  obtain ⟨tagged, found, rest⟩ := (bind_eq_ok _ _ _).mp taken
  rw [decodeField, varint_of_orRaise found]
  change (match tagged.1 &&& 0x7 with | 0 => _ | 2 => _ | _ => _) = _ at rest
  show (match tagged.1 &&& 0x7 with | 0 => _ | 2 => _ | _ => _) = _
  generalize tagged.1 &&& 0x7 = wire at rest ⊢
  rcases wire with _ | _ | _ | wire
  · obtain ⟨value, read, ended⟩ := (bind_eq_ok _ _ _).mp rest
    rw [varint_of_orRaise read, ← Except.ok.inj ended]
    rfl
  · cases rest
  · obtain ⟨payload, read, rest⟩ := (bind_eq_ok _ _ _).mp rest
    obtain ⟨stored, stores, ended⟩ := (bind_eq_ok _ _ _).mp rest
    obtain ⟨sized, found', cut⟩ := varint_of_lengthDelimited read
    rw [cut] at stores ended
    rw [found', ← Except.ok.inj ended]
    show (storePayload sig _ _ >>= fun sig => pure (_, sig)) = _
    rw [storePayload_of_storePayload stores]
    rfl
  · cases rest

theorem decodeSignalProto_eq_ok (accepted : parseSignal data = .ok sig) :
    decodeSignalProto data = .ok sig := by
  unfold parseSignal at accepted
  rw [rejectIf_bind_eq_ok] at accepted
  obtain ⟨read, reads, rest⟩ := (bind_eq_ok _ _ _).mp accepted.2
  rw [rejectIf_bind_eq_ok] at rest
  rw [Except.ok.inj rest.2] at reads
  exact readAll_simulates (fun _ _ _ => decodeField_of_parseField) _ _ _ _ reads

/-- **What persist accepts, the portal decodes to the same dictionary.** -/
theorem decodeSignalProto_of_parseSignal {sig : SignalDict} (accepted : parseSignal data = .ok sig) :
    Ends Anywhere (data.length + 1) (Running.decodeSignalProto data) (.ok sig) ∧
      decodeSignalProto data = .ok sig := by
  have decodes := decodeSignalProto_eq_ok accepted
  have ends := simulates_decodeSignalProto data
  rw [decodes] at ends
  exact ⟨ends, decodes⟩

/-- The fixture of the wire-format test is such a payload. -/
theorem decodeSignalProto_canonicalSignal :
    decodeSignalProto Proto.canonicalSignal.encode = .ok (Persist.dictOf Proto.canonicalSignal) :=
  (decodeSignalProto_of_parseSignal (by decide +kernel :
    parseSignal Proto.canonicalSignal.encode = .ok (Persist.dictOf Proto.canonicalSignal))).2

end ExecRelay.Portal
