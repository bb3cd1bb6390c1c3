/-
**The messages that ingress can publish.**

A message on a `signals.` subject is built by `signalProto`, either from a parsed alert or from a
request to the ML route, and it is published only if it can be encoded. Whatever the caller sent, its
command is the name of a command, its parameter keys are words, and its parameter values are not
empty.
-/

import ExecRelay.Bridge.PlainText

namespace ExecRelay.Ingress

open Lib
open ExecRelay.Parser (Command ParamKind parse parse_parts Names paramNames forall_of_names keyText
  valueText paramOf foldl_addParam_params foldl_addParam_leading)
open Bridge (Word isWordByte)

/-- **What ingress can publish.** -/
inductive Publishable (formatFloat : Float64 → Bytes) : Proto.Signal → Prop
  | flat {body : Bytes} {signal : Parser.Signal} (parsed : parse body = .ok signal)
      (record : LicenseRecord) (region traceID : Bytes) (received : Time)
      (encodes : (signalProto signal record region traceID body received).wellFormed = true) :
      Publishable formatFloat (signalProto signal record region traceID body received)
  | ml (req : MLWebhookRequest) (command : Command) (record : LicenseRecord)
      (region traceID body : Bytes) (received : Time)
      (encodes : (signalProto (buildMLSignal formatFloat req command) record region traceID body
        received).wellFormed = true) :
      Publishable formatFloat
        (signalProto (buildMLSignal formatFloat req command) record region traceID body received)

/-! ### Keys and commands -/

theorem isWordByte_of_lowerByte (byte : UInt8) :
    isWordByte (lowerByte byte) = true → isWordByte byte = true :=
  forall_byte byte (by decide +kernel)

theorem word_of_names {key : Bytes} {kind : ParamKind} (named : Names paramNames key kind) :
    Word key := by
  obtain ⟨given, letters⟩ := forall_of_names isWordByte_of_lowerByte (by decide +kernel) named
  exact ⟨given, letters⟩

theorem word_commandString (command : Command) : Word command.string := by
  cases command <;> exact ⟨by decide +kernel, by decide +kernel⟩

/-! ### Parameters -/

theorem mlParams_length (formatFloat : Float64 → Bytes) (req : MLWebhookRequest) :
    (mlParams formatFloat req).length ≤ 4 := by
  have one (kind : ParamKind) (key : String) (value : Float64) :
      (numberParam formatFloat kind key value).length ≤ 1 := by
    unfold numberParam
    split <;> simp
  have volume := one .volLots "vol_lots" req.volume
  have sl := one .sl "sl" req.sl
  have tp := one .tp "tp" req.tp
  unfold mlParams
  simp only [List.length_append]
  split <;> simp only [List.length_nil, List.length_singleton] <;> omega

theorem buildMLSignal_params (formatFloat : Float64 → Bytes) (req : MLWebhookRequest)
    (command : Command) : (buildMLSignal formatFloat req command).params = mlParams formatFloat req := by
  have few := mlParams_length formatFloat req
  unfold buildMLSignal
  rw [foldl_addParam_params _ _ (by
    rw [List.length_nil, Nat.zero_add]
    exact few.trans (by decide)), List.nil_append]

def Sound (key value : Bytes) : Prop :=
  Word key ∧ value ≠ []

theorem sound_mlParams {formatFloat : Float64 → Bytes}
    (formats : ∀ value, formatFloat value ≠ []) (req : MLWebhookRequest) :
    ∀ param ∈ mlParams formatFloat req, Sound param.key param.value := by
  have one (kind : ParamKind) (key : String) (value : Float64) (word : Word (lit key)) :
      ∀ param ∈ numberParam formatFloat kind key value, Sound param.key param.value := by
    intro param member
    unfold numberParam at member
    split at member
    · cases member
    · rw [List.mem_singleton.mp member]
      exact ⟨word, formats value⟩
  unfold mlParams
  simp only [List.forall_mem_append]
  refine ⟨⟨⟨one _ _ _ (by decide), one _ _ _ (by decide)⟩, one _ _ _ (by decide)⟩, ?_⟩
  intro param member
  split at member
  · cases member
  · rename_i given
    have word : Word (lit "comment") := by decide
    rw [List.mem_singleton.mp member]
    exact ⟨word, given⟩

theorem sound_signalParams {signal : Parser.Signal}
    (sound : ∀ param ∈ signal.params, Sound param.key param.value) :
    ∀ param ∈ signalParams signal, Sound param.key param.value := by
  intro param member
  obtain ⟨source, inside, rfl⟩ := List.mem_map.mp member
  exact sound source (List.mem_filter.mp inside).1

namespace Publishable

variable {formatFloat : Float64 → Bytes} {signal : Proto.Signal}

theorem word_command (publishable : Publishable formatFloat signal) : Word signal.command := by
  cases publishable with
  | flat parsed record region traceID received encodes => exact word_commandString _
  | ml req command record region traceID body received encodes => exact word_commandString _

/-- **Every parameter is sound.** -/
theorem sound_params (publishable : Publishable formatFloat signal)
    (formats : ∀ value, formatFloat value ≠ []) :
    ∀ param ∈ signal.params, Sound param.key param.value := by
  cases publishable with
  | flat parsed record region traceID received encodes =>
    apply sound_signalParams
    obtain ⟨_, _, _, further, _, accepted, _, _, _, _, params⟩ := parse_parts parsed
    rw [params]
    intro param member
    obtain ⟨piece, inside, rfl⟩ := List.mem_map.mp member
    have isParam := accepted.isParam piece inside
    obtain ⟨kind, named⟩ := isParam.known
    exact ⟨word_of_names named, isParam.value⟩
  | ml req command record region traceID body received encodes =>
    apply sound_signalParams
    rw [buildMLSignal_params]
    exact sound_mlParams formats req

end Publishable

end ExecRelay.Ingress
