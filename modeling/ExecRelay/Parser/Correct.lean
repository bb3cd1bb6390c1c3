/-
**The parser accepts exactly the alerts.**

The flags of the validation state are what they say of the parameters seen: after a list of kinds
each flag holds if one of the kinds sets it (`foldl_after_flag`), and a parameter is refused exactly
if it is empty, too long a comment, or the second of a kind that comes once (`add_eq_ok`). By
induction over the pieces the parameter loop succeeds exactly on parameters that fit
(`addFields_eq_ok`), and the cross-field checks are the rules (`validateSignal_eq_ok`).

`parse_accepts_iff` puts the three together.
-/

import ExecRelay.Parser.Scanner

namespace ExecRelay.Parser

open Lib

/-! ### The flags -/

namespace ValidationState

def after (state : ValidationState) (kind : ParamKind) : ValidationState :=
  { state with
    hasVolume := state.hasVolume || kind.isVolume
    hasSL := state.hasSL || kind.isSL
    hasTP := state.hasTP || kind.isTP
    hasEntry := state.hasEntry || kind.isEntry }.note kind

theorem foldl_after_flag (flag : ValidationState → Bool) (sets : ParamKind → Bool)
    (step : ∀ state kind, flag (after state kind) = (flag state || sets kind))
    (kinds : List ParamKind) (state : ValidationState) :
    flag (kinds.foldl after state) = (flag state || kinds.any sets) := by
  induction kinds generalizing state with
  | nil => rw [List.foldl_nil, List.any_nil, Bool.or_false]
  | cons kind rest ih => rw [List.foldl_cons, ih, step, List.any_cons, Bool.or_assoc]

theorem after_hasVolume (state : ValidationState) (kind : ParamKind) :
    (state.after kind).hasVolume = (state.hasVolume || kind.isVolume) := by
  cases kind <;> rfl

theorem after_hasSL (state : ValidationState) (kind : ParamKind) :
    (state.after kind).hasSL = (state.hasSL || kind.isSL) := by
  cases kind <;> rfl

theorem after_hasTP (state : ValidationState) (kind : ParamKind) :
    (state.after kind).hasTP = (state.hasTP || kind.isTP) := by
  cases kind <;> rfl

theorem after_hasEntry (state : ValidationState) (kind : ParamKind) :
    (state.after kind).hasEntry = (state.hasEntry || kind.isEntry) := by
  cases kind <;> rfl

theorem after_hasRisk (state : ValidationState) (kind : ParamKind) :
    (state.after kind).hasRisk = (state.hasRisk || kind == .risk) := by
  cases kind <;> simp [after, note]

theorem after_hasLossRisk (state : ValidationState) (kind : ParamKind) :
    (state.after kind).hasLossRisk = (state.hasLossRisk || kind.isLossRisk) := by
  cases kind <;> simp [after, note, ParamKind.isLossRisk]

theorem after_hasATR (state : ValidationState) (kind : ParamKind) :
    (state.after kind).hasATR = (state.hasATR || kind.isATR) := by
  cases kind <;> simp [after, note, ParamKind.isATR]

theorem after_hasATRPeriod (state : ValidationState) (kind : ParamKind) :
    (state.after kind).hasATRPeriod = (state.hasATRPeriod || kind == .atrPeriod) := by
  cases kind <;> simp [after, note]

theorem after_hasATRFrame (state : ValidationState) (kind : ParamKind) :
    (state.after kind).hasATRFrame = (state.hasATRFrame || kind == .atrTimeframe) := by
  cases kind <;> simp [after, note]

/-! ### One parameter -/

theorem once_bind_eq_ok {Result : Type} (isKind seen : Bool) (error : ParseError)
    (next : Bool → Except ParseError Result) (result : Result) :
    (once isKind seen error >>= next) = .ok result ↔
      ¬ (isKind ∧ seen) ∧ next (seen || isKind) = .ok result := by
  rw [bind_eq_ok]
  unfold once
  cases isKind <;> cases seen <;> simp [pure, Except.pure, throw, throwThe, MonadExceptOf.throw]

/-- A parameter of this kind and value may follow what the state has seen. -/
structure Admits (state : ValidationState) (kind : ParamKind) (value : Bytes) : Prop where
  given : value ≠ []
  volume : ¬ (kind.isVolume ∧ state.hasVolume)
  sl : ¬ (kind.isSL ∧ state.hasSL)
  tp : ¬ (kind.isTP ∧ state.hasTP)
  entry : ¬ (kind.isEntry ∧ state.hasEntry)
  comment : kind = .comment → value.length ≤ maxComment

/-- **One parameter** is refused exactly if it does not fit, and otherwise sets its flags. -/
theorem add_eq_ok (state : ValidationState) (kind : ParamKind) (value : Bytes)
    (next : ValidationState) :
    state.add kind value = .ok next ↔ Admits state kind value ∧ next = state.after kind := by
  unfold add
  simp only [rejectIf_bind_eq_ok, once_bind_eq_ok, not_and, not_lt]
  constructor
  · rintro ⟨given, volume, sl, tp, entry, comment, same⟩
    refine ⟨⟨given, ?_, ?_, ?_, ?_, comment⟩, ?_⟩
    · exact fun both => volume both.1 both.2
    · exact fun both => sl both.1 both.2
    · exact fun both => tp both.1 both.2
    · exact fun both => entry both.1 both.2
    · cases same
      rfl
  · rintro ⟨admits, rfl⟩
    exact ⟨admits.given, fun kind seen => admits.volume ⟨kind, seen⟩,
      fun kind seen => admits.sl ⟨kind, seen⟩, fun kind seen => admits.tp ⟨kind, seen⟩,
      fun kind seen => admits.entry ⟨kind, seen⟩, admits.comment, rfl⟩

/-! ### A list of parameters -/

/-- At most one kind that passes the test, counting the one the flag stands for. -/
def AtMostOne (seen : Bool) (test : ParamKind → Bool) (params : List Param) : Prop :=
  seen.toNat + params.countP (fun param => test param.kind) ≤ 1

theorem atMostOne_cons (seen : Bool) (test : ParamKind → Bool) (param : Param)
    (rest : List Param) :
    AtMostOne seen test (param :: rest) ↔
      ¬ (test param.kind ∧ seen) ∧ AtMostOne (seen || test param.kind) test rest := by
  unfold AtMostOne
  rw [List.countP_cons]
  cases seen <;> cases tested : test param.kind <;>
    simp only [Bool.toNat_false, Bool.toNat_true, Bool.or_false, Bool.or_true, Bool.false_eq_true,
      if_false, if_true, and_false, and_true, not_false_eq_true, not_true_eq_false, true_and,
      false_and, iff_false] <;>
    omega

/-- Parameters that may follow, in this order, what the state has seen. -/
structure AdmitsAll (state : ValidationState) (params : List Param) : Prop where
  given : ∀ param ∈ params, param.value ≠ []
  volume : AtMostOne state.hasVolume ParamKind.isVolume params
  sl : AtMostOne state.hasSL ParamKind.isSL params
  tp : AtMostOne state.hasTP ParamKind.isTP params
  entry : AtMostOne state.hasEntry ParamKind.isEntry params
  comment : ∀ param ∈ params, param.kind = .comment → param.value.length ≤ maxComment

theorem admitsAll_cons (state : ValidationState) (param : Param) (rest : List Param) :
    AdmitsAll state (param :: rest) ↔
      Admits state param.kind param.value ∧ AdmitsAll (state.after param.kind) rest := by
  constructor
  · rintro ⟨given, volume, sl, tp, entry, comment⟩
    rw [atMostOne_cons] at volume sl tp entry
    rw [List.forall_mem_cons] at given comment
    refine ⟨⟨given.1, volume.1, sl.1, tp.1, entry.1, comment.1⟩, ⟨given.2, ?_, ?_, ?_, ?_, comment.2⟩⟩
    · rw [after_hasVolume]; exact volume.2
    · rw [after_hasSL]; exact sl.2
    · rw [after_hasTP]; exact tp.2
    · rw [after_hasEntry]; exact entry.2
  · rintro ⟨first, others⟩
    refine ⟨?_, ?_, ?_, ?_, ?_, ?_⟩
    · exact List.forall_mem_cons.mpr ⟨first.given, others.given⟩
    · rw [atMostOne_cons, ← after_hasVolume]; exact ⟨first.volume, others.volume⟩
    · rw [atMostOne_cons, ← after_hasSL]; exact ⟨first.sl, others.sl⟩
    · rw [atMostOne_cons, ← after_hasTP]; exact ⟨first.tp, others.tp⟩
    · rw [atMostOne_cons, ← after_hasEntry]; exact ⟨first.entry, others.entry⟩
    · exact List.forall_mem_cons.mpr ⟨first.comment, others.comment⟩

theorem admitsAll_nil (state : ValidationState) : AdmitsAll state [] := by
  refine ⟨by simp, ?_, ?_, ?_, ?_, by simp⟩ <;>
    exact (Nat.add_le_add_left (Nat.le_of_eq List.countP_nil) _).trans (Bool.toNat_le _)

end ValidationState

open ValidationState

/-! ### The parameter loop -/

section Loop

variable {signal : Signal} {param : Param}

theorem addParam_params (free : signal.params.length < maxParams) :
    (signal.addParam param).params = signal.params ++ [param] := by
  rw [Signal.addParam, dif_pos free]

theorem addParam_leading (signal : Signal) (param : Param) :
    (signal.addParam param).licenseID = signal.licenseID ∧
      (signal.addParam param).command = signal.command ∧
      (signal.addParam param).rawCommand = signal.rawCommand ∧
      (signal.addParam param).symbol = signal.symbol := by
  unfold Signal.addParam
  split <;> exact ⟨rfl, rfl, rfl, rfl⟩

theorem foldl_addParam_leading (params : List Param) (signal : Signal) :
    (params.foldl Signal.addParam signal).licenseID = signal.licenseID ∧
      (params.foldl Signal.addParam signal).command = signal.command ∧
      (params.foldl Signal.addParam signal).rawCommand = signal.rawCommand ∧
      (params.foldl Signal.addParam signal).symbol = signal.symbol := by
  induction params generalizing signal with
  | nil => exact ⟨rfl, rfl, rfl, rfl⟩
  | cons param rest ih =>
    obtain ⟨license, command, rawCommand, symbol⟩ := ih (signal.addParam param)
    obtain ⟨license', command', rawCommand', symbol'⟩ := addParam_leading signal param
    exact ⟨license.trans license', command.trans command', rawCommand.trans rawCommand',
      symbol.trans symbol'⟩

theorem foldl_addParam_params (params : List Param) (signal : Signal)
    (room : signal.params.length + params.length ≤ maxParams) :
    (params.foldl Signal.addParam signal).params = signal.params ++ params := by
  induction params generalizing signal with
  | nil => rw [List.foldl_nil, List.append_nil]
  | cons param rest ih =>
    rw [List.length_cons] at room
    have filled : (signal.addParam param).params = signal.params ++ [param] :=
      addParam_params (by omega)
    rw [List.foldl_cons, ih _ (by rw [filled, List.length_append, List.length_singleton]; omega),
      filled, List.append_assoc, List.singleton_append]

/-- **One turn of the loop** succeeds exactly on a parameter that fits. -/
theorem addField_eq_ok (signal : Signal) (state : ValidationState) (raw : Bytes)
    (pair : Signal × ValidationState) :
    addField signal state raw = .ok pair ↔
      IsParam raw ∧ signal.params.length < maxParams ∧ Admits state (kindOf raw) (valueText raw) ∧
        pair = (signal.addParam (paramOf raw), state.after (kindOf raw)) := by
  have bounded := signal.bounded
  unfold addField
  rw [splitParam_eq]
  by_cases present : equals ∈ raw
  · have nonempty : raw ≠ [] := List.ne_nil_of_mem present
    simp only [rejectIf_bind_eq_ok, if_pos present, Bool.and_eq_true, bne_iff_ne, not_not]
    simp only [bind_eq_ok, add_eq_ok]
    constructor
    · rintro ⟨_, notFull, ⟨key, value⟩, known, _, ⟨admits, rfl⟩, same⟩
      refine ⟨⟨present, key, value, (paramKindFromKey_ne_unknown _).mp known⟩, by omega, admits, ?_⟩
      cases same
      rfl
    · rintro ⟨isParam, free, admits, rfl⟩
      exact ⟨nonempty, by omega, ⟨isParam.key, isParam.value⟩,
        (paramKindFromKey_ne_unknown _).mpr isParam.known, _, ⟨admits, rfl⟩, rfl⟩
  · simp only [rejectIf_bind_eq_ok, if_neg present, Bool.false_eq_true, not_false_eq_true,
      not_true_eq_false, false_and, and_false, false_iff]
    exact fun both => present both.1.hasEquals

/-- **The whole loop** succeeds exactly on parameters that fit one after the other. -/
theorem addFields_eq_ok (fields : List Bytes) (signal : Signal) (state : ValidationState)
    (pair : Signal × ValidationState) :
    fields.foldlM (fun pair raw => addField pair.1 pair.2 raw) (signal, state) = .ok pair ↔
      (∀ raw ∈ fields, IsParam raw) ∧ signal.params.length + fields.length ≤ maxParams ∧
        AdmitsAll state (fields.map paramOf) ∧
        pair = ((fields.map paramOf).foldl Signal.addParam signal,
          (fields.map kindOf).foldl after state) := by
  induction fields generalizing signal state with
  | nil =>
    simp only [List.foldlM_nil, List.not_mem_nil, false_implies, implies_true, List.length_nil,
      Nat.add_zero, List.map_nil, List.foldl_nil, signal.bounded, admitsAll_nil, true_and]
    constructor
    · intro same
      cases same
      rfl
    · rintro rfl
      rfl
  | cons raw rest ih =>
    rw [foldlM_cons_eq_ok]
    simp only [addField_eq_ok, List.map_cons, List.foldl_cons, List.forall_mem_cons,
      List.length_cons, admitsAll_cons]
    constructor
    · rintro ⟨next, ⟨isParam, free, admits, rfl⟩, others⟩
      rw [ih] at others
      rw [addParam_params free, List.length_append, List.length_singleton] at others
      obtain ⟨areParams, room, admitsRest, same⟩ := others
      exact ⟨⟨isParam, areParams⟩, by omega, ⟨admits, admitsRest⟩, same⟩
    · rintro ⟨⟨isParam, areParams⟩, room, ⟨admits, admitsRest⟩, same⟩
      have free : signal.params.length < maxParams := by omega
      refine ⟨_, ⟨isParam, free, admits, rfl⟩, ?_⟩
      rw [ih, addParam_params free, List.length_append,
        List.length_singleton]
      exact ⟨areParams, by omega, admitsRest, same⟩

end Loop

/-! ### The cross-field checks -/

theorem validateSymbol_eq_ok (signal : Signal) (given : signal.symbol ≠ []) :
    validateSymbol signal = .ok () ↔
      (signal.command = .eaOff → lowerASCII signal.symbol = lit "eaoff") ∧
        (signal.command = .eaOn → lowerASCII signal.symbol = lit "eaon") := by
  unfold validateSymbol
  cases signal.command <;>
    simp [given, eqFoldASCII_iff, pure, Except.pure]

theorem validatePartialVolume_eq_ok (signal : Signal) (state : ValidationState) :
    validatePartialVolume signal state = .ok () ↔
      (signal.command = .closeLongVol ∨ signal.command = .closeShortVol → state.hasRisk) := by
  unfold validatePartialVolume
  cases signal.command <;> simp [pure, Except.pure]

/-- **The cross-field checks are the rules**, on the state the parameters have left. -/
theorem validateSignal_eq_ok (signal : Signal) (kinds : List ParamKind)
    (given : signal.symbol ≠ []) :
    validateSignal signal (kinds.foldl after {}) = .ok () ↔
      CrossFieldRules signal.command signal.symbol kinds := by
  have mem_any (kind : ParamKind) : kinds.any (· == kind) = true ↔ kind ∈ kinds := by
    simp only [List.any_eq_true, beq_iff_eq, exists_eq_right]
  unfold validateSignal
  rw [bind_eq_ok]
  simp only [rejectIf_bind_eq_ok, validatePartialVolume_eq_ok,
    foldl_after_flag _ _ after_hasVolume, foldl_after_flag _ _ after_hasSL,
    foldl_after_flag _ _ after_hasTP, foldl_after_flag _ _ after_hasEntry,
    foldl_after_flag _ _ after_hasRisk, foldl_after_flag _ _ after_hasLossRisk,
    foldl_after_flag _ _ after_hasATR, foldl_after_flag _ _ after_hasATRPeriod,
    foldl_after_flag _ _ after_hasATRFrame, Bool.false_or, mem_any]
  constructor
  · rintro ⟨_, symbol, volume, entry, lossRisk, atr, modify, partialVolume⟩
    rw [validateSymbol_eq_ok signal given] at symbol
    refine ⟨symbol.1, symbol.2, ?_, ?_, ?_, ?_, ?_, partialVolume⟩ <;>
      simp only [← List.any_eq_true]
    · intro opens
      by_contra neither
      exact volume ⟨opens, fun given => neither (Or.inl given), fun given => neither (Or.inr given)⟩
    · intro pending
      by_contra missing
      exact entry ⟨pending, missing⟩
    · intro loss
      by_contra missing
      exact lossRisk ⟨loss, missing⟩
    · intro trailing
      by_contra incomplete
      exact atr ⟨trailing, not_and_or.mp incomplete⟩
    · intro modifies
      by_contra neither
      exact modify ⟨modifies, fun given => neither (Or.inl given),
        fun given => neither (Or.inr given)⟩
  · intro rules
    have volume := rules.opensNeedVolume
    have entry := rules.pendingNeedsEntry
    have lossRisk := rules.lossRiskNeedsSL
    have atr := rules.atrComplete
    have modify := rules.modifyNeedsLevel
    simp only [← List.any_eq_true] at volume entry lossRisk atr modify
    refine ⟨(), (validateSymbol_eq_ok signal given).mpr ⟨rules.eaOffSymbol, rules.eaOnSymbol⟩, ?_, ?_,
      ?_, ?_, ?_, rules.partialVolumeNeedsRisk⟩
    · rintro ⟨opens, noVolume, noRisk⟩
      exact (volume opens).elim noVolume noRisk
    · rintro ⟨pending, missing⟩
      exact missing (entry pending)
    · rintro ⟨loss, missing⟩
      exact missing (lossRisk loss)
    · rintro ⟨trailing, incomplete⟩
      exact incomplete.elim (fun missing => missing (atr trailing).1)
        fun missing => missing (atr trailing).2
    · rintro ⟨modifies, noSL, noTP⟩
      exact (modify modifies).elim noSL noTP

/-! ### The parser -/

theorem pieces_of_blank {input : Bytes} (blank : trimASCII input = []) : pieces input = [[]] := by
  rw [trimASCII_eq] at blank
  rw [pieces, blank, List.splitOn_nil]
  rfl

theorem parseTail_eq_ok {license command symbol : Bytes} {further : List Bytes}
    (licenseGiven : license ≠ []) (commandGiven : command ≠ []) (symbolGiven : symbol ≠ [])
    (known : commandFrom command ≠ .invalid) :
    (∃ pair, further.foldlM (fun pair raw => addField pair.1 pair.2 raw)
        (({ licenseID := license, command := commandFrom command, rawCommand := command, symbol } :
          Signal), ({} : ValidationState)) = .ok pair ∧
      validateSignal pair.1 pair.2 = .ok ()) ↔ Accepted license command symbol further := by
  have leading := foldl_addParam_leading (further.map paramOf)
    { licenseID := license, command := commandFrom command, rawCommand := command, symbol }
  obtain ⟨_, commandKept, _, symbolKept⟩ := leading
  have rules := validateSignal_eq_ok ((further.map paramOf).foldl Signal.addParam
    { licenseID := license, command := commandFrom command, rawCommand := command, symbol })
    (further.map kindOf) (by rw [symbolKept]; exact symbolGiven)
  rw [commandKept, symbolKept] at rules
  have one (test : ParamKind → Bool) : AtMostOne false test (further.map paramOf) ↔
      further.countP (fun piece => test (kindOf piece)) ≤ 1 := by
    unfold AtMostOne
    rw [Bool.toNat_false, Nat.zero_add, List.countP_map]
    rfl
  simp only [addFields_eq_ok, List.length_nil, Nat.zero_add]
  constructor
  · rintro ⟨_, ⟨areParams, room, admits, rfl⟩, valid⟩
    exact ⟨licenseGiven, commandGiven, symbolGiven, (commandFrom_ne_invalid _).mp known, areParams,
      room, (one _).mp admits.volume, (one _).mp admits.sl, (one _).mp admits.tp,
      (one _).mp admits.entry,
      fun piece member => admits.comment (paramOf piece) (List.mem_map_of_mem member),
      rules.mp valid⟩
  · intro accepted
    refine ⟨_, ⟨accepted.isParam, accepted.atMost, ⟨?_, (one _).mpr accepted.oneVolume,
      (one _).mpr accepted.oneSL, (one _).mpr accepted.oneTP, (one _).mpr accepted.oneEntry, ?_⟩,
      rfl⟩, rules.mpr accepted.rules⟩
    · intro param member
      obtain ⟨piece, inside, rfl⟩ := List.mem_map.mp member
      exact (accepted.isParam piece inside).value
    · intro param member
      obtain ⟨piece, inside, rfl⟩ := List.mem_map.mp member
      exact accepted.shortComment piece inside

/-- **The parser by the pieces**: it succeeds exactly on an accepted alert, with the signal the
pieces write. -/
theorem parse_eq_ok (input : Bytes) (signal : Signal) :
    parse input = .ok signal ↔
      ∃ license command symbol further, pieces input = license :: command :: symbol :: further ∧
        Accepted license command symbol further ∧
        signal = (further.map paramOf).foldl Signal.addParam
          { licenseID := license, command := commandFrom command, rawCommand := command, symbol } := by
  unfold parse
  simp only [rejectIf_bind_eq_ok, requiredField_bind_eq_ok]
  simp only [bind_eq_ok]
  rw [← remaining_zero input]
  constructor
  · rintro ⟨_, license, first, foundLicense, licenseGiven, command, second, foundCommand,
      commandGiven, known, symbol, third, foundSymbol, symbolGiven, pair, looped, _, valid, same⟩
    rw [parseParams_eq _ _ _ _ _ (by omega)] at looped
    refine ⟨license, command, symbol, remaining (trimASCII input) third, ?_, ?_, ?_⟩
    · rw [remaining_of_nextField foundLicense, remaining_of_nextField foundCommand,
        remaining_of_nextField foundSymbol]
    · exact (parseTail_eq_ok licenseGiven commandGiven symbolGiven known).mp ⟨pair, looped, valid⟩
    · rw [addFields_eq_ok] at looped
      obtain ⟨_, _, _, rfl⟩ := looped
      cases same
      rfl
  · rintro ⟨license, command, symbol, further, split, accepted, rfl⟩
    obtain ⟨first, foundLicense, splitFirst⟩ := nextField_of_remaining split
    obtain ⟨second, foundCommand, splitSecond⟩ := nextField_of_remaining splitFirst
    obtain ⟨third, foundSymbol, splitThird⟩ := nextField_of_remaining splitSecond
    have known := (commandFrom_ne_invalid command).mpr accepted.commandKnown
    obtain ⟨pair, looped, valid⟩ := (parseTail_eq_ok accepted.licenseGiven accepted.commandGiven
      accepted.symbolGiven known).mpr accepted
    refine ⟨?_, license, first, foundLicense, accepted.licenseGiven, command, second, foundCommand,
      accepted.commandGiven, known, symbol, third, foundSymbol, accepted.symbolGiven, pair, ?_, (),
      valid, ?_⟩
    · intro blank
      rw [remaining_zero, pieces_of_blank blank] at split
      cases split
    · rw [parseParams_eq _ _ _ _ _ (by omega), splitThird]
      exact looped
    · rw [addFields_eq_ok] at looped
      obtain ⟨_, _, _, rfl⟩ := looped
      rfl

theorem parse_parts {input : Bytes} {signal : Signal} (parsed : parse input = .ok signal) :
    ∃ license command symbol further, pieces input = license :: command :: symbol :: further ∧
      Accepted license command symbol further ∧ signal.licenseID = license ∧
      signal.command = commandFrom command ∧ signal.rawCommand = command ∧
      signal.symbol = symbol ∧ signal.params = further.map paramOf := by
  obtain ⟨license, command, symbol, further, split, accepted, rfl⟩ :=
    (parse_eq_ok input signal).mp parsed
  obtain ⟨licenseKept, commandKept, rawKept, symbolKept⟩ :=
    foldl_addParam_leading (further.map paramOf)
      { licenseID := license, command := commandFrom command, rawCommand := command, symbol }
  have params := foldl_addParam_params (further.map paramOf)
    { licenseID := license, command := commandFrom command, rawCommand := command, symbol }
    (by
      rw [List.length_map, List.length_nil, Nat.zero_add]
      exact accepted.atMost)
  exact ⟨license, command, symbol, further, split, accepted, licenseKept, commandKept, rawKept,
    symbolKept, params⟩

/-- **The parser accepts exactly the alerts.** For every byte string, `parse` returns no error if
and only if the trimmed pieces of the string are an accepted alert, and the signal it then returns
holds exactly those pieces. -/
theorem parse_accepts_iff (input : Bytes) :
    ((∃ signal, parse input = .ok signal) ↔ AcceptedPieces (pieces input)) ∧
      ∀ signal, parse input = .ok signal → Holds signal (pieces input) := by
  constructor
  · constructor
    · rintro ⟨signal, parsed⟩
      obtain ⟨license, command, symbol, further, split, accepted, _⟩ :=
        (parse_eq_ok input signal).mp parsed
      rw [split]
      exact accepted
    · intro accepted
      unfold AcceptedPieces at accepted
      split at accepted
      · rename_i license command symbol further split
        exact ⟨_, (parse_eq_ok input _).mpr ⟨license, command, symbol, further, split, accepted, rfl⟩⟩
      · exact accepted.elim
  · intro signal parsed
    obtain ⟨license, command, symbol, further, split, accepted, licenseKept, commandKept, rawKept,
      symbolKept, params⟩ := parse_parts parsed
    rw [split]
    refine ⟨licenseKept, rawKept, symbolKept, ?_, ?_, ?_, ?_⟩
    · obtain ⟨entry, named⟩ := accepted.commandKnown
      rw [commandKept, commandFrom_of_names named]
      exact named
    · rw [params, List.map_map]
      rfl
    · rw [params, List.map_map]
      rfl
    · intro param member
      rw [params] at member
      obtain ⟨piece, inside, rfl⟩ := List.mem_map.mp member
      obtain ⟨kind, named⟩ := (accepted.isParam piece inside).known
      show Names paramNames (keyText piece) (kindOf piece)
      rw [kindOf, paramKindFromKey_of_names named]
      exact named

end ExecRelay.Parser
