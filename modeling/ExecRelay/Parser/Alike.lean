/-
**Two alerts that differ in their secrets.**

The parser looks at the kinds of the parameters, at their number and at the length of a comment, and never
at the text of a secret. `parsePieces` is the parser over the list of pieces, with its errors
(`parse_eq_parsePieces`), so that two alerts can be compared piece by piece.
-/

import ExecRelay.Parser.Write

namespace ExecRelay.Parser

open Lib

theorem pieces_eq (input : Bytes) : pieces input = (input.splitOn comma).map (trim isASCIISpace) :=
  map_trim_splitOn (by decide) input

/-! ### Key and value of a piece -/

section Piece

variable {key value : Bytes} (plain : equals ∉ key)

include plain

theorem keyText_trim : keyText (trim isASCIISpace (key ++ equals :: value)) = trim isASCIISpace key := by
  have absent : equals ∉ key.dropWhile isASCIISpace :=
    fun member => plain ((List.dropWhile_suffix _).subset member)
  have stops : (key.dropWhile isASCIISpace ++ equals :: value.rdropWhile isASCIISpace).takeWhile
      (· != equals) = key.dropWhile isASCIISpace := by
    rw [List.takeWhile_append_of_pos, List.takeWhile_cons_of_neg (by simp), List.append_nil]
    exact fun byte member => bne_iff_ne.mpr fun same => absent (same ▸ member)
  rw [trim_append_cons (by decide), keyText, stops, trim_dropWhile]

theorem valueText_trim :
    valueText (trim isASCIISpace (key ++ equals :: value)) = trim isASCIISpace value := by
  have absent : equals ∉ key.dropWhile isASCIISpace :=
    fun member => plain ((List.dropWhile_suffix _).subset member)
  have stops : (key.dropWhile isASCIISpace ++ equals :: value.rdropWhile isASCIISpace).dropWhile
      (· != equals) = equals :: value.rdropWhile isASCIISpace := by
    rw [List.dropWhile_append_of_pos, List.dropWhile_cons_of_neg (by simp)]
    exact fun byte member => bne_iff_ne.mpr fun same => absent (same ▸ member)
  rw [trim_append_cons (by decide), valueText, stops, List.tail_cons, trim_rdropWhile]

theorem isParam_trim (named : ∃ kind, Names paramNames (trim isASCIISpace key) kind)
    (given : trim isASCIISpace value ≠ []) : IsParam (trim isASCIISpace (key ++ equals :: value)) := by
  obtain ⟨kind, isName⟩ := named
  refine ⟨?_, ?_, ?_, kind, ?_⟩
  · rw [trim_append_cons (by decide)]
    simp
  · rw [keyText_trim plain]
    exact (name_of_paramNames isName).given
  · rw [valueText_trim plain]
    exact given
  · rw [keyText_trim plain]
    exact isName

end Piece

/-! ### The parser over the pieces -/

def requiredPiece (name : Bytes) : List Bytes → Except ParseError (Bytes × List Bytes)
  | [] => throw { code := .missingField, field := name }
  | field :: rest => do
      rejectIf (field = []) { code := .missingField, field := name }
      return (field, rest)

/-- **The parser over the pieces.** -/
def parsePieces (all : List Bytes) : Except ParseError Signal := do
  rejectIf (all = [[]]) { code := .emptyInput }
  let (licenseID, rest) ← requiredPiece (lit "license_id") all
  let (rawCommand, rest) ← requiredPiece (lit "command") rest
  let command := commandFrom rawCommand
  rejectIf (command = .invalid) { code := .unknownCommand, field := rawCommand }
  let (symbol, rest) ← requiredPiece (lit "symbol") rest
  let (signal, state) ← rest.foldlM (fun pair raw => addField pair.1 pair.2 raw)
    (({ licenseID, command, rawCommand, symbol } : Signal), ({} : ValidationState))
  validateSignal signal state
  return signal

variable {input : Bytes}

theorem requiredField_bind {Result : Type} {pos : Nat} {name : Bytes}
    {resume : Bytes × Nat → Except ParseError Result}
    {next : Bytes × List Bytes → Except ParseError Result}
    (same : ∀ field pos, resume (field, pos) = next (field, remaining input pos)) :
    (requiredField input pos name >>= resume) = (requiredPiece name (remaining input pos) >>= next) := by
  rcases nextField_eq input pos with ⟨nothing, empty, -⟩ | ⟨field, later, found, split, -⟩
  · rw [requiredField, nothing, empty]
    rfl
  · rw [requiredField, found, split, requiredPiece]
    by_cases missing : field = []
    · simp only [rejectIf, if_pos missing]
      rfl
    · simp only [rejectIf, if_neg missing]
      exact same field later

theorem pieces_eq_blank_iff : pieces input = [[]] ↔ trimASCII input = [] := by
  refine ⟨fun blank => ?_, pieces_of_blank⟩
  obtain ⟨whole, single, empty⟩ := List.map_eq_singleton_iff.mp blank
  have same : [comma].intercalate ((trim isASCIISpace input).splitOn comma) = trim isASCIISpace input :=
    List.intercalate_splitOn comma
  rw [single, List.intercalate_singleton] at same
  rw [trimASCII_eq, ← trim_trim, ← same, empty]

/-- **The scanner is the parser over the pieces.** -/
theorem parse_eq_parsePieces (input : Bytes) : parse input = parsePieces (pieces input) := by
  unfold parse parsePieces
  simp only [pieces_eq_blank_iff]
  rw [← remaining_zero]
  congr 1
  funext _
  refine requiredField_bind fun license pos => ?_
  refine requiredField_bind fun rawCommand pos => ?_
  congr 1
  funext _
  refine requiredField_bind fun symbol pos => ?_
  rw [parseParams_eq _ _ _ _ _ (by omega)]

/-! ### One parameter -/

/-- The parameter of a field, and the state behind it. Of the signal only the number of its parameters
matters. -/
def checkField (count : Nat) (state : ValidationState) (raw : Bytes) :
    Except ParseError (Param × ValidationState) := do
  rejectIf (raw = []) { code := .malformedParam }
  rejectIf (count = maxParams) { code := .tooManyParams }
  let (key, value, valid) := splitParam raw
  rejectIf (¬ valid) { code := .malformedParam, field := raw }
  let kind := paramKindFromKey key
  rejectIf (kind = .unknown) { code := .unknownParam, field := key }
  let state ← state.add kind value
  return ({ kind, key, value }, state)

theorem addField_eq (signal : Signal) (state : ValidationState) (raw : Bytes) :
    addField signal state raw = do
      let (param, state) ← checkField signal.params.length state raw
      return (signal.addParam param, state) := by
  unfold addField checkField
  simp only [bind_assoc, pure_bind]

/-- **Two parameters**: the same, or two secrets with one key. -/
def SameParam (left right : Param) : Prop :=
  left = right ∨ left.kind = .secret ∧ right.kind = .secret ∧ left.key = right.key

/-- **Two pieces**: the same, or two secret parameters with one key. -/
def SamePiece (left right : Bytes) : Prop :=
  left = right ∨ IsParam left ∧ IsParam right ∧ kindOf left = .secret ∧ keyText left = keyText right

theorem add_secret (state : ValidationState) {value : Bytes} (given : value ≠ []) :
    state.add .secret value = .ok (state.after .secret) := by
  have other {flag : Bool} : ¬(false = true ∧ flag = true) := fun both => Bool.false_ne_true both.1
  exact (ValidationState.add_eq_ok ..).mpr ⟨⟨given, other, other, other, other, nofun⟩, rfl⟩

variable {state : ValidationState} {count : Nat}

theorem checkField_secret {raw : Bytes} (isParam : IsParam raw) (secret : kindOf raw = .secret) :
    checkField count state raw = do
      rejectIf (count = maxParams) { code := .tooManyParams }
      return (paramOf raw, state.after .secret) := by
  have given : raw ≠ [] := List.ne_nil_of_mem isParam.hasEquals
  have known : paramKindFromKey (keyText raw) = .secret := secret
  have valid : (keyText raw != [] && valueText raw != []) = true := by
    simp [isParam.key, isParam.value]
  unfold checkField
  rw [splitParam_eq, if_pos isParam.hasEquals, rejectIf_of_not given, pure_bind]
  congr 1
  funext _
  dsimp only
  rw [rejectIf_of_not (not_not_intro valid), pure_bind, known, rejectIf_of_not nofun, pure_bind,
    add_secret state isParam.value, paramOf, secret]
  rfl

variable {left right : Bytes}

theorem checkField_alike (same : SamePiece left right) :
    Alike (fun pair other => SameParam pair.1 other.1 ∧ pair.2 = other.2)
      (checkField count state left) (checkField count state right) := by
  rcases same with rfl | ⟨isLeft, isRight, secret, sameKey⟩
  · exact alike_refl (fun pair => ⟨.inl rfl, rfl⟩) _
  · have secretRight : kindOf right = .secret := by rw [kindOf, ← sameKey, ← kindOf, secret]
    rw [checkField_secret isLeft secret, checkField_secret isRight secretRight]
    refine Alike.bind (alike_refl (fun _ => trivial) _) fun _ _ (_ : True) => ?_
    exact ⟨.inr ⟨secret, secretRight, sameKey⟩, rfl⟩

/-! ### Two signals -/

/-- **Two signals** that differ in the values of their secrets at most. -/
structure SameSignal (left right : Signal) : Prop where
  licenseID : left.licenseID = right.licenseID
  command : left.command = right.command
  rawCommand : left.rawCommand = right.rawCommand
  symbol : left.symbol = right.symbol
  params : List.Forall₂ SameParam left.params right.params

theorem SameSignal.refl (signal : Signal) : SameSignal signal signal :=
  ⟨rfl, rfl, rfl, rfl, List.forall₂_same.mpr fun _ _ => .inl rfl⟩

theorem SameSignal.addParam {left right : Signal} (same : SameSignal left right) {param other : Param}
    (alike : SameParam param other) : SameSignal (left.addParam param) (right.addParam other) := by
  have count := same.params.length_eq
  unfold Signal.addParam
  by_cases free : left.params.length < maxParams
  · rw [dif_pos free, dif_pos (count ▸ free)]
    exact ⟨same.licenseID, same.command, same.rawCommand, same.symbol,
      List.rel_append same.params (.cons alike .nil)⟩
  · rw [dif_neg free, dif_neg (count ▸ free)]
    exact same

theorem addField_alike {left right : Signal} {piece other : Bytes} (signals : SameSignal left right)
    (pieces : SamePiece piece other) :
    Alike (fun pair other => SameSignal pair.1 other.1 ∧ pair.2 = other.2)
      (addField left state piece) (addField right state other) := by
  rw [addField_eq, addField_eq, signals.params.length_eq]
  exact (checkField_alike pieces).bind fun pair other params =>
    ⟨signals.addParam params.1, params.2⟩

/-- **The parameter loop.** -/
theorem addFields_alike {further others : List Bytes} (each : List.Forall₂ SamePiece further others)
    (signal : Signal) (state : ValidationState) :
    Alike (fun pair other => SameSignal pair.1 other.1 ∧ pair.2 = other.2)
      (further.foldlM (fun pair raw => addField pair.1 pair.2 raw) (signal, state))
      (others.foldlM (fun pair raw => addField pair.1 pair.2 raw) (signal, state)) := by
  refine Alike.foldlM ?_ each ⟨SameSignal.refl _, rfl⟩
  rintro ⟨left, state⟩ ⟨right, _⟩ piece other ⟨signals, rfl⟩ pieces
  exact addField_alike signals pieces

theorem validateSignal_congr {left right : Signal} (same : SameSignal left right)
    (state : ValidationState) : validateSignal left state = validateSignal right state := by
  unfold validateSignal validateSymbol validatePartialVolume
  simp only [same.command, same.symbol]

/-- Two lists of pieces that differ in the values of secrets behind the symbol at most. -/
structure SamePieces (left right : List Bytes) : Prop where
  leading : left.take 3 = right.take 3
  further : List.Forall₂ SamePiece (left.drop 3) (right.drop 3)

theorem SamePieces.cases {left right : List Bytes} (same : SamePieces left right) :
    left = right ∨ ∃ license command symbol further others,
      left = license :: command :: symbol :: further ∧
      right = license :: command :: symbol :: others ∧ List.Forall₂ SamePiece further others := by
  obtain ⟨leading, further⟩ := same
  rw [← List.take_append_drop 3 left, ← List.take_append_drop 3 right, ← leading]
  match left with
  | license :: command :: symbol :: rest =>
    exact .inr ⟨license, command, symbol, rest, right.drop 3, rfl, rfl, further⟩
  | [] | [_] | [_, _] =>
    have none : right.drop 3 = [] := List.forall₂_nil_left_iff.mp further
    rw [none]
    exact .inl rfl

theorem requiredPiece_alike (name field : Bytes) (rest others : List Bytes) :
    Alike (fun pair other => pair = (field, rest) ∧ other = (field, others))
      (requiredPiece name (field :: rest)) (requiredPiece name (field :: others)) :=
  (alike_refl (fun _ => trivial) _).bind fun _ _ (_ : True) => ⟨rfl, rfl⟩

theorem parsePieces_alike {left right : List Bytes} (same : SamePieces left right) :
    Alike SameSignal (parsePieces left) (parsePieces right) := by
  rcases same.cases with rfl | ⟨license, rawCommand, symbol, further, others, rfl, rfl, each⟩
  · exact alike_refl SameSignal.refl _
  unfold parsePieces
  have blank (rest : List Bytes) : ¬license :: rawCommand :: symbol :: rest = [[]] := by simp
  simp only [blank]
  refine (requiredPiece_alike ..).bind ?_
  rintro _ _ ⟨rfl, rfl⟩
  refine (requiredPiece_alike ..).bind ?_
  rintro _ _ ⟨rfl, rfl⟩
  refine (alike_refl (fun _ => trivial) _).bind fun _ _ (_ : True) => ?_
  refine (requiredPiece_alike ..).bind ?_
  rintro _ _ ⟨rfl, rfl⟩
  refine (addFields_alike each _ _).bind ?_
  rintro ⟨signal, state⟩ ⟨other, _⟩ ⟨signals, rfl⟩
  rw [validateSignal_congr signals]
  exact (alike_refl (fun _ => trivial) _).bind fun _ _ (_ : True) => signals

/-! ### Two bodies -/

/-- **Two segments of a body**: the same, or a secret parameter with two values, in the same spelling but
for the values. -/
inductive SameSegment : Bytes → Bytes → Prop
  | same (raw : Bytes) : SameSegment raw raw
  | secret {key left right value other : Bytes} (plainKey : equals ∉ key)
      (isSecret : paramKindFromKey (trim isASCIISpace key) = .secret)
      (leftSpaces : ∀ byte ∈ left, isASCIISpace byte = true)
      (rightSpaces : ∀ byte ∈ right, isASCIISpace byte = true) (plain : Plain value)
      (plainOther : Plain other) :
      SameSegment (key ++ equals :: (left ++ (value ++ right))) (key ++ equals :: (left ++ (other ++ right)))

/-- **Two bodies that differ in the values of their secret parameters at most**: the first three segments
are the same, and so are those behind them but for such values. -/
structure SameButSecrets (left right : Bytes) : Prop where
  leading : (left.splitOn comma).take 3 = (right.splitOn comma).take 3
  further : List.Forall₂ SameSegment ((left.splitOn comma).drop 3) ((right.splitOn comma).drop 3)

theorem secret_of_segment {key left right value : Bytes} (plainKey : equals ∉ key)
    (isSecret : paramKindFromKey (trim isASCIISpace key) = .secret)
    (leftSpaces : ∀ byte ∈ left, isASCIISpace byte = true)
    (rightSpaces : ∀ byte ∈ right, isASCIISpace byte = true) (plain : Plain value) :
    IsParam (trim isASCIISpace (key ++ equals :: (left ++ (value ++ right)))) ∧
      keyText (trim isASCIISpace (key ++ equals :: (left ++ (value ++ right)))) =
        trim isASCIISpace key := by
  have reads : trim isASCIISpace (left ++ (value ++ right)) = value := by
    rw [trim_around leftSpaces rightSpaces, plain.2.2]
  have known : ∃ kind, Names paramNames (trim isASCIISpace key) kind := by
    refine (paramKindFromKey_ne_unknown _).mp ?_
    rw [isSecret]
    nofun
  exact ⟨isParam_trim plainKey known (by rw [reads]; exact plain.1), keyText_trim plainKey⟩

theorem SameSegment.samePiece (same : SameSegment left right) :
    SamePiece (trim isASCIISpace left) (trim isASCIISpace right) := by
  cases same with
  | same => exact .inl rfl
  | secret plainKey isSecret leftSpaces rightSpaces plain plainOther =>
    obtain ⟨isParam, key⟩ := secret_of_segment plainKey isSecret leftSpaces rightSpaces plain
    obtain ⟨isParamOther, keyOther⟩ :=
      secret_of_segment plainKey isSecret leftSpaces rightSpaces plainOther
    refine .inr ⟨isParam, isParamOther, ?_, key.trans keyOther.symm⟩
    rw [kindOf, key, isSecret]

theorem SameButSecrets.samePieces (same : SameButSecrets left right) :
    SamePieces (pieces left) (pieces right) := by
  rw [pieces_eq, pieces_eq]
  refine ⟨?_, ?_⟩
  · rw [← List.map_take, ← List.map_take, same.leading]
  · rw [← List.map_drop, ← List.map_drop, List.forall₂_map_left_iff, List.forall₂_map_right_iff]
    exact same.further.imp fun _ _ => SameSegment.samePiece

/-- **The parser does not see secrets.** -/
theorem parse_alike (same : SameButSecrets left right) :
    Alike SameSignal (parse left) (parse right) := by
  rw [parse_eq_parsePieces, parse_eq_parsePieces]
  exact parsePieces_alike same.samePieces

end ExecRelay.Parser
