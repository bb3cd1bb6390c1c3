/-
**Which signals the flat format can carry.**

`Signal.write` puts a signal into the form of an alert, `license,command,symbol,key=value,...`. A signal
is `Readable` if the parser accepts that text and returns the same license, command, symbol and
parameters. `readable_iff` says which signals are: their texts are `Plain`, since the format has no
way to quote a comma or the blanks at an end, and they satisfy the rules of the parser.

A sender may spell the command another way. `Signal.writeRaw` writes it as the signal has it, and
`readsBack_iff` and `parse_writeRaw` say the same of that text, for every spelling of the command.
-/

import ExecRelay.Lib.Fields
import ExecRelay.Parser.Correct

namespace ExecRelay.Parser

open Lib

/-! ### Writing -/

def Param.write (param : Param) : Bytes :=
  param.key ++ [equals] ++ param.value

def Signal.fields (signal : Signal) : List Bytes :=
  signal.licenseID :: signal.command.string :: signal.symbol :: signal.params.map Param.write

def Signal.write (signal : Signal) : Bytes :=
  [comma].intercalate signal.fields

def Signal.rawFields (signal : Signal) : List Bytes :=
  signal.licenseID :: signal.rawCommand :: signal.symbol :: signal.params.map Param.write

def Signal.writeRaw (signal : Signal) : Bytes :=
  [comma].intercalate signal.rawFields

def Signal.respelled (signal : Signal) : Signal :=
  { signal with rawCommand := signal.command.string }

theorem write_eq_writeRaw (signal : Signal) : signal.write = signal.respelled.writeRaw :=
  rfl

/-- The parts of a signal that the format carries. -/
structure Same (parsed signal : Signal) : Prop where
  licenseID : parsed.licenseID = signal.licenseID
  command : parsed.command = signal.command
  symbol : parsed.symbol = signal.symbol
  params : parsed.params = signal.params

/-- **The parser gives the signal back.** -/
def Readable (signal : Signal) : Prop :=
  ∃ parsed, parse signal.write = .ok parsed ∧ Same parsed signal

/-- The parser gives the signal back from the spelling of its command. -/
def ReadsBack (signal : Signal) : Prop :=
  ∃ parsed, parse signal.writeRaw = .ok parsed ∧ Same parsed signal

/-! ### Texts of the format -/

def Plain (text : Bytes) : Prop :=
  text ≠ [] ∧ comma ∉ text ∧ trim isASCIISpace text = text

instance (text : Bytes) : Decidable (Plain text) :=
  inferInstanceAs (Decidable (_ ∧ _ ∧ _))

def isNameByte (byte : UInt8) : Bool :=
  byte != comma && byte != equals && !isASCIISpace byte

theorem isNameByte_of_lowerByte (byte : UInt8) : isNameByte (lowerByte byte) = true →
    isNameByte byte = true :=
  forall_byte byte (by decide +kernel)

/-- A text of such bytes. -/
structure Name (text : Bytes) : Prop where
  given : text ≠ []
  bytes : ∀ byte ∈ text, isNameByte byte = true

theorem name_of_commandNames {text : Bytes} {command : Command}
    (named : Names commandNames text command) : Name text := by
  obtain ⟨given, bytes⟩ := forall_of_names isNameByte_of_lowerByte (by decide +kernel) named
  exact ⟨given, bytes⟩

theorem name_of_paramNames {text : Bytes} {kind : ParamKind} (named : Names paramNames text kind) :
    Name text := by
  obtain ⟨given, bytes⟩ := forall_of_names isNameByte_of_lowerByte (by decide +kernel) named
  exact ⟨given, bytes⟩

namespace Name

variable {text : Bytes}

theorem not_mem (name : Name text) {byte : UInt8} (excluded : isNameByte byte = false) :
    byte ∉ text := fun member => by
  rw [name.bytes byte member] at excluded
  cases excluded

theorem trimmed (name : Name text) : trim isASCIISpace text = text := by
  refine trim_eq_self_of_forall fun byte member => ?_
  have fine := name.bytes byte member
  unfold isNameByte at fine
  simp only [Bool.and_eq_true, Bool.not_eq_true'] at fine
  exact fine.2

theorem plain (name : Name text) : Plain text :=
  ⟨name.given, name.not_mem (by decide), name.trimmed⟩

end Name

/-! ### Parameters -/

section Param

variable {param : Param}

theorem keyText_write (name : Name param.key) : keyText param.write = param.key := by
  have stops : (param.write).takeWhile (· != equals) = param.key := by
    unfold Param.write
    rw [List.append_assoc, List.takeWhile_append_of_pos, List.singleton_append,
      List.takeWhile_cons_of_neg (by simp), List.append_nil]
    exact fun byte member => bne_iff_ne.mpr fun same =>
      name.not_mem (by decide) (same ▸ member)
  rw [keyText, stops, name.trimmed]

theorem valueText_write (name : Name param.key) :
    valueText param.write = trim isASCIISpace param.value := by
  have stops : (param.write).dropWhile (· != equals) = equals :: param.value := by
    unfold Param.write
    rw [List.append_assoc, List.dropWhile_append_of_pos, List.singleton_append,
      List.dropWhile_cons_of_neg (by simp)]
    exact fun byte member => bne_iff_ne.mpr fun same =>
      name.not_mem (by decide) (same ▸ member)
  rw [valueText, stops, List.tail_cons]

theorem kindOf_write (named : Names paramNames param.key param.kind) :
    kindOf param.write = param.kind := by
  rw [kindOf, keyText_write (name_of_paramNames named), paramKindFromKey_of_names named]

theorem paramOf_write (named : Names paramNames param.key param.kind) (plain : Plain param.value) :
    paramOf param.write = param := by
  have name := name_of_paramNames named
  rw [paramOf, kindOf_write named, keyText_write name, valueText_write name, plain.2.2]

theorem plain_write (name : Name param.key) (plain : Plain param.value) : Plain param.write := by
  refine ⟨?_, ?_, trim_append name.trimmed plain.2.2 name.given plain.1⟩
  · simp [Param.write]
  · have apart : comma ≠ equals := by decide
    simp [Param.write, name.plain.2.1, plain.2.1, apart]

theorem isParam_write (named : Names paramNames param.key param.kind) (plain : Plain param.value) :
    IsParam param.write := by
  have name := name_of_paramNames named
  refine ⟨by simp [Param.write], ?_, ?_, ?_⟩
  · rw [keyText_write name]
    exact name.given
  · rw [valueText_write name, plain.2.2]
    exact plain.1
  · rw [keyText_write name]
    exact ⟨_, named⟩

end Param

/-! ### Signals -/

/-- The command and the keys of a signal go by their names. -/
structure Named (signal : Signal) : Prop where
  command : Names commandNames signal.command.string signal.command
  keys : ∀ param ∈ signal.params, Names paramNames param.key param.kind

/-- The command is spelled in a way that the parser knows, and the keys go by their names. -/
structure Spelled (signal : Signal) : Prop where
  command : Names commandNames signal.rawCommand signal.command
  keys : ∀ param ∈ signal.params, Names paramNames param.key param.kind

theorem Named.respelled {signal : Signal} (named : Named signal) : Spelled signal.respelled :=
  ⟨named.command, named.keys⟩

/-- **What the format and the rules ask of a signal.** -/
structure Writable (signal : Signal) : Prop where
  license : Plain signal.licenseID
  symbol : Plain signal.symbol
  values : ∀ param ∈ signal.params, Plain param.value
  oneVolume : signal.params.countP (fun param => param.kind.isVolume) ≤ 1
  oneSL : signal.params.countP (fun param => param.kind.isSL) ≤ 1
  oneTP : signal.params.countP (fun param => param.kind.isTP) ≤ 1
  oneEntry : signal.params.countP (fun param => param.kind.isEntry) ≤ 1
  shortComment : ∀ param ∈ signal.params, param.kind = .comment → param.value.length ≤ maxComment
  rules : CrossFieldRules signal.command signal.symbol (signal.params.map Param.kind)

section Reading

variable {signal : Signal}

theorem pieces_writeRaw (spelled : Spelled signal) (writable : Writable signal) :
    pieces signal.writeRaw = signal.rawFields := by
  have plain : ∀ field ∈ signal.rawFields, Plain field := by
    simp only [Signal.rawFields, List.forall_mem_cons, List.forall_mem_map]
    exact ⟨writable.license, (name_of_commandNames spelled.command).plain, writable.symbol,
      fun param member =>
        plain_write (name_of_paramNames (spelled.keys param member)) (writable.values param member)⟩
  exact read_join (fun field member => (plain field member).2.2)
    (fun field member => (plain field member).1) (fun field member => (plain field member).2.1)
    (List.cons_ne_nil _ _)

theorem map_paramOf_write (spelled : Spelled signal) (writable : Writable signal) :
    (signal.params.map Param.write).map paramOf = signal.params := by
  rw [List.map_map]
  refine (List.map_congr_left fun param member => ?_).trans (List.map_id _)
  exact paramOf_write (spelled.keys param member) (writable.values param member)

theorem accepted_write (spelled : Spelled signal) (writable : Writable signal) :
    Accepted signal.licenseID signal.rawCommand signal.symbol
      (signal.params.map Param.write) := by
  have kinds : (signal.params.map Param.write).map kindOf = signal.params.map Param.kind := by
    rw [List.map_map]
    exact List.map_congr_left fun param member => kindOf_write (spelled.keys param member)
  have count (test : ParamKind → Bool) :
      (signal.params.map Param.write).countP (fun piece => test (kindOf piece)) =
        signal.params.countP fun param => test param.kind :=
    calc (signal.params.map Param.write).countP (fun piece => test (kindOf piece))
        = ((signal.params.map Param.write).map kindOf).countP test := List.countP_map.symm
      _ = (signal.params.map Param.kind).countP test := by rw [kinds]
      _ = signal.params.countP fun param => test param.kind := List.countP_map
  refine
    { licenseGiven := writable.license.1
      commandGiven := (name_of_commandNames spelled.command).given
      symbolGiven := writable.symbol.1
      commandKnown := ⟨_, spelled.command⟩
      isParam := ?_
      atMost := ?_
      oneVolume := (count _).trans_le writable.oneVolume
      oneSL := (count _).trans_le writable.oneSL
      oneTP := (count _).trans_le writable.oneTP
      oneEntry := (count _).trans_le writable.oneEntry
      shortComment := ?_
      rules := ?_ }
  · rw [List.forall_mem_map]
    exact fun param member => isParam_write (spelled.keys param member) (writable.values param member)
  · rw [List.length_map]
    exact signal.bounded
  · rw [List.forall_mem_map]
    intro param member isComment
    rw [kindOf_write (spelled.keys param member)] at isComment
    rw [valueText_write (name_of_paramNames (spelled.keys param member)),
      (writable.values param member).2.2]
    exact writable.shortComment param member isComment
  · rw [commandFrom_of_names spelled.command, kinds]
    exact writable.rules

theorem plain_of_readsBack {parsed : Signal} (parses : parse signal.writeRaw = .ok parsed)
    (same : Same parsed signal) :
    Plain signal.licenseID ∧ Plain signal.symbol ∧ ∀ param ∈ signal.params, Plain param.value := by
  obtain ⟨license, command, symbol, further, split, accepted, licenseKept, _, _, symbolKept, params⟩ :=
    parse_parts parses
  have isPiece {text : Bytes} (member : text ∈ pieces signal.writeRaw) :
      trim isASCIISpace text = text := by
    obtain ⟨part, _, rfl⟩ := List.mem_map.mp member
    exact trim_trim part
  have noComma : ∀ field ∈ signal.rawFields, comma ∉ field := by
    have length := congrArg List.length split
    refine not_mem_of_length_split (by decide : isASCIISpace comma = false) ?_ (List.cons_ne_nil _ _)
    rw [pieces, List.length_map] at length
    refine length.trans ?_
    simp only [Signal.rawFields, List.length_cons, List.length_map, ← same.params, params]
  rw [same.licenseID] at licenseKept
  rw [same.symbol] at symbolKept
  rw [same.params] at params
  subst licenseKept symbolKept
  simp only [Signal.rawFields, List.forall_mem_cons, List.forall_mem_map] at noComma
  refine ⟨⟨accepted.licenseGiven, noComma.1, isPiece ?_⟩,
    ⟨accepted.symbolGiven, noComma.2.2.1, isPiece ?_⟩, fun param member => ⟨?_, ?_, ?_⟩⟩
  · simp [split]
  · simp [split]
  · rw [params] at member
    obtain ⟨piece, inside, rfl⟩ := List.mem_map.mp member
    exact (accepted.isParam piece inside).value
  · exact fun inside => noComma.2.2.2 param member (List.mem_append_right _ inside)
  · rw [params] at member
    obtain ⟨piece, inside, rfl⟩ := List.mem_map.mp member
    exact trim_trim _

/-- **A signal is read back** exactly if it can be written. -/
theorem readsBack_iff (spelled : Spelled signal) : ReadsBack signal ↔ Writable signal := by
  constructor
  · rintro ⟨parsed, parses, same⟩
    obtain ⟨license, symbol, values⟩ := plain_of_readsBack parses same
    obtain ⟨_, command, _, further, _, accepted, _, commandKept, _, symbolKept, params⟩ :=
      parse_parts parses
    rw [same.command] at commandKept
    rw [same.symbol] at symbolKept
    rw [same.params] at params
    have count (test : ParamKind → Bool) :
        signal.params.countP (fun param => test param.kind) =
          further.countP fun piece => test (kindOf piece) := by
      rw [params, List.countP_map]
      rfl
    refine
      { license, symbol, values
        oneVolume := (count _).trans_le accepted.oneVolume
        oneSL := (count _).trans_le accepted.oneSL
        oneTP := (count _).trans_le accepted.oneTP
        oneEntry := (count _).trans_le accepted.oneEntry
        shortComment := ?_
        rules := ?_ }
    · rw [params, List.forall_mem_map]
      exact accepted.shortComment
    · have kinds : signal.params.map Param.kind = further.map kindOf := by
        rw [params, List.map_map]
        rfl
      rw [kinds, commandKept, symbolKept]
      exact accepted.rules
  · intro writable
    have leading := foldl_addParam_leading ((signal.params.map Param.write).map paramOf)
      { licenseID := signal.licenseID, command := commandFrom signal.rawCommand
        rawCommand := signal.rawCommand, symbol := signal.symbol }
    refine ⟨_, (parse_eq_ok _ _).mpr ⟨_, _, _, _, pieces_writeRaw spelled writable,
      accepted_write spelled writable, rfl⟩, leading.1, ?_, leading.2.2.2, ?_⟩
    · rw [leading.2.1, commandFrom_of_names spelled.command]
    · rw [map_paramOf_write spelled writable, foldl_addParam_params, List.nil_append]
      rw [List.length_nil, Nat.zero_add]
      exact signal.bounded

theorem parse_writeRaw (spelled : Spelled signal) (writable : Writable signal) :
    parse signal.writeRaw = .ok signal := by
  obtain ⟨parsed, parses, same⟩ := (readsBack_iff spelled).mpr writable
  obtain ⟨license, command, symbol, further, split, _, _, _, rawKept, _, _⟩ := parse_parts parses
  rw [pieces_writeRaw spelled writable, Signal.rawFields, List.cons.injEq, List.cons.injEq] at split
  rw [parses]
  obtain ⟨licenseID, command', rawCommand, symbol', params, bounded⟩ := parsed
  obtain ⟨rfl, rfl, rfl, rfl⟩ := same
  rw [← split.2.1] at rawKept
  cases rawKept
  rfl

theorem writable_respelled : Writable signal.respelled ↔ Writable signal :=
  ⟨fun ⟨license, symbol, values, oneVolume, oneSL, oneTP, oneEntry, shortComment, rules⟩ =>
      ⟨license, symbol, values, oneVolume, oneSL, oneTP, oneEntry, shortComment, rules⟩,
    fun ⟨license, symbol, values, oneVolume, oneSL, oneTP, oneEntry, shortComment, rules⟩ =>
      ⟨license, symbol, values, oneVolume, oneSL, oneTP, oneEntry, shortComment, rules⟩⟩

/-- **A signal can be read back** exactly if it can be written. -/
theorem readable_iff (named : Named signal) : Readable signal ↔ Writable signal := by
  have same (parsed : Signal) : Same parsed signal ↔ Same parsed signal.respelled :=
    ⟨fun ⟨license, command, symbol, params⟩ => ⟨license, command, symbol, params⟩,
      fun ⟨license, command, symbol, params⟩ => ⟨license, command, symbol, params⟩⟩
  rw [← writable_respelled, ← readsBack_iff named.respelled]
  simp only [Readable, ReadsBack, write_eq_writeRaw, same]

theorem parse_write (named : Named signal) (writable : Writable signal)
    (raw : signal.rawCommand = signal.command.string) : parse signal.write = .ok signal := by
  have kept : signal.respelled = signal := by
    rw [Signal.respelled, ← raw]
  have read := parse_writeRaw named.respelled (writable_respelled.mpr writable)
  rwa [← write_eq_writeRaw, kept] at read

end Reading

end ExecRelay.Parser
