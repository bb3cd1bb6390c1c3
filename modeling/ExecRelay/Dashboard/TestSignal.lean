/-
**The test signals of the dashboard** (`scripts/trade_dashboard.py`).

`build_test_signal_command` writes the fields of a form as an alert, in the format that ingress parses.
It checks that what an opening command needs is there, and neither looks for commas in the texts nor at
the length of the comment. It also puts in what the operator has not supplied, and leaves out some of what
they have: `read_as_supplied_iff` says when the parser returns exactly what was supplied.
-/

import ExecRelay.Lib.Blank
import ExecRelay.Parser.Write

namespace ExecRelay.Dashboard

open Lib
open ExecRelay.Parser (Command CrossFieldRules Names Param ParamKind Plain Signal Spelled Writable
  comma commandNames isASCIISpace maxComment paramNames parse)

/-! ### The command -/

/-- The variables of the environment. -/
structure Environment where
  dashboardLicenseID : Bytes
  dashboardWebhookSecret : Bytes
deriving DecidableEq, Repr

namespace Environment

variable (env : Environment)

def licenseID : Bytes :=
  pythonStrip env.dashboardLicenseID

def webhookSecret : Bytes :=
  pythonStrip env.dashboardWebhookSecret

end Environment

/-- The fields, each with the text of its value. A value that is missing or false, such as zero, has
the empty text: `fields.get(...) or ""`. -/
structure Fields where
  command : Bytes := []
  symbol : Bytes := []
  volLots : Bytes := []
  riskMode : Bytes := []
  risk : Bytes := []
  sl : Bytes := []
  tp : Bytes := []
  comment : Bytes := []
deriving DecidableEq, Repr

/-- `text or default`. -/
def orElse (text default : Bytes) : Bytes :=
  if text = [] then default else text

def webhookTestCommands : List Bytes :=
  [lit "BUY", lit "SELL", lit "CLOSELONG", lit "CLOSESHORT"]

def webhookTestOpens : List Bytes :=
  [lit "BUY", lit "SELL"]

/-- The part `key=value` of a command. -/
def param (kind : ParamKind) (value : Bytes) : Param :=
  { kind, key := kind.string, value }

/-- A part that is left out if its value is empty. -/
def optional (kind : ParamKind) (value : Bytes) : List Param :=
  if value = [] then [] else [param kind value]

namespace Fields

variable (fields : Fields)

/-- `.strip().upper()`, for whatever `str.upper` makes of a text: it maps more letters than those of
ASCII, such as the long s. -/
def givenCommand (upper : Bytes → Bytes) : Bytes :=
  upper (pythonStrip fields.command)

def givenRiskMode : Bytes :=
  pythonStrip (orElse fields.riskMode (lit "bypass"))

def givenComment : Bytes :=
  pythonStrip (orElse fields.comment (lit "webhook-test"))

/-- The part for the risk, if there is one. -/
def riskPart : Except Bytes (List Param) :=
  if fields.givenRiskMode = lit "bypass" then
    return [param .risk (lit "0")]
  else if fields.givenRiskMode = lit "custom" then do
    let risk := pythonStrip fields.risk
    rejectIf (risk = []) (lit "risk is required when risk_mode is 'custom'")
    return [param .risk risk]
  else if fields.givenRiskMode ≠ lit "stack" then
    throw (lit "risk_mode must be one of bypass, custom, stack")
  else
    return []

/-- The parts of a command that opens a position. -/
def openParts : Except Bytes (List Param) := do
  let volLots := pythonStrip fields.volLots
  rejectIf (volLots = []) (lit "vol_lots is required for BUY/SELL")
  let risk ← fields.riskPart
  let sl := pythonStrip fields.sl
  let tp := pythonStrip fields.tp
  rejectIf (sl = [] ∨ tp = []) (lit "sl and tp are required for BUY/SELL")
  return [param .volLots volLots] ++ risk ++ [param .sl sl, param .tp tp]

def furtherParts (upper : Bytes → Bytes) : Except Bytes (List Param) :=
  if fields.givenCommand upper ∈ webhookTestOpens then fields.openParts else return []

end Fields

/-- The command, or the error. -/
def buildTestSignalCommand (upper : Bytes → Bytes) (env : Environment) (fields : Fields) :
    Except Bytes Bytes := do
  let command := fields.givenCommand upper
  rejectIf (command ∉ webhookTestCommands)
    (lit "command must be one of BUY, CLOSELONG, CLOSESHORT, SELL")
  let symbol := pythonStrip fields.symbol
  rejectIf (symbol = []) (lit "symbol is required")
  let further ← fields.furtherParts upper
  let parts := further ++ optional .comment fields.givenComment ++ optional .secret env.webhookSecret
  return [comma].intercalate ([env.licenseID, command, symbol] ++ parts.map Param.write)

/-! ### What is supplied -/

/-- The parameters of a form with five texts. -/
def form (volLots risk sl tp comment : Bytes) : List Param :=
  optional .volLots volLots ++ optional .risk risk ++ optional .sl sl ++ optional .tp tp ++
    optional .comment comment

/-- **What the operator supplies**: one parameter for every field of the form with a text in it. -/
def Fields.supplied (fields : Fields) : List Param :=
  form (pythonStrip fields.volLots) (pythonStrip fields.risk) (pythonStrip fields.sl)
    (pythonStrip fields.tp) (pythonStrip fields.comment)

/-- The command that a text stands for. -/
def commandOf (text : Bytes) : Command :=
  if text = lit "BUY" then .buy
  else if text = lit "SELL" then .sell
  else if text = lit "CLOSELONG" then .closeLong
  else if text = lit "CLOSESHORT" then .closeShort
  else .invalid

/-- **The parser returns what was supplied**: the command, the symbol and the parameters, no others. -/
def ReadAsSupplied (upper : Bytes → Bytes) (fields : Fields) (text : Bytes) : Prop :=
  ∃ signal, parse text = .ok signal ∧ signal.command = commandOf (fields.givenCommand upper) ∧
    signal.symbol = pythonStrip fields.symbol ∧ signal.params = fields.supplied

/-- **What goes through as it is.** The texts have no commas, the comment is short, and nothing is put in
or left out: there is a comment and no secret, the risk is the one of its mode, and a command that closes
comes with nothing else. -/
structure Sendable (upper : Bytes → Bytes) (env : Environment) (fields : Fields) : Prop where
  symbol : comma ∉ pythonStrip fields.symbol
  values : ∀ param ∈ fields.supplied, comma ∉ param.value
  short : (pythonStrip fields.comment).length ≤ maxComment
  commented : fields.comment ≠ []
  secret : env.webhookSecret = []
  bypass : fields.givenCommand upper ∈ webhookTestOpens → fields.givenRiskMode = lit "bypass" →
    pythonStrip fields.risk = lit "0"
  stack : fields.givenCommand upper ∈ webhookTestOpens → fields.givenRiskMode = lit "stack" →
    pythonStrip fields.risk = []
  closing : fields.givenCommand upper ∉ webhookTestOpens → pythonStrip fields.volLots = [] ∧
    pythonStrip fields.risk = [] ∧ pythonStrip fields.sl = [] ∧ pythonStrip fields.tp = []

/-! ### Forms -/

section Forms

variable {kind : ParamKind} {value volLots risk sl tp comment : Bytes} {item : Param}

theorem optional_of_ne (given : value ≠ []) : optional kind value = [param kind value] :=
  if_neg given

theorem mem_optional : item ∈ optional kind value ↔ value ≠ [] ∧ item = param kind value := by
  unfold optional
  split_ifs with empty
  · simp [empty]
  · simp [empty]

theorem mem_form : item ∈ form volLots risk sl tp comment ↔
    item ∈ optional .volLots volLots ∨ item ∈ optional .risk risk ∨ item ∈ optional .sl sl ∨
      item ∈ optional .tp tp ∨ item ∈ optional .comment comment := by
  simp only [form, List.mem_append, or_assoc]

/-- Every value of a form is one of its texts. -/
theorem forall_mem_form (property : Bytes → Prop) (first : property volLots) (second : property risk)
    (third : property sl) (fourth : property tp) (fifth : property comment) :
    ∀ item ∈ form volLots risk sl tp comment, property item.value := by
  intro item member
  rw [mem_form] at member
  rcases member with member | member | member | member | member
  all_goals
    rw [(mem_optional.mp member).2]
    assumption

/-- **A form is its five texts.** -/
theorem form_inj {volLots' risk' sl' tp' comment' : Bytes}
    (same : form volLots risk sl tp comment = form volLots' risk' sl' tp' comment') :
    volLots = volLots' ∧ risk = risk' ∧ sl = sl' ∧ tp = tp' ∧ comment = comment' := by
  have filtered (kind other : ParamKind) (value : Bytes) :
      (optional kind value).filter (fun item => item.kind = other) =
        if kind = other then optional kind value else [] := by
    unfold optional param
    split_ifs <;> simp_all
  have inj {kind : ParamKind} {value value' : Bytes}
      (same : optional kind value = optional kind value') : value = value' := by
    unfold optional param at same
    split_ifs at same <;> simp_all
  have at_ (kind : ParamKind) := congrArg (List.filter fun item => item.kind = kind) same
  simp only [form, List.filter_append, filtered] at at_
  exact ⟨inj (by simpa using at_ .volLots), inj (by simpa using at_ .risk), inj (by simpa using at_ .sl),
    inj (by simpa using at_ .tp), inj (by simpa using at_ .comment)⟩

/-- The kinds of the parameters that are written, in their order. -/
def testKinds : List ParamKind :=
  [.volLots, .risk, .sl, .tp, .comment, .secret]

theorem map_kind_optional (kind : ParamKind) (value : Bytes) :
    ((optional kind value).map Param.kind).Sublist [kind] := by
  unfold optional
  split_ifs
  · exact List.nil_sublist _
  · exact List.Sublist.refl _

theorem map_kind_form (volLots risk sl tp comment secret : Bytes) :
    ((form volLots risk sl tp comment ++ optional .secret secret).map Param.kind).Sublist testKinds := by
  simp only [form, List.map_append]
  exact (((((map_kind_optional .volLots _).append (map_kind_optional .risk _)).append
    (map_kind_optional .sl _)).append (map_kind_optional .tp _)).append
      (map_kind_optional .comment _)).append (map_kind_optional .secret _)

end Forms

/-! ### What is written -/

/-- **The texts that are written** for a form. A command that opens has the risk of its mode, and one that
closes has none of the four. -/
def Carried (upper : Bytes → Bytes) (fields : Fields) (volLots risk sl tp : Bytes) : Prop :=
  fields.givenCommand upper ∈ webhookTestOpens ∧ volLots ≠ [] ∧ volLots = pythonStrip fields.volLots ∧
      sl = pythonStrip fields.sl ∧ tp = pythonStrip fields.tp ∧
      (fields.givenRiskMode = lit "bypass" ∧ risk = lit "0" ∨
        fields.givenRiskMode = lit "custom" ∧ risk = pythonStrip fields.risk ∨
          fields.givenRiskMode = lit "stack" ∧ risk = []) ∨
    fields.givenCommand upper ∉ webhookTestOpens ∧ volLots = [] ∧ risk = [] ∧ sl = [] ∧ tp = []

/-- The signal that is written with these texts. -/
def writtenSignal (upper : Bytes → Bytes) (env : Environment) (fields : Fields)
    (volLots risk sl tp : Bytes) : Signal where
  licenseID := env.licenseID
  command := commandOf (fields.givenCommand upper)
  rawCommand := fields.givenCommand upper
  symbol := pythonStrip fields.symbol
  params := form volLots risk sl tp fields.givenComment ++ optional .secret env.webhookSecret
  bounded := by
    have few := (map_kind_form volLots risk sl tp fields.givenComment env.webhookSecret).length_le
    rw [List.length_map] at few
    exact few.trans (by decide)

section Written

variable {upper : Bytes → Bytes} {env : Environment} {fields : Fields} {volLots risk sl tp text : Bytes}

theorem riskPart_ok {parts : List Param} (built : fields.riskPart = .ok parts) :
    ∃ risk, parts = optional .risk risk ∧ (fields.givenRiskMode = lit "bypass" ∧ risk = lit "0" ∨
      fields.givenRiskMode = lit "custom" ∧ risk = pythonStrip fields.risk ∨
        fields.givenRiskMode = lit "stack" ∧ risk = []) := by
  unfold Fields.riskPart at built
  split_ifs at built with bypass custom other
  · cases built
    exact ⟨lit "0", rfl, .inl ⟨bypass, rfl⟩⟩
  · obtain ⟨_, given, written⟩ := (bind_eq_ok _ _ _).mp built
    rw [rejectIf_eq_ok] at given
    cases written
    exact ⟨_, (optional_of_ne given).symm, .inr (.inl ⟨custom, rfl⟩)⟩
  · cases built
    exact ⟨[], rfl, .inr (.inr ⟨not_not.mp other, rfl⟩)⟩

theorem furtherParts_ok {parts : List Param} (built : fields.furtherParts upper = .ok parts) :
    ∃ volLots risk sl tp, Carried upper fields volLots risk sl tp ∧
      parts = optional .volLots volLots ++ optional .risk risk ++ optional .sl sl ++ optional .tp tp := by
  unfold Fields.furtherParts at built
  split_ifs at built with opens
  · obtain ⟨_, volume, built⟩ := (bind_eq_ok _ _ _).mp built
    obtain ⟨parts, risked, built⟩ := (bind_eq_ok _ _ _).mp built
    obtain ⟨_, levels, written⟩ := (bind_eq_ok _ _ _).mp built
    obtain ⟨risk, rfl, mode⟩ := riskPart_ok risked
    rw [rejectIf_eq_ok] at volume levels
    rw [not_or] at levels
    cases written
    refine ⟨_, risk, _, _, .inl ⟨opens, volume, rfl, rfl, rfl, mode⟩, ?_⟩
    rw [optional_of_ne volume, optional_of_ne levels.1, optional_of_ne levels.2]
    simp
  · cases built
    exact ⟨[], [], [], [], .inr ⟨opens, rfl, rfl, rfl, rfl⟩, rfl⟩

/-- **A command that is returned** is a signal, written out. -/
theorem writeRaw_of_build (built : buildTestSignalCommand upper env fields = .ok text) :
    fields.givenCommand upper ∈ webhookTestCommands ∧ pythonStrip fields.symbol ≠ [] ∧
      ∃ volLots risk sl tp, Carried upper fields volLots risk sl tp ∧
        text = (writtenSignal upper env fields volLots risk sl tp).writeRaw := by
  obtain ⟨_, command, built⟩ := (bind_eq_ok _ _ _).mp built
  obtain ⟨_, symbol, built⟩ := (bind_eq_ok _ _ _).mp built
  obtain ⟨further, opened, written⟩ := (bind_eq_ok _ _ _).mp built
  rw [rejectIf_eq_ok] at command symbol
  obtain ⟨volLots, risk, sl, tp, carried, rfl⟩ := furtherParts_ok opened
  cases written
  exact ⟨not_not.mp command, symbol, volLots, risk, sl, tp, carried, rfl⟩

theorem trim_strip (text : Bytes) : trim isASCIISpace (pythonStrip text) = pythonStrip text :=
  trim_pythonStrip (fun byte => forall_byte byte (by decide +kernel)) text

theorem Carried.trimmed (carried : Carried upper fields volLots risk sl tp) :
    trim isASCIISpace volLots = volLots ∧ trim isASCIISpace risk = risk ∧
      trim isASCIISpace sl = sl ∧ trim isASCIISpace tp = tp := by
  rcases carried with ⟨-, -, rfl, rfl, rfl, mode⟩ | ⟨-, rfl, rfl, rfl, rfl⟩
  · refine ⟨trim_strip _, ?_, trim_strip _, trim_strip _⟩
    rcases mode with ⟨-, rfl⟩ | ⟨-, rfl⟩ | ⟨-, rfl⟩
    · decide
    · exact trim_strip _
    · rfl
  · exact ⟨rfl, rfl, rfl, rfl⟩

/-- A written parameter goes by the name of its kind, and its value has no blanks at its ends. -/
structure Formed (item : Param) : Prop where
  kind : item.kind ∈ testKinds
  key : item.key = item.kind.string
  given : item.value ≠ []
  trimmed : trim isASCIISpace item.value = item.value

theorem Formed.names {item : Param} (formed : Formed item) : Names paramNames item.key item.kind := by
  have all : ∀ kind ∈ testKinds, ([kind.string], kind) ∈ paramNames ∧
      lowerASCII kind.string = kind.string := by decide +kernel
  have row := all item.kind formed.kind
  exact ⟨_, row.1, by rw [formed.key, row.2]; exact List.mem_singleton_self _⟩

theorem Carried.formed (carried : Carried upper fields volLots risk sl tp) (env : Environment) :
    ∀ item ∈ (writtenSignal upper env fields volLots risk sl tp).params, Formed item := by
  have formed {kind : ParamKind} {value : Bytes} (known : kind ∈ testKinds)
      (trimmed : trim isASCIISpace value = value) : ∀ item ∈ optional kind value, Formed item := by
    intro item member
    obtain ⟨given, rfl⟩ := mem_optional.mp member
    exact ⟨known, rfl, given, trimmed⟩
  obtain ⟨volume, level, loss, profit⟩ := carried.trimmed
  simp only [writtenSignal, form, List.forall_mem_append]
  exact ⟨⟨⟨⟨⟨formed (by decide) volume, formed (by decide) level⟩, formed (by decide) loss⟩,
    formed (by decide) profit⟩, formed (by decide) (trim_strip _)⟩, formed (by decide) (trim_strip _)⟩

/-! ### What the parser asks -/

theorem names_commandOf (known : text ∈ webhookTestCommands) :
    Names commandNames text (commandOf text) := by
  have all : (webhookTestCommands.all fun name => commandNames.any fun row =>
      row.1.contains (lowerASCII name) && row.2 = commandOf name) = true := by decide +kernel
  have found := List.all_eq_true.mp all text known
  simp only [List.any_eq_true, Bool.and_eq_true, decide_eq_true_eq, List.contains_iff_mem] at found
  obtain ⟨⟨names, command⟩, member, named, rfl⟩ := found
  exact ⟨names, member, named⟩

theorem spelled_written (known : fields.givenCommand upper ∈ webhookTestCommands)
    (carried : Carried upper fields volLots risk sl tp) :
    Spelled (writtenSignal upper env fields volLots risk sl tp) where
  command := names_commandOf known
  keys item member := (carried.formed env item member).names

variable {test : ParamKind → Bool}

theorem countP_written (once : testKinds.countP test ≤ 1) :
    (writtenSignal upper env fields volLots risk sl tp).params.countP (fun item => test item.kind) ≤ 1 := by
  have fewer := (map_kind_form volLots risk sl tp fields.givenComment env.webhookSecret).countP_le
    (p := test)
  rw [List.countP_map] at fewer
  exact fewer.trans once

theorem not_written (none : testKinds.all (fun kind => !test kind) = true) :
    ¬∃ kind ∈ (writtenSignal upper env fields volLots risk sl tp).params.map Param.kind,
      test kind = true := by
  rintro ⟨kind, member, passes⟩
  have fails := List.all_eq_true.mp none kind ((map_kind_form ..).subset member)
  rw [passes] at fails
  cases fails

theorem rules_written (known : fields.givenCommand upper ∈ webhookTestCommands)
    (carried : Carried upper fields volLots risk sl tp) : CrossFieldRules
      (commandOf (fields.givenCommand upper)) (pythonStrip fields.symbol)
      ((writtenSignal upper env fields volLots risk sl tp).params.map Param.kind) := by
  have commands : ∀ name ∈ webhookTestCommands, commandOf name ≠ .eaOff ∧ commandOf name ≠ .eaOn ∧
      ((commandOf name).opensOrder = true → name ∈ webhookTestOpens) ∧
      (commandOf name).isPendingOpen = false ∧ (commandOf name).isModify = false ∧
      commandOf name ≠ .closeLongVol ∧ commandOf name ≠ .closeShortVol := by decide +kernel
  obtain ⟨notOff, notOn, opens, notPending, notModify, notLong, notShort⟩ := commands _ known
  refine
    { eaOffSymbol := fun same => absurd same notOff
      eaOnSymbol := fun same => absurd same notOn
      opensNeedVolume := fun opening => .inl ⟨.volLots, ?_, rfl⟩
      pendingNeedsEntry := fun pending => absurd (notPending.symm.trans pending) Bool.false_ne_true
      lossRiskNeedsSL := fun some => absurd some (not_written (by decide))
      atrComplete := fun some => absurd some (not_written (by decide))
      modifyNeedsLevel := fun modify => absurd (notModify.symm.trans modify) Bool.false_ne_true
      partialVolumeNeedsRisk := fun volume => absurd volume (by simp [notLong, notShort]) }
  rcases carried with ⟨-, volume, -⟩ | ⟨closes, -⟩
  · exact List.mem_map.mpr ⟨_, List.mem_append_left _ (mem_form.mpr
      (.inl (mem_optional.mpr ⟨volume, rfl⟩))), rfl⟩
  · exact absurd (opens opening) closes

/-- **What the format asks** beyond what is checked: no commas, and a short comment. -/
theorem writable_written (known : fields.givenCommand upper ∈ webhookTestCommands)
    (symbolGiven : pythonStrip fields.symbol ≠ []) (carried : Carried upper fields volLots risk sl tp)
    (given : env.licenseID ≠ []) (plain : comma ∉ env.licenseID)
    (symbol : comma ∉ pythonStrip fields.symbol)
    (values : ∀ item ∈ (writtenSignal upper env fields volLots risk sl tp).params, comma ∉ item.value)
    (short : fields.givenComment.length ≤ maxComment) :
    Writable (writtenSignal upper env fields volLots risk sl tp) where
  license := ⟨given, plain, trim_strip _⟩
  symbol := ⟨symbolGiven, symbol, trim_strip _⟩
  values item member := by
    have formed := carried.formed env item member
    exact ⟨formed.given, values item member, formed.trimmed⟩
  oneVolume := countP_written (by decide)
  oneSL := countP_written (by decide)
  oneTP := countP_written (by decide)
  oneEntry := countP_written (by decide)
  shortComment item member comment := by
    rcases List.mem_append.mp member with member | member
    · rcases mem_form.mp member with member | member | member | member | member
      all_goals
        obtain ⟨-, rfl⟩ := mem_optional.mp member
        first
          | exact short
          | cases comment
    · obtain ⟨-, rfl⟩ := mem_optional.mp member
      cases comment
  rules := rules_written known carried

end Written

/-! ### What the parser returns -/

section Read

variable {upper : Bytes → Bytes} {env : Environment} {fields : Fields} {volLots risk sl tp text : Bytes}
  {signal : Signal}

/-- Nothing that is read has a comma, and a comment that is read is short. -/
theorem plain_of_parse (parses : parse text = .ok signal) :
    comma ∉ signal.symbol ∧ (∀ item ∈ signal.params, comma ∉ item.value) ∧
      ∀ item ∈ signal.params, item.kind = .comment → item.value.length ≤ maxComment := by
  obtain ⟨license, command, symbol, further, split, accepted, -, -, -, rfl, params⟩ :=
    Parser.parse_parts parses
  have plain {piece : Bytes} (member : piece ∈ Parser.pieces text) : comma ∉ piece := by
    obtain ⟨part, inside, rfl⟩ := List.mem_map.mp member
    obtain ⟨before, after, cut⟩ := List.append_of_mem inside
    obtain ⟨_, _, _, absent, _⟩ := exists_splitOn cut
    exact fun found => absent (mem_of_mem_trim found)
  rw [split] at plain
  refine ⟨plain (by simp), ?_, ?_⟩
  · rw [params, List.forall_mem_map]
    intro piece member found
    refine plain (List.mem_cons_of_mem _ (List.mem_cons_of_mem _ (List.mem_cons_of_mem _ member))) ?_
    exact (List.dropWhile_sublist _).subset
      ((List.tail_sublist _).subset (mem_of_mem_trim found))
  · rw [params, List.forall_mem_map]
    exact accepted.shortComment

/-- A secret that is written is read as one, even if it is cut at a comma. -/
theorem secret_of_parse (known : fields.givenCommand upper ∈ webhookTestCommands)
    (plain : comma ∉ env.licenseID) (symbol : comma ∉ pythonStrip fields.symbol)
    (carried : Carried upper fields volLots risk sl tp)
    (values : ∀ item ∈ form volLots risk sl tp fields.givenComment, comma ∉ item.value)
    (given : env.webhookSecret ≠ [])
    (parses : parse (writtenSignal upper env fields volLots risk sl tp).writeRaw = .ok signal) :
    ∃ item ∈ signal.params, item.kind = .secret := by
  obtain ⟨license, command, word, pieces, split, -, -, -, -, -, params⟩ := Parser.parse_parts parses
  have names : ∀ name ∈ webhookTestCommands, comma ∉ name := by decide +kernel
  have keys : ∀ kind ∈ testKinds, comma ∉ kind.string ++ [Parser.equals] := by decide +kernel
  have others : ∀ field ∈ env.licenseID :: fields.givenCommand upper :: pythonStrip fields.symbol ::
      (form volLots risk sl tp fields.givenComment).map Param.write, comma ∉ field := by
    simp only [List.forall_mem_cons, List.forall_mem_map]
    refine ⟨plain, names _ known, symbol, fun item member => ?_⟩
    have formed := carried.formed env item (List.mem_append_left _ member)
    rw [Param.write, formed.key, List.mem_append, not_or]
    exact ⟨keys item.kind formed.kind, values item member⟩
  -- the first part of the last field still starts with the key
  obtain ⟨value, rest, cut⟩ : ∃ value rest, (param .secret env.webhookSecret).write.splitOn comma =
      (param .secret value).write :: rest := by
    obtain ⟨value, rest, cut⟩ := List.exists_cons_of_ne_nil (List.splitOn_ne_nil comma env.webhookSecret)
    have split := splitOn_append_of_not_mem (keys .secret (by decide)) env.webhookSecret
    rw [cut] at split
    exact ⟨value, rest, split⟩
  have trimmed : trim isASCIISpace (param .secret value).write =
      (param .secret (value.rdropWhile isASCIISpace)).write := by
    have key : ParamKind.secret.string.dropWhile isASCIISpace = ParamKind.secret.string := by decide
    rw [Param.write, List.append_assoc, List.singleton_append, trim_append_cons (by decide)]
    show ParamKind.secret.string.dropWhile isASCIISpace ++ _ = _
    rw [key, Param.write, List.append_assoc]
    rfl
  have joined : (writtenSignal upper env fields volLots risk sl tp).rawFields = (env.licenseID ::
      fields.givenCommand upper :: pythonStrip fields.symbol ::
        (form volLots risk sl tp fields.givenComment).map Param.write) ++
          [(param .secret env.webhookSecret).write] := by
    simp [writtenSignal, Signal.rawFields, optional_of_ne given]
  rw [Parser.pieces, map_trim_splitOn (by decide), Signal.writeRaw, joined, splitOn_join_concat others,
    cut, List.map_append] at split
  simp only [List.map_cons, List.cons_append, List.cons.injEq, trimmed] at split
  obtain ⟨-, -, -, rfl⟩ := split
  have named : Names paramNames ParamKind.secret.string .secret := ⟨_, by decide, List.mem_singleton_self _⟩
  have kind : Parser.kindOf (param .secret (value.rdropWhile isASCIISpace)).write =
      (param .secret (value.rdropWhile isASCIISpace)).kind := Parser.kindOf_write named
  rw [params]
  exact ⟨_, List.mem_map_of_mem (List.mem_append_right _ List.mem_cons_self), kind⟩

/-- What is supplied and read has no comma, so what is written has none. -/
theorem Carried.plain (carried : Carried upper fields volLots risk sl tp)
    (values : ∀ item ∈ fields.supplied, comma ∉ item.value) :
    ∀ item ∈ form volLots risk sl tp fields.givenComment, comma ∉ item.value := by
  have supplied (kind : ParamKind) (text : Bytes)
      (inside : param kind text ∈ optional kind text → param kind text ∈ fields.supplied) :
      comma ∉ text := by
    intro found
    exact values _ (inside (mem_optional.mpr ⟨List.ne_nil_of_mem found, rfl⟩)) found
  have first := supplied .volLots _ fun found => mem_form.mpr (.inl found)
  have second := supplied .risk _ fun found => mem_form.mpr (.inr (.inl found))
  have third := supplied .sl _ fun found => mem_form.mpr (.inr (.inr (.inl found)))
  have fourth := supplied .tp _ fun found => mem_form.mpr (.inr (.inr (.inr (.inl found))))
  have comment : comma ∉ fields.givenComment := by
    unfold Fields.givenComment orElse
    split_ifs
    · decide +kernel
    · exact supplied .comment _ fun found => mem_form.mpr (.inr (.inr (.inr (.inr found))))
  rcases carried with ⟨-, -, rfl, rfl, rfl, mode⟩ | ⟨-, rfl, rfl, rfl, rfl⟩
  · refine forall_mem_form (comma ∉ ·) first ?_ third fourth comment
    rcases mode with ⟨-, rfl⟩ | ⟨-, rfl⟩ | ⟨-, rfl⟩
    · decide
    · exact second
    · exact List.not_mem_nil
  · exact forall_mem_form (comma ∉ ·) List.not_mem_nil List.not_mem_nil List.not_mem_nil
      List.not_mem_nil comment

/-- **The parser gives back what was supplied** exactly if it all goes through as it is. -/
theorem read_as_supplied_iff (given : env.licenseID ≠ []) (plain : comma ∉ env.licenseID)
    (built : buildTestSignalCommand upper env fields = .ok text) :
    ReadAsSupplied upper fields text ↔ Sendable upper env fields := by
  obtain ⟨known, symbolGiven, volLots, risk, sl, tp, carried, rfl⟩ := writeRaw_of_build built
  have spelled : Spelled (writtenSignal upper env fields volLots risk sl tp) := spelled_written known carried
  constructor
  · rintro ⟨signal, parses, -, named, params⟩
    obtain ⟨symbol, values, short⟩ := plain_of_parse parses
    rw [named] at symbol
    rw [params] at values short
    have brief : (pythonStrip fields.comment).length ≤ maxComment := by
      by_cases some : pythonStrip fields.comment = []
      · rw [some]
        exact Nat.zero_le _
      · exact short (param .comment _)
          (mem_form.mpr (.inr (.inr (.inr (.inr (mem_optional.mpr ⟨some, rfl⟩)))))) rfl
    have written := carried.plain values
    have secret : env.webhookSecret = [] := by
      by_contra some
      obtain ⟨item, member, kind⟩ := secret_of_parse known plain symbol carried written some parses
      rw [params] at member
      rcases mem_form.mp member with member | member | member | member | member
      all_goals
        rw [(mem_optional.mp member).2] at kind
        cases kind
    have writable : Writable (writtenSignal upper env fields volLots risk sl tp) := by
      refine writable_written known symbolGiven carried given plain symbol ?_ ?_
      · simp only [writtenSignal, secret, List.forall_mem_append]
        exact ⟨written, List.forall_mem_nil _⟩
      · unfold Fields.givenComment orElse
        split_ifs
        · decide +kernel
        · exact brief
    rw [Except.ok.inj (parses.symm.trans (Parser.parse_writeRaw spelled writable))] at params
    have same : form volLots risk sl tp fields.givenComment ++ optional .secret env.webhookSecret =
        fields.supplied := params
    rw [secret] at same
    obtain ⟨sameVolume, sameRisk, sameLoss, sameProfit, sameComment⟩ :=
      form_inj ((List.append_nil _).symm.trans same)
    refine ⟨symbol, values, brief, fun empty => ?_, secret, fun opens mode => ?_, fun opens mode => ?_,
      fun closes => ?_⟩
    · rw [Fields.givenComment, orElse, if_pos empty, empty] at sameComment
      exact absurd sameComment (by decide +kernel)
    · rcases carried with ⟨-, -, -, -, -, ⟨-, rfl⟩ | ⟨other, -⟩ | ⟨other, -⟩⟩ | ⟨closes, -⟩
      · exact sameRisk.symm
      · exact absurd (mode.symm.trans other) (by decide)
      · exact absurd (mode.symm.trans other) (by decide)
      · exact absurd opens closes
    · rcases carried with ⟨-, -, -, -, -, ⟨other, -⟩ | ⟨other, -⟩ | ⟨-, rfl⟩⟩ | ⟨closes, -⟩
      · exact absurd (mode.symm.trans other) (by decide)
      · exact absurd (mode.symm.trans other) (by decide)
      · exact sameRisk.symm
      · exact absurd opens closes
    · rcases carried with ⟨opens, -⟩ | ⟨-, rfl, rfl, rfl, rfl⟩
      · exact absurd opens closes
      · exact ⟨sameVolume.symm, sameRisk.symm, sameLoss.symm, sameProfit.symm⟩
  · intro sendable
    have comment : fields.givenComment = pythonStrip fields.comment := by
      rw [Fields.givenComment, orElse, if_neg sendable.commented]
    have same : (writtenSignal upper env fields volLots risk sl tp).params = fields.supplied := by
      show form volLots risk sl tp fields.givenComment ++ optional .secret env.webhookSecret = _
      rw [comment, sendable.secret, Fields.supplied]
      refine (List.append_nil _).trans ?_
      rcases carried with
        ⟨opens, -, rfl, rfl, rfl, ⟨mode, rfl⟩ | ⟨-, rfl⟩ | ⟨mode, rfl⟩⟩ | ⟨closes, rfl, rfl, rfl, rfl⟩
      · rw [sendable.bypass opens mode]
      · rfl
      · rw [sendable.stack opens mode]
      · obtain ⟨volume, level, loss, profit⟩ := sendable.closing closes
        rw [volume, level, loss, profit]
    refine ⟨writtenSignal upper env fields volLots risk sl tp, Parser.parse_writeRaw spelled ?_, rfl, rfl,
      same⟩
    refine writable_written known symbolGiven carried given plain sendable.symbol ?_ ?_
    · rw [same]
      exact sendable.values
    · rw [comment]
      exact sendable.short

end Read

def sampleEnvironment : Environment :=
  ⟨lit "00000000042", []⟩

def sampleFields : Fields where
  command := lit "buy"
  symbol := lit "XAUUSD"
  volLots := lit "0.01"
  riskMode := lit "custom"
  risk := lit "25"
  sl := lit "10"
  tp := lit "20"
  comment := lit "hi"

theorem read_as_supplied_sample :
    ∃ text, buildTestSignalCommand upperASCII sampleEnvironment sampleFields = .ok text ∧
      (ReadAsSupplied upperASCII sampleFields text ↔
        Sendable upperASCII sampleEnvironment sampleFields) :=
  ⟨lit "00000000042,BUY,XAUUSD,vol_lots=0.01,risk=25,sl=10,tp=20,comment=hi",
    by decide +kernel,
    read_as_supplied_iff (by decide +kernel) (by decide +kernel) (by decide +kernel)⟩

/-- A comment with a comma. -/
def commaFields : Fields :=
  { sampleFields with comment := lit "hi,spread=3" }

def commaText : Bytes :=
  lit "00000000042,BUY,XAUUSD,vol_lots=0.01,risk=25,sl=10,tp=20,comment=hi,spread=3"

/-- **What is behind the comma of a comment** is read as another parameter. -/
theorem comment_splits :
    sampleEnvironment.licenseID ≠ [] ∧ comma ∉ sampleEnvironment.licenseID ∧
      buildTestSignalCommand upperASCII sampleEnvironment commaFields = .ok commaText ∧
      ¬ReadAsSupplied upperASCII commaFields commaText := by
  refine ⟨by decide +kernel, by decide +kernel, by decide +kernel, ?_⟩
  rintro ⟨signal, parses, _, _, params⟩
  have six : (parse commaText).toOption.all (fun signal => signal.params.length == 6) = true := by
    decide +kernel
  have five : commaFields.supplied.length = 5 := by decide +kernel
  rw [parses] at six
  rw [← params] at five
  exact absurd (five.symm.trans (eq_of_beq six)) (by decide)

end ExecRelay.Dashboard
