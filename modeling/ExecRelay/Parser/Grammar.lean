/-
**What an alert is.**

The language of alerts in its own terms, without positions or flags: the trimmed text is split at
every comma and each piece is trimmed. The first three pieces are license, command and symbol; every
further piece is `key=value`. `Accepted` lists what the pieces must satisfy, `Holds` what the parsed
signal then consists of.

The lookup tables are read through `Names`: a name is matched without regard to ASCII case
(`eqFoldASCII_iff`), and since no name stands in a table twice, the switch over the cases finds an
entry exactly when the text is one of its names (`lookupName_iff`).
-/

import ExecRelay.Parser.Parse

namespace ExecRelay.Parser

open Lib

/-! ### Pieces -/

def pieces (input : Bytes) : List Bytes :=
  ((trim isASCIISpace input).splitOn comma).map (trim isASCIISpace)

def keyText (piece : Bytes) : Bytes :=
  trim isASCIISpace (piece.takeWhile (· != equals))

def valueText (piece : Bytes) : Bytes :=
  trim isASCIISpace (piece.dropWhile (· != equals)).tail

def kindOf (piece : Bytes) : ParamKind := paramKindFromKey (keyText piece)

def paramOf (piece : Bytes) : Param := ⟨kindOf piece, keyText piece, valueText piece⟩

/-! ### Names -/

/-- `text` is one of the names of `entry`, without regard to ASCII case. -/
def Names {Entry : Type} (table : List (List Bytes × Entry)) (text : Bytes) (entry : Entry) :
    Prop :=
  ∃ names, (names, entry) ∈ table ∧ lowerASCII text ∈ names

theorem eqFoldASCII_iff (value want : Bytes) :
    eqFoldASCII value want = true ↔ lowerASCII value = want := by
  induction value generalizing want with
  | nil => cases want <;> simp [eqFoldASCII, lowerASCII]
  | cons byte rest ih =>
    cases want with
    | nil => simp [eqFoldASCII, lowerASCII]
    | cons first others =>
      have split : eqFoldASCII (byte :: rest) (first :: others) = true ↔
          lowerByte byte = first ∧ eqFoldASCII rest others = true := by
        simp only [eqFoldASCII, List.length_cons, Bool.and_eq_true, beq_iff_eq,
          Nat.add_right_cancel_iff, List.zipWith_cons_cons, List.all_cons, id_eq]
        tauto
      rw [split, ih]
      simp only [lowerASCII, List.map_cons, List.cons.injEq]

theorem any_eqFoldASCII_iff (text : Bytes) (names : List Bytes) :
    names.any (eqFoldASCII text) = true ↔ lowerASCII text ∈ names := by
  rw [List.any_eq_true]
  constructor
  · rintro ⟨name, member, equal⟩
    rw [(eqFoldASCII_iff text name).mp equal]
    exact member
  · intro member
    exact ⟨_, member, (eqFoldASCII_iff text _).mpr rfl⟩

/-- **The switch over a table without repeated names** finds exactly the entry the text names. -/
theorem lookupName_iff {Entry : Type} (table : List (List Bytes × Entry))
    (distinct : (table.flatMap Prod.fst).Nodup) (text : Bytes) (entry : Entry) :
    lookupName table text = some entry ↔ Names table text entry := by
  induction table with
  | nil => simp [lookupName, Names]
  | cons row rest ih =>
    obtain ⟨names, first⟩ := row
    rw [List.flatMap_cons, List.nodup_append] at distinct
    obtain ⟨_, distinctRest, apart⟩ := distinct
    have tail : Names ((names, first) :: rest) text entry ↔
        lowerASCII text ∈ names ∧ entry = first ∨ Names rest text entry := by
      simp only [Names, List.mem_cons, Prod.mk.injEq]
      constructor
      · rintro ⟨others, ⟨rfl, rfl⟩ | member, named⟩
        · exact Or.inl ⟨named, rfl⟩
        · exact Or.inr ⟨others, member, named⟩
      · rintro (⟨named, rfl⟩ | ⟨others, member, named⟩)
        · exact ⟨names, Or.inl ⟨rfl, rfl⟩, named⟩
        · exact ⟨others, Or.inr member, named⟩
    rw [tail]
    by_cases here : lowerASCII text ∈ names
    · have notLater : ¬ Names rest text entry := by
        rintro ⟨others, member, named⟩
        exact apart _ here _ (List.mem_flatMap.mpr ⟨_, member, named⟩) rfl
      have found : lookupName ((names, first) :: rest) text = some first := by
        rw [lookupName, List.find?_cons_of_pos (by rw [any_eqFoldASCII_iff]; exact here)]
        rfl
      rw [found]
      simp only [Option.some.injEq, here, notLater, or_false, true_and]
      exact eq_comm
    · have skipped : lookupName ((names, first) :: rest) text = lookupName rest text := by
        rw [lookupName, List.find?_cons_of_neg (by rw [any_eqFoldASCII_iff]; exact here)]
        rfl
      rw [skipped, ih distinctRest]
      simp only [here, false_and, false_or]

theorem commandNames_nodup : (commandNames.flatMap Prod.fst).Nodup := by decide +kernel

theorem paramNames_nodup : (paramNames.flatMap Prod.fst).Nodup := by decide +kernel

/-- The default of a lookup is no entry, so the lookup gives it exactly to unknown texts. -/
theorem lookupName_getD_ne {Entry : Type} [DecidableEq Entry] (table : List (List Bytes × Entry))
    (distinct : (table.flatMap Prod.fst).Nodup) (default : Entry)
    (absent : ∀ row ∈ table, row.2 ≠ default) (text : Bytes) :
    (lookupName table text).getD default ≠ default ↔ ∃ entry, Names table text entry := by
  cases found : lookupName table text with
  | none =>
    simp only [Option.getD_none, ne_eq, not_true_eq_false, false_iff]
    rintro ⟨entry, named⟩
    rw [(lookupName_iff table distinct text entry).mpr named] at found
    cases found
  | some entry =>
    have named := (lookupName_iff table distinct text entry).mp found
    obtain ⟨names, member, _⟩ := id named
    exact ⟨fun _ => ⟨entry, named⟩, fun _ => absent _ member⟩

theorem commandFrom_ne_invalid (raw : Bytes) :
    commandFrom raw ≠ .invalid ↔ ∃ command, Names commandNames raw command :=
  lookupName_getD_ne commandNames commandNames_nodup _ (by decide) raw

theorem paramKindFromKey_ne_unknown (key : Bytes) :
    paramKindFromKey key ≠ .unknown ↔ ∃ kind, Names paramNames key kind :=
  lookupName_getD_ne paramNames paramNames_nodup _ (by decide) key

theorem commandFrom_of_names {raw : Bytes} {command : Command}
    (named : Names commandNames raw command) : commandFrom raw = command := by
  rw [commandFrom, (lookupName_iff commandNames commandNames_nodup raw command).mpr named]
  rfl

theorem paramKindFromKey_of_names {key : Bytes} {kind : ParamKind}
    (named : Names paramNames key kind) : paramKindFromKey key = kind := by
  rw [paramKindFromKey, (lookupName_iff paramNames paramNames_nodup key kind).mpr named]
  rfl

/-- A text that names an entry consists of bytes that the names consist of, for a set of bytes that
holds the capitals of its letters. -/
theorem forall_of_names {Entry : Type} {table : List (List Bytes × Entry)} {fine : UInt8 → Bool}
    (capital : ∀ byte, fine (lowerByte byte) = true → fine byte = true)
    (every : (table.all fun row => row.1.all fun name => name ≠ [] && name.all fine) = true)
    {text : Bytes} {entry : Entry} (named : Names table text entry) :
    text ≠ [] ∧ ∀ byte ∈ text, fine byte = true := by
  obtain ⟨names, member, named⟩ := named
  have spelled := List.all_eq_true.mp (List.all_eq_true.mp every _ member) _ named
  rw [Bool.and_eq_true, decide_eq_true_eq, List.all_eq_true] at spelled
  constructor
  · rintro rfl
    exact spelled.1 rfl
  · intro byte inside
    exact capital byte (spelled.2 _ (List.mem_map_of_mem inside))

/-! ### The rules -/

/-- The volumes that state a loss: they need a stop loss to be turned into lots. -/
def ParamKind.isLossRisk : ParamKind → Bool
  | .volDollar | .volPctBalanceLoss | .volPctEquityLoss => true
  | _ => false

def ParamKind.isATR : ParamKind → Bool
  | .atrTimeframe | .atrPeriod | .atrMultiplier | .atrShift | .atrTrigger => true
  | _ => false

/-- **The cross-field rules**, over the command, the symbol and the kinds of the parameters. -/
structure CrossFieldRules (command : Command) (symbol : Bytes) (kinds : List ParamKind) : Prop where
  eaOffSymbol : command = .eaOff → lowerASCII symbol = lit "eaoff"
  eaOnSymbol : command = .eaOn → lowerASCII symbol = lit "eaon"
  opensNeedVolume : command.opensOrder → (∃ kind ∈ kinds, kind.isVolume) ∨ .risk ∈ kinds
  pendingNeedsEntry : command.isPendingOpen → ∃ kind ∈ kinds, kind.isEntry
  lossRiskNeedsSL : (∃ kind ∈ kinds, kind.isLossRisk) → ∃ kind ∈ kinds, kind.isSL
  atrComplete : (∃ kind ∈ kinds, kind.isATR) → .atrTimeframe ∈ kinds ∧ .atrPeriod ∈ kinds
  modifyNeedsLevel :
    command.isModify → (∃ kind ∈ kinds, kind.isSL) ∨ ∃ kind ∈ kinds, kind.isTP
  partialVolumeNeedsRisk : command = .closeLongVol ∨ command = .closeShortVol → .risk ∈ kinds

/-- A further piece is a parameter: it has an equals sign, text on both sides of the first one, and
a known key. -/
structure IsParam (piece : Bytes) : Prop where
  hasEquals : equals ∈ piece
  key : keyText piece ≠ []
  value : valueText piece ≠ []
  known : ∃ kind, Names paramNames (keyText piece) kind

/-- **An accepted alert**, by its pieces. -/
structure Accepted (license command symbol : Bytes) (further : List Bytes) : Prop where
  licenseGiven : license ≠ []
  commandGiven : command ≠ []
  symbolGiven : symbol ≠ []
  commandKnown : ∃ entry, Names commandNames command entry
  isParam : ∀ piece ∈ further, IsParam piece
  atMost : further.length ≤ 48
  oneVolume : further.countP (fun piece => (kindOf piece).isVolume) ≤ 1
  oneSL : further.countP (fun piece => (kindOf piece).isSL) ≤ 1
  oneTP : further.countP (fun piece => (kindOf piece).isTP) ≤ 1
  oneEntry : further.countP (fun piece => (kindOf piece).isEntry) ≤ 1
  shortComment : ∀ piece ∈ further, kindOf piece = .comment → (valueText piece).length ≤ 20
  rules : CrossFieldRules (commandFrom command) symbol (further.map kindOf)

/-- The pieces are an accepted alert: there are at least three of them, and they satisfy the
rules. -/
def AcceptedPieces : List Bytes → Prop
  | license :: command :: symbol :: further => Accepted license command symbol further
  | _ => False

/-- **What a parsed signal consists of**: the three leading pieces as they are, the command the
second one names, and one parameter for every further piece, in order, with the kind its key names
and the two texts around its first equals sign. -/
def Holds (signal : Signal) : List Bytes → Prop
  | license :: command :: symbol :: further =>
    signal.licenseID = license ∧ signal.rawCommand = command ∧ signal.symbol = symbol ∧
      Names commandNames command signal.command ∧
      signal.params.map Param.key = further.map keyText ∧
      signal.params.map Param.value = further.map valueText ∧
      ∀ param ∈ signal.params, Names paramNames param.key param.kind
  | _ => False

end ExecRelay.Parser
