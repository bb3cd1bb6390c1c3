/-
**Which positions an amendment reaches** (`ModifySLTP` of the terminal, `modify_positions_sltp` of the
shim).

An amendment is meant for the positions of one channel, those with its comment or with the comment of a
market order in place of a pending one. Both programs take every position whose comment begins with the
scope, so that a channel `gold` also moves the levels of `gold2`. A level that is not given is sent as the
position has it, so none is removed.
-/

import ExecRelay.EA.Closing
import ExecRelay.Shim.Risk

namespace ExecRelay.Execution

open Lib
open Lib.Program (OnlyUnder Yields onlyUnder_bind)

/-- The comments of one channel: its own and that of a market order in place of a pending one. -/
def OfChannel {Letter : Type} (suffix scope comment : List Letter) : Prop :=
  comment = scope ∨ comment = scope ++ suffix

theorem exists_key_iff {Entry Key : Type} {key : Entry → Key} {list : List Entry}
    (distinct : (list.map key).Nodup) {entry : Entry} (inside : entry ∈ list) (good : Entry → Prop) :
    (∃ other ∈ list, key other = key entry ∧ good other) ↔ good entry := by
  constructor
  · rintro ⟨other, member, same, holds⟩
    rwa [← List.inj_on_of_nodup_map distinct member inside same]
  · exact fun holds => ⟨entry, inside, rfl, holds⟩

/-! ### The terminal -/

section Terminal

variable {Number : Type} (doubles : Doubles Number) (settings : EA.Settings) (sym : Bytes)
  (want : EA.PositionType) (scope : Bytes) (positions : List (EA.Position Number))

/-- The terminal has these positions. -/
def Lists : (op : EA.Op Number) → EA.Answer op → Prop
  | .positionsTotal, answer => answer = positions.length
  | .position index, answer => answer = positions[index]?
  | _, _ => True

def isWanted (position : EA.Position Number) : Bool :=
  EA.isOwn settings sym position && position.type = want

/-- An amendment is for a position of the channel, and removes no level of it. -/
def Amends : EA.Op Number → Prop
  | .positionModify ticket sl tp => ∃ position ∈ positions, position.ticket = ticket ∧
      isWanted settings sym want position = true ∧ OfChannel (lit "_M") scope position.comment ∧
      (doubles.eq sl (doubles.ofNat 0) = true → doubles.eq position.sl (doubles.ofNat 0) = true) ∧
      (doubles.eq tp (doubles.ofNat 0) = true → doubles.eq position.tp (doubles.ofNat 0) = true)
  | _ => True

variable {doubles settings sym want scope positions}

theorem onlyUnder_countDown {answers : (op : EA.Op Number) → EA.Answer op → Prop}
    {allowed : EA.Op Number → Prop} {body : Nat → EA.Tally → EA.Terminal Number EA.Tally}
    {good : Nat → Prop}
    (each : ∀ index tally, (body index tally).OnlyUnder answers allowed ↔ good index)
    (ends : ∀ index tally, ∃ result, (body index tally).Yields answers result) (total : Nat) :
    ∀ tally, (EA.countDown body total tally).OnlyUnder answers allowed ↔
      ∀ index < total, good index := by
  induction total with
  | zero => exact fun _ => ⟨fun _ _ below => absurd below (Nat.not_lt_zero _), fun _ => trivial⟩
  | succ total ih =>
    intro tally
    obtain ⟨result, yields⟩ := ends total tally
    rw [EA.countDown, onlyUnder_bind, each, Nat.forall_lt_succ_right, and_comm]
    refine and_congr_left fun _ => ⟨fun every => (ih result).mp (every result yields), ?_⟩
    exact fun every tally _ => (ih tally).mpr every

/-- A level that is sent is zero only if the level of the position was. -/
theorem isZero_of_kept (positive : ∀ level, doubles.lt (doubles.ofNat 0) level = true →
      doubles.eq level (doubles.ofNat 0) = false) {new old : Number}
    (zero : doubles.eq (if doubles.lt (doubles.ofNat 0) new then new else old)
      (doubles.ofNat 0) = true) : doubles.eq old (doubles.ofNat 0) = true := by
  split at zero
  · rename_i above
    rw [positive new above] at zero
    cases zero
  · exact zero

theorem onlyUnder_modifyOne_iff {allowed : EA.Op Number → Prop}
    (read : ∀ index, allowed (.position index)) (newSL newTP : Number) (index : Nat)
    (tally : EA.Tally) :
    (EA.modifyOne doubles settings sym want newSL newTP scope index tally).OnlyUnder (Lists positions)
        allowed ↔
      ∀ position, positions[index]? = some position →
        (isWanted settings sym want position && scope.isPrefixOf position.comment) = true →
        allowed (.positionModify position.ticket
          (if doubles.lt (doubles.ofNat 0) newSL then newSL else position.sl)
          (if doubles.lt (doubles.ofNat 0) newTP then newTP else position.tp)) := by
  rw [EA.modifyOne, EA.invoke, Program.perform_bind, OnlyUnder, and_iff_right (read index)]
  constructor
  · intro every position found touched
    have only := every (some position) found.symm
    rw [isWanted] at touched
    dsimp only at only
    rw [if_pos touched] at only
    exact only.1
  · rintro every answer found
    cases answer with
    | none => trivial
    | some position =>
      dsimp only
      split
      · rename_i touched
        exact ⟨every position found.symm touched, fun _ _ => trivial⟩
      · trivial

theorem yields_modifyOne (newSL newTP : Number) (index : Nat) (tally : EA.Tally) :
    ∃ result, (EA.modifyOne doubles settings sym want newSL newTP scope index tally).Yields
      (Lists positions) result := by
  simp only [EA.modifyOne, EA.invoke, Program.perform_bind, Yields, Lists, exists_eq_left]
  cases positions[index]? with
  | none => exact ⟨tally, rfl⟩
  | some position =>
    dsimp only
    split
    · exact ⟨tally.add true, true, trivial, rfl⟩
    · exact ⟨tally, rfl⟩

theorem onlyUnder_modifySLTP_iff (positive : ∀ level, doubles.lt (doubles.ofNat 0) level = true →
      doubles.eq level (doubles.ofNat 0) = false)
    (distinct : (positions.map (·.ticket)).Nodup) (traceID : Bytes) (newSL newTP : Number) :
    (EA.modifySLTP doubles settings traceID sym want newSL newTP scope).OnlyUnder (Lists positions)
        (Amends doubles settings sym want scope positions) ↔
      ∀ position ∈ positions, isWanted settings sym want position = true →
        scope <+: position.comment → OfChannel (lit "_M") scope position.comment := by
  rw [EA.modifySLTP, EA.invoke, Program.perform_bind, OnlyUnder]
  simp only [Amends, Lists, forall_eq, true_and]
  rw [onlyUnder_bind, onlyUnder_countDown (onlyUnder_modifyOne_iff (fun _ => trivial) newSL newTP)
      (yields_modifyOne newSL newTP), and_iff_left fun tally _ => ⟨trivial, fun _ _ => trivial⟩]
  constructor
  · intro every position inside wanted starts
    obtain ⟨index, below, found⟩ := List.getElem_of_mem inside
    have amends := every index below position (List.getElem?_eq_some_iff.mpr ⟨below, found⟩)
      (Bool.and_eq_true_iff.mpr ⟨wanted, List.isPrefixOf_iff_prefix.mpr starts⟩)
    exact ((exists_key_iff distinct inside _).mp amends).2.1
  · intro every index _ position found touched
    have inside := List.mem_of_getElem? found
    obtain ⟨wanted, starts⟩ := Bool.and_eq_true_iff.mp touched
    exact ⟨position, inside, rfl, wanted,
      every position inside wanted (List.isPrefixOf_iff_prefix.mp starts),
      isZero_of_kept positive, isZero_of_kept positive⟩

end Terminal

/-! ### The shim -/

section Shim

variable (settings : Shim.Settings) (symbol : Shim.Text) (side : Shim.Side) (scope : Shim.Text)
  (positions : List Shim.Position)

def Sends : Shim.Op → Prop
  | .orderSend (.levels levels) => levels.symbol = symbol ∧ levels.magic = settings.magic ∧
      ∃ position ∈ positions, position.ticket = levels.position ∧
        Shim.owns settings side position = true ∧ OfChannel (Shim.text "_M") scope position.comment ∧
        (levels.sl = 0 → position.sl = 0) ∧ (levels.tp = 0 → position.tp = 0)
  | .orderSend (.order _) => False
  | _ => True

variable {settings symbol side scope positions}

theorem eq_zero_of_kept {new old : ℚ} (zero : (if 0 < new then new else old) = 0) : old = 0 := by
  split at zero
  · rename_i above
    exact absurd zero above.ne'
  · exact zero

theorem onlyUnder_modifyEach_iff {terminal : Shim.Terminal} {allowed : Shim.Op → Prop}
    (reads : allowed .lastError) (tp sl : ℚ) (rest : List Shim.Position) :
    ∀ changed, (Shim.modifyEach settings symbol side tp sl scope rest changed).OnlyUnder
        terminal.Answers allowed ↔
      ∀ position ∈ rest,
        (Shim.owns settings side position && scope.isPrefixOf position.comment) = true →
        allowed (.orderSend (.levels
          { symbol := symbol
            position := position.ticket
            sl := if 0 < sl then sl else position.sl
            tp := if 0 < tp then tp else position.tp
            magic := settings.magic })) := by
  induction rest with
  | nil => exact fun _ => ⟨fun _ _ inside => absurd inside List.not_mem_nil, fun _ => trivial⟩
  | cons position rest ih =>
    intro changed
    rw [Shim.modifyEach, List.forall_mem_cons]
    split
    · rename_i touched
      rw [Program.perform_bind, OnlyUnder, forall_prop_of_true touched]
      refine and_congr_right fun _ => ⟨fun every => ?_, fun every reply _ => ?_⟩
      · exact (ih _).mp (every (some ⟨Shim.retcodeDone, 0, []⟩) trivial)
      · cases reply with
        | none => exact ⟨reads, fun _ _ => trivial⟩
        | some reply =>
          dsimp only
          split
          · trivial
          · exact (ih _).mpr every
    · rename_i spared
      rw [ih, and_iff_right fun touched => absurd touched spared]

theorem onlyUnder_modifyPositionsSltp_iff {terminal : Shim.Terminal}
    (held : terminal.positions symbol = some positions)
    (distinct : (positions.map (·.ticket)).Nodup) (tp sl : ℚ) :
    (Shim.modifyPositionsSltp settings symbol side tp sl scope).OnlyUnder terminal.Answers
        (Sends settings symbol side scope positions) ↔
      ∀ position ∈ positions, Shim.owns settings side position = true →
        scope <+: position.comment → OfChannel (Shim.text "_M") scope position.comment := by
  rw [Shim.modifyPositionsSltp, Shim.positionsGet, Program.perform_bind, OnlyUnder]
  simp only [Sends, Shim.Terminal.Answers, forall_eq, held, Option.getD_some, true_and]
  rw [onlyUnder_modifyEach_iff trivial]
  constructor
  · intro every position inside owned starts
    have sends := every position inside
      (Bool.and_eq_true_iff.mpr ⟨owned, List.isPrefixOf_iff_prefix.mpr starts⟩)
    exact ((exists_key_iff distinct inside _).mp sends.2.2).2.1
  · intro every position inside touched
    obtain ⟨owned, starts⟩ := Bool.and_eq_true_iff.mp touched
    exact ⟨rfl, rfl, position, inside, rfl, owned,
      every position inside owned (List.isPrefixOf_iff_prefix.mp starts),
      eq_zero_of_kept, eq_zero_of_kept⟩

end Shim

/-! ### Both -/

/-- **Which positions an amendment reaches.** It stays with the positions of the channel exactly if all
positions of the side whose comments begin with the scope are of the channel. -/
theorem amendments_confined_iff {Number : Type} (doubles : Doubles Number)
    (positive : ∀ level, doubles.lt (doubles.ofNat 0) level = true →
      doubles.eq level (doubles.ofNat 0) = false)
    (settings : EA.Settings) (traceID sym : Bytes) (want : EA.PositionType) (newSL newTP : Number)
    (scope : Bytes) (positions : List (EA.Position Number))
    (distinct : (positions.map (·.ticket)).Nodup)
    (shim : Shim.Settings) (symbol : Shim.Text) (side : Shim.Side) (tp sl : ℚ)
    (commentScope : Shim.Text) (terminal : Shim.Terminal) (held : List Shim.Position)
    (answered : terminal.positions symbol = some held) (separate : (held.map (·.ticket)).Nodup) :
    ((EA.modifySLTP doubles settings traceID sym want newSL newTP scope).OnlyUnder (Lists positions)
        (Amends doubles settings sym want scope positions) ↔
      ∀ position ∈ positions, isWanted settings sym want position = true →
        scope <+: position.comment → OfChannel (lit "_M") scope position.comment) ∧
    ((Shim.modifyPositionsSltp shim symbol side tp sl commentScope).OnlyUnder terminal.Answers
        (Sends shim symbol side commentScope held) ↔
      ∀ position ∈ held, Shim.owns shim side position = true → commentScope <+: position.comment →
        OfChannel (Shim.text "_M") commentScope position.comment) :=
  ⟨onlyUnder_modifySLTP_iff positive distinct traceID newSL newTP,
    onlyUnder_modifyPositionsSltp_iff answered separate tp sl⟩

def heldBuy (comment : Bytes) : EA.Position ℚ :=
  { EA.openPosition .buy with comment := comment }

def shimBuy (comment : Shim.Text) : Shim.Position :=
  { ticket := 5, magic := Shim.defaults.magic, type := .buy, volume := 1, sl := 0, tp := 0,
    comment := comment }

def holding (position : Shim.Position) : Shim.Terminal :=
  { symbolMap := [], info := fun _ => none, tick := fun _ => none, positions := fun _ => some [position] }

/-- The terminal amends the take profit for the channel `gold` and stays with it. -/
def TerminalConfined (comment : Bytes) : Prop :=
  (EA.modifySLTP Doubles.exact {} [] (lit "EURUSD") .buy 0 2 (lit "gold")).OnlyUnder
    (Lists [heldBuy comment])
    (Amends Doubles.exact {} (lit "EURUSD") .buy (lit "gold") [heldBuy comment])

def ShimConfined (comment : Shim.Text) : Prop :=
  (Shim.modifyPositionsSltp Shim.defaults (Shim.text "EURUSD") .buy 2 0 (Shim.text "gold")).OnlyUnder
    (holding (shimBuy comment)).Answers
    (Sends Shim.defaults (Shim.text "EURUSD") .buy (Shim.text "gold") [shimBuy comment])

theorem positive_exact (level : ℚ) (above : Doubles.exact.lt (Doubles.exact.ofNat 0) level = true) :
    Doubles.exact.eq level (Doubles.exact.ofNat 0) = false :=
  decide_eq_false (of_decide_eq_true above).ne'

/-- A position that was opened at the market in place of a pending order. -/
theorem amendments_confined_iff_fallback :
    TerminalConfined (lit "gold_M") ∧ ShimConfined (Shim.text "gold_M") := by
  have confined := amendments_confined_iff Doubles.exact positive_exact {} [] (lit "EURUSD") .buy 0 2
    (lit "gold") [heldBuy (lit "gold_M")] (List.nodup_singleton _) Shim.defaults
    (Shim.text "EURUSD") .buy 2 0 (Shim.text "gold") (holding (shimBuy (Shim.text "gold_M")))
    [shimBuy (Shim.text "gold_M")] rfl (List.nodup_singleton _)
  refine ⟨confined.1.mpr fun position inside _ _ => ?_, confined.2.mpr fun position inside _ _ => ?_⟩
  · rw [List.mem_singleton.mp inside]
    exact .inr rfl
  · rw [List.mem_singleton.mp inside]
    exact .inr rfl

/-- **The channel `gold` moves a position of `gold2`**, in both programs. -/
theorem not_confined_gold2 :
    ¬ TerminalConfined (lit "gold2") ∧ ¬ ShimConfined (Shim.text "gold2") := by
  constructor
  · intro confined
    have distinct : ([heldBuy (lit "gold2")].map (·.ticket)).Nodup := List.nodup_singleton _
    have own := (onlyUnder_modifySLTP_iff positive_exact distinct [] 0 2).mp confined _
      (List.mem_singleton_self _) (by decide) (by decide)
    exact own.elim (by decide) (by decide)
  · intro confined
    have distinct : ([shimBuy (Shim.text "gold2")].map (·.ticket)).Nodup := List.nodup_singleton _
    have own := (onlyUnder_modifyPositionsSltp_iff rfl distinct 2 0).mp confined _
      (List.mem_singleton_self _) (by decide) (by decide)
    exact own.elim (by decide) (by decide)

end ExecRelay.Execution
