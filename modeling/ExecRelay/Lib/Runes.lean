/-
**The characters of a byte string.**

A Go string holds any bytes. Where its characters are gone through, and so in its JSON form, a byte that
begins no well-formed character counts as U+FFFD. `runes` are these characters, each in its UTF-8 form.
-/

import ExecRelay.Lib.Unquote

namespace ExecRelay.Lib

open Json (charTail replacement charTail_of_valid foldlM_take_of_inRanges inRanges)

def runesFrom : Nat → Bytes → List Bytes
  | _, [] => []
  | skip + 1, _ :: rest => runesFrom skip rest
  | 0, byte :: rest =>
    match charTail byte rest with
    | some count => (byte :: rest.take count) :: runesFrom count rest
    | none => replacement :: runesFrom 0 rest

def runes (text : Bytes) : List Bytes :=
  runesFrom 0 text

theorem runesFrom_drop (skip : Nat) (text : Bytes) (inside : skip ≤ text.length) :
    runesFrom skip text = runes (text.drop skip) := by
  induction skip generalizing text with
  | zero => rfl
  | succ skip ih =>
    cases text with
    | nil => cases inside
    | cons byte rest => exact ih rest (Nat.le_of_succ_le_succ inside)

theorem flatten_runes_of_valid (text : Bytes) (valid : validUtf8 text = true) :
    (runes text).flatten = text := by
  induction size : text.length using Nat.strongRecOn generalizing text with
  | _ length ih =>
    cases text with
    | nil => rfl
    | cons byte rest =>
      obtain ⟨count, found, inside, behind⟩ := charTail_of_valid valid
      have shorter : (rest.drop count).length < length := by
        rw [← size, List.length_drop, List.length_cons]
        omega
      have others := ih _ shorter (rest.drop count) behind rfl
      rw [runes, runesFrom, found]
      simp only [List.flatten_cons]
      rw [runesFrom_drop count rest inside, others, List.cons_append, List.take_append_drop]

theorem validUtf8_of_charTail {byte : UInt8} {rest : Bytes} {count : Nat}
    (found : charTail byte rest = some count) : validUtf8 (byte :: rest.take count) = true := by
  unfold charTail at found
  split at found
  · rename_i ranges begun
    split at found
    · rename_i holds
      rw [← Option.some.inj found, validUtf8, decide_eq_true_eq, List.foldlM_cons, utf8Step, begun]
      exact foldlM_take_of_inRanges ranges rest holds
    · cases found
  · cases found

theorem validUtf8_of_mem_runesFrom {text rune : Bytes} :
    ∀ {skip}, rune ∈ runesFrom skip text → validUtf8 rune = true := by
  induction text with
  | nil =>
    intro skip member
    cases skip <;> cases member
  | cons byte rest ih =>
    intro skip member
    cases skip with
    | succ skip => exact ih member
    | zero =>
      rw [runesFrom] at member
      split at member
      · rename_i count found
        obtain rfl | member := List.mem_cons.mp member
        · exact validUtf8_of_charTail found
        · exact ih member
      · obtain rfl | member := List.mem_cons.mp member
        · decide
        · exact ih member

theorem validUtf8_flatten {parts : List Bytes} (valid : ∀ part ∈ parts, validUtf8 part = true) :
    validUtf8 parts.flatten = true := by
  induction parts with
  | nil => rfl
  | cons part rest ih =>
    obtain ⟨here, behind⟩ := List.forall_mem_cons.mp valid
    exact validUtf8_append here (ih behind)

/-- **Which strings are kept.** -/
theorem flatten_runes_eq_iff (text : Bytes) : (runes text).flatten = text ↔ validUtf8 text = true := by
  refine ⟨fun same => ?_, flatten_runes_of_valid text⟩
  rw [← same]
  exact validUtf8_flatten fun _ member => validUtf8_of_mem_runesFrom member

theorem flatten_take_runes_ne {text : Bytes} {count : Nat} (longer : ((runes text).drop count).flatten ≠ []) :
    ((runes text).take count).flatten ≠ text := by
  intro same
  have valid : validUtf8 text = true := by
    rw [← same]
    exact validUtf8_flatten fun _ member => validUtf8_of_mem_runesFrom (List.mem_of_mem_take member)
  have whole := flatten_runes_of_valid text valid
  rw [← List.take_append_drop count (runes text), List.flatten_append, same] at whole
  exact longer (List.append_right_eq_self.mp whole)

example : runes [0x41, 0xFF, 0xC3, 0xA9] = [[0x41], [0xEF, 0xBF, 0xBD], [0xC3, 0xA9]] := by
  decide +kernel

end ExecRelay.Lib
