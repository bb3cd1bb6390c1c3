/-
**What the terminal reads of a signal.**

The readers of the EA undo no escape: of the message that the bridge writes, `jGetStr` gives back a text
up to its first quote as it is escaped (`readBack`).
-/

import ExecRelay.EA.Json
import ExecRelay.Ingress.Publishable

namespace ExecRelay.EA

open Lib
open Bridge

/-! ### A text -/

theorem takeWhile_escape (value more : Bytes) :
    (escape value ++ quote :: more).takeWhile (fun byte => byte ≠ quote) = readBack value := by
  rw [List.takeWhile_append]
  split
  · rename_i whole
    rw [List.takeWhile_cons_of_neg (by simp), List.append_nil]
    exact ((List.takeWhile_prefix _).eq_of_length whole).symm
  · rfl

theorem jGetStr_of_after {json key value more : Bytes}
    (found : after (strNeedle key) json = some (escape value ++ quote :: more)) :
    jGetStr json key = readBack value := by
  have closed : quote ∈ escape value ++ quote :: more := by simp
  rw [jGetStr_eq, found]
  simp only [if_pos closed]
  exact takeWhile_escape value more

theorem readBack_of_isPlain {text : Bytes} (plain : isPlain text = true) : readBack text = text := by
  rw [readBack, escape_of_isPlain plain, List.takeWhile_eq_self_iff]
  intro byte inside
  rw [decide_eq_true_eq]
  rintro rfl
  exact quote_notMem_of_isPlain plain inside

/-! ### The message -/

section Message

variable (msg : SignalMsg)

def ending : Bytes :=
  msg.paramsText ++ [closeBrace, 10]

def symbolOn : Bytes :=
  member (lit "symbol") msg.symbol ++ ending msg

def commandOn : Bytes :=
  member (lit "command") msg.command ++ 44 :: symbolOn msg

def traceOn : Bytes :=
  member (lit "trace_id") msg.traceID ++ 44 :: commandOn msg

theorem text_eq :
    msg.text = [openBrace] ++ (member (lit "type") (lit "signal") ++ 44 :: traceOn msg) := by
  have opening : lit "\x7b" = [openBrace] := by decide
  have closing : lit "\x7d\n" = [closeBrace, 10] := by decide
  rw [SignalMsg.text, traceOn, commandOn, symbolOn, ending, opening, closing]
  simp only [List.append_assoc, List.cons_append, List.nil_append]

variable {msg} {key last : Bytes}

theorem after_text (word : Word key) (differs : lit "type" ≠ key) :
    after (quote :: (key ++ quote :: 58 :: last)) msg.text =
      after (quote :: (key ++ quote :: 58 :: last)) ([44] ++ traceOn msg) := by
  rw [text_eq, after_member_skip word (by decide) (by decide) differs (by decide) (by decide),
    List.singleton_append]

theorem after_traceOn (word : Word key) (differs : lit "trace_id" ≠ key) :
    after (quote :: (key ++ quote :: 58 :: last)) ([44] ++ traceOn msg) =
      after (quote :: (key ++ quote :: 58 :: last)) ([44] ++ commandOn msg) := by
  rw [traceOn, after_member_skip word (by decide) (by decide) differs (by decide) (by decide),
    List.singleton_append]

theorem jGetStr_type : jGetStr msg.text (lit "type") = lit "signal" := by
  have word : Word (lit "type") := by decide
  have found : after (strNeedle (lit "type")) msg.text =
      some (escape (lit "signal") ++ quote :: 44 :: traceOn msg) := by
    rw [strNeedle, text_eq]
    exact after_member_here word (by decide)
  rw [jGetStr_of_after found]
  decide

theorem jGetStr_command : jGetStr msg.text (lit "command") = readBack msg.command := by
  have word : Word (lit "command") := by decide
  apply jGetStr_of_after
  rw [strNeedle, after_text word (by decide), after_traceOn word (by decide)]
  exact after_member_here word (by decide)

end Message

end ExecRelay.EA
