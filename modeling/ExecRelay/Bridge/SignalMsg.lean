/-
**The message to the terminal.**

The bridge writes a `SignalMsg` with the JSON encoder of the standard library: strings with HTML
escaping, the keys of the map in byte order, no spaces, a line end behind the object, and no `params`
member if the map is empty. `escape` is the encoder's treatment of a string that is UTF-8.
-/

import ExecRelay.Dispatch.Params
import Mathlib.Data.List.Sort

namespace ExecRelay.Bridge

open Lib
open Dispatch (StringMap dispatchParams)

/-! ### Strings -/

def backslash : UInt8 := 92

/-- One ASCII byte of a string; the bytes of longer characters are copied. -/
def escapeByte (byte : UInt8) : Bytes :=
  if byte = quote ∨ byte = backslash then [backslash, byte]
  else if byte = 0x08 then lit "\\b"
  else if byte = 0x0C then lit "\\f"
  else if byte = 0x0A then lit "\\n"
  else if byte = 0x0D then lit "\\r"
  else if byte = 0x09 then lit "\\t"
  else if byte < 0x20 ∨ byte = 60 ∨ byte = 62 ∨ byte = 38 then
    lit "\\u00" ++ [hexDigit (byte / 16), hexDigit (byte % 16)]
  else [byte]

/-- A string between its quotes. The line and the paragraph separator are escaped as well. -/
def escape : Bytes → Bytes
  | 0xE2 :: 0x80 :: 0xA8 :: rest => lit "\\u2028" ++ escape rest
  | 0xE2 :: 0x80 :: 0xA9 :: rest => lit "\\u2029" ++ escape rest
  | byte :: rest => escapeByte byte ++ escape rest
  | [] => []

def quoted (text : Bytes) : Bytes :=
  quote :: escape text ++ [quote]

def member (key value : Bytes) : Bytes :=
  quoted key ++ 58 :: quoted value

/-! ### Maps -/

def bytesLE : Bytes → Bytes → Bool
  | [], _ => true
  | _ :: _, [] => false
  | left :: lefts, right :: rights => left < right || left == right && bytesLE lefts rights

def sortedEntries (map : StringMap) : List (Bytes × Bytes) :=
  (map.entries.map fun entry => (entry.1, entry.2)).insertionSort fun left right =>
    bytesLE left.1 right.1

def members : List (Bytes × Bytes) → Bytes
  | [] => []
  | [entry] => member entry.1 entry.2
  | entry :: rest => member entry.1 entry.2 ++ 44 :: members rest

/-! ### The message -/

structure SignalMsg where
  traceID : Bytes
  command : Bytes
  symbol : Bytes
  params : StringMap

namespace SignalMsg

/-- The `params` member, which is left out if the map is empty. -/
def paramsText (msg : SignalMsg) : Bytes :=
  if msg.params.entries = [] then []
  else 44 :: quoted (lit "params") ++ lit ":\x7b" ++ members (sortedEntries msg.params) ++ lit "\x7d"

/-- The text that `WriteJSON` sends. -/
def text (msg : SignalMsg) : Bytes :=
  lit "\x7b" ++ member (lit "type") (lit "signal") ++ 44 :: member (lit "trace_id") msg.traceID ++
    44 :: member (lit "command") msg.command ++ 44 :: member (lit "symbol") msg.symbol ++
    msg.paramsText ++ lit "\x7d\n"

end SignalMsg

def signalMsg (signal : Proto.Signal) : SignalMsg where
  traceID := signal.traceId
  command := signal.command
  symbol := signal.symbol
  params := dispatchParams signal.params

end ExecRelay.Bridge
