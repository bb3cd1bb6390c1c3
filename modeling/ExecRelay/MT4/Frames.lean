/-
**Frames of the MT4 library.**

The library that connects the MT4 EA to the bridge reads and writes WebSocket frames by hand.
`parseFrame` is `ws_parse_frame` on a memory that goes on behind the buffer: it says which bytes are read
and written, so that an access outside is seen and not excluded. The length of a frame has 64 bits, and
it is cut to an `int` before it is compared with the sizes of the buffers; a sum of ints that overflows
has no meaning in the source (`overflow`).
-/

import ExecRelay.Lib.WebSocket

namespace ExecRelay.MT4

open Lib Lib.WebSocket

/-! ### The parser -/

/-- `(int)value`, of an unsigned value. -/
def toInt (value : Nat) : Int :=
  if value % 2 ^ 32 < 2 ^ 31 then (value % 2 ^ 32 : Nat) else (value % 2 ^ 32 : Nat) - 2 ^ 32

/-- Some bytes of a buffer, from its start on. -/
structure Span where
  start : Nat
  count : Nat

/-- What the parser leaves behind when it returns 1: `out` says what it wrote at an index. -/
structure Parsed where
  opcode : UInt8
  frameLen : Int
  payLen : Int
  out : Nat → Option UInt8
  reads : List Span

inductive ParseResult
  | more
  | error
  | overflow
  | frame (parsed : Parsed)

/-- The length that the header gives, the size of the header up to it and what is read for it. -/
def headerLength (buf : Nat → UInt8) (bufLen : Nat) : Option (Nat × Nat × List Span) :=
  let plen := (buf 1).toNat % 128
  if plen = 126 then
    if bufLen < 4 then none
    else some ((buf 2).toNat * 256 + (buf 3).toNat, 4, [⟨0, 2⟩, ⟨2, 2⟩])
  else if plen = 127 then
    if bufLen < 10 then none
    else
      let plen := (List.range 8).foldl (fun plen i => plen * 256 + (buf (2 + i)).toNat) 0
      some (plen, 10, [⟨0, 2⟩, ⟨2, 8⟩])
  else
    some (plen, 2, [⟨0, 2⟩])

/-- The payload, once the checks have passed: `memcpy` takes a length of 32 bits, the loop one of 64. -/
def copyPayload (buf : Nat → UInt8) (masked : Bool) (hlen plen : Nat) (reads : List Span) : Parsed where
  opcode := buf 0 &&& 15
  frameLen := hlen + toInt plen
  payLen := toInt plen
  out := fun i =>
    if masked then
      if i < plen then some (buf (hlen + i) ^^^ buf (hlen - 4 + i % 4)) else none
    else
      if i < plen % 2 ^ 32 then some (buf (hlen + i)) else none
  reads := reads ++
    if masked then [⟨hlen - 4, min plen 4⟩, ⟨hlen, plen⟩] else [⟨hlen, plen % 2 ^ 32⟩]

def parseFrame (buf : Nat → UInt8) (bufLen outSize : Nat) : ParseResult :=
  if bufLen < 2 then .more
  else
    match headerLength buf bufLen with
    | none => .more
    | some (plen, fieldEnd, reads) =>
      let masked : Bool := 128 ≤ (buf 1).toNat
      let hlen := if masked then fieldEnd + 4 else fieldEnd
      if 2 ^ 31 ≤ hlen + toInt plen then .overflow
      else if bufLen < hlen + toInt plen then .more
      else if outSize < toInt plen then .error
      else .frame (copyPayload buf masked hlen plen reads)

def memory (bytes : Bytes) (beyond : Nat → UInt8) (index : Nat) : UInt8 :=
  (bytes[index]?).getD (beyond index)

/-! ### Against the protocol -/

theorem toInt_of_lt {value : Nat} (small : value < 2 ^ 31) : toInt value = value := by
  rw [toInt]
  omega

theorem toInt_eq {value : Nat} (same : toInt value = value) : value < 2 ^ 31 := by
  rw [toInt] at same
  omega

variable {bytes : Bytes} {beyond : Nat → UInt8} {outSize : Nat}

theorem memory_lt {index : Nat} (inside : index < bytes.length) :
    memory bytes beyond index = bytes[index] := by
  rw [memory, List.getElem?_eq_getElem inside, Option.getD_some]

theorem map_memory {start count : Nat} (inside : start + count ≤ bytes.length) :
    (List.range count).map (fun i => memory bytes beyond (start + i)) = (bytes.drop start).take count := by
  apply List.ext_getElem
  · simp
    omega
  · intro index before _
    rw [List.length_map, List.length_range] at before
    simp [memory_lt (show start + index < bytes.length by omega)]

def headerReads (header : WebSocket.Header) : List Span :=
  match header.length.width with
  | .short => [⟨0, 2⟩]
  | .medium => [⟨0, 2⟩, ⟨2, 2⟩]
  | .long => [⟨0, 2⟩, ⟨2, 8⟩]

/-- **The header** is the header of the protocol. -/
theorem headerLength_memory (two : 2 ≤ bytes.length) :
    headerLength (memory bytes beyond) bytes.length =
      (readHeader bytes).map fun header =>
        (header.length.value, 2 + header.length.width.size, headerReads header) := by
  match bytes, two with
  | head :: second :: rest, _ =>
    have second_ : memory (head :: second :: rest) beyond 1 = second := rfl
    have length : (head :: second :: rest).length = rest.length + 2 := rfl
    have field {count : Nat} (enough : count ≤ rest.length) :
        (List.range count).map (fun i => memory (head :: second :: rest) beyond (2 + i)) =
          rest.take count :=
      map_memory (by rw [length]; omega)
    rw [headerLength, second_, readHeader, readLength]
    split_ifs with medium few long few
    · rw [readWide, if_pos (by rw [Width.size]; omega)]
      rfl
    · have two := field (show 2 ≤ rest.length by omega)
      rw [readWide, if_neg (by rw [Width.size]; omega)]
      simp [Width.size, headerReads, ← two, readBigEndian, List.range_succ]
    · rw [readWide, if_pos (by rw [Width.size]; omega)]
      rfl
    · have eight := field (show 8 ≤ rest.length by omega)
      rw [readWide, if_neg (by rw [Width.size]; omega)]
      simp [Width.size, headerReads, ← eight, readBigEndian, List.foldl_map]
    · rfl

theorem parseFrame_of_none (unread : readHeader bytes = none) :
    parseFrame (memory bytes beyond) bytes.length outSize = .more := by
  rw [parseFrame]
  split_ifs with few
  · rfl
  · rw [headerLength_memory (Nat.le_of_not_lt few), unread]
    rfl

/-- **The checks**, in terms of the header. -/
theorem parseFrame_of_header {header : WebSocket.Header} (read : readHeader bytes = some header) :
    parseFrame (memory bytes beyond) bytes.length outSize =
      if 2 ^ 31 ≤ header.size + toInt header.length.value then .overflow
      else if bytes.length < header.size + toInt header.length.value then .more
      else if outSize < toInt header.length.value then .error
      else .frame (copyPayload (memory bytes beyond) header.masked header.size header.length.value
        (headerReads header)) := by
  have two : 2 ≤ bytes.length := by
    obtain ⟨rest, rfl⟩ := readHeader_eq_some.mp read
    rw [List.length_append, header.length_bytes]
    omega
  have masked : header.masked = decide (128 ≤ (memory bytes beyond 1).toNat) := by
    match bytes, two, read with
    | head :: second :: rest, _, read =>
      rw [readHeader, Option.map_eq_some_iff] at read
      obtain ⟨length, _, rfl⟩ := read
      rfl
  have size : header.size =
      if header.masked then 2 + header.length.width.size + 4 else 2 + header.length.width.size := by
    rw [WebSocket.Header.size]
    split_ifs <;> rfl
  rw [parseFrame, if_neg (Nat.not_lt.mpr two), headerLength_memory two, read]
  simp only [Option.map_some, ← masked, ← size]

/-- The parser is right about a frame of the protocol: it reads and writes inside of the buffers, and it
leaves the payload behind. -/
structure Parsed.Of (parsed : Parsed) (frame : Frame) : Prop where
  opcode : parsed.opcode = frame.opcode
  frameLen : parsed.frameLen = frame.encode.length
  payLen : parsed.payLen = frame.payload.length
  out : ∀ index, parsed.out index = frame.payload[index]?
  reads : ∀ span ∈ parsed.reads, span.start + span.count ≤ frame.encode.length

theorem out_copyPayload {header : WebSocket.Header}
    (whole : header.size + header.length.value ≤ bytes.length) (small : header.length.value < 2 ^ 31)
    (index : Nat) :
    (copyPayload (memory bytes beyond) header.masked header.size header.length.value
      (headerReads header)).out index = (header.frame bytes whole).payload[index]? := by
  have low : header.length.value % 2 ^ 32 = header.length.value := by omega
  change _ = (mask (header.key bytes) _)[index]?
  have slice : ((bytes.drop header.size).take header.length.value)[index]? =
      if index < header.length.value then some (memory bytes beyond (header.size + index)) else none := by
    rw [List.getElem?_take, List.getElem?_drop]
    split_ifs with inside
    · rw [memory_lt (show header.size + index < bytes.length by omega), List.getElem?_eq_getElem]
    · rfl
  rw [copyPayload, low]
  cases masked : header.masked with
  | false =>
    have key : header.key bytes = none := by
      rw [WebSocket.Header.key, masked]
      rfl
    rw [key, mask, slice]
    rfl
  | true =>
    have size : header.size - 4 = 2 + header.length.width.size := by
      rw [WebSocket.Header.size, masked]
      rfl
    have enough : (if true then 4 else 0) ≤ (bytes.drop (2 + header.length.width.size)).length := by
      rw [List.length_drop]
      rw [WebSocket.Header.size, masked] at whole
      simp only [if_true] at whole ⊢
      omega
    obtain ⟨key, read⟩ := Option.isSome_iff_exists.mp (keyBytes_readKey enough).1
    have used : memory bytes beyond (header.size - 4 + index % 4) = key.get index := by
      rw [memory, size, ← List.getElem?_drop, get_readKey read, Option.getD_some]
    have keyed : header.key bytes = some key := by rw [WebSocket.Header.key, masked, read]
    rw [keyed, mask, List.getElem?_mapIdx, slice]
    simp only [if_true, used]
    split_ifs <;> rfl

theorem reads_copyPayload {header : WebSocket.Header} (small : header.length.value < 2 ^ 31) :
    ∀ span ∈ (copyPayload (memory bytes beyond) header.masked header.size header.length.value
      (headerReads header)).reads, span.start + span.count ≤ header.size + header.length.value := by
  have low : header.length.value % 2 ^ 32 = header.length.value := by omega
  rw [copyPayload, low, WebSocket.Header.size]
  intro span member
  rcases List.mem_append.mp member with field | payload
  · rw [headerReads] at field
    cases width : header.length.width <;> simp only [width] at field <;>
      simp only [List.mem_cons, List.not_mem_nil, or_false] at field <;>
      rcases field with rfl | rfl <;> simp only [Width.size] <;> omega
  · split_ifs at payload with masked <;>
      simp only [List.mem_cons, List.not_mem_nil, or_false] at payload <;>
      rcases payload with rfl | rfl <;> simp only [masked, if_true] <;> omega

/-- **The payload is copied** where the length of the frame is that of an `int`. -/
theorem copyPayload_of {header : WebSocket.Header} (read : readHeader bytes = some header)
    (whole : header.size + header.length.value ≤ bytes.length) (small : header.length.value < 2 ^ 31) :
    (copyPayload (memory bytes beyond) header.masked header.size header.length.value
      (headerReads header)).Of (header.frame bytes whole) := by
  obtain ⟨paid, length⟩ := length_frame read whole
  have head : memory bytes beyond 0 = header.head := by
    obtain ⟨tail, rfl⟩ := readHeader_eq_some.mp read
    rfl
  refine ⟨congrArg (· &&& 15) head, ?_, ?_, out_copyPayload whole small, ?_⟩
  · rw [length, copyPayload, toInt_of_lt small, Int.natCast_add]
  · rw [paid, copyPayload, toInt_of_lt small]
  · rw [length]
    exact reads_copyPayload small

/-- **A frame of the protocol** that is shorter than an `int` and fits the output is parsed. -/
theorem parseFrame_of_decode {frame : Frame} {rest : Bytes} (found : decode bytes = some (frame, rest))
    (small : frame.encode.length < 2 ^ 31) (room : frame.payload.length ≤ outSize) :
    ∃ parsed, parseFrame (memory bytes beyond) bytes.length outSize = .frame parsed ∧
      parsed.Of frame := by
  obtain ⟨header, whole, read, rfl, _⟩ := decode_eq_some.mp found
  obtain ⟨paid, length⟩ := length_frame read whole
  have copied := @copyPayload_of bytes beyond header read whole (by omega)
  refine ⟨_, ?_, copied⟩
  rw [parseFrame_of_header read, toInt_of_lt (show header.length.value < 2 ^ 31 by omega),
    if_neg (by omega), if_neg (by omega), if_neg (by omega)]

/-- **No prefix of a frame is taken for one.** -/
theorem parseFrame_of_proper {frame : Frame} {front back : Bytes} (split : frame.encode = front ++ back)
    (proper : back ≠ []) (small : frame.encode.length < 2 ^ 31) :
    parseFrame (memory front beyond) front.length outSize = .more := by
  cases read : readHeader front with
  | none => exact parseFrame_of_none read
  | some header =>
    obtain ⟨tail, rfl⟩ := readHeader_eq_some.mp read
    have same : header = frame.header := by
      have whole : readHeader frame.encode = some header :=
        readHeader_eq_some.mpr ⟨tail ++ back, by rw [split, List.append_assoc]⟩
      rw [readHeader_encode, Option.some.injEq] at whole
      exact whole.symm
    have length := congrArg List.length split
    have more : 0 < back.length := List.length_pos_iff.mpr proper
    rw [List.length_append, Frame.length_encode] at length
    rw [Frame.length_encode] at small
    have value : header.length.value = frame.payload.length := by rw [same]; rfl
    rw [parseFrame_of_header read, value, toInt_of_lt (by omega), same] at *
    rw [if_neg (by omega), if_pos (by omega)]

/-! ### Soundness -/

/-- What the caller relies on: a parser that returns 1 has read and written inside of its buffers, and
it has left the length and the payload of the frame behind. -/
def Sound (bytes : Bytes) (beyond : Nat → UInt8) (outSize : Nat) : Prop :=
  match parseFrame (memory bytes beyond) bytes.length outSize with
  | .more => True
  | .error => True
  | .overflow => False
  | .frame parsed =>
    (0 ≤ parsed.payLen ∧ parsed.payLen ≤ outSize) ∧
    (2 ≤ parsed.frameLen ∧ parsed.frameLen ≤ bytes.length) ∧
    (∀ span ∈ parsed.reads, span.start + span.count ≤ bytes.length) ∧
    (∀ index byte, parsed.out index = some byte → index < outSize) ∧
    ∃ header whole, readHeader bytes = some header ∧ parsed.payLen = header.length.value ∧
      ∀ index, index < header.length.value →
        parsed.out index = (header.frame bytes whole).payload[index]?

/-- The length that the header announces is that of an `int`, with the header; or, cut to an `int`, it
is longer than one of the buffers. -/
def Announces (bytes : Bytes) (outSize : Nat) : Prop :=
  ∀ header, readHeader bytes = some header → header.size + header.length.value < 2 ^ 31 ∨
    header.size + toInt header.length.value < 2 ^ 31 ∧
      (bytes.length < header.size + toInt header.length.value ∨ outSize < toInt header.length.value)

/-- **The parser is right exactly about the frames that announce a length of an `int`**, and about those
that it does not accept. -/
theorem sound_iff (bytes : Bytes) (beyond : Nat → UInt8) (outSize : Nat) :
    Sound bytes beyond outSize ↔ Announces bytes outSize := by
  rw [Sound, Announces]
  cases read : readHeader bytes with
  | none =>
    rw [parseFrame_of_none read]
    simp
  | some header =>
    rw [parseFrame_of_header read]
    simp only [Option.some.injEq, forall_eq']
    split_ifs with overflows short large
    · refine ⟨False.elim, ?_⟩
      rintro (small | ⟨small, _⟩)
      · rw [toInt_of_lt (show header.length.value < 2 ^ 31 by omega)] at overflows
        omega
      · exact absurd small (Int.not_lt.mpr overflows)
    · exact iff_of_true trivial (.inr ⟨Int.not_le.mp overflows, .inl short⟩)
    · exact iff_of_true trivial (.inr ⟨Int.not_le.mp overflows, .inr large⟩)
    · constructor
      · rintro ⟨_, _, _, _, other, whole, rfl, length, _⟩
        have small := toInt_eq length
        rw [toInt_of_lt small] at overflows
        exact .inl (by omega)
      · rintro (small | ⟨_, stops | stops⟩)
        · have same := toInt_of_lt (show header.length.value < 2 ^ 31 by omega)
          have whole : header.size + header.length.value ≤ bytes.length := by omega
          have copied := @copyPayload_of bytes beyond header read whole (by omega)
          obtain ⟨paid, length⟩ := length_frame read whole
          have two : 2 ≤ header.size := by
            rw [WebSocket.Header.size]
            omega
          refine ⟨?_, ?_, fun span member => ?_, fun index byte wrote => ?_, header, whole, rfl, ?_,
            fun index _ => copied.out index⟩
          · rw [copied.payLen, paid]
            omega
          · rw [copied.frameLen, length]
            omega
          · have inside := copied.reads span member
            omega
          · rw [copied.out] at wrote
            have inside := (List.getElem?_eq_some_iff.mp wrote).1
            omega
          · rw [copied.payLen, paid]
        · exact absurd stops short
        · exact absurd stops large

def longFrame : Bytes := [130, 127, 0, 0, 0, 1, 0, 0, 0, 5, 104, 101, 108, 108, 111]

/-- **It is taken for a frame of 5 bytes.** -/
theorem not_sound_long :
    (∃ parsed, parseFrame (memory longFrame fun _ => 0) longFrame.length 65536 = .frame parsed ∧
      parsed.payLen = 5) ∧ ¬ Sound longFrame (fun _ => 0) 65536 := by
  obtain ⟨header, read, announced⟩ : ∃ header, readHeader longFrame = some header ∧
      (header.length.value, header.size) = (2 ^ 32 + 5, 10) :=
    Option.map_eq_some_iff.mp (by decide +kernel)
  rw [Prod.mk.injEq] at announced
  have cut : toInt header.length.value = 5 := by rw [announced.1, toInt]; decide
  have parses := @parseFrame_of_header longFrame (fun _ => 0) 65536 header read
  rw [cut, announced.2, if_neg (by decide), if_neg (by decide), if_neg (by decide)] at parses
  refine ⟨⟨_, parses, cut⟩, fun sound => ?_⟩
  obtain ⟨_, _, _, _, other, whole, same, _⟩ := sound
  rw [read, Option.some.injEq] at same
  subst same
  omega

/-! ### Text frames -/

/-- The size of the local array of `ws_send_text`. -/
def textArray : Nat := 10 + 4 + 65536

/-- What `ws_send_text` writes to its array from the start on and sends; nothing of 64 KiB or more. -/
def sendText (key : Key) (payload : Bytes) : Option Bytes :=
  let payLen := payload.length
  let masked := key.bytes ++ payload.mapIdx fun i byte => byte ^^^ key.get i
  if payLen < 126 then
    some (129 :: (128 ||| UInt8.ofNat payLen) :: masked)
  else if payLen < 65536 then
    some (129 :: 254 :: UInt8.ofNat (payLen / 256) :: UInt8.ofNat payLen :: masked)
  else
    none

/-- The frame of a payload. -/
def textFrame (key : Key) (payload : Bytes) (short : payload.length < 65536) : Frame where
  head := 129
  key := some key
  width := if payload.length < 126 then .short else .medium
  payload := payload
  fits := by split_ifs <;> assumption

theorem or_ofNat {count : Nat} (small : count < 126) :
    128 ||| UInt8.ofNat count = UInt8.ofNat (128 + count) := by
  have all : ∀ count : Fin 126, 128 ||| UInt8.ofNat count = UInt8.ofNat (128 + count) := by decide +kernel
  exact all ⟨count, small⟩

/-- **What is sent is the frame.** -/
theorem sendText_eq (key : Key) {payload : Bytes} (short : payload.length < 65536) :
    sendText key payload = some (textFrame key payload short).encode := by
  rw [sendText]
  split_ifs with tiny
  · simp [Frame.encode, WebSocket.Header.bytes, Frame.header, textFrame, tiny, Width.mark, Width.size, bigEndian,
      keyBytes, mask, or_ofNat tiny]
  · simp [Frame.encode, WebSocket.Header.bytes, Frame.header, textFrame, tiny, Width.mark, Width.size, bigEndian,
      keyBytes, mask]

/-- **Text frames are read back**: what is sent lies inside of the array, the parser returns the payload
and the length of the frame, whatever follows it, and it waits for more on every proper prefix. -/
theorem parseFrame_sendText (key : Key) (payload : Bytes) (short : payload.length ≤ 65535) :
    ∃ frame, sendText key payload = some frame ∧ frame.length ≤ textArray ∧
      (∀ rest beyond outSize, payload.length ≤ outSize →
        ∃ parsed, parseFrame (memory (frame ++ rest) beyond) (frame ++ rest).length outSize =
            .frame parsed ∧
          parsed.opcode = 1 ∧ parsed.payLen = payload.length ∧
          (∀ index, parsed.out index = payload[index]?) ∧ parsed.frameLen = frame.length) ∧
      ∀ front back, frame = front ++ back → back ≠ [] → ∀ beyond outSize,
        parseFrame (memory front beyond) front.length outSize = .more := by
  have below : payload.length < 65536 := by omega
  have length := (textFrame key payload below).length_encode
  have size : (textFrame key payload below).header.size ≤ 8 := by
    change 2 + Width.size (if payload.length < 126 then .short else .medium) + 4 ≤ 8
    split_ifs <;> decide
  change _ = _ + payload.length at length
  refine ⟨_, sendText_eq key below, by rw [textArray]; omega, ?_, ?_⟩
  · intro rest beyond outSize room
    have found : decode ((textFrame key payload below).encode ++ rest) =
        some (textFrame key payload below, rest) := decode_iff.mpr rfl
    obtain ⟨parsed, parses, of_⟩ := parseFrame_of_decode found (by omega) room
    have opcode : (textFrame key payload below).opcode = 1 := by
      change (129 &&& 15 : UInt8) = 1
      decide
    exact ⟨parsed, parses, of_.opcode.trans opcode, of_.payLen, of_.out, of_.frameLen⟩
  · intro front back split proper beyond outSize
    exact parseFrame_of_proper split proper (by omega)

theorem parseFrame_sendText_hi :
    ∃ frame, sendText ⟨1, 2, 3, 4⟩ [104, 105] = some frame ∧ frame.length ≤ textArray ∧
      ∃ parsed, parseFrame (memory (frame ++ [129]) fun _ => 0) (frame ++ [129]).length 2 =
        .frame parsed ∧ parsed.opcode = 1 ∧ parsed.payLen = 2 := by
  obtain ⟨frame, sent, inside, parses, _⟩ := parseFrame_sendText ⟨1, 2, 3, 4⟩ [104, 105] (by decide)
  obtain ⟨parsed, returns, opcode, payLen, _⟩ := parses [129] (fun _ => 0) 2 (by decide)
  exact ⟨frame, sent, inside, parsed, returns, opcode, payLen⟩

/-! ### Pongs -/

/-- The size of the local array of `ws_send_pong`. -/
def pongArray : Nat := 16 + 4

/-- What `ws_send_pong` writes to its array from the start on, and sends. -/
def pongBytes (key : Key) (payload : Bytes) : Bytes :=
  let payload := payload.take 125
  138 :: (128 ||| UInt8.ofNat payload.length) ::
    (key.bytes ++ payload.mapIdx fun i byte => byte ^^^ key.get i)

def Parsed.payload (parsed : Parsed) : Bytes :=
  (List.range parsed.payLen.toNat).map fun i => (parsed.out i).getD 0

theorem Parsed.Of.payload_eq {parsed : Parsed} {frame : Frame} (of_ : parsed.Of frame) :
    parsed.payload = frame.payload := by
  rw [Parsed.payload, of_.payLen, Int.toNat_natCast]
  apply List.ext_getElem
  · simp
  · intro index before inside
    simp [of_.out, List.getElem?_eq_getElem inside]

/-- The pong of a payload. -/
def pongFrame (key : Key) (payload : Bytes) (allowed : payload.length ≤ 125) : Frame where
  head := 138
  key := some key
  width := .short
  payload := payload
  fits := Nat.lt_succ_of_le allowed

def pingFrame (count : Nat) (allowed : count ≤ 125) : Frame where
  head := 137
  key := none
  width := .short
  payload := List.replicate count 0
  fits := by
    rw [List.length_replicate]
    exact Nat.lt_succ_of_le allowed

theorem pongBytes_eq (key : Key) {payload : Bytes} (allowed : payload.length ≤ 125) :
    pongBytes key payload = (pongFrame key payload allowed).encode := by
  rw [pongBytes, List.take_of_length_le allowed]
  simp [Frame.encode, WebSocket.Header.bytes, Frame.header, pongFrame, Width.mark, Width.size, bigEndian, keyBytes,
    mask, or_ofNat (Nat.lt_succ_of_le allowed)]

theorem length_pongBytes (key : Key) {payload : Bytes} (allowed : payload.length ≤ 125) :
    (pongBytes key payload).length = 6 + payload.length := by
  rw [pongBytes_eq key allowed, Frame.length_encode]
  rfl

/-- **A pong fits its array exactly if the ping has at most 14 bytes.** A ping that the protocol allows
is parsed; then all writes lie inside of the array and what is sent is a masked pong with the payload of
the ping, exactly if that is short. -/
theorem pong_iff (key : Key) {bytes rest : Bytes} {ping : Frame} (beyond : Nat → UInt8)
    (found : decode bytes = some (ping, rest)) (isPing : ping.opcode = 9)
    (allowed : ping.payload.length ≤ 125) :
    ∃ parsed, parseFrame (memory bytes beyond) bytes.length 65536 = .frame parsed ∧
      parsed.opcode = 9 ∧
      (((pongBytes key parsed.payload).length ≤ pongArray ∧
        ∃ pong, decode (pongBytes key parsed.payload) = some (pong, []) ∧ pong.head = 138 ∧
          pong.key = some key ∧ pong.payload = ping.payload) ↔ ping.payload.length ≤ 14) := by
  have small : ping.encode.length < 2 ^ 31 := by
    have size : ping.header.size ≤ 14 := by
      rw [WebSocket.Header.size]
      cases ping.header.length.width <;> simp only [Width.size] <;> split_ifs <;> omega
    rw [ping.length_encode]
    omega
  obtain ⟨parsed, parses, of_⟩ := parseFrame_of_decode found small (show _ ≤ 65536 by omega)
  refine ⟨parsed, parses, of_.opcode.trans isPing, ?_⟩
  rw [of_.payload_eq, length_pongBytes key allowed, pongArray]
  constructor
  · omega
  · intro few
    refine ⟨by omega, pongFrame key ping.payload allowed, ?_, rfl, rfl, rfl⟩
    rw [pongBytes_eq key allowed, decode_iff, List.append_nil]

theorem pong_iff_three :
    ∃ parsed, parseFrame (memory (pingFrame 3 (by decide)).encode fun _ => 0)
        (pingFrame 3 (by decide)).encode.length 65536 = .frame parsed ∧ parsed.opcode = 9 ∧
      (pongBytes ⟨1, 2, 3, 4⟩ parsed.payload).length ≤ pongArray := by
  have found : decode (pingFrame 3 (by decide)).encode = some (pingFrame 3 (by decide), []) :=
    decode_iff.mpr (List.append_nil _).symm
  have isPing : (pingFrame 3 (by decide)).opcode = 9 := show (137 &&& 15 : UInt8) = 9 by decide
  obtain ⟨parsed, parses, opcode, fits⟩ := pong_iff ⟨1, 2, 3, 4⟩ (fun _ => 0) found isPing (by decide)
  exact ⟨parsed, parses, opcode, (fits.mpr (by decide)).1⟩

/-- **A ping of 15 bytes**: the last byte of its pong is written behind the array. -/
theorem pong_fifteen :
    ∃ parsed, parseFrame (memory (pingFrame 15 (by decide)).encode fun _ => 0)
        (pingFrame 15 (by decide)).encode.length 65536 = .frame parsed ∧ parsed.opcode = 9 ∧
      parsed.payload.length = 15 ∧
      ∀ key, pongArray < (pongBytes key parsed.payload).length := by
  have found : decode (pingFrame 15 (by decide)).encode = some (pingFrame 15 (by decide), []) :=
    decode_iff.mpr (List.append_nil _).symm
  obtain ⟨parsed, parses, of_⟩ := parseFrame_of_decode found (by decide +kernel)
    (show _ ≤ 65536 by decide)
  refine ⟨parsed, parses, of_.opcode.trans (show (137 &&& 15 : UInt8) = 9 by decide), ?_, fun key => ?_⟩
  · rw [of_.payload_eq]
    rfl
  · rw [of_.payload_eq, length_pongBytes key (by decide)]
    decide

end ExecRelay.MT4
