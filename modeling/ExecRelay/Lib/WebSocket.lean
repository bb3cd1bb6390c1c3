/-
**Frames of the WebSocket protocol (RFC 6455, section 5).**

A frame is a first byte with the opcode, a length in one of three widths, a masking key if there is one,
and the payload, each byte of it combined with a byte of the key. `Frame` carries the fact that its
length fits its width.
-/

import Mathlib.Data.List.Induction
import ExecRelay.Lib.Bytes

namespace ExecRelay.Lib.WebSocket

/-! ### Numbers of several bytes -/

def bigEndian : Nat → Nat → Bytes
  | 0, _ => []
  | count + 1, number => bigEndian count (number / 256) ++ [UInt8.ofNat number]

def readBigEndian (bytes : Bytes) : Nat :=
  bytes.foldl (fun number byte => number * 256 + byte.toNat) 0

@[simp]
theorem length_bigEndian (count number : Nat) : (bigEndian count number).length = count := by
  induction count generalizing number with
  | zero => rfl
  | succ count ih => rw [bigEndian, List.length_append, ih, List.length_singleton]

theorem readBigEndian_snoc (bytes : Bytes) (byte : UInt8) :
    readBigEndian (bytes ++ [byte]) = readBigEndian bytes * 256 + byte.toNat := by
  rw [readBigEndian, List.foldl_append]
  rfl

theorem readBigEndian_bigEndian {count number : Nat} (fits : number < 256 ^ count) :
    readBigEndian (bigEndian count number) = number := by
  induction count generalizing number with
  | zero =>
    rw [Nat.pow_zero, Nat.lt_one_iff] at fits
    rw [fits]
    rfl
  | succ count ih =>
    have less : number / 256 < 256 ^ count := Nat.div_lt_of_lt_mul (by rwa [← Nat.pow_succ'])
    rw [bigEndian, readBigEndian_snoc, ih less, UInt8.toNat_ofNat']
    omega

theorem bigEndian_readBigEndian (bytes : Bytes) :
    bigEndian bytes.length (readBigEndian bytes) = bytes := by
  induction bytes using List.reverseRecOn with
  | nil => rfl
  | append_singleton bytes byte ih =>
    have whole : (readBigEndian bytes * 256 + byte.toNat) / 256 = readBigEndian bytes := by
      have := byte.toNat_lt
      omega
    have last : UInt8.ofNat (readBigEndian bytes * 256 + byte.toNat) = byte := by
      apply UInt8.toNat_inj.mp
      have := byte.toNat_lt
      rw [UInt8.toNat_ofNat']
      omega
    rw [List.length_append, List.length_singleton, readBigEndian_snoc, bigEndian, whole, last, ih]

theorem readBigEndian_lt (bytes : Bytes) : readBigEndian bytes < 256 ^ bytes.length := by
  induction bytes using List.reverseRecOn with
  | nil => exact Nat.one_pos
  | append_singleton bytes byte ih =>
    have := byte.toNat_lt
    rw [List.length_append, List.length_singleton, readBigEndian_snoc, Nat.pow_succ]
    omega

/-! ### Masking -/

structure Key where
  first : UInt8
  second : UInt8
  third : UInt8
  fourth : UInt8
deriving DecidableEq, Repr

namespace Key

def bytes (key : Key) : Bytes := [key.first, key.second, key.third, key.fourth]

/-- The byte of the key for the byte `index` of the payload. -/
def get (key : Key) (index : Nat) : UInt8 :=
  match index % 4 with
  | 0 => key.first
  | 1 => key.second
  | 2 => key.third
  | _ => key.fourth

end Key

def mask (key : Option Key) (bytes : Bytes) : Bytes :=
  match key with
  | none => bytes
  | some key => bytes.mapIdx fun index byte => byte ^^^ key.get index

@[simp]
theorem length_mask (key : Option Key) (bytes : Bytes) : (mask key bytes).length = bytes.length := by
  cases key <;> simp [mask]

@[simp]
theorem mask_mask (key : Option Key) (bytes : Bytes) : mask key (mask key bytes) = bytes := by
  cases key with
  | none => rfl
  | some key =>
    refine List.ext_getElem (by simp [mask]) fun index _ _ => ?_
    simp only [mask, List.getElem_mapIdx, UInt8.xor_assoc, UInt8.xor_self, UInt8.xor_zero]

def keyBytes : Option Key → Bytes
  | none => []
  | some key => key.bytes

/-! ### Frames -/

/-- How the length is written. -/
inductive Width
  | short
  | medium
  | long
deriving DecidableEq, Repr

namespace Width

def limit : Width → Nat
  | short => 126
  | medium => 2 ^ 16
  | long => 2 ^ 64

def mark (width : Width) (length : Nat) : Nat :=
  match width with
  | short => length
  | medium => 126
  | long => 127

def size : Width → Nat
  | short => 0
  | medium => 2
  | long => 8

theorem limit_medium : medium.limit = 256 ^ medium.size := by decide

theorem limit_long : long.limit = 256 ^ long.size := by decide

theorem mark_lt {width : Width} {length : Nat} (fits : length < width.limit) :
    width.mark length < 128 := by
  cases width with
  | short => exact Nat.lt_trans fits (by decide)
  | medium => exact Nat.lt_of_sub_eq_succ rfl
  | long => exact Nat.lt_of_sub_eq_succ rfl

end Width

@[ext]
structure Length where
  width : Width
  value : Nat
  fits : value < width.limit

/-- A frame up to its masking key. -/
@[ext]
structure Header where
  head : UInt8
  masked : Bool
  length : Length

def Header.size (header : Header) : Nat :=
  2 + header.length.width.size + if header.masked then 4 else 0

def Header.bytes (header : Header) : Bytes :=
  header.head ::
    UInt8.ofNat ((if header.masked then 128 else 0) + header.length.width.mark header.length.value) ::
    bigEndian header.length.width.size header.length.value

@[ext]
structure Frame where
  head : UInt8
  key : Option Key
  width : Width
  payload : Bytes
  fits : payload.length < width.limit

def Frame.opcode (frame : Frame) : UInt8 := frame.head &&& 15

def Frame.header (frame : Frame) : Header where
  head := frame.head
  masked := frame.key.isSome
  length := ⟨frame.width, frame.payload.length, frame.fits⟩

def Frame.encode (frame : Frame) : Bytes :=
  frame.header.bytes ++ (keyBytes frame.key ++ mask frame.key frame.payload)

theorem length_keyBytes (key : Option Key) :
    (keyBytes key).length = if key.isSome then 4 else 0 := by
  cases key <;> rfl

theorem Header.length_bytes (header : Header) :
    header.bytes.length = 2 + header.length.width.size := by
  rw [Header.bytes, List.length_cons, List.length_cons, length_bigEndian]
  omega

theorem Frame.length_encode (frame : Frame) :
    frame.encode.length = frame.header.size + frame.payload.length := by
  rw [Frame.encode, List.length_append, List.length_append, Header.length_bytes, length_keyBytes,
    length_mask, Header.size]
  exact (Nat.add_assoc _ _ _).symm

/-! ### Reading -/

theorem readBigEndian_take_lt (count : Nat) (bytes : Bytes) :
    readBigEndian (bytes.take count) < 256 ^ count :=
  Nat.lt_of_lt_of_le (readBigEndian_lt _) (Nat.pow_le_pow_right (by decide) (List.length_take_le _ _))

def readWide (width : Width) (wide : width.limit = 256 ^ width.size) (rest : Bytes) : Option Length :=
  if rest.length < width.size then none
  else some ⟨width, readBigEndian (rest.take width.size), wide ▸ readBigEndian_take_lt _ rest⟩

/-- The length of the second byte, or of the bytes behind it that it stands for. -/
def readLength (second : UInt8) (rest : Bytes) : Option Length :=
  if medium : second.toNat % 128 = 126 then readWide .medium Width.limit_medium rest
  else if long : second.toNat % 128 = 127 then readWide .long Width.limit_long rest
  else some ⟨.short, second.toNat % 128, by rw [Width.limit]; omega⟩

theorem readWide_eq_some {width : Width} {wide : width.limit = 256 ^ width.size} {rest : Bytes}
    {length : Length} :
    readWide width wide rest = some length ↔ length.width = width ∧ width.size ≤ rest.length ∧
      rest.take width.size = bigEndian width.size length.value := by
  rw [readWide]
  split_ifs with few
  · simp [Nat.not_le.mpr few]
  · have count : (rest.take width.size).length = width.size :=
      List.length_take_of_le (Nat.le_of_not_lt few)
    rw [Option.some.injEq]
    constructor
    · rintro rfl
      refine ⟨rfl, Nat.le_of_not_lt few, ?_⟩
      have whole := bigEndian_readBigEndian (rest.take width.size)
      rw [count] at whole
      exact whole.symm
    · rintro ⟨rfl, -, same⟩
      refine Length.ext rfl ?_
      change readBigEndian _ = _
      rw [same, readBigEndian_bigEndian (wide ▸ length.fits)]

/-- **What the second byte stands for.** -/
theorem readLength_eq_some {second : UInt8} {rest : Bytes} {length : Length} :
    readLength second rest = some length ↔
      second.toNat % 128 = length.width.mark length.value ∧ length.width.size ≤ rest.length ∧
        rest.take length.width.size = bigEndian length.width.size length.value := by
  have fits := length.fits
  rw [readLength]
  split_ifs with medium long
  · rw [readWide_eq_some, medium]
    cases kind : length.width <;> simp_all [Width.mark, Width.size, Width.limit]
    omega
  · rw [readWide_eq_some, long]
    cases kind : length.width <;> simp_all [Width.mark, Width.size, Width.limit]
    omega
  · rw [Option.some.injEq, Length.ext_iff]
    cases kind : length.width <;> simp_all [Width.mark, Width.size, bigEndian]

def readHeader : Bytes → Option Header
  | head :: second :: rest => (readLength second rest).map fun length =>
    { head := head, masked := 128 ≤ second.toNat, length := length }
  | _ => none

def readKey (masked : Bool) (rest : Bytes) : Option Key :=
  match masked, rest with
  | true, first :: second :: third :: fourth :: _ => some ⟨first, second, third, fourth⟩
  | _, _ => none

def Header.key (header : Header) (bytes : Bytes) : Option Key :=
  readKey header.masked (bytes.drop (2 + header.length.width.size))

def Header.frame (header : Header) (bytes : Bytes)
    (whole : header.size + header.length.value ≤ bytes.length) : Frame where
  head := header.head
  key := header.key bytes
  width := header.length.width
  payload := mask (header.key bytes) ((bytes.drop header.size).take header.length.value)
  fits := by
    rw [length_mask, List.length_take_of_le (by rw [List.length_drop]; omega)]
    exact header.length.fits

def decode (bytes : Bytes) : Option (Frame × Bytes) :=
  match readHeader bytes with
  | none => none
  | some header =>
    if whole : header.size + header.length.value ≤ bytes.length then
      some (header.frame bytes whole, bytes.drop (header.size + header.length.value))
    else
      none

theorem decode_eq_some {bytes rest : Bytes} {frame : Frame} :
    decode bytes = some (frame, rest) ↔ ∃ header whole, readHeader bytes = some header ∧
      header.frame bytes whole = frame ∧ bytes.drop (header.size + header.length.value) = rest := by
  rw [decode]
  cases readHeader bytes with
  | none => simp
  | some header =>
    by_cases whole : header.size + header.length.value ≤ bytes.length
    · simp [whole]
    · simp [whole]

/-- **A header is read exactly where its bytes stand.** -/
theorem readHeader_eq_some {bytes : Bytes} {header : Header} :
    readHeader bytes = some header ↔ ∃ rest, bytes = header.bytes ++ rest := by
  obtain ⟨head, masked, length⟩ := header
  have small := Width.mark_lt length.fits
  constructor
  · intro read
    match bytes, read with
    | first :: second :: rest, read =>
      rw [readHeader, Option.map_eq_some_iff] at read
      obtain ⟨_, found, same⟩ := read
      cases same
      obtain ⟨low, enough, field⟩ := readLength_eq_some.mp found
      have bits := second.toNat_lt
      have whole : second = UInt8.ofNat ((if decide (128 ≤ second.toNat) then 128 else 0) +
          length.width.mark length.value) := by
        apply UInt8.toNat_inj.mp
        rw [UInt8.toNat_ofNat']
        split_ifs with high <;> rw [decide_eq_true_eq] at high <;> omega
      refine ⟨rest.drop length.width.size, ?_⟩
      rw [Header.bytes, ← whole, List.cons_append, List.cons_append, ← field, List.take_append_drop]
  · rintro ⟨rest, rfl⟩
    rw [Header.bytes, List.cons_append, List.cons_append, readHeader, Option.map_eq_some_iff]
    simp only
    refine ⟨length, readLength_eq_some.mpr ⟨?_, by simp, by simp⟩, Header.ext rfl ?_ rfl⟩
    · rw [UInt8.toNat_ofNat']
      split_ifs <;> omega
    · cases masked <;> simp <;> omega

theorem keyBytes_readKey {masked : Bool} {rest : Bytes}
    (enough : (if masked then 4 else 0) ≤ rest.length) :
    (readKey masked rest).isSome = masked ∧
      rest = keyBytes (readKey masked rest) ++ rest.drop (if masked then 4 else 0) := by
  cases masked with
  | false => exact ⟨rfl, rfl⟩
  | true =>
    match rest, enough with
    | _ :: _ :: _ :: _ :: _, _ => exact ⟨rfl, rfl⟩

theorem readKey_keyBytes (key : Option Key) (rest : Bytes) :
    readKey key.isSome (keyBytes key ++ rest) = key := by
  cases key <;> rfl

theorem get_readKey {masked : Bool} {rest : Bytes} {key : Key} (read : readKey masked rest = some key)
    (index : Nat) : rest[index % 4]? = some (key.get index) := by
  match masked, rest, read with
  | true, _ :: _ :: _ :: _ :: _, rfl =>
    have cases_ : index % 4 = 0 ∨ index % 4 = 1 ∨ index % 4 = 2 ∨ index % 4 = 3 := by omega
    rcases cases_ with rest | rest | rest | rest <;> simp [Key.get, rest]

section Parts

variable (header : Header) (tail : Bytes)

theorem Header.key_append : header.key (header.bytes ++ tail) = readKey header.masked tail := by
  rw [Header.key, List.drop_left' header.length_bytes]

theorem Header.drop_size :
    (header.bytes ++ tail).drop header.size = tail.drop (if header.masked then 4 else 0) := by
  rw [Header.size, ← List.drop_drop, List.drop_left' header.length_bytes]

variable (whole : header.size + header.length.value ≤ (header.bytes ++ tail).length)

include whole

theorem Header.le_length_tail :
    (if header.masked then 4 else 0) + header.length.value ≤ tail.length := by
  rw [List.length_append, header.length_bytes, Header.size] at whole
  omega

theorem Header.header_frame : (header.frame (header.bytes ++ tail) whole).header = header := by
  have enough := header.le_length_tail tail whole
  refine Header.ext rfl ?_ (Length.ext rfl ?_)
  · change (header.key (header.bytes ++ tail)).isSome = header.masked
    rw [header.key_append, (keyBytes_readKey (by omega)).1]
  · change (mask _ _).length = _
    rw [length_mask, List.length_take_of_le]
    rw [List.length_drop]
    omega

theorem Header.encode_frame :
    (header.frame (header.bytes ++ tail) whole).encode ++
      (header.bytes ++ tail).drop (header.size + header.length.value) = header.bytes ++ tail := by
  have enough := header.le_length_tail tail whole
  have split := (@keyBytes_readKey header.masked tail (by omega)).2
  rw [Frame.encode, header.header_frame tail whole]
  change header.bytes ++ (keyBytes (header.key _) ++ mask (header.key _) (mask (header.key _) _)) ++ _ = _
  rw [mask_mask, header.key_append, ← List.drop_drop, header.drop_size, List.append_assoc,
    List.append_assoc, List.take_append_drop, ← split]

end Parts

theorem length_frame {bytes : Bytes} {header : Header} (read : readHeader bytes = some header)
    (whole : header.size + header.length.value ≤ bytes.length) :
    (header.frame bytes whole).payload.length = header.length.value ∧
      (header.frame bytes whole).encode.length = header.size + header.length.value := by
  obtain ⟨tail, rfl⟩ := readHeader_eq_some.mp read
  have same := header.header_frame tail whole
  have paid : (header.frame (header.bytes ++ tail) whole).payload.length = header.length.value :=
    congrArg (·.length.value) same
  refine ⟨paid, ?_⟩
  rw [Frame.length_encode, same, paid]

theorem readHeader_encode (frame : Frame) : readHeader frame.encode = some frame.header :=
  readHeader_eq_some.mpr ⟨_, rfl⟩

/-- **A frame is read exactly where its bytes stand.** -/
theorem decode_iff {bytes rest : Bytes} {frame : Frame} :
    decode bytes = some (frame, rest) ↔ bytes = frame.encode ++ rest := by
  rw [decode_eq_some]
  constructor
  · rintro ⟨header, whole, read, rfl, rfl⟩
    obtain ⟨tail, rfl⟩ := readHeader_eq_some.mp read
    exact (header.encode_frame tail whole).symm
  · rintro rfl
    have read : readHeader (frame.encode ++ rest) = some frame.header :=
      readHeader_eq_some.mpr ⟨_, List.append_assoc ..⟩
    have whole : frame.header.size + frame.header.length.value ≤ (frame.encode ++ rest).length := by
      rw [List.length_append, frame.length_encode]
      exact Nat.le_add_right _ _
    refine ⟨frame.header, whole, read, ?_, ?_⟩
    · have key : frame.header.key (frame.encode ++ rest) = frame.key := by
        rw [Frame.encode, List.append_assoc, Header.key_append, List.append_assoc]
        exact readKey_keyBytes frame.key _
      refine Frame.ext rfl key rfl ?_
      change mask (frame.header.key _) (List.take frame.payload.length _) = _
      rw [key]
      have behind : (frame.encode ++ rest).drop frame.header.size = mask frame.key frame.payload ++ rest := by
        rw [Frame.encode, List.append_assoc, Header.drop_size, List.append_assoc]
        exact List.drop_left' (length_keyBytes frame.key)
      rw [behind, List.take_left' (length_mask frame.key frame.payload), mask_mask]
    · exact List.drop_left' frame.length_encode

end ExecRelay.Lib.WebSocket
