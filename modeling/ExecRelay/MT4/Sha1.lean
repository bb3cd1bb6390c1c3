/-
**SHA-1 of the MT4 library** (`ea/mt4-ws-dll/src/ws_dll.cpp`).

The hash is computed through a buffer of one block: `sha1Update` fills it up, compresses it and the whole
blocks behind it, and keeps the rest. The padding is done with the same function, a byte at a time. Each
copy and each read says whether it stays in range, and the loops whether they end; what the buffer holds
before the first byte is arbitrary.

A context has absorbed a message (`Absorbed`) if it has compressed the whole blocks of it and holds the
rest in its buffer. An update keeps that, however the message is cut (`Absorbed.updates`), and the last
updates bring the padding (`sha1Final_eq`).
-/

import ExecRelay.Lib.Bytes
import Mathlib.Order.Bounds.Defs

namespace ExecRelay.MT4

open Lib

/-! ### One block -/

structure Words where
  a : UInt32
  b : UInt32
  c : UInt32
  d : UInt32
  e : UInt32
deriving DecidableEq, Repr

def rotl32 (x n : UInt32) : UInt32 :=
  x <<< n ||| x >>> (32 - n)

def sha1Word (block : Bytes) (i : Nat) : Option UInt32 := do
  return (← block[i * 4]?).toUInt32 <<< 24 ||| (← block[i * 4 + 1]?).toUInt32 <<< 16 |||
    (← block[i * 4 + 2]?).toUInt32 <<< 8 ||| (← block[i * 4 + 3]?).toUInt32

/-- The words from the sixteenth on. -/
def sha1Schedule (w : List UInt32) : List UInt32 :=
  (List.range' 16 64).foldl (fun w i => w ++
    [rotl32 (w.getD (i - 3) 0 ^^^ w.getD (i - 8) 0 ^^^ w.getD (i - 14) 0 ^^^ w.getD (i - 16) 0) 1]) w

def sha1Round (s : Words) (i : Nat) (w : UInt32) : Words :=
  let (f, k) : UInt32 × UInt32 :=
    if i < 20 then (s.b &&& s.c ||| ~~~ s.b &&& s.d, 0x5A827999)
    else if i < 40 then (s.b ^^^ s.c ^^^ s.d, 0x6ED9EBA1)
    else if i < 60 then (s.b &&& s.c ||| s.b &&& s.d ||| s.c &&& s.d, 0x8F1BBCDC)
    else (s.b ^^^ s.c ^^^ s.d, 0xCA62C1D6)
  ⟨rotl32 s.a 5 + f + s.e + k + w, s.a, rotl32 s.b 30, s.c, s.d⟩

/-- `sha1_compress`; none if the block is not long enough for its reads. -/
def sha1Compress (s : Words) (block : Bytes) : Option Words := do
  let w ← (List.range 16).mapM (sha1Word block)
  let t := (sha1Schedule w).zipIdx.foldl (fun s entry => sha1Round s entry.2 entry.1) s
  return ⟨s.a + t.a, s.b + t.b, s.c + t.c, s.d + t.d, s.e + t.e⟩

/-! ### The context -/

structure SHA1 where
  s : Words
  c0 : UInt32
  c1 : UInt32
  buf : Bytes

def initialWords : Words :=
  ⟨0x67452301, 0xEFCDAB89, 0x98BADCFE, 0x10325476, 0xC3D2E1F0⟩

/-- `sha1_init`, which leaves the buffer as it is. -/
def sha1Init (buf : Bytes) : SHA1 :=
  ⟨initialWords, 0, 0, buf⟩

/-- `memcpy` into the buffer; none outside of it. -/
def memcpy (buf : Bytes) (j : Nat) (data : Bytes) : Option Bytes :=
  if j + data.length ≤ buf.length then some (buf.take j ++ data ++ buf.drop (j + data.length)) else none

/-- The `count` bytes of the input from `i` on; none if they are not all there. -/
def input (d : Bytes) (i count : Nat) : Option Bytes :=
  if i + count ≤ d.length then some ((d.drop i).take count) else none

/-- The loop over the whole blocks of the input. -/
def compressBlocks (d : Bytes) : Nat → Nat → Words → Option (Nat × Words)
  | 0, _, _ => none
  | fuel + 1, i, s =>
    if i + 63 < d.length then do compressBlocks d fuel (i + 64) (← sha1Compress s (← input d i 64))
    else some (i, s)

def sha1Update (ctx : SHA1) (d : Bytes) : Option SHA1 := do
  let j := (ctx.c0 >>> 3 &&& 63).toNat
  let bits := UInt32.ofNat (d.length <<< 3)
  let c0 := ctx.c0 + bits
  let carried := if c0 < bits then ctx.c1 + 1 else ctx.c1
  let c1 := carried + UInt32.ofNat (d.length >>> 29)
  if 63 < j + d.length then
    let i := 64 - j
    let buf ← memcpy ctx.buf j (← input d 0 i)
    let (i, s) ← compressBlocks d (d.length + 1) i (← sha1Compress ctx.s buf)
    return ⟨s, c0, c1, ← memcpy buf 0 (← input d i (d.length - i))⟩
  else
    return ⟨ctx.s, c0, c1, ← memcpy ctx.buf j (← input d 0 d.length)⟩

/-- Zeros up to the place of the length. -/
def zeroLoop : Nat → SHA1 → Option SHA1
  | 0, _ => none
  | fuel + 1, ctx =>
    if ctx.c0 &&& 504 ≠ 448 then do zeroLoop fuel (← sha1Update ctx [0]) else some ctx

/-- The four bytes of a word, the highest first. -/
def wordBytes (word : UInt32) : Bytes :=
  (List.range 4).map fun i => (word >>> UInt32.ofNat ((3 - i) * 8)).toUInt8

/-- What `sha1_final` writes out. -/
def sha1Digest (s : Words) : Bytes :=
  [s.a, s.b, s.c, s.d, s.e].flatMap wordBytes

def sha1Final (ctx : SHA1) : Option Bytes := do
  let fc := wordBytes ctx.c1 ++ wordBytes ctx.c0
  let ctx ← sha1Update ctx [0x80]
  let ctx ← zeroLoop 65 ctx
  let ctx ← sha1Update ctx fc
  return sha1Digest ctx.s

/-- `sha1_hash`, with a context on the stack. -/
def sha1Hash (stack : Bytes) (d : Bytes) : Option Bytes := do
  sha1Final (← sha1Update (sha1Init stack) d)

example : (sha1Hash (List.replicate 64 7) (lit "abc")).map hexEncode =
    some (lit "a9993e364706816aba3e25717850c26c9cd0d89d") := by
  decide +kernel

/-! ### Blocks -/

/-- The whole blocks of a message. -/
def blocksOf (message : Bytes) : List Bytes :=
  (List.range (message.length / 64)).map fun n => (message.drop (64 * n)).take 64

/-- The words behind the whole blocks of a message. -/
def compressAll (message : Bytes) : Option Words :=
  (blocksOf message).foldlM sha1Compress initialWords

theorem mapM_isSome {α β : Type} {f : α → Option β} {items : List α}
    (all : ∀ item ∈ items, ∃ value, f item = some value) : ∃ values, items.mapM f = some values := by
  induction items with
  | nil => exact ⟨[], rfl⟩
  | cons item rest ih =>
    obtain ⟨here, behind⟩ := List.forall_mem_cons.mp all
    obtain ⟨value, first⟩ := here
    obtain ⟨values, later⟩ := ih behind
    exact ⟨value :: values, by rw [List.mapM_cons, first, later]; rfl⟩

theorem sha1Compress_isSome (s : Words) {block : Bytes} (whole : block.length = 64) :
    ∃ next, sha1Compress s block = some next := by
  obtain ⟨w, words⟩ : ∃ w, (List.range 16).mapM (sha1Word block) = some w := by
    refine mapM_isSome fun i inside => ?_
    have below := List.mem_range.mp inside
    rw [sha1Word, List.getElem?_eq_getElem (by omega), List.getElem?_eq_getElem (by omega),
      List.getElem?_eq_getElem (by omega), List.getElem?_eq_getElem (by omega)]
    exact ⟨_, rfl⟩
  rw [sha1Compress, words]
  exact ⟨_, rfl⟩

theorem blocksOf_append {message block : Bytes} (aligned : message.length % 64 = 0)
    (whole : block.length = 64) : blocksOf (message ++ block) = blocksOf message ++ [block] := by
  have count : (message ++ block).length / 64 = message.length / 64 + 1 := by
    rw [List.length_append]
    omega
  rw [blocksOf, count, List.range_succ, List.map_append]
  congr 1
  · refine List.map_congr_left fun n inside => ?_
    have below := List.mem_range.mp inside
    rw [List.drop_append_of_le_length (by omega), List.take_append_of_le_length (by simp; omega)]
  · rw [List.map_singleton, show 64 * (message.length / 64) = message.length by omega, List.drop_left,
      List.take_of_length_le (by omega)]

/-- **One block more.** -/
theorem compressAll_append {message block : Bytes} {s : Words} (aligned : message.length % 64 = 0)
    (whole : block.length = 64) (before : compressAll message = some s) :
    compressAll (message ++ block) = sha1Compress s block := by
  rw [compressAll] at before
  rw [compressAll, blocksOf_append aligned whole, List.foldlM_append, before]
  simp

/-! ### What a context has absorbed -/

/-- **The context has absorbed a message**: its whole blocks are compressed, and the buffer starts with the
bytes behind them. -/
structure Absorbed (ctx : SHA1) (whole rest : Bytes) : Prop where
  aligned : whole.length % 64 = 0
  short : rest.length < 64
  counter : ctx.c0 = UInt32.ofNat (8 * (whole.length + rest.length))
  sized : ctx.buf.length = 64
  held : ctx.buf.take rest.length = rest
  words : compressAll whole = some ctx.s

variable {ctx next : SHA1} {whole rest d : Bytes}

theorem fill_of_counter (n : Nat) : (UInt32.ofNat (8 * n) >>> 3 &&& 63).toNat = n % 64 := by
  show (8 * n % 2 ^ 32) >>> 3 &&& 2 ^ 6 - 1 = n % 64
  rw [Nat.and_two_pow_sub_one_eq_mod, Nat.shiftRight_eq_div_pow]
  omega

theorem Absorbed.fill (absorbed : Absorbed ctx whole rest) :
    (ctx.c0 >>> 3 &&& 63).toNat = rest.length := by
  rw [absorbed.counter, fill_of_counter]
  have aligned := absorbed.aligned
  have short := absorbed.short
  omega

/-- **The loop over the whole blocks** ends with less than a block left. -/
theorem compressBlocks_spec (fuel : Nat) {i : Nat} {s : Words} (enough : d.length < i + fuel)
    (inside : i ≤ d.length) (aligned : whole.length % 64 = 0) (before : compressAll whole = some s) :
    ∃ n s', compressBlocks d fuel i s = some (i + 64 * n, s') ∧ i + 64 * n ≤ d.length ∧
      d.length < i + 64 * n + 64 ∧ compressAll (whole ++ (d.drop i).take (64 * n)) = some s' := by
  induction fuel generalizing i s whole with
  | zero => omega
  | succ fuel ih =>
    rw [compressBlocks]
    split
    · have sized : ((d.drop i).take 64).length = 64 := by
        rw [List.length_take, List.length_drop]
        omega
      obtain ⟨t, compressed⟩ := sha1Compress_isSome s sized
      have after := compressAll_append aligned sized before
      rw [compressed] at after
      obtain ⟨n, s', loop, within, left, ends⟩ := ih (i := i + 64) (by omega) (by omega)
        (by rw [List.length_append, sized]; omega) after
      refine ⟨n + 1, s', ?_, by omega, by omega, ?_⟩
      · rw [input, if_pos (by omega)]
        simp only [Option.bind_eq_bind, Option.bind_some, compressed]
        rw [loop, show i + 64 + 64 * n = i + 64 * (n + 1) by omega]
      · rw [List.append_assoc, ← List.drop_drop, ← List.take_add] at ends
        rw [show 64 * (n + 1) = 64 + 64 * n by omega]
        exact ends
    · exact ⟨0, s, rfl, by omega, by omega, by simpa using before⟩

theorem memcpy_at {buf held data : Bytes} (sized : buf.length = 64) (starts : buf.take held.length = held)
    (fits : held.length + data.length ≤ 64) :
    ∃ after, memcpy buf held.length data = some after ∧ after.length = 64 ∧
      after.take (held ++ data).length = held ++ data := by
  refine ⟨_, if_pos (by omega), ?_, ?_⟩
  · simp only [List.length_append, List.length_take, List.length_drop]
    omega
  · rw [starts, List.take_left]

theorem counter_add (absorbed : Absorbed ctx whole rest) (d : Bytes) :
    ctx.c0 + UInt32.ofNat (d.length <<< 3) = UInt32.ofNat (8 * (whole ++ rest ++ d).length) := by
  rw [absorbed.counter, ← UInt32.ofNat_add, Nat.shiftLeft_eq, List.length_append, List.length_append]
  congr 1
  omega

/-- The high word of the counter behind an update. -/
def carried (ctx : SHA1) (d : Bytes) : UInt32 :=
  (if ctx.c0 + UInt32.ofNat (d.length <<< 3) < UInt32.ofNat (d.length <<< 3) then ctx.c1 + 1 else ctx.c1) +
    UInt32.ofNat (d.length >>> 29)

theorem input_of_le {i count : Nat} (inside : i + count ≤ d.length) :
    input d i count = some ((d.drop i).take count) :=
  if_pos inside

/-- **An update absorbs its input.** -/
theorem Absorbed.update (absorbed : Absorbed ctx whole rest) (d : Bytes) :
    ∃ next whole' rest', sha1Update ctx d = some next ∧ Absorbed next whole' rest' ∧
      whole' ++ rest' = whole ++ rest ++ d ∧ next.c1 = carried ctx d := by
  have short := absorbed.short
  have aligned := absorbed.aligned
  have counter := counter_add absorbed d
  unfold sha1Update
  rw [absorbed.fill]
  dsimp only
  by_cases full : 63 < rest.length + d.length
  · -- the buffer is filled up and compressed, and the whole blocks behind it
    have filling : (d.take (64 - rest.length)).length = 64 - rest.length := List.length_take_of_le (by omega)
    obtain ⟨filled, copied, sized, starts⟩ := memcpy_at absorbed.sized absorbed.held
      (show rest.length + (d.take (64 - rest.length)).length ≤ 64 by omega)
    have is : filled = rest ++ d.take (64 - rest.length) := by
      rw [List.length_append, filling, List.take_of_length_le (by omega)] at starts
      exact starts
    obtain ⟨t, compressed⟩ := sha1Compress_isSome ctx.s sized
    have after := compressAll_append aligned sized absorbed.words
    rw [compressed, is] at after
    obtain ⟨n, s', loop, within, left, ends⟩ := compressBlocks_spec (d.length + 1) (d := d)
      (i := 64 - rest.length) (by omega) (by omega) (by rw [← is, List.length_append, sized]; omega) after
    generalize stop : 64 - rest.length + 64 * n = k at loop within left
    have sizedRest : (d.drop k).length = d.length - k := List.length_drop
    obtain ⟨last, copiedLast, sizedLast, startsLast⟩ := memcpy_at sized
      (show filled.take ([] : Bytes).length = [] from rfl)
      (show ([] : Bytes).length + (d.drop k).length ≤ 64 by rw [sizedRest, List.length_nil]; omega)
    have joined : whole ++ (rest ++ d.take (64 - rest.length)) ++
        (d.drop (64 - rest.length)).take (64 * n) ++ d.drop k = whole ++ rest ++ d := by
      rw [← stop]
      simp only [List.append_assoc, ← List.drop_drop, List.take_append_drop]
    refine ⟨⟨s', ctx.c0 + UInt32.ofNat (d.length <<< 3), carried ctx d, last⟩, _, _, ?_,
      ⟨?_, ?_, ?_, sizedLast, startsLast, ends⟩, joined, rfl⟩
    · rw [if_pos full, input_of_le (by omega)]
      simp only [List.drop_zero, Option.bind_eq_bind, Option.bind_some, copied, compressed, loop]
      rw [input_of_le (by omega), List.take_of_length_le (by omega)]
      simp only [Option.bind_some]
      rw [show memcpy filled 0 (d.drop k) = some last from copiedLast]
      rfl
    · rw [← is, List.length_append, List.length_append, sized, List.length_take, List.length_drop]
      omega
    · show (d.drop k).length < 64
      omega
    · rw [counter, ← joined, List.length_append]
      rfl
  · -- the buffer takes all of it
    obtain ⟨held, copied, sized, starts⟩ := memcpy_at absorbed.sized absorbed.held
      (show rest.length + d.length ≤ 64 by omega)
    refine ⟨⟨ctx.s, ctx.c0 + UInt32.ofNat (d.length <<< 3), carried ctx d, held⟩, whole, rest ++ d, ?_,
      ⟨aligned, ?_, ?_, sized, starts, absorbed.words⟩, (List.append_assoc _ _ _).symm, rfl⟩
    · rw [if_neg full, input_of_le (by omega), List.drop_zero, List.take_length]
      simp only [Option.bind_eq_bind, Option.bind_some, copied]
      rfl
    · rw [List.length_append]
      omega
    · rw [counter, List.append_assoc, List.length_append]

/-! ### However the message is cut -/

theorem carried_eq (absorbed : Absorbed ctx whole rest) (d : Bytes)
    (small : (whole ++ rest ++ d).length < 2 ^ 29) : carried ctx d = ctx.c1 := by
  rw [List.length_append] at small
  have bits : (UInt32.ofNat (d.length <<< 3)).toNat = 8 * d.length := by
    rw [UInt32.toNat_ofNat', Nat.shiftLeft_eq]
    omega
  have kept : ¬ ctx.c0 + UInt32.ofNat (d.length <<< 3) < UInt32.ofNat (d.length <<< 3) := by
    rw [counter_add absorbed, UInt32.lt_iff_toNat_lt, bits, UInt32.toNat_ofNat', List.length_append]
    omega
  rw [carried, if_neg kept, Nat.shiftRight_eq_div_pow, Nat.div_eq_of_lt (by omega)]
  exact UInt32.add_zero _

/-- **The updates of a message**, however it is cut. -/
theorem Absorbed.updates (absorbed : Absorbed ctx whole rest) (high : ctx.c1 = 0) (chunks : List Bytes)
    (small : (whole ++ rest ++ chunks.flatten).length < 2 ^ 29) :
    ∃ next whole' rest', chunks.foldlM sha1Update ctx = some next ∧ Absorbed next whole' rest' ∧
      whole' ++ rest' = whole ++ rest ++ chunks.flatten ∧ next.c1 = 0 := by
  induction chunks generalizing ctx whole rest with
  | nil => exact ⟨ctx, whole, rest, rfl, absorbed, (List.append_nil _).symm, high⟩
  | cons d chunks ih =>
    rw [List.flatten_cons, ← List.append_assoc] at small
    obtain ⟨middle, whole', rest', updated, held, joined, carry⟩ := absorbed.update d
    rw [carried_eq absorbed d (by rw [List.length_append] at small; omega), high] at carry
    rw [← joined] at small
    obtain ⟨next, whole'', rest'', others, ends, all, zero⟩ := ih held carry small
    refine ⟨next, whole'', rest'', ?_, ends, ?_, zero⟩
    · rw [List.foldlM_cons, updated]
      exact others
    · rw [all, joined, List.flatten_cons, ← List.append_assoc]

theorem absorbed_init {buf : Bytes} (sized : buf.length = 64) : Absorbed (sha1Init buf) [] [] :=
  ⟨rfl, by decide, rfl, sized, rfl, rfl⟩

/-! ### The padding -/

theorem and_504 (n : Nat) : n &&& 504 = 8 * (n / 8 % 64) := by
  have below : ∀ m < 512, m &&& 504 = 8 * (m / 8) := by
    decide +kernel
  have low : n &&& 504 = (n % 512) &&& 504 := by
    have cut := Nat.and_mod_two_pow (a := n) (b := 504) (n := 9)
    rw [Nat.mod_eq_of_lt (Nat.lt_of_le_of_lt Nat.and_le_right (by decide))] at cut
    exact cut
  rw [low, below _ (Nat.mod_lt _ (by decide))]
  omega

theorem at_length_iff (absorbed : Absorbed ctx whole rest) :
    ctx.c0 &&& 504 = 448 ↔ (whole ++ rest).length % 64 = 56 := by
  rw [absorbed.counter, ← UInt32.toNat_inj, UInt32.toNat_and, UInt32.toNat_ofNat', List.length_append]
  show (8 * (whole.length + rest.length) % 2 ^ 32) &&& 504 = 448 ↔ _
  rw [and_504]
  omega

theorem zeroLoop_spec (zeros : Nat) {fuel : Nat} (enough : zeros < fuel)
    (absorbed : Absorbed ctx whole rest) (fills : ((whole ++ rest).length + zeros) % 64 = 56)
    (least : ∀ fewer < zeros, ((whole ++ rest).length + fewer) % 64 ≠ 56) :
    ∃ next whole' rest', zeroLoop fuel ctx = some next ∧ Absorbed next whole' rest' ∧
      whole' ++ rest' = whole ++ rest ++ List.replicate zeros 0 := by
  induction zeros generalizing ctx whole rest fuel with
  | zero =>
    obtain ⟨fuel, rfl⟩ : ∃ more, fuel = more + 1 := ⟨fuel - 1, by omega⟩
    rw [zeroLoop, if_neg (not_not.mpr ((at_length_iff absorbed).mpr fills))]
    exact ⟨ctx, whole, rest, rfl, absorbed, (List.append_nil _).symm⟩
  | succ zeros ih =>
    obtain ⟨fuel, rfl⟩ : ∃ more, fuel = more + 1 := ⟨fuel - 1, by omega⟩
    have more : ctx.c0 &&& 504 ≠ 448 :=
      (not_congr (at_length_iff absorbed)).mpr (least 0 (Nat.succ_pos zeros))
    obtain ⟨middle, whole', rest', updated, held, joined, -⟩ := absorbed.update [0]
    have longer : (whole' ++ rest').length = (whole ++ rest).length + 1 := by
      rw [joined, List.length_append]
      rfl
    obtain ⟨next, whole'', rest'', others, ends, all⟩ := ih (show zeros < fuel by omega) held (by omega)
      fun fewer below => by
        have later := least (fewer + 1) (by omega)
        omega
    refine ⟨next, whole'', rest'', ?_, ends, ?_⟩
    · rw [zeroLoop, if_pos more, updated]
      exact others
    · rw [all, joined, List.append_assoc, List.replicate_succ]
      rfl

/-- The length of a message in bits, in eight bytes. -/
def lengthBytes (bits : Nat) : Bytes :=
  (List.range 8).map fun i => UInt8.ofNat (bits / 256 ^ (7 - i))

/-- **The padding of RFC 3174** with so many zeros. -/
def padded (message : Bytes) (zeros : Nat) : Bytes :=
  message ++ [0x80] ++ List.replicate zeros 0 ++ lengthBytes (8 * message.length)

theorem wordBytes_ofNat {n : Nat} (small : n < 2 ^ 32) :
    wordBytes 0 ++ wordBytes (UInt32.ofNat n) = lengthBytes n := by
  have byte (i : Nat) (last : i < 4) :
      (UInt32.ofNat n >>> UInt32.ofNat ((3 - i) * 8)).toUInt8 = UInt8.ofNat (n / 256 ^ (3 - i)) := by
    apply UInt8.toNat_inj.mp
    rw [UInt32.toNat_toUInt8, UInt32.toNat_shiftRight, UInt32.toNat_ofNat_of_lt' small,
      UInt32.toNat_ofNat_of_lt' (show (3 - i) * 8 < 2 ^ 32 by omega), UInt8.toNat_ofNat',
      Nat.mod_eq_of_lt (show (3 - i) * 8 < 32 by omega), Nat.shiftRight_eq_div_pow, Nat.mul_comm, pow_mul]
    rfl
  have high (i : Nat) (first : i < 4) : UInt8.ofNat (n / 256 ^ (7 - i)) = 0 := by
    have large : (256 : Nat) ^ 4 ≤ 256 ^ (7 - i) := Nat.pow_le_pow_right (by decide) (by omega)
    rw [Nat.div_eq_of_lt (by omega)]
    rfl
  rw [lengthBytes, show List.range 8 = List.range 4 ++ (List.range 4).map (4 + ·) from rfl, List.map_append,
    List.map_map]
  congr 1
  · refine List.map_congr_left fun i inside => ?_
    rw [high i (List.mem_range.mp inside), UInt32.zero_shiftRight]
    rfl
  · refine List.map_congr_left fun i inside => ?_
    rw [byte i (List.mem_range.mp inside), Function.comp_apply, show 7 - (4 + i) = 3 - i by omega]

/-- **The digest of what was absorbed.** -/
theorem sha1Final_eq (absorbed : Absorbed ctx whole rest) (high : ctx.c1 = 0)
    (small : (whole ++ rest).length < 2 ^ 29) {zeros : Nat}
    (least : IsLeast {zeros | ((whole ++ rest).length + 1 + zeros + 8) % 64 = 0} zeros) :
    ∃ s, compressAll (padded (whole ++ rest) zeros) = some s ∧ sha1Final ctx = some (sha1Digest s) := by
  have fills : ((whole ++ rest).length + 1 + zeros + 8) % 64 = 0 := least.1
  have few : zeros < 64 := by
    by_contra many
    have := least.2 (show ((whole ++ rest).length + 1 + (zeros - 64) + 8) % 64 = 0 by omega)
    omega
  have counter : wordBytes ctx.c1 ++ wordBytes ctx.c0 = lengthBytes (8 * (whole ++ rest).length) := by
    rw [high, absorbed.counter, ← List.length_append]
    exact wordBytes_ofNat (by omega)
  obtain ⟨first, whole₁, rest₁, marked, held₁, joined₁, -⟩ := absorbed.update [0x80]
  have longer : (whole₁ ++ rest₁).length = (whole ++ rest).length + 1 := by
    rw [joined₁, List.length_append]
    rfl
  obtain ⟨second, whole₂, rest₂, zeroed, held₂, joined₂⟩ := zeroLoop_spec zeros (show zeros < 65 by omega)
    held₁ (by omega) fun fewer below found => by
      omega
  obtain ⟨third, whole₃, rest₃, closed, held₃, joined₃, -⟩ :=
    held₂.update (lengthBytes (8 * (whole ++ rest).length))
  have all : whole₃ ++ rest₃ = padded (whole ++ rest) zeros := by
    rw [joined₃, joined₂, joined₁, padded]
  have whole_ : rest₃ = [] := by
    have sized := congrArg List.length all
    have aligned := held₃.aligned
    have short := held₃.short
    simp only [padded, lengthBytes, List.length_append, List.length_replicate, List.length_map,
      List.length_range, List.length_singleton] at sized fills
    exact List.length_eq_zero_iff.mp (by omega)
  rw [whole_, List.append_nil] at all
  refine ⟨third.s, all ▸ held₃.words, ?_⟩
  rw [sha1Final, counter, marked]
  simp only [Option.bind_eq_bind, Option.bind_some, zeroed, closed]
  rfl

/-- **The hash.** For a message of fewer than `2 ^ 29` bytes the function ends with all its accesses in
range, and its result is the fold of the compression over the blocks of the padded message; the updates
may as well be given the message in pieces. -/
theorem sha1Hash_eq {stack message : Bytes} (sized : stack.length = 64)
    (small : message.length < 2 ^ 29) :
    ∃ zeros s, IsLeast {zeros | (message.length + 1 + zeros + 8) % 64 = 0} zeros ∧
      (blocksOf (padded message zeros)).foldlM sha1Compress initialWords = some s ∧
      sha1Hash stack message = some (sha1Digest s) ∧
      ∀ chunks : List Bytes, chunks.flatten = message →
        (chunks.foldlM sha1Update (sha1Init stack) >>= sha1Final) = some (sha1Digest s) := by
  have least : IsLeast {zeros | (message.length + 1 + zeros + 8) % 64 = 0}
      ((119 - message.length % 64) % 64) := by
    constructor
    · show (message.length + 1 + (119 - message.length % 64) % 64 + 8) % 64 = 0
      omega
    · intro zeros fills
      have : (message.length + 1 + zeros + 8) % 64 = 0 := fills
      omega
  have chunked (chunks : List Bytes) (is : chunks.flatten = message) :
      ∃ s, compressAll (padded message ((119 - message.length % 64) % 64)) = some s ∧
        (chunks.foldlM sha1Update (sha1Init stack) >>= sha1Final) = some (sha1Digest s) := by
    obtain ⟨ctx, whole, rest, updated, held, joined, high⟩ :=
      (absorbed_init sized).updates rfl chunks (by rw [is]; exact small)
    rw [List.append_nil, List.nil_append, is] at joined
    rw [← joined] at small least ⊢
    obtain ⟨s, words, digest⟩ := sha1Final_eq held high small least
    refine ⟨s, words, ?_⟩
    rw [updated]
    exact digest
  obtain ⟨s, words, digest⟩ := chunked [message] (List.append_nil message)
  refine ⟨_, s, least, words, ?_, fun chunks is => ?_⟩
  · simpa only [List.foldlM_cons, List.foldlM_nil, bind_pure, sha1Hash] using digest
  · obtain ⟨other, again, same⟩ := chunked chunks is
    rw [words] at again
    cases again
    exact same

/-- The hash of a text, with whatever was on the stack. -/
theorem sha1Hash_eq_abc :
    (List.replicate 64 (7 : UInt8)).length = 64 ∧ (lit "abc").length < 2 ^ 29 ∧
      ∃ s, sha1Hash (List.replicate 64 7) (lit "abc") = some (sha1Digest s) := by
  have sized : (List.replicate 64 (7 : UInt8)).length = 64 := by decide
  have small : (lit "abc").length < 2 ^ 29 := by decide
  obtain ⟨zeros, s, -, -, digest, -⟩ := sha1Hash_eq sized small
  exact ⟨sized, small, s, digest⟩

end ExecRelay.MT4
