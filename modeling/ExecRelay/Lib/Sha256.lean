/-
**SHA-256 and HMAC.**

The hash of FIPS 180-4 over byte strings, by its recursion: a block is turned into sixteen words, the
schedule is a window of sixteen words that moves by one word a round, and the eight registers are
added to the state behind each block. `hmacSha256` is the keyed form with the inner and the outer
pad.
-/

import ExecRelay.Lib.Bytes

namespace ExecRelay.Lib

namespace Sha256

def constants : List UInt32 :=
  [0x428a2f98, 0x71374491, 0xb5c0fbcf, 0xe9b5dba5, 0x3956c25b, 0x59f111f1, 0x923f82a4, 0xab1c5ed5,
    0xd807aa98, 0x12835b01, 0x243185be, 0x550c7dc3, 0x72be5d74, 0x80deb1fe, 0x9bdc06a7, 0xc19bf174,
    0xe49b69c1, 0xefbe4786, 0x0fc19dc6, 0x240ca1cc, 0x2de92c6f, 0x4a7484aa, 0x5cb0a9dc, 0x76f988da,
    0x983e5152, 0xa831c66d, 0xb00327c8, 0xbf597fc7, 0xc6e00bf3, 0xd5a79147, 0x06ca6351, 0x14292967,
    0x27b70a85, 0x2e1b2138, 0x4d2c6dfc, 0x53380d13, 0x650a7354, 0x766a0abb, 0x81c2c92e, 0x92722c85,
    0xa2bfe8a1, 0xa81a664b, 0xc24b8b70, 0xc76c51a3, 0xd192e819, 0xd6990624, 0xf40e3585, 0x106aa070,
    0x19a4c116, 0x1e376c08, 0x2748774c, 0x34b0bcb5, 0x391c0cb3, 0x4ed8aa4a, 0x5b9cca4f, 0x682e6ff3,
    0x748f82ee, 0x78a5636f, 0x84c87814, 0x8cc70208, 0x90befffa, 0xa4506ceb, 0xbef9a3f7, 0xc67178f2]

/-- The eight words of the state. -/
structure Registers where
  a : UInt32
  b : UInt32
  c : UInt32
  d : UInt32
  e : UInt32
  f : UInt32
  g : UInt32
  h : UInt32
deriving DecidableEq, Repr

namespace Registers

def initial : Registers :=
  ⟨0x6a09e667, 0xbb67ae85, 0x3c6ef372, 0xa54ff53a, 0x510e527f, 0x9b05688c, 0x1f83d9ab, 0x5be0cd19⟩

def add (left right : Registers) : Registers :=
  ⟨left.a + right.a, left.b + right.b, left.c + right.c, left.d + right.d, left.e + right.e,
    left.f + right.f, left.g + right.g, left.h + right.h⟩

def words (state : Registers) : List UInt32 :=
  [state.a, state.b, state.c, state.d, state.e, state.f, state.g, state.h]

end Registers

def rotateRight (word bits : UInt32) : UInt32 :=
  word >>> bits ||| word <<< (32 - bits)

def round (state : Registers) (constant word : UInt32) : Registers :=
  let upper := rotateRight state.e 6 ^^^ rotateRight state.e 11 ^^^ rotateRight state.e 25
  let choose := state.e &&& state.f ^^^ (~~~ state.e) &&& state.g
  let first := state.h + upper + choose + constant + word
  let lower := rotateRight state.a 2 ^^^ rotateRight state.a 13 ^^^ rotateRight state.a 22
  let majority := state.a &&& state.b ^^^ state.a &&& state.c ^^^ state.b &&& state.c
  ⟨first + (lower + majority), state.a, state.b, state.c, state.d + first, state.e, state.f,
    state.g⟩

def nextWord (window : List UInt32) : UInt32 :=
  let second := window.getD 1 0
  let fifteenth := window.getD 14 0
  window.getD 0 0 +
    (rotateRight second 7 ^^^ rotateRight second 18 ^^^ second >>> 3) + window.getD 9 0 +
    (rotateRight fifteenth 17 ^^^ rotateRight fifteenth 19 ^^^ fifteenth >>> 10)

def rounds : List UInt32 → List UInt32 → Registers → Registers
  | [], _, state => state
  | constant :: constants, window, state =>
    rounds constants (window.tail ++ [nextWord window]) (round state constant (window.getD 0 0))

def wordsOf : Bytes → List UInt32
  | first :: second :: third :: fourth :: rest =>
    (first.toUInt32 <<< 24 ||| second.toUInt32 <<< 16 ||| third.toUInt32 <<< 8 |||
      fourth.toUInt32) :: wordsOf rest
  | _ => []

def bytesOf (word : UInt32) : Bytes :=
  [(word >>> 24).toUInt8, (word >>> 16).toUInt8, (word >>> 8).toUInt8, word.toUInt8]

/-- The state behind as many blocks of 64 bytes as `blocks` says. -/
def absorb : Nat → Bytes → Registers → Registers
  | 0, _, state => state
  | blocks + 1, message, state =>
    absorb blocks (message.drop 64)
      (state.add (rounds constants (wordsOf (message.take 64)) state))

/-- The message with a one bit, zeros up to a whole block and its length in bits. -/
def pad (message : Bytes) : Bytes :=
  let bits := message.length * 8
  message ++ 0x80 :: List.replicate ((119 - message.length % 64) % 64) 0 ++
    ((List.range 8).map fun index => UInt8.ofNat (bits / 256 ^ (7 - index)))

end Sha256

open Sha256

/-- The 32 bytes of the hash. -/
def sha256 (message : Bytes) : Bytes :=
  let padded := pad message
  (absorb (padded.length / 64) padded Registers.initial).words.flatMap bytesOf

def hmacSha256 (key message : Bytes) : Bytes :=
  let key := if key.length ≤ 64 then key else sha256 key
  let block := key ++ List.replicate (64 - key.length) 0
  sha256 (block.map (· ^^^ 0x5c) ++ sha256 (block.map (· ^^^ 0x36) ++ message))

example : hexEncode (sha256 (lit "abc")) =
    lit "ba7816bf8f01cfea414140de5dae2223b00361a396177a9cb410ff61f20015ad" := by
  decide +kernel

end ExecRelay.Lib
