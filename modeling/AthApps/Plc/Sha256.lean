import AthApps.Lib.Stream

/-!
# The streaming hash of the powerline utilities

`crypt/SHA256Reset.c`, `SHA256Write.c`, `SHA256Block.c` and `SHA256Fetch.c`
over `struct sha256`: a byte counter in two words, eight words of state, the
block that is being filled and the padding bytes.
-/

set_option autoImplicit false

namespace AthApps.Plc

open AthApps.Lib

structure Sha256 where
  count0 : UInt32
  count1 : UInt32
  state : Vector UInt32 8
  block : Bytes
  extra : Bytes

def sha256Reset : Sha256 where
  count0 := 0
  count1 := 0
  state := #v[0x6A09E667, 0xBB67AE85, 0x3C6EF372, 0xA54FF53A,
    0x510E527F, 0x9B05688C, 0x1F83D9AB, 0x5BE0CD19]
  block := List.replicate 64 0
  extra := 0x80 :: List.replicate 63 0

def sha256K : Array UInt32 :=
  #[0x428A2F98, 0x71374491, 0xB5C0FBCF, 0xE9B5DBA5, 0x3956C25B, 0x59F111F1,
    0x923F82A4, 0xAB1C5ED5, 0xD807AA98, 0x12835B01, 0x243185BE, 0x550C7DC3,
    0x72BE5D74, 0x80DEB1FE, 0x9BDC06A7, 0xC19BF174, 0xE49B69C1, 0xEFBE4786,
    0x0FC19DC6, 0x240CA1CC, 0x2DE92C6F, 0x4A7484AA, 0x5CB0A9DC, 0x76F988DA,
    0x983E5152, 0xA831C66D, 0xB00327C8, 0xBF597FC7, 0xC6E00BF3, 0xD5A79147,
    0x06CA6351, 0x14292967, 0x27B70A85, 0x2E1B2138, 0x4D2C6DFC, 0x53380D13,
    0x650A7354, 0x766A0ABB, 0x81C2C92E, 0x92722C85, 0xA2BFE8A1, 0xA81A664B,
    0xC24B8B70, 0xC76C51A3, 0xD192E819, 0xD6990624, 0xF40E3585, 0x106AA070,
    0x19A4C116, 0x1E376C08, 0x2748774C, 0x34B0BCB5, 0x391C0CB3, 0x4ED8AA4A,
    0x5B9CCA4F, 0x682E6FF3, 0x748F82EE, 0x78A5636F, 0x84C87814, 0x8CC70208,
    0x90BEFFFA, 0xA4506CEB, 0xBEF9A3F7, 0xC67178F2]

def shr (word bits : UInt32) : UInt32 := (word &&& 0xFFFFFFFF) >>> bits

def rotr (word bits : UInt32) : UInt32 := shr word bits ||| (word <<< (32 - bits))

variable (sha256 : Sha256) (memory : Bytes)

/-- The first sixteen words of the message schedule, read high byte first. -/
def scheduleHead : Array UInt32 :=
  Array.ofFn fun word : Fin 16 =>
    (memory.getD (4 * word) 0).toUInt32 <<< 24 |||
      (memory.getD (4 * word + 1) 0).toUInt32 <<< 16 |||
      (memory.getD (4 * word + 2) 0).toUInt32 <<< 8 |||
      (memory.getD (4 * word + 3) 0).toUInt32

def scheduleExtend : Nat → Array UInt32 → Array UInt32
  | 0, W => W
  | count + 1, W =>
    let word := W.size
    let W15 := W.getD (word - 15) 0
    let W2 := W.getD (word - 2) 0
    let s0 := rotr W15 7 ^^^ rotr W15 18 ^^^ shr W15 3
    let s1 := rotr W2 17 ^^^ rotr W2 19 ^^^ shr W2 10
    scheduleExtend count (W.push (W.getD (word - 16) 0 + s0 + W.getD (word - 7) 0 + s1))

def sha256Pass (H : Vector UInt32 8) (constant word : UInt32) : Vector UInt32 8 :=
  let s2 := rotr H[0] 2 ^^^ rotr H[0] 13 ^^^ rotr H[0] 22
  let maj := (H[0] &&& H[1]) ^^^ (H[0] &&& H[2]) ^^^ (H[1] &&& H[2])
  let t2 := s2 + maj
  let s3 := rotr H[4] 6 ^^^ rotr H[4] 11 ^^^ rotr H[4] 25
  let ch := (H[4] &&& H[5]) ^^^ ((~~~H[4]) &&& H[6])
  let t1 := H[7] + s3 + ch + constant + word
  -- the source shifts `H` up by one place and then adds `t1` to the new `H [4]`
  #v[t1 + t2, H[0], H[1], H[2], H[3] + t1, H[4], H[5], H[6]]

def sha256Block : Sha256 :=
  let W := scheduleExtend 48 (scheduleHead memory)
  let H := (List.range 64).foldl
    (fun H pass => sha256Pass H (sha256K.getD pass 0) (W.getD pass 0)) sha256.state
  { sha256 with state := sha256.state.zipWith (· + ·) H }

/-- The loop of `SHA256Write` over complete blocks: hashes them and returns
what is left of the buffer. -/
def sha256Blocks (sha256 : Sha256) (buffer : Bytes) : Sha256 × Bytes :=
  if 64 ≤ buffer.length then
    sha256Blocks (sha256Block sha256 buffer) (buffer.drop 64)
  else
    (sha256, buffer)
  termination_by buffer.length
  decreasing_by simp only [List.length_drop]; omega

def sha256Write : Sha256 :=
  let extent := memory.length
  if extent = 0 then
    sha256
  else
    let left := (sha256.count0 &&& 0x3F).toNat
    let fill := 64 - left
    let count0 := sha256.count0 + UInt32.ofNat extent
    let count1 := if count0.toNat < extent then sha256.count1 + 1 else sha256.count1
    let sha256 := { sha256 with count0 := count0, count1 := count1 }
    if left ≠ 0 ∧ fill ≤ extent then
      let sha256 := { sha256 with block := overlay sha256.block left (memory.take fill) }
      let sha256 := sha256Block sha256 sha256.block
      let (sha256, buffer) := sha256Blocks sha256 (memory.drop fill)
      { sha256 with block := overlay sha256.block 0 buffer }
    else
      let (sha256, buffer) := sha256Blocks sha256 memory
      { sha256 with block := overlay sha256.block left buffer }

def encode (number : UInt32) : Bytes :=
  [(number >>> 24).toUInt8, (number >>> 16).toUInt8, (number >>> 8).toUInt8, number.toUInt8]

def sha256Fetch : Bytes :=
  let upper := (sha256.count0 >>> 29) ||| (sha256.count1 <<< 3)
  let lower := sha256.count0 <<< 3
  let final := (sha256.count0 &&& 0x3F).toNat
  let extra := if final < 56 then 56 - final else 120 - final
  let bits := encode upper ++ encode lower
  let sha256 := sha256Write sha256 (sha256.extra.take extra)
  let sha256 := sha256Write sha256 bits
  sha256.state.toList.flatMap encode

@[simp] theorem encode_length (number : UInt32) : (encode number).length = 4 := rfl

@[simp] theorem sha256Fetch_length : (sha256Fetch sha256).length = 32 := by
  simp [sha256Fetch, List.length_flatMap]

end AthApps.Plc
