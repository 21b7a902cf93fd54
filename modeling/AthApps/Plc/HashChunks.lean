import AthApps.Lib.BigEndian
import AthApps.Lib.Blocks
import AthApps.Plc.Sha256

/-!
# The streaming hash over chunks

`SHA256Write` takes a message in chunks of any length and keeps the bytes of an
incomplete block; `SHA256Fetch` pads through the same writer.  The digest is the
one of the message as a whole: a fold of `SHA256Block` over the blocks of the
padded message.
-/

set_option autoImplicit false

namespace AthApps.Plc

open AthApps.Lib
open List hiding Vector

theorem take_overlay {bytes : Bytes} {offset : Nat} (data : Bytes)
    (inside : offset ≤ bytes.length) :
    (overlay bytes offset data).take (offset + data.length) = bytes.take offset ++ data := by
  have noHole : offset - bytes.length = 0 := by omega
  have front : (bytes.take offset ++ data).length = offset + data.length := by
    rw [length_append, length_take, Nat.min_eq_left inside]
  rw [overlay, noHole, replicate_zero, append_nil, ← front, take_left]

def compress (state : Vector UInt32 8) (memory : Bytes) : Vector UInt32 8 :=
  (sha256Block { sha256Reset with state := state } memory).state

theorem sha256Block_eq (sha256 : Sha256) (memory : Bytes) :
    sha256Block sha256 memory = { sha256 with state := compress sha256.state memory } := rfl

theorem compress_take (state : Vector UInt32 8) (memory : Bytes) :
    compress state (memory.take 64) = compress state memory := by
  have same (place : Nat) (inside : place < 64) :
      (memory.take 64).getD place 0 = memory.getD place 0 := by
    rw [getD_eq_getElem?_getD, getD_eq_getElem?_getD, getElem?_take, if_pos inside]
  have heads : scheduleHead (memory.take 64) = scheduleHead memory := by
    refine congrArg Array.ofFn (funext fun word => ?_)
    have bound := word.isLt
    simp only [same (4 * word) (by omega), same (4 * word + 1) (by omega),
      same (4 * word + 2) (by omega), same (4 * word + 3) (by omega)]
  simp only [compress, sha256Block, heads]

theorem foldl_sha256Block (memories : List Bytes) : ∀ sha256 : Sha256,
    memories.foldl sha256Block sha256 =
      { sha256 with state := memories.foldl compress sha256.state } := by
  induction memories with
  | nil =>
    intro sha256
    rfl
  | cons memory rest ih =>
    intro sha256
    rw [foldl_cons, foldl_cons, ih, sha256Block_eq]

theorem sha256Blocks_eq (sha256 : Sha256) (buffer : Bytes) :
    sha256Blocks sha256 buffer =
      ({ sha256 with state := (absorb compress 64 sha256.state buffer).1 },
        (absorb compress 64 sha256.state buffer).2) := by
  fun_induction sha256Blocks sha256 buffer with
  | case1 sha256 buffer enough ih =>
    rw [absorb_step compress 64 (by omega) sha256.state enough, ih, sha256Block_eq,
      compress_take]
  | case2 sha256 buffer short => rw [absorb_short compress 64 sha256.state (Nat.lt_of_not_le short)]

/-- What a write does to the state and the block, which holds `front` before. -/
structure Written (old : Vector UInt32 8) (front chunk : Bytes) (new : Sha256) : Prop where
  state : new.state = (absorb compress 64 old (front ++ chunk)).1
  block : new.block.take ((front ++ chunk).length % 64) =
    (absorb compress 64 old (front ++ chunk)).2
  room : new.block.length = 64

/-- The end of a write: the loop over complete blocks and the copy of the rest. -/
theorem sha256Blocks_written (sha256 : Sha256) (chunk : Bytes) (room : sha256.block.length = 64) :
    Written sha256.state [] chunk
      { (sha256Blocks sha256 chunk).1 with
        block := overlay (sha256Blocks sha256 chunk).1.block 0 (sha256Blocks sha256 chunk).2 } := by
  have rest := absorb_rest_length compress 64 (by omega) sha256.state chunk
  have copied := take_overlay (absorb compress 64 sha256.state chunk).2
    (Nat.zero_le sha256.block.length)
  rw [Nat.zero_add, rest] at copied
  rw [sha256Blocks_eq]
  refine ⟨rfl, ?_, ?_⟩
  · exact copied
  · simp only [overlay_length, rest, room]
    omega

section Write

variable {sha256 : Sha256} {chunk : Bytes} {left : Nat}

theorem written_full (room : sha256.block.length = 64) (started : left < 64)
    (full : 64 - left ≤ chunk.length) :
    let completed := { sha256 with block := overlay sha256.block left (chunk.take (64 - left)) }
    let hashed := sha256Blocks (sha256Block completed completed.block) (chunk.drop (64 - left))
    Written sha256.state (sha256.block.take left) chunk
      { hashed.1 with block := overlay hashed.1.block 0 hashed.2 } := by
  intro completed hashed
  have taken : (chunk.take (64 - left)).length = 64 - left := by
    rw [length_take, Nat.min_eq_left full]
  have length : (overlay sha256.block left (chunk.take (64 - left))).length = 64 := by
    rw [overlay_length, taken, room]
    omega
  have filled := take_overlay (chunk.take (64 - left)) (show left ≤ sha256.block.length by omega)
  rw [take_of_length_le (by rw [length, taken]; omega)] at filled
  have pieces : sha256.block.take left ++ chunk = completed.block ++ chunk.drop (64 - left) := by
    change _ = overlay sha256.block left (chunk.take (64 - left)) ++ _
    rw [filled, append_assoc, take_append_drop]
  have behind := sha256Blocks_written (sha256Block completed completed.block)
    (chunk.drop (64 - left)) length
  have whole := @absorb_complete _ _ compress 64 (by omega) sha256.state _
    (chunk.drop (64 - left)) length
  refine ⟨?_, ?_, behind.room⟩
  · rw [pieces, whole]
    exact behind.state
  · rw [pieces, whole, length_append, length, Nat.add_mod_left]
    exact behind.block

theorem written_short (room : sha256.block.length = 64) (short : left + chunk.length < 64) :
    Written sha256.state (sha256.block.take left) chunk
      { sha256 with block := overlay sha256.block left chunk } := by
  have inside : left ≤ sha256.block.length := by omega
  have length : (sha256.block.take left ++ chunk).length = left + chunk.length := by
    rw [length_append, length_take, Nat.min_eq_left inside]
  have copied := take_overlay chunk inside
  have kept := absorb_short compress 64 sha256.state
    (show (sha256.block.take left ++ chunk).length < 64 by omega)
  refine ⟨by rw [kept], ?_, ?_⟩
  · rw [kept, length, Nat.mod_eq_of_lt short]
    exact copied
  · simp only [overlay_length, room]
    omega

end Write

theorem low_bits (count : UInt32) : (count &&& 0x3F).toNat = count.toNat % 64 := by
  rw [UInt32.toNat_and]
  exact Nat.and_two_pow_sub_one_eq_mod count.toNat 6

theorem counted (count0 count1 : UInt32) (extent : Nat) (short : extent < 2 ^ 32)
    (small : count0.toNat + 2 ^ 32 * count1.toNat + extent < 2 ^ 64) :
    (count0 + UInt32.ofNat extent).toNat +
        2 ^ 32 * (if (count0 + UInt32.ofNat extent).toNat < extent then count1 + 1
          else count1).toNat =
      count0.toNat + 2 ^ 32 * count1.toNat + extent := by
  have low := count0.toNat_lt
  have sum : (count0 + UInt32.ofNat extent).toNat = (count0.toNat + extent) % 2 ^ 32 := by
    rw [UInt32.toNat_add, UInt32.toNat_ofNat', Nat.mod_eq_of_lt short]
  rw [sum]
  split
  · have next : (count1 + 1).toNat = (count1.toNat + 1) % 2 ^ 32 := by
      rw [UInt32.toNat_add]
      rfl
    rw [next]
    omega
  · omega

structure Holds (sha256 : Sha256) (message : Bytes) : Prop where
  count : sha256.count0.toNat + 2 ^ 32 * sha256.count1.toNat = message.length
  state : sha256.state = (absorb compress 64 sha256Reset.state message).1
  block : sha256.block.take (message.length % 64) = (absorb compress 64 sha256Reset.state message).2
  room : sha256.block.length = 64
  extra : sha256.extra = sha256Reset.extra

theorem sha256Reset_holds : Holds sha256Reset [] where
  count := rfl
  state := rfl
  block := rfl
  room := rfl
  extra := rfl

variable {message : Bytes} {sha256 : Sha256}

theorem Holds.left (holds : Holds sha256 message) :
    (sha256.count0 &&& 0x3F).toNat = message.length % 64 := by
  have counted := holds.count
  rw [low_bits]
  omega

theorem Holds.written {sha256 new : Sha256} {message chunk : Bytes} (holds : Holds sha256 message)
    (written : Written sha256.state (sha256.block.take (message.length % 64)) chunk new)
    (count : new.count0.toNat + 2 ^ 32 * new.count1.toNat = message.length + chunk.length)
    (extra : new.extra = sha256.extra) :
    Holds new (message ++ chunk) := by
  have before := absorb_rest_length compress 64 (by omega) sha256Reset.state message
  have whole := absorb_append compress 64 (by omega) message chunk sha256Reset.state
  rw [← holds.block, ← holds.state] at whole
  have length : (sha256.block.take (message.length % 64) ++ chunk).length % 64 =
      (message ++ chunk).length % 64 := by
    rw [length_append, holds.block, before, length_append]
    omega
  refine ⟨by rw [length_append]; exact count, ?_, ?_, written.room, extra.trans holds.extra⟩
  · rw [whole]
    exact written.state
  · rw [whole, ← length]
    exact written.block

theorem Holds.write {sha256 : Sha256} {message : Bytes} (holds : Holds sha256 message)
    (chunk : Bytes) (short : chunk.length < 2 ^ 32)
    (small : message.length + chunk.length < 2 ^ 64) :
    Holds (sha256Write sha256 chunk) (message ++ chunk) := by
  have counts := counted sha256.count0 sha256.count1 chunk.length short
    (by rw [holds.count]; exact small)
  rw [holds.count] at counts
  let started : Sha256 :=
    { sha256 with
      count0 := sha256.count0 + UInt32.ofNat chunk.length
      count1 := if (sha256.count0 + UInt32.ofNat chunk.length).toNat < chunk.length then
        sha256.count1 + 1 else sha256.count1 }
  have inside : message.length % 64 < 64 := Nat.mod_lt _ (by omega)
  have room : started.block.length = 64 := holds.room
  unfold sha256Write
  simp only [holds.left]
  split
  next empty =>
    rw [length_eq_zero_iff.mp empty, append_nil]
    exact holds
  next =>
    split
    next full =>
      refine holds.written (written_full room inside full.2) ?_ ?_
      · rw [sha256Blocks_eq]
        exact counts
      · rw [sha256Blocks_eq]
        rfl
    next incomplete =>
      by_cases aligned : message.length % 64 = 0
      · have written := sha256Blocks_written started chunk room
        simp only [aligned]
        refine holds.written ?_ ?_ ?_
        · rw [aligned, take_zero]
          exact written
        · rw [sha256Blocks_eq]
          exact counts
        · rw [sha256Blocks_eq]
      · have few : chunk.length < 64 := by omega
        have kept := sha256Blocks_eq started chunk
        rw [absorb_short compress 64 started.state few] at kept
        rw [kept]
        exact holds.written (written_short room (by omega)) counts rfl

theorem Holds.writes (holds : Holds sha256 message)
    (chunks : List Bytes) (short : ∀ chunk ∈ chunks, chunk.length < 2 ^ 32)
    (small : message.length + chunks.flatten.length < 2 ^ 64) :
    Holds (chunks.foldl sha256Write sha256) (message ++ chunks.flatten) := by
  induction chunks generalizing sha256 message with
  | nil =>
    rw [flatten_nil, append_nil]
    exact holds
  | cons chunk rest ih =>
    rw [flatten_cons, length_append] at small
    have first := holds.write chunk (short chunk (by simp)) (by omega)
    rw [foldl_cons, flatten_cons, ← append_assoc]
    refine ih first (fun other member => short other (by simp [member])) ?_
    rw [length_append]
    omega

theorem encode_eq (number : UInt32) : encode number = Lib.Sha256.bigEndian number.toNat 4 := by
  have byte (shifted : UInt32) : shifted.toUInt8 = UInt8.ofNat shifted.toNat := by
    apply UInt8.toNat_inj.mp
    simp
  simp only [encode, Lib.Sha256.bigEndian, byte, UInt32.toNat_shiftRight]
  rfl

theorem encode_bits (count0 count1 : UInt32)
    (small : count0.toNat + 2 ^ 32 * count1.toNat < 2 ^ 61) :
    encode ((count0 >>> 29) ||| (count1 <<< 3)) ++ encode (count0 <<< 3) =
      Lib.Sha256.bigEndian (8 * (count0.toNat + 2 ^ 32 * count1.toNat)) 8 := by
  have low := count0.toNat_lt
  have upper : ((count0 >>> 29) ||| (count1 <<< 3)).toNat =
      (8 * (count0.toNat + 2 ^ 32 * count1.toNat)) >>> 32 := by
    have high : count1.toNat < 2 ^ 29 := by omega
    have first : (count0 >>> 29).toNat = count0.toNat / 2 ^ 29 := by
      simp [UInt32.toNat_shiftRight, Nat.shiftRight_eq_div_pow]
    have second : (count1 <<< 3).toNat = count1.toNat <<< 3 := by
      simp [UInt32.toNat_shiftLeft, Nat.shiftLeft_eq]
      omega
    have sum := Nat.shiftLeft_add_eq_or_of_lt (show count0.toNat / 2 ^ 29 < 2 ^ 3 by omega)
      count1.toNat
    rw [UInt32.toNat_or, first, second, Nat.or_comm, ← sum, Nat.shiftLeft_eq,
      Nat.shiftRight_eq_div_pow]
    omega
  have lower : (count0 <<< 3).toNat = 8 * (count0.toNat + 2 ^ 32 * count1.toNat) % 256 ^ 4 := by
    simp [UInt32.toNat_shiftLeft, Nat.shiftLeft_eq]
    omega
  rw [encode_eq, encode_eq, upper, lower, Lib.Sha256.bigEndian_mod]
  exact (Lib.Sha256.bigEndian_append _ 4 4).symm

def digest (state : Vector UInt32 8) : Bytes := state.toList.flatMap encode

/-- The bytes that `SHA256Fetch` writes before the length. -/
def padding (final : Nat) : Bytes :=
  sha256Reset.extra.take (if final < 56 then 56 - final else 120 - final)

theorem pad_eq (message : Bytes) :
    Lib.Sha256.pad message = message ++ padding (message.length % 64) ++
        Lib.Sha256.bigEndian (8 * message.length) 8 := by
  have inside : message.length % 64 < 64 := Nat.mod_lt _ (by omega)
  have zeros : padding (message.length % 64) =
      0x80 :: List.replicate ((119 - message.length % 64) % 64) 0 := by
    unfold padding
    split
    next low =>
      obtain ⟨count, some⟩ : ∃ count, 56 - message.length % 64 = count + 1 :=
        ⟨55 - message.length % 64, by omega⟩
      rw [some, sha256Reset, take_succ_cons, take_replicate]
      congr 2
      omega
    next high =>
      obtain ⟨count, some⟩ : ∃ count, 120 - message.length % 64 = count + 1 :=
        ⟨119 - message.length % 64, by omega⟩
      rw [some, sha256Reset, take_succ_cons, take_replicate]
      congr 2
      omega
  rw [Lib.Sha256.pad, zeros]

theorem Holds.fetch (holds : Holds sha256 message) (small : message.length < 2 ^ 61) :
    sha256Fetch sha256 =
      digest (absorb compress 64 sha256Reset.state (Lib.Sha256.pad message)).1 := by
  have inside : message.length % 64 < 64 := Nat.mod_lt _ (by omega)
  have few : (padding (message.length % 64)).length ≤ 64 := by
    rw [padding, length_take]
    exact Nat.min_le_right _ _
  have counted := holds.count
  have bits := encode_bits sha256.count0 sha256.count1 (by omega)
  rw [counted] at bits
  have padded := holds.write (padding (message.length % 64)) (by omega) (by omega)
  have closed := padded.write (Lib.Sha256.bigEndian (8 * message.length) 8)
    (by rw [Lib.Sha256.bigEndian_length]; omega)
    (by rw [length_append, Lib.Sha256.bigEndian_length]; omega)
  rw [← pad_eq] at closed
  rw [← closed.state]
  simp only [sha256Fetch, holds.left, bits, holds.extra, digest]
  rfl

def paddedBlocks (message : Bytes) : List Bytes :=
  blocks 64 ((Lib.Sha256.pad message).length / 64) (Lib.Sha256.pad message)

theorem paddedBlocks_exact (message : Bytes) :
    (paddedBlocks message).flatten = Lib.Sha256.pad message ∧
      ∀ block ∈ paddedBlocks message, block.length = 64 := by
  have whole : (Lib.Sha256.pad message).length % 64 = 0 := by
    simp only [Lib.Sha256.pad, length_append, length_cons, length_replicate,
      Lib.Sha256.bigEndian_length]
    omega
  exact blocks_exact 64 _ _ (by omega)

/-- However a message is cut into writes, its digest is made from the fold over the
64-byte blocks of the padded message. -/
theorem sha256_chunks (message : Bytes) (chunks : List Bytes) (cut : chunks.flatten = message)
    (short : ∀ chunk ∈ chunks, chunk.length < 2 ^ 32)
    (small : message.length < 2 ^ 61) :
    sha256Fetch (chunks.foldl sha256Write sha256Reset) =
        digest ((paddedBlocks message).foldl sha256Block sha256Reset).state ∧
      (paddedBlocks message).flatten = Lib.Sha256.pad message ∧
      ∀ block ∈ paddedBlocks message, block.length = 64 := by
  subst cut
  refine ⟨?_, paddedBlocks_exact chunks.flatten⟩
  have written := sha256Reset_holds.writes chunks short (by rw [length_nil]; omega)
  rw [nil_append] at written
  rw [written.fetch small, foldl_sha256Block]
  rfl

theorem sha256_chunks_abc :
    sha256Fetch ([[0x61], [], [0x62, 0x63]].foldl sha256Write sha256Reset) =
        digest ((paddedBlocks [0x61, 0x62, 0x63]).foldl sha256Block sha256Reset).state ∧
      (paddedBlocks [0x61, 0x62, 0x63]).flatten = Lib.Sha256.pad [0x61, 0x62, 0x63] ∧
      ∀ block ∈ paddedBlocks [0x61, 0x62, 0x63], block.length = 64 :=
  sha256_chunks [0x61, 0x62, 0x63] [[0x61], [], [0x62, 0x63]] rfl (by decide) (by decide)

end AthApps.Plc
