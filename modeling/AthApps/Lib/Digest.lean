import AthApps.Lib.BigEndian

/-!
# Digests from the number of a message

The blocks of a message are parts of one number, and the rounds use the
operations on natural numbers themselves, so that the digest of a long closed
message can be evaluated.  `hash` and `hmac` are equal to these functions.
-/

set_option autoImplicit false

namespace AthApps.Lib.Sha256

open List hiding Vector

def low (value : Nat) : Nat := value.mod 4294967296

theorem low_eq (value : Nat) : low value = word value := rfl

def quickBigSigma (value first second third : Nat) : Nat :=
  let two := value.mul 4294967297
  low (((two.shiftRight first).xor (two.shiftRight second)).xor (two.shiftRight third))

def quickSmallSigma (value first second shift : Nat) : Nat :=
  let two := value.mul 4294967297
  (low ((two.shiftRight first).xor (two.shiftRight second))).xor (value.shiftRight shift)

def quickOldest (window : Nat) : Nat := window.shiftRight 480

def quickWord (window : Nat) : Nat :=
  low ((((quickOldest window).add (quickSmallSigma (low (window.shiftRight 448)) 7 18 3)).add
    (low (window.shiftRight 192))).add (quickSmallSigma (low (window.shiftRight 32)) 17 19 10))

theorem quickWord_eq (window : Nat) : quickWord window = nextWord window := by
  simp only [quickWord, quickOldest, quickSmallSigma, low_eq, Nat.add_eq, Nat.mul_eq, Nat.xor_eq,
    Nat.shiftRight_eq', nextWord, oldest, smallSigma, twice]

def quickCarry (e f g h input : Nat) : Nat :=
  ((h.add (quickBigSigma e 6 11 25)).add (g.xor (e.land (f.xor g)))).add input

def quickHead (carry a b c : Nat) : Nat :=
  low ((carry.add (quickBigSigma a 2 13 22)).add ((a.land b).xor (c.land (a.xor b))))

/-- The words of the chain stand side by side, so that none waits for a whole chain. -/
def quickRounds : List Nat → Nat → Nat → Nat → Nat → Nat → Nat → Nat → Nat → Nat → Chain
  | [], _, a, b, c, d, e, f, g, h => ⟨a, b, c, d, e, f, g, h⟩
  | constant :: rest, window, a, b, c, d, e, f, g, h =>
    let carry := quickCarry e f g h (constant.add (quickOldest window))
    quickRounds rest (window % 2 ^ 480 * 4294967296 + quickWord window)
      (quickHead carry a b c) a b c (low (d.add carry)) e f g

theorem round_eq (a b c d e f g h input : Nat) : round ⟨a, b, c, d, e, f, g, h⟩ input =
    ⟨quickHead (quickCarry e f g h input) a b c, a, b, c,
      low (d.add (quickCarry e f g h input)), e, f, g⟩ := by
  simp only [round, quickHead, quickCarry, quickBigSigma, low_eq, Nat.add_eq, Nat.mul_eq,
    Nat.xor_eq, Nat.land_eq, Nat.shiftRight_eq', bigSigma, choice, majority, twice]

theorem oldest_eq (window : Nat) : oldest window = quickOldest window := by
  simp only [oldest, quickOldest, Nat.shiftRight_eq']

theorem rounds_cons (constant : Nat) (rest : List Nat) (window : Nat) (chain : Chain) :
    rounds (constant :: rest) window chain =
      rounds rest (window % 2 ^ 480 * 4294967296 + nextWord window)
        (round chain (constant + oldest window)) := by
  -- an equation between two calls of `rounds` is tried argument by argument, the chain first
  delta rounds
  rfl

theorem quickRounds_eq (constants : List Nat) : ∀ window a b c d e f g h : Nat,
    quickRounds constants window a b c d e f g h =
      rounds constants window ⟨a, b, c, d, e, f, g, h⟩ := by
  induction constants with
  | nil =>
    intro window a b c d e f g h
    rfl
  | cons constant rest ih =>
    intro window a b c d e f g h
    rw [quickRounds, ih, rounds_cons, round_eq, oldest_eq, quickWord_eq, Nat.add_eq]

variable (blocks : Nat) (message : Bytes)

theorem absorb_succ (chain : Chain) :
    absorb (blocks + 1) message chain = absorb blocks (message.drop 64)
      (chain.add (rounds constants (number (message.take 64)) chain)) := by
  delta absorb
  rfl

/-- The blocks that are left of a number, the highest first. -/
def quickAbsorb : Nat → Nat → Chain → Chain
  | 0, _, chain => chain
  | blocks + 1, message, chain =>
    quickAbsorb blocks message (chain.add
      (quickRounds constants (message / 256 ^ (64 * blocks) % 256 ^ 64) chain.a chain.b chain.c
        chain.d chain.e chain.f chain.g chain.h))

theorem quickAbsorb_succ (blocks message : Nat) (chain : Chain) :
    quickAbsorb (blocks + 1) message chain = quickAbsorb blocks message (chain.add
      (quickRounds constants (message / 256 ^ (64 * blocks) % 256 ^ 64) chain.a chain.b chain.c
        chain.d chain.e chain.f chain.g chain.h)) := by
  delta quickAbsorb
  rfl

theorem quickAbsorb_eq : ∀ (message : Bytes) (front : Nat) (chain : Chain),
    message.length = 64 * blocks →
      quickAbsorb blocks (front * 256 ^ (64 * blocks) + number message) chain =
        absorb blocks message chain := by
  induction blocks with
  | zero =>
    intro message front chain length
    rfl
  | succ blocks ih =>
    intro message front chain length
    have rest : (message.drop 64).length = 64 * blocks := by
      rw [length_drop]
      omega
    have first : (message.take 64).length = 64 := by
      rw [length_take]
      omega
    have below := number_lt (message.drop 64)
    have block := number_lt (message.take 64)
    have split := number_append (message.take 64) (message.drop 64)
    rw [rest] at below split
    rw [first] at block
    rw [take_append_drop] at split
    have whole : front * 256 ^ (64 * (blocks + 1)) + number message =
        256 ^ (64 * blocks) * (256 ^ 64 * front + number (message.take 64)) +
          number (message.drop 64) := by
      rw [split, Nat.mul_add 64, Nat.pow_add]
      ring
    have part : (front * 256 ^ (64 * (blocks + 1)) + number message) / 256 ^ (64 * blocks) %
        256 ^ 64 = number (message.take 64) := by
      rw [whole, Nat.mul_add_div (Nat.pow_pos (by decide)), Nat.div_eq_of_lt below, Nat.add_zero,
        Nat.mul_add_mod, Nat.mod_eq_of_lt block]
    rw [quickAbsorb_succ, part, quickRounds_eq, whole, Nat.mul_comm, ih _ _ _ rest, absorb_succ]

def quickNumber : Bytes → Nat → Nat
  | [], value => value
  | byte :: rest, value => quickNumber rest ((value.mul 256).add byte.toNat)

theorem quickNumber_eq (bytes : Bytes) : ∀ value : Nat,
    quickNumber bytes value = bytes.foldl (fun value byte => value * 256 + byte.toNat) value := by
  induction bytes with
  | nil =>
    intro value
    rfl
  | cons byte rest ih =>
    intro value
    exact ih _

def padded : Nat :=
  (quickNumber message 0 * 256 + 128) * 256 ^ ((119 - message.length % 64) % 64) * 256 ^ 8 +
    8 * message.length % 256 ^ 8

theorem number_pad : number (pad message) = padded message := by
  have zeros := number_replicate ((119 - message.length % 64) % 64) []
  rw [append_nil] at zeros
  have nothing : number [] = 0 := rfl
  have marker : (0x80 : UInt8).toNat = 128 := rfl
  rw [pad, number_append, number_append, number_bigEndian, bigEndian_length, number_cons, zeros,
    nothing, marker, length_cons, length_replicate, padded, quickNumber_eq, Nat.pow_succ]
  simp only [number]
  ring

theorem pad_length :
    (pad message).length = 64 * ((message.length + (119 - message.length % 64) % 64 + 9) / 64) := by
  simp only [pad, length_append, length_cons, length_replicate, bigEndian_length]
  omega

def quickHash : Vector UInt8 32 :=
  let chain := quickAbsorb ((message.length + (119 - message.length % 64) % 64 + 9) / 64)
    (padded message) initial
  ⟨chain.bytes.toArray, by simp [bytes_length]⟩

theorem hash_eq : hash = quickHash := by
  funext message
  have absorbed := quickAbsorb_eq _ (pad message) 0 initial (pad_length message)
  rw [Nat.zero_mul, Nat.zero_add, number_pad] at absorbed
  have blocks : (pad message).length / 64 =
      (message.length + (119 - message.length % 64) % 64 + 9) / 64 := by
    rw [pad_length, Nat.mul_div_cancel_left _ (by decide)]
  rw [← blocks] at absorbed
  apply Vector.toArray_inj.mp
  exact congrArg (fun chain : Chain => chain.bytes.toArray) (by rw [← absorbed, blocks])

def quickHmac (key message : Bytes) : Vector UInt8 32 :=
  let short := if 64 < key.length then (quickHash key).toList else key
  let block := short ++ List.replicate (64 - short.length) 0
  let inner := quickHash (block.map (· ^^^ 0x36) ++ message)
  quickHash (block.map (· ^^^ 0x5C) ++ inner.toList)

theorem hmac_eq : hmac = quickHmac := by
  funext key message
  delta hmac hmacKey quickHmac
  rw [hash_eq]

end AthApps.Lib.Sha256
