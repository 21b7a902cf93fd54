import AthApps.Lib.Word

/-!
# SHA-256 and HMAC-SHA-256 of byte strings

The hash of FIPS 180 over complete messages.  Words are natural numbers below
`2 ^ 32`, so that a digest of a closed message can be evaluated.  The message
schedule is kept as a window of sixteen words that moves on by one word a
round; the window is one number, its oldest word the highest.
-/

set_option autoImplicit false

namespace AthApps.Lib.Sha256

def word (value : Nat) : Nat := value % 4294967296

/-- A word written twice, so that a rotation is a shift. -/
def twice (value : Nat) : Nat := value * 4294967297

def bigSigma (value first second third : Nat) : Nat :=
  word ((twice value >>> first) ^^^ (twice value >>> second) ^^^ (twice value >>> third))

def smallSigma (value first second shift : Nat) : Nat :=
  word ((twice value >>> first) ^^^ (twice value >>> second)) ^^^ (value >>> shift)

def constants : List Nat :=
  [0x428A2F98, 0x71374491, 0xB5C0FBCF, 0xE9B5DBA5, 0x3956C25B, 0x59F111F1,
    0x923F82A4, 0xAB1C5ED5, 0xD807AA98, 0x12835B01, 0x243185BE, 0x550C7DC3,
    0x72BE5D74, 0x80DEB1FE, 0x9BDC06A7, 0xC19BF174, 0xE49B69C1, 0xEFBE4786,
    0x0FC19DC6, 0x240CA1CC, 0x2DE92C6F, 0x4A7484AA, 0x5CB0A9DC, 0x76F988DA,
    0x983E5152, 0xA831C66D, 0xB00327C8, 0xBF597FC7, 0xC6E00BF3, 0xD5A79147,
    0x06CA6351, 0x14292967, 0x27B70A85, 0x2E1B2138, 0x4D2C6DFC, 0x53380D13,
    0x650A7354, 0x766A0ABB, 0x81C2C92E, 0x92722C85, 0xA2BFE8A1, 0xA81A664B,
    0xC24B8B70, 0xC76C51A3, 0xD192E819, 0xD6990624, 0xF40E3585, 0x106AA070,
    0x19A4C116, 0x1E376C08, 0x2748774C, 0x34B0BCB5, 0x391C0CB3, 0x4ED8AA4A,
    0x5B9CCA4F, 0x682E6FF3, 0x748F82EE, 0x78A5636F, 0x84C87814, 0x8CC70208,
    0x90BEFFFA, 0xA4506CEB, 0xBEF9A3F7, 0xC67178F2]

structure Chain where
  a : Nat
  b : Nat
  c : Nat
  d : Nat
  e : Nat
  f : Nat
  g : Nat
  h : Nat

def initial : Chain :=
  ⟨0x6A09E667, 0xBB67AE85, 0x3C6EF372, 0xA54FF53A, 0x510E527F, 0x9B05688C, 0x1F83D9AB, 0x5BE0CD19⟩

def choice (e f g : Nat) : Nat := g ^^^ (e &&& (f ^^^ g))

def majority (a b c : Nat) : Nat := (a &&& b) ^^^ (c &&& (a ^^^ b))

def round (chain : Chain) (input : Nat) : Chain :=
  let carry := chain.h + bigSigma chain.e 6 11 25 + choice chain.e chain.f chain.g + input
  ⟨word (carry + bigSigma chain.a 2 13 22 + majority chain.a chain.b chain.c), chain.a, chain.b,
    chain.c, word (chain.d + carry), chain.e, chain.f, chain.g⟩

def oldest (window : Nat) : Nat := window >>> 480

def nextWord (window : Nat) : Nat :=
  word (oldest window + smallSigma (word (window >>> 448)) 7 18 3 + word (window >>> 192) +
    smallSigma (word (window >>> 32)) 17 19 10)

def rounds : List Nat → Nat → Chain → Chain
  | [], _, chain => chain
  | constant :: rest, window, chain =>
    rounds rest (window % 2 ^ 480 * 4294967296 + nextWord window)
      (round chain (constant + oldest window))

def Chain.add (left right : Chain) : Chain :=
  ⟨word (left.a + right.a), word (left.b + right.b), word (left.c + right.c),
    word (left.d + right.d), word (left.e + right.e), word (left.f + right.f),
    word (left.g + right.g), word (left.h + right.h)⟩

def number (bytes : Bytes) : Nat :=
  bytes.foldl (fun value byte => value * 256 + byte.toNat) 0

def absorb : Nat → Bytes → Chain → Chain
  | 0, _, chain => chain
  | blocks + 1, message, chain =>
    absorb blocks (message.drop 64) (chain.add (rounds constants (number (message.take 64)) chain))

def bigEndian (value : Nat) : Nat → Bytes
  | 0 => []
  | bytes + 1 => UInt8.ofNat (value >>> (8 * bytes)) :: bigEndian value bytes

def pad (message : Bytes) : Bytes :=
  message ++ 0x80 :: List.replicate ((119 - message.length % 64) % 64) 0 ++
    bigEndian (8 * message.length) 8

def Chain.bytes (chain : Chain) : Bytes :=
  [chain.a, chain.b, chain.c, chain.d, chain.e, chain.f, chain.g, chain.h].flatMap
    fun value => bigEndian value 4

theorem bigEndian_length (value bytes : Nat) : (bigEndian value bytes).length = bytes := by
  induction bytes with
  | zero => rfl
  | succ bytes ih => simp [bigEndian, ih]

theorem bytes_length (chain : Chain) : chain.bytes.length = 32 := by
  simp [Chain.bytes, bigEndian_length]

def hash (message : Bytes) : Vector UInt8 32 :=
  let padded := pad message
  let chain := absorb (padded.length / 64) padded initial
  ⟨chain.bytes.toArray, by simp [bytes_length]⟩

def hmacKey (key : Bytes) : Bytes :=
  let short := if 64 < key.length then (hash key).toList else key
  short ++ List.replicate (64 - short.length) 0

def hmac (key message : Bytes) : Vector UInt8 32 :=
  let block := hmacKey key
  let inner := hash (block.map (· ^^^ 0x36) ++ message)
  hash (block.map (· ^^^ 0x5C) ++ inner.toList)

end AthApps.Lib.Sha256
