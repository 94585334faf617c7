import DearAgent.Lib.Text

/-!
# SHA-256 and HMAC

The hash of the Secure Hash Standard on a list of bytes: the message is padded to
blocks of sixteen words, and each block is compressed into the state in 64 rounds. With a key it
makes a message authentication code.
-/

namespace DearAgent.Lib.Sha2

open DearAgent.Lib.Text

set_option autoImplicit false

abbrev Word := BitVec 32

section Rounds

/-- The fractional parts of the cube roots of the first primes. -/
def constants : List Word := [
  0x428a2f98, 0x71374491, 0xb5c0fbcf, 0xe9b5dba5, 0x3956c25b, 0x59f111f1, 0x923f82a4, 0xab1c5ed5,
  0xd807aa98, 0x12835b01, 0x243185be, 0x550c7dc3, 0x72be5d74, 0x80deb1fe, 0x9bdc06a7, 0xc19bf174,
  0xe49b69c1, 0xefbe4786, 0x0fc19dc6, 0x240ca1cc, 0x2de92c6f, 0x4a7484aa, 0x5cb0a9dc, 0x76f988da,
  0x983e5152, 0xa831c66d, 0xb00327c8, 0xbf597fc7, 0xc6e00bf3, 0xd5a79147, 0x06ca6351, 0x14292967,
  0x27b70a85, 0x2e1b2138, 0x4d2c6dfc, 0x53380d13, 0x650a7354, 0x766a0abb, 0x81c2c92e, 0x92722c85,
  0xa2bfe8a1, 0xa81a664b, 0xc24b8b70, 0xc76c51a3, 0xd192e819, 0xd6990624, 0xf40e3585, 0x106aa070,
  0x19a4c116, 0x1e376c08, 0x2748774c, 0x34b0bcb5, 0x391c0cb3, 0x4ed8aa4a, 0x5b9cca4f, 0x682e6ff3,
  0x748f82ee, 0x78a5636f, 0x84c87814, 0x8cc70208, 0x90befffa, 0xa4506ceb, 0xbef9a3f7, 0xc67178f2]

structure State where
  a : Word
  b : Word
  c : Word
  d : Word
  e : Word
  f : Word
  g : Word
  h : Word

/-- The fractional parts of the square roots of the first primes. -/
def initial : State :=
  ⟨0x6a09e667, 0xbb67ae85, 0x3c6ef372, 0xa54ff53a, 0x510e527f, 0x9b05688c, 0x1f83d9ab, 0x5be0cd19⟩

def upperSigma0 (x : Word) : Word := x.rotateRight 2 ^^^ x.rotateRight 13 ^^^ x.rotateRight 22

def upperSigma1 (x : Word) : Word := x.rotateRight 6 ^^^ x.rotateRight 11 ^^^ x.rotateRight 25

def lowerSigma0 (x : Word) : Word := x.rotateRight 7 ^^^ x.rotateRight 18 ^^^ (x >>> 3)

def lowerSigma1 (x : Word) : Word := x.rotateRight 17 ^^^ x.rotateRight 19 ^^^ (x >>> 10)

def choose (x y z : Word) : Word := (x &&& y) ^^^ (~~~x &&& z)

def majority (x y z : Word) : Word := (x &&& y) ^^^ (x &&& z) ^^^ (y &&& z)

def round (s : State) (added : Word × Word) : State :=
  let first := s.h + upperSigma1 s.e + choose s.e s.f s.g + added.1 + added.2
  let second := upperSigma0 s.a + majority s.a s.b s.c
  ⟨first + second, s.a, s.b, s.c, s.d + first, s.e, s.f, s.g⟩

def extend : Nat → List Word → List Word
  | 0, words => words
  | more + 1, words => extend more
      ((lowerSigma1 (words.getD 1 0) + words.getD 6 0 + lowerSigma0 (words.getD 14 0) +
        words.getD 15 0) :: words)

def schedule (block : List Word) : List Word := (extend 48 block.reverse).reverse

def compress (s : State) (block : List Word) : State :=
  let t := (constants.zip (schedule block)).foldl round s
  ⟨s.a + t.a, s.b + t.b, s.c + t.c, s.d + t.d, s.e + t.e, s.f + t.f, s.g + t.g, s.h + t.h⟩

end Rounds

section Messages

def lowBytes : Nat → Nat → List UInt8
  | 0, _ => []
  | width + 1, n => lowBytes width (n / 256) ++ [UInt8.ofNat n]

/-- A bit, zeros, and the number of bits of the message fill the last block. -/
def pad (message : List UInt8) : List UInt8 :=
  message ++ 0x80 :: List.replicate ((119 - message.length % 64) % 64) 0 ++
    lowBytes 8 (8 * message.length)

def toWords : List UInt8 → List Word
  | a :: b :: c :: d :: rest =>
      BitVec.ofNat 32 (((a.toNat * 256 + b.toNat) * 256 + c.toNat) * 256 + d.toNat) :: toWords rest
  | _ => []

def toBlocks : Nat → List Word → List (List Word)
  | 0, _ => []
  | count + 1, words => words.take 16 :: toBlocks count (words.drop 16)

def sha256 (message : List UInt8) : State :=
  let words := toWords (pad message)
  (toBlocks (words.length / 16) words).foldl compress initial

end Messages

section Digests

def encode (text : Str) : List UInt8 := text.flatMap String.utf8EncodeChar

def hexdigest (text : Str) : Str :=
  let s := sha256 (encode text)
  [s.a, s.b, s.c, s.d, s.e, s.f, s.g, s.h].flatMap fun word => hexDigits 8 word.toNat

theorem hex_digits_length (width n : Nat) : (hexDigits width n).length = width := by
  induction width generalizing n with
  | zero => rfl
  | succ width ih => rw [hexDigits, List.length_append, ih, List.length_singleton]

theorem hex_digits_hex (width n : Nat) : ∀ c ∈ hexDigits width n, c ∈ "0123456789abcdef".toList := by
  induction width generalizing n with
  | zero => exact fun c never => absurd never List.not_mem_nil
  | succ width ih =>
      intro c member
      rw [hexDigits, List.mem_append, List.mem_singleton] at member
      cases member with
      | inl higher => exact ih (n / 16) c higher
      | inr lowest =>
          have every : ∀ digit < 16, Nat.digitChar digit ∈ "0123456789abcdef".toList := by decide
          rw [lowest]
          exact every (n % 16) (Nat.mod_lt n (by decide))

theorem hexdigest_length (text : Str) : (hexdigest text).length = 64 := by
  simp [hexdigest, hex_digits_length]

theorem hexdigest_hex (text : Str) : ∀ c ∈ hexdigest text, c ∈ "0123456789abcdef".toList := by
  intro c member
  have ⟨word, _, digit⟩ := List.mem_flatMap.mp member
  exact hex_digits_hex 8 word.toNat c digit

example : hexdigest "abc" =
    "ba7816bf8f01cfea414140de5dae2223b00361a396177a9cb410ff61f20015ad".toList := by
  decide +kernel

end Digests

section Keyed

def digest (message : List UInt8) : List UInt8 :=
  let s := sha256 message
  [s.a, s.b, s.c, s.d, s.e, s.f, s.g, s.h].flatMap fun word => lowBytes 4 word.toNat

/-- A key that is longer than a block is hashed, and the rest of the block is zero. -/
def blockKey (key : List UInt8) : List UInt8 :=
  let short := if 64 < key.length then digest key else key
  short ++ List.replicate (64 - short.length) 0

def hmac (key message : List UInt8) : List UInt8 :=
  let key := blockKey key
  digest (key.map (· ^^^ 0x5C) ++ digest (key.map (· ^^^ 0x36) ++ message))

/-- `hmac.new(secret.encode(), message.encode(), hashlib.sha256).hexdigest()`. -/
def hmacHexdigest (secret message : Str) : Str :=
  (hmac (encode secret) (encode message)).flatMap fun byte => hexDigits 2 byte.toNat

theorem hmac_hexdigest_hex (secret message : Str) :
    ∀ c ∈ hmacHexdigest secret message, c ∈ "0123456789abcdef".toList := by
  intro c member
  have ⟨byte, _, digit⟩ := List.mem_flatMap.mp member
  exact hex_digits_hex 2 byte.toNat c digit

example : hmacHexdigest "key" "The quick brown fox jumps over the lazy dog" =
    "f7bc83f430538424b13298e6aa6fb143ef4d59a14946175997479dbc2d1a3cd8".toList := by
  decide +kernel

end Keyed

end DearAgent.Lib.Sha2
