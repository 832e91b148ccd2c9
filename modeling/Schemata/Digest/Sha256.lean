import Schemata.Text.Hexadecimal

/-!
# SHA-256

The message is padded to blocks of sixty-four bytes. Each block is expanded to sixty-four words,
which are mixed into the eight words of the state one after the other.
-/
namespace Schemata.Sha256

/-- The fractional parts of the cube roots of the first sixty-four primes. -/
def roundConstants : List UInt32 :=
  [0x428a2f98, 0x71374491, 0xb5c0fbcf, 0xe9b5dba5, 0x3956c25b, 0x59f111f1, 0x923f82a4, 0xab1c5ed5,
   0xd807aa98, 0x12835b01, 0x243185be, 0x550c7dc3, 0x72be5d74, 0x80deb1fe, 0x9bdc06a7, 0xc19bf174,
   0xe49b69c1, 0xefbe4786, 0x0fc19dc6, 0x240ca1cc, 0x2de92c6f, 0x4a7484aa, 0x5cb0a9dc, 0x76f988da,
   0x983e5152, 0xa831c66d, 0xb00327c8, 0xbf597fc7, 0xc6e00bf3, 0xd5a79147, 0x06ca6351, 0x14292967,
   0x27b70a85, 0x2e1b2138, 0x4d2c6dfc, 0x53380d13, 0x650a7354, 0x766a0abb, 0x81c2c92e, 0x92722c85,
   0xa2bfe8a1, 0xa81a664b, 0xc24b8b70, 0xc76c51a3, 0xd192e819, 0xd6990624, 0xf40e3585, 0x106aa070,
   0x19a4c116, 0x1e376c08, 0x2748774c, 0x34b0bcb5, 0x391c0cb3, 0x4ed8aa4a, 0x5b9cca4f, 0x682e6ff3,
   0x748f82ee, 0x78a5636f, 0x84c87814, 0x8cc70208, 0x90befffa, 0xa4506ceb, 0xbef9a3f7, 0xc67178f2]

/-- The eight words that are carried from block to block. -/
structure State where
  a : UInt32
  b : UInt32
  c : UInt32
  d : UInt32
  e : UInt32
  f : UInt32
  g : UInt32
  h : UInt32

/-- The fractional parts of the square roots of the first eight primes. -/
def State.initial : State :=
  ⟨0x6a09e667, 0xbb67ae85, 0x3c6ef372, 0xa54ff53a,
   0x510e527f, 0x9b05688c, 0x1f83d9ab, 0x5be0cd19⟩

namespace State

def add (s t : State) : State :=
  ⟨s.a + t.a, s.b + t.b, s.c + t.c, s.d + t.d, s.e + t.e, s.f + t.f, s.g + t.g, s.h + t.h⟩

def words (s : State) : List UInt32 := [s.a, s.b, s.c, s.d, s.e, s.f, s.g, s.h]

end State

def rotate (x : UInt32) (n : UInt32) : UInt32 := (x >>> n) ||| (x <<< (32 - n))

/-- The eight bytes of a number, the greatest first. -/
def numberBytes (n : Nat) : List UInt8 :=
  (List.range 8).reverse.map fun i => UInt8.ofNat (n >>> (8 * i))

/-- A message with its end mark, zeros up to the end of a block, and its length in bits. -/
def padded (message : List UInt8) : List UInt8 :=
  let zeros : List UInt8 := List.replicate ((119 - message.length % 64) % 64) 0
  message ++ [0x80] ++ zeros ++ numberBytes (8 * message.length)

/-- The big-endian words of some bytes. -/
def bigEndian : List UInt8 → List UInt32
  | a :: b :: c :: d :: rest =>
    ((a.toUInt32 <<< 24) ||| (b.toUInt32 <<< 16) ||| (c.toUInt32 <<< 8) ||| d.toUInt32) ::
      bigEndian rest
  | _ => []

/-- The next word of an expanded block; `window` holds the sixteen words before it. -/
def nextWord (window : List UInt32) : UInt32 :=
  let w (i : Nat) := window.getD i 0
  let s0 := rotate (w 1) 7 ^^^ rotate (w 1) 18 ^^^ (w 1 >>> 3)
  let s1 := rotate (w 14) 17 ^^^ rotate (w 14) 19 ^^^ (w 14 >>> 10)
  w 0 + s0 + w 9 + s1

/-- The words of a block and a number of words more. -/
def expanded : (more : Nat) → (window : List UInt32) → List UInt32
  | 0, window => window
  | more + 1, window => window.headD 0 :: expanded more (window.drop 1 ++ [nextWord window])

/-- Mixes one word into the state. -/
def round (s : State) (input : UInt32 × UInt32) : State :=
  let s1 := rotate s.e 6 ^^^ rotate s.e 11 ^^^ rotate s.e 25
  let choice := (s.e &&& s.f) ^^^ (~~~s.e &&& s.g)
  let t1 := s.h + s1 + choice + input.1 + input.2
  let s0 := rotate s.a 2 ^^^ rotate s.a 13 ^^^ rotate s.a 22
  let majority := (s.a &&& s.b) ^^^ (s.a &&& s.c) ^^^ (s.b &&& s.c)
  ⟨t1 + s0 + majority, s.a, s.b, s.c, s.d + t1, s.e, s.f, s.g⟩

/-- Mixes a block of sixteen words into the state. -/
def compress (s : State) (block : List UInt32) : State :=
  s.add ((roundConstants.zip (expanded 48 block)).foldl round s)

/-- Mixes a number of blocks into the state. -/
def absorb (s : State) : (blocks : Nat) → List UInt32 → State
  | 0, _ => s
  | blocks + 1, words => absorb (compress s (words.take 16)) blocks (words.drop 16)

def digest (message : List UInt8) : List UInt32 :=
  let bytes := padded message
  (absorb .initial (bytes.length / 64) (bigEndian bytes)).words

def hexDigest (message : List UInt8) : String :=
  String.ofList ((digest message).flatMap fun word => Text.hexDigits 8 word.toNat)

/-- The digest of the bytes that encode a text. -/
def ofText (text : String) : String := hexDigest text.toUTF8.toList

end Schemata.Sha256
