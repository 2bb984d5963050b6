import Mathlib.Algebra.Order.Ring.Int
import Mathlib.Data.List.Basic

/-! SHA-256 of texts, as `hashlib.sha256(text.encode("utf-8")).hexdigest()` computes it.
Words are natural numbers below `2^32`. -/
namespace ReviewSensei
namespace Sha256

def word (n : Nat) : Nat := n % 2 ^ 32

def rotateRight (x r : Nat) : Nat := word (x >>> r ||| x <<< (32 - r))

def complement (x : Nat) : Nat := x ^^^ (2 ^ 32 - 1)

def roundConstants : List Nat :=
  [0x428a2f98, 0x71374491, 0xb5c0fbcf, 0xe9b5dba5, 0x3956c25b, 0x59f111f1, 0x923f82a4, 0xab1c5ed5,
   0xd807aa98, 0x12835b01, 0x243185be, 0x550c7dc3, 0x72be5d74, 0x80deb1fe, 0x9bdc06a7, 0xc19bf174,
   0xe49b69c1, 0xefbe4786, 0x0fc19dc6, 0x240ca1cc, 0x2de92c6f, 0x4a7484aa, 0x5cb0a9dc, 0x76f988da,
   0x983e5152, 0xa831c66d, 0xb00327c8, 0xbf597fc7, 0xc6e00bf3, 0xd5a79147, 0x06ca6351, 0x14292967,
   0x27b70a85, 0x2e1b2138, 0x4d2c6dfc, 0x53380d13, 0x650a7354, 0x766a0abb, 0x81c2c92e, 0x92722c85,
   0xa2bfe8a1, 0xa81a664b, 0xc24b8b70, 0xc76c51a3, 0xd192e819, 0xd6990624, 0xf40e3585, 0x106aa070,
   0x19a4c116, 0x1e376c08, 0x2748774c, 0x34b0bcb5, 0x391c0cb3, 0x4ed8aa4a, 0x5b9cca4f, 0x682e6ff3,
   0x748f82ee, 0x78a5636f, 0x84c87814, 0x8cc70208, 0x90befffa, 0xa4506ceb, 0xbef9a3f7, 0xc67178f2]

/-- The eight working variables. -/
structure Working where
  a : Nat
  b : Nat
  c : Nat
  d : Nat
  e : Nat
  f : Nat
  g : Nat
  h : Nat

def initial : Working :=
  ⟨0x6a09e667, 0xbb67ae85, 0x3c6ef372, 0xa54ff53a, 0x510e527f, 0x9b05688c, 0x1f83d9ab, 0x5be0cd19⟩

def round (w : Working) (k m : Nat) : Working :=
  let s1 := rotateRight w.e 6 ^^^ rotateRight w.e 11 ^^^ rotateRight w.e 25
  let choice := (w.e &&& w.f) ^^^ (complement w.e &&& w.g)
  let t1 := word (w.h + s1 + choice + k + m)
  let s0 := rotateRight w.a 2 ^^^ rotateRight w.a 13 ^^^ rotateRight w.a 22
  let majority := (w.a &&& w.b) ^^^ (w.a &&& w.c) ^^^ (w.b &&& w.c)
  ⟨word (t1 + word (s0 + majority)), w.a, w.b, w.c, word (w.d + t1), w.e, w.f, w.g⟩

/-- The next schedule word; the words already made stand latest first. -/
def scheduleWord (words : List Nat) : Nat :=
  let w15 := words.getD 14 0
  let w2 := words.getD 1 0
  let s0 := rotateRight w15 7 ^^^ rotateRight w15 18 ^^^ w15 >>> 3
  let s1 := rotateRight w2 17 ^^^ rotateRight w2 19 ^^^ w2 >>> 10
  word (words.getD 15 0 + s0 + words.getD 6 0 + s1)

def extend : Nat → List Nat → List Nat
  | 0, words => words
  | n + 1, words => extend n (scheduleWord words :: words)

def bigEndian (bytes : List Nat) : Nat := bytes.foldl (fun n b => n * 256 + b) 0

def blockWords : Nat → List Nat → List Nat
  | 0, _ => []
  | n + 1, bytes => bigEndian (bytes.take 4) :: blockWords n (bytes.drop 4)

def Working.add (v w : Working) : Working :=
  ⟨word (v.a + w.a), word (v.b + w.b), word (v.c + w.c), word (v.d + w.d),
   word (v.e + w.e), word (v.f + w.f), word (v.g + w.g), word (v.h + w.h)⟩

def compress (w : Working) (block : List Nat) : Working :=
  let schedule := (extend 48 (blockWords 16 block).reverse).reverse
  w.add ((roundConstants.zip schedule).foldl (fun v p => round v p.1 p.2) w)

def compressBlocks : Nat → Working → List Nat → Working
  | 0, w, _ => w
  | n + 1, w, bytes => compressBlocks n (compress w (bytes.take 64)) (bytes.drop 64)

/-- The `n` bytes of a number, most significant first. -/
def bytesOf : Nat → Nat → List Nat
  | 0, _ => []
  | n + 1, x => x >>> (8 * n) % 256 :: bytesOf n x

def pad (bytes : List Nat) : List Nat :=
  bytes ++ 0x80 :: List.replicate ((119 - bytes.length % 64) % 64) 0 ++ bytesOf 8 (8 * bytes.length)

def digest (bytes : List Nat) : List Nat :=
  let padded := pad bytes
  let w := compressBlocks (padded.length / 64) initial padded
  [w.a, w.b, w.c, w.d, w.e, w.f, w.g, w.h].flatMap (bytesOf 4)

/-- `text.encode("utf-8")`. -/
def encode (text : String) : List Nat := text.toUTF8.data.toList.map UInt8.toNat

def hexDigits (byte : Nat) : List Char := [Nat.digitChar (byte / 16), Nat.digitChar (byte % 16)]

end Sha256

/-- `hashlib.sha256(text.encode("utf-8")).hexdigest()`. -/
def sha256 (text : String) : String :=
  String.ofList ((Sha256.digest (Sha256.encode text)).flatMap Sha256.hexDigits)

example : sha256 "abc" =
    "ba7816bf8f01cfea414140de5dae2223b00361a396177a9cb410ff61f20015ad" := by decide +kernel

end ReviewSensei
