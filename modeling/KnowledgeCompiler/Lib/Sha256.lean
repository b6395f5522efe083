import Mathlib.Algebra.Ring.Nat

namespace KnowledgeCompiler.Lib

-- A digest function as the ledgers see it: bytes to lowercase hexadecimal.
structure Hasher where
  hexdigest : ByteArray → String
  nonempty : ∀ bytes, hexdigest bytes ≠ ""
  hex : ∀ bytes, ∀ c ∈ (hexdigest bytes).toList, ∃ d < 16, c = Nat.digitChar d

theorem Hasher.ascii (hasher : Hasher) (bytes : ByteArray) {c : Char}
    (hc : c ∈ (hasher.hexdigest bytes).toList) : 0x20 ≤ c.toNat ∧ c.toNat < 0x7f := by
  obtain ⟨d, hd, rfl⟩ := hasher.hex bytes c hc
  have h : ∀ d < 16, 0x20 ≤ (Nat.digitChar d).toNat ∧ (Nat.digitChar d).toNat < 0x7f := by decide
  exact h d hd

namespace Sha256

def roundConstants : List Nat :=
  [0x428a2f98, 0x71374491, 0xb5c0fbcf, 0xe9b5dba5, 0x3956c25b, 0x59f111f1, 0x923f82a4, 0xab1c5ed5,
    0xd807aa98, 0x12835b01, 0x243185be, 0x550c7dc3, 0x72be5d74, 0x80deb1fe, 0x9bdc06a7, 0xc19bf174,
    0xe49b69c1, 0xefbe4786, 0x0fc19dc6, 0x240ca1cc, 0x2de92c6f, 0x4a7484aa, 0x5cb0a9dc, 0x76f988da,
    0x983e5152, 0xa831c66d, 0xb00327c8, 0xbf597fc7, 0xc6e00bf3, 0xd5a79147, 0x06ca6351, 0x14292967,
    0x27b70a85, 0x2e1b2138, 0x4d2c6dfc, 0x53380d13, 0x650a7354, 0x766a0abb, 0x81c2c92e, 0x92722c85,
    0xa2bfe8a1, 0xa81a664b, 0xc24b8b70, 0xc76c51a3, 0xd192e819, 0xd6990624, 0xf40e3585, 0x106aa070,
    0x19a4c116, 0x1e376c08, 0x2748774c, 0x34b0bcb5, 0x391c0cb3, 0x4ed8aa4a, 0x5b9cca4f, 0x682e6ff3,
    0x748f82ee, 0x78a5636f, 0x84c87814, 0x8cc70208, 0x90befffa, 0xa4506ceb, 0xbef9a3f7, 0xc67178f2]

structure Words where
  a : Nat
  b : Nat
  c : Nat
  d : Nat
  e : Nat
  f : Nat
  g : Nat
  h : Nat

def initial : Words :=
  ⟨0x6a09e667, 0xbb67ae85, 0x3c6ef372, 0xa54ff53a, 0x510e527f, 0x9b05688c, 0x1f83d9ab, 0x5be0cd19⟩

-- Words are numbers below 2 ^ 32: an evaluation stays on numerals.
def wrap (number : Nat) : Nat := number % 4294967296

def rotr (word n : Nat) : Nat := (word >>> n) ||| wrap (word <<< (32 - n))

def smallSigma0 (word : Nat) : Nat := rotr word 7 ^^^ rotr word 18 ^^^ (word >>> 3)

def smallSigma1 (word : Nat) : Nat := rotr word 17 ^^^ rotr word 19 ^^^ (word >>> 10)

def bigSigma0 (word : Nat) : Nat := rotr word 2 ^^^ rotr word 13 ^^^ rotr word 22

def bigSigma1 (word : Nat) : Nat := rotr word 6 ^^^ rotr word 11 ^^^ rotr word 25

def round (state : Words) (constant word : Nat) : Words :=
  let choice := (state.e &&& state.f) ^^^ ((4294967295 - state.e) &&& state.g)
  let majority := (state.a &&& state.b) ^^^ (state.a &&& state.c) ^^^ (state.b &&& state.c)
  let first := state.h + bigSigma1 state.e + choice + constant + word
  let second := bigSigma0 state.a + majority
  ⟨wrap (first + second), state.a, state.b, state.c, wrap (state.d + first), state.e, state.f, state.g⟩

-- The schedule is kept newest word first.
def extend (schedule : List Nat) : List Nat :=
  let at_ (back : Nat) : Nat := schedule.getD (back - 1) 0
  wrap (smallSigma1 (at_ 2) + at_ 7 + smallSigma0 (at_ 15) + at_ 16) :: schedule

def extendTimes : Nat → List Nat → List Nat
  | 0, schedule => schedule
  | n + 1, schedule => extendTimes n (extend schedule)

def compress (state : Words) (block : List Nat) : Words :=
  let schedule := (extendTimes 48 block.reverse).reverse
  let final := (roundConstants.zip schedule).foldl (fun state pair => round state pair.1 pair.2) state
  ⟨wrap (state.a + final.a), wrap (state.b + final.b), wrap (state.c + final.c),
    wrap (state.d + final.d), wrap (state.e + final.e), wrap (state.f + final.f),
    wrap (state.g + final.g), wrap (state.h + final.h)⟩

-- The bytes of a number, the most significant first.
def bigEndian (width n : Nat) : List Nat :=
  (List.range width).map (fun i => n / 256 ^ (width - 1 - i) % 256)

def padded (bytes : List UInt8) : List Nat :=
  bytes.map UInt8.toNat ++ 0x80 :: List.replicate ((119 - bytes.length % 64) % 64) 0 ++
    bigEndian 8 (8 * bytes.length)

-- The words of a message, its bytes taken in fours.
def wordsOf : List Nat → List Nat
  | first :: second :: third :: fourth :: rest =>
      (((first * 256 + second) * 256 + third) * 256 + fourth) :: wordsOf rest
  | _ => []

-- One block after the other, sixteen words each.
def compressTimes : Nat → Words → List Nat → Words
  | 0, state, _ => state
  | n + 1, state, words => compressTimes n (compress state (words.take 16)) (words.drop 16)

def digest (bytes : List UInt8) : Words :=
  let message := padded bytes
  compressTimes (message.length / 64) initial (wordsOf message)

def hexWord (word : Nat) : List Char :=
  (List.range 8).map (fun i => Nat.digitChar (word / 16 ^ (7 - i) % 16))

def hexdigest (bytes : ByteArray) : String :=
  let words := digest bytes.data.toList
  String.ofList ([words.a, words.b, words.c, words.d, words.e, words.f, words.g, words.h].flatMap hexWord)

def digestBytes (bytes : List UInt8) : List UInt8 :=
  let words := digest bytes
  ([words.a, words.b, words.c, words.d, words.e, words.f, words.g, words.h].flatMap
    (bigEndian 4)).map UInt8.ofNat

-- `hmac.new(key, message, hashlib.sha256).digest()`
def hmac (key message : List UInt8) : List UInt8 :=
  let short := if key.length ≤ 64 then key else digestBytes key
  let block := short ++ List.replicate (64 - short.length) 0
  digestBytes (block.map (· ^^^ 0x5c) ++ digestBytes (block.map (· ^^^ 0x36) ++ message))

end Sha256

-- `hashlib.sha256(...).hexdigest()`
def sha256 : Hasher where
  hexdigest := Sha256.hexdigest
  nonempty bytes h := by
    have hlist := congrArg String.toList h
    simp [Sha256.hexdigest, Sha256.hexWord] at hlist
  hex bytes c hc := by
    simp only [Sha256.hexdigest, String.toList_ofList, List.mem_flatMap, Sha256.hexWord,
      List.mem_map] at hc
    obtain ⟨word, -, i, -, rfl⟩ := hc
    exact ⟨_, Nat.mod_lt _ (by decide), rfl⟩

example : sha256.hexdigest "abc".toUTF8 =
    "ba7816bf8f01cfea414140de5dae2223b00361a396177a9cb410ff61f20015ad" := by decide

end KnowledgeCompiler.Lib
