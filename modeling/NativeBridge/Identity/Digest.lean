/-!
# A 64-bit digest of bytes

The digest behind every identity: xxHash in its 64-bit form, with seed zero. Stripes of 32 bytes
feed four lanes; what is left is folded in by words of eight bytes, one of four, and single bytes.
All arithmetic is modulo `2 ^ 64`.
-/

namespace NativeBridge.Digest

def prime1 : UInt64 := 0x9E3779B185EBCA87
def prime2 : UInt64 := 0xC2B2AE3D27D4EB4F
def prime3 : UInt64 := 0x165667B19E3779F9
def prime4 : UInt64 := 0x85EBCA77C2B2AE63
def prime5 : UInt64 := 0x27D4EB2F165667C5

def rotate (x places : UInt64) : UInt64 :=
  (x <<< places) ||| (x >>> (64 - places))

/-- The number whose bytes these are, the least significant first. -/
def word (bytes : List UInt8) : UInt64 :=
  bytes.foldr (fun byte high => (high <<< 8) ||| byte.toUInt64) 0

def round (lane input : UInt64) : UInt64 :=
  rotate (lane + input * prime2) 31 * prime1

/-- The four lanes that take the stripes. -/
structure Lanes where
  a : UInt64
  b : UInt64
  c : UInt64
  d : UInt64

def Lanes.initial : Lanes :=
  ⟨prime1 + prime2, prime2, 0, 0 - prime1⟩

/-- Feeds one stripe to the lanes, eight bytes to each. -/
def Lanes.feed (lanes : Lanes) (stripe : List UInt8) : Lanes where
  a := round lanes.a (word (stripe.take 8))
  b := round lanes.b (word ((stripe.drop 8).take 8))
  c := round lanes.c (word ((stripe.drop 16).take 8))
  d := round lanes.d (word ((stripe.drop 24).take 8))

/-- Feeds the given number of stripes; answers the lanes and the bytes that are left. -/
def Lanes.feedAll : Nat → Lanes → List UInt8 → Lanes × List UInt8
  | 0, lanes, bytes => (lanes, bytes)
  | n + 1, lanes, bytes => feedAll n (lanes.feed (bytes.take 32)) (bytes.drop 32)

def Lanes.join (lanes : Lanes) : UInt64 :=
  let start := rotate lanes.a 1 + rotate lanes.b 7 + rotate lanes.c 12 + rotate lanes.d 18
  [lanes.a, lanes.b, lanes.c, lanes.d].foldl
    (fun hash lane => (hash ^^^ round 0 lane) * prime1 + prime4) start

/-- Folds in the given number of words of eight bytes. -/
def foldWords : Nat → UInt64 → List UInt8 → UInt64 × List UInt8
  | 0, hash, bytes => (hash, bytes)
  | n + 1, hash, bytes =>
    foldWords n (rotate (hash ^^^ round 0 (word (bytes.take 8))) 27 * prime1 + prime4)
      (bytes.drop 8)

/-- Folds in a word of four bytes, if there are that many. -/
def foldHalf (hash : UInt64) (bytes : List UInt8) : UInt64 × List UInt8 :=
  if 4 ≤ bytes.length then
    (rotate (hash ^^^ (word (bytes.take 4) * prime1)) 23 * prime2 + prime3, bytes.drop 4)
  else (hash, bytes)

def foldBytes (hash : UInt64) (bytes : List UInt8) : UInt64 :=
  bytes.foldl (fun hash byte => rotate (hash ^^^ (byte.toUInt64 * prime5)) 11 * prime1) hash

/-- Spreads every bit over the whole word. -/
def avalanche (hash : UInt64) : UInt64 :=
  let hash := (hash ^^^ (hash >>> 33)) * prime2
  let hash := (hash ^^^ (hash >>> 29)) * prime3
  hash ^^^ (hash >>> 32)

def ofBytes (bytes : List UInt8) : UInt64 :=
  let (start, rest) :=
    if 32 ≤ bytes.length then
      let (lanes, rest) := Lanes.initial.feedAll (bytes.length / 32) bytes
      (lanes.join, rest)
    else (prime5, bytes)
  let (hash, rest) := foldWords (rest.length / 8) (start + bytes.length.toUInt64) rest
  let (hash, rest) := foldHalf hash rest
  avalanche (foldBytes hash rest)

/-- The digest of a text: of its bytes in UTF-8. -/
def ofText (text : String) : UInt64 :=
  ofBytes (text.toList.flatMap String.utf8EncodeChar)

end NativeBridge.Digest
