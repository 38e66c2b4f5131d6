/-!
Keccak-256: the sponge over the 1600-bit permutation with a rate of 136 bytes, the padding byte 0x01
and a digest of 32 bytes. The state is 25 lanes of 64 bits; the lane in column `x` and row `y` has
index `x + 5 * y`.
-/
namespace DecisionPoints
namespace Keccak

abbrev Lanes := Vector UInt64 25

def lane (a : Lanes) (x y : Nat) : UInt64 := a[x % 5 + 5 * (y % 5)]

def ofLanes (f : Nat → Nat → UInt64) : Lanes := Vector.ofFn fun i => f (i.val % 5) (i.val / 5)

def rotateLeft (w : UInt64) (n : Nat) : UInt64 :=
  if n = 0 then w else (w <<< n.toUInt64) ||| (w >>> (64 - n).toUInt64)

def rotations : Vector Nat 25 :=
  #v[0, 1, 62, 28, 27,
     36, 44, 6, 55, 20,
     3, 10, 43, 25, 39,
     41, 45, 15, 21, 8,
     18, 2, 61, 56, 14]

def roundConstants : List UInt64 :=
  [0x0000000000000001, 0x0000000000008082, 0x800000000000808a, 0x8000000080008000,
   0x000000000000808b, 0x0000000080000001, 0x8000000080008081, 0x8000000000008009,
   0x000000000000008a, 0x0000000000000088, 0x0000000080008009, 0x000000008000000a,
   0x000000008000808b, 0x800000000000008b, 0x8000000000008089, 0x8000000000008003,
   0x8000000000008002, 0x8000000000000080, 0x000000000000800a, 0x800000008000000a,
   0x8000000080008081, 0x8000000000008080, 0x0000000080000001, 0x8000000080008008]

def theta (a : Lanes) : Lanes :=
  let parity : Vector UInt64 5 := Vector.ofFn fun x =>
    lane a x 0 ^^^ lane a x 1 ^^^ lane a x 2 ^^^ lane a x 3 ^^^ lane a x 4
  let column (x : Nat) : UInt64 := parity[x % 5]
  ofLanes fun x y => lane a x y ^^^ column (x + 4) ^^^ rotateLeft (column (x + 1)) 1

def rhoPi (a : Lanes) : Lanes :=
  ofLanes fun x y =>
    rotateLeft (lane a (x + 3 * y) x) rotations[(x + 3 * y) % 5 + 5 * (x % 5)]

def chi (a : Lanes) : Lanes :=
  ofLanes fun x y => lane a x y ^^^ (~~~(lane a (x + 1) y) &&& lane a (x + 2) y)

def round (a : Lanes) (constant : UInt64) : Lanes :=
  let mixed := chi (rhoPi (theta a))
  mixed.set 0 (mixed[0] ^^^ constant)

def permute (a : Lanes) : Lanes := roundConstants.foldl round a

def rate : Nat := 136

def paddedSize (n : Nat) : Nat := (n / rate + 1) * rate

def paddedByte (message : ByteArray) (i : Nat) : UInt8 :=
  let byte : UInt8 :=
    if h : i < message.size then message[i] else if i = message.size then 0x01 else 0
  if i + 1 = paddedSize message.size then byte ||| 0x80 else byte

/-- Eight bytes of the padded message from an index on, the first one lowest. -/
def paddedLane (message : ByteArray) (start : Nat) : UInt64 :=
  (List.range 8).foldl (fun w k =>
    w ||| ((paddedByte message (start + k)).toUInt64 <<< (8 * k).toUInt64)) 0

def absorb (message : ByteArray) (a : Lanes) (block : Nat) : Lanes :=
  permute <| Vector.ofFn fun i =>
    if i.val < rate / 8 then a[i] ^^^ paddedLane message (rate * block + 8 * i.val) else a[i]

def digest (message : ByteArray) : Vector UInt8 32 :=
  let final := (List.range (paddedSize message.size / rate)).foldl (absorb message)
    (Vector.replicate 25 0)
  Vector.ofFn fun i => (lane final (i.val / 8) 0 >>> (8 * (i.val % 8)).toUInt64).toUInt8

end Keccak
end DecisionPoints
