/-!
# SHA-256

The hash of FIPS 180-4 over a byte string, and its lowercase hexadecimal text,
which is how digests and chain links are written.  The message is padded with a
one bit, zeros and its 64-bit length to whole 64-byte blocks; each block
extends to a schedule of sixty-four words and is folded into the eight-word
state by sixty-four rounds.
-/

namespace DenyPolicy

namespace Sha256

/-- The round constants: the first 32 bits of the fractional parts of the cube roots of
the first sixty-four primes. -/
def roundConstants : Array UInt32 := #[
  0x428a2f98, 0x71374491, 0xb5c0fbcf, 0xe9b5dba5, 0x3956c25b, 0x59f111f1, 0x923f82a4, 0xab1c5ed5,
  0xd807aa98, 0x12835b01, 0x243185be, 0x550c7dc3, 0x72be5d74, 0x80deb1fe, 0x9bdc06a7, 0xc19bf174,
  0xe49b69c1, 0xefbe4786, 0x0fc19dc6, 0x240ca1cc, 0x2de92c6f, 0x4a7484aa, 0x5cb0a9dc, 0x76f988da,
  0x983e5152, 0xa831c66d, 0xb00327c8, 0xbf597fc7, 0xc6e00bf3, 0xd5a79147, 0x06ca6351, 0x14292967,
  0x27b70a85, 0x2e1b2138, 0x4d2c6dfc, 0x53380d13, 0x650a7354, 0x766a0abb, 0x81c2c92e, 0x92722c85,
  0xa2bfe8a1, 0xa81a664b, 0xc24b8b70, 0xc76c51a3, 0xd192e819, 0xd6990624, 0xf40e3585, 0x106aa070,
  0x19a4c116, 0x1e376c08, 0x2748774c, 0x34b0bcb5, 0x391c0cb3, 0x4ed8aa4a, 0x5b9cca4f, 0x682e6ff3,
  0x748f82ee, 0x78a5636f, 0x84c87814, 0x8cc70208, 0x90befffa, 0xa4506ceb, 0xbef9a3f7, 0xc67178f2]

def initialState : Array UInt32 := #[
  0x6a09e667, 0xbb67ae85, 0x3c6ef372, 0xa54ff53a, 0x510e527f, 0x9b05688c, 0x1f83d9ab, 0x5be0cd19]

def rotr (x : UInt32) (n : UInt32) : UInt32 := (x >>> n) ||| (x <<< (32 - n))

def bigSigma0 (x : UInt32) : UInt32 := rotr x 2 ^^^ rotr x 13 ^^^ rotr x 22
def bigSigma1 (x : UInt32) : UInt32 := rotr x 6 ^^^ rotr x 11 ^^^ rotr x 25
def sigma0 (x : UInt32) : UInt32 := rotr x 7 ^^^ rotr x 18 ^^^ (x >>> 3)
def sigma1 (x : UInt32) : UInt32 := rotr x 17 ^^^ rotr x 19 ^^^ (x >>> 10)

def paddingZeros (size : Nat) : Nat := (119 - size % 64) % 64

def lengthBytes (size : Nat) : ByteArray :=
  ⟨Array.ofFn (n := 8) fun i => ((size * 8) >>> (8 * (7 - i.val))).toUInt8⟩

def pad (message : ByteArray) : ByteArray :=
  (message.push 0x80) ++ ⟨Array.replicate (paddingZeros message.size) 0⟩ ++ lengthBytes message.size

def wordAt (bytes : ByteArray) (i : Nat) : UInt32 :=
  let b (k : Nat) : UInt32 := (bytes[i + k]?.getD 0).toUInt32
  (b 0 <<< 24) ||| (b 1 <<< 16) ||| (b 2 <<< 8) ||| b 3

def schedule (bytes : ByteArray) (start : Nat) : Array UInt32 :=
  (List.range 64).foldl (fun w i =>
    if i < 16 then w.push (wordAt bytes (start + 4 * i))
    else w.push (w[i - 16]!.add (sigma0 w[i - 15]!) |>.add w[i - 7]! |>.add (sigma1 w[i - 2]!)))
    (Array.mkEmpty 64)

/-- One round applied to the working variables `a … h`. -/
def round (v : Array UInt32) (k w : UInt32) : Array UInt32 :=
  let a := v[0]!; let b := v[1]!; let c := v[2]!; let d := v[3]!
  let e := v[4]!; let f := v[5]!; let g := v[6]!; let h := v[7]!
  let ch := (e &&& f) ^^^ ((~~~ e) &&& g)
  let maj := (a &&& b) ^^^ (a &&& c) ^^^ (b &&& c)
  let t1 := h + bigSigma1 e + ch + k + w
  let t2 := bigSigma0 a + maj
  #[t1 + t2, a, b, c, d + t1, e, f, g]

def compress (state : Array UInt32) (bytes : ByteArray) (start : Nat) : Array UInt32 :=
  let w := schedule bytes start
  let v := (List.range 64).foldl (fun v i => round v roundConstants[i]! w[i]!) state
  (List.range 8).map (fun i => state[i]! + v[i]!) |>.toArray

def hashWords (message : ByteArray) : Array UInt32 :=
  let padded := pad message
  (List.range (padded.size / 64)).foldl (fun st k => compress st padded (64 * k)) initialState

def wordHex (x : UInt32) : String :=
  String.ofList ((List.range 8).map fun i =>
    let n := ((x >>> (4 * (7 - i)).toUInt32) &&& 0xf).toNat
    if n < 10 then Char.ofNat (48 + n) else Char.ofNat (87 + n))

def hexDigest (message : ByteArray) : String :=
  String.join ((hashWords message).toList.map wordHex)

end Sha256

/-- The lowercase hexadecimal SHA-256 digest of a text's UTF-8 bytes. -/
def sha256Hex (text : String) : String := Sha256.hexDigest text.toUTF8

end DenyPolicy
