/-!
# XXH64

The 64-bit hash of the xxHash specification. Input is cut into words of eight
bytes, least significant first. Four words make a stripe; each word of a stripe
feeds one of four accumulators. What is left after the last stripe is mixed in
word by word, then as at most one half word, then byte by byte.
-/

namespace TemplateAnalysis.XxHash

def prime1 : UInt64 := 0x9e3779b185ebca87

def prime2 : UInt64 := 0xc2b2ae3d27d4eb4f

def prime3 : UInt64 := 0x165667b19e3779f9

def prime4 : UInt64 := 0x85ebca77c2b2ae63

def prime5 : UInt64 := 0x27d4eb2f165667c5

def rotate (x places : UInt64) : UInt64 := (x <<< places) ||| (x >>> (64 - places))

def littleEndian (bytes : List UInt8) : UInt64 :=
  bytes.foldr (fun b acc => (acc <<< 8) ||| b.toUInt64) 0

/-- The whole words of the input and the bytes behind them. -/
def words : List UInt8 → List UInt64 × List UInt8
  | a :: b :: c :: d :: e :: f :: g :: h :: rest =>
    let (ws, tail) := words rest
    (littleEndian [a, b, c, d, e, f, g, h] :: ws, tail)
  | tail => ([], tail)

def round (acc word : UInt64) : UInt64 := rotate (acc + word * prime2) 31 * prime1

/-- The four accumulators. -/
structure Lanes where
  a : UInt64
  b : UInt64
  c : UInt64
  d : UInt64

def Lanes.start (seed : UInt64) : Lanes :=
  ⟨seed + prime1 + prime2, seed + prime2, seed, seed - prime1⟩

/-- All whole stripes feed the accumulators; the words behind them are left. -/
def Lanes.stripes (l : Lanes) : List UInt64 → Lanes × List UInt64
  | w :: x :: y :: z :: rest =>
    Lanes.stripes ⟨round l.a w, round l.b x, round l.c y, round l.d z⟩ rest
  | rest => (l, rest)

def mergeLane (acc lane : UInt64) : UInt64 := (acc ^^^ round 0 lane) * prime1 + prime4

def Lanes.converge (l : Lanes) : UInt64 :=
  [l.a, l.b, l.c, l.d].foldl mergeLane
    (rotate l.a 1 + rotate l.b 7 + rotate l.c 12 + rotate l.d 18)

def mixWord (acc word : UInt64) : UInt64 := rotate (acc ^^^ round 0 word) 27 * prime1 + prime4

def mixHalf (acc half : UInt64) : UInt64 := rotate (acc ^^^ (half * prime1)) 23 * prime2 + prime3

def mixByte (acc : UInt64) (byte : UInt8) : UInt64 :=
  rotate (acc ^^^ (byte.toUInt64 * prime5)) 11 * prime1

/-- Fewer than eight bytes: a half word if there are four, then single bytes. -/
def mixTail (acc : UInt64) : List UInt8 → UInt64
  | a :: b :: c :: d :: rest => rest.foldl mixByte (mixHalf acc (littleEndian [a, b, c, d]))
  | rest => rest.foldl mixByte acc

/-- Every input bit reaches every output bit. -/
def avalanche (h : UInt64) : UInt64 :=
  let h := (h ^^^ (h >>> 33)) * prime2
  let h := (h ^^^ (h >>> 29)) * prime3
  h ^^^ (h >>> 32)

def hash (seed : UInt64) (bytes : List UInt8) : UInt64 :=
  let (ws, tail) := words bytes
  let (lanes, rest) := (Lanes.start seed).stripes ws
  let start := if bytes.length < 32 then seed + prime5 else lanes.converge
  avalanche (mixTail (rest.foldl mixWord (start + UInt64.ofNat bytes.length)) tail)

def hashText (seed : UInt64) (text : String) : UInt64 := hash seed text.toUTF8.toList

end TemplateAnalysis.XxHash
