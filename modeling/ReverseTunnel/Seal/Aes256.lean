import ReverseTunnel.Bytes

/-!
The block cipher AES with a key of 256 bits, in the encrypting direction.

A block is held as its four columns, each a word whose most significant byte is
the top row.
-/

namespace ReverseTunnel.Seal.Aes256

/-- Sixteen bytes as four columns. -/
structure Block where
  c0 : UInt32
  c1 : UInt32
  c2 : UInt32
  c3 : UInt32
  deriving DecidableEq, Repr

/-- The sum of two blocks, bit by bit. -/
def Block.xor (x y : Block) : Block :=
  ⟨x.c0 ^^^ y.c0, x.c1 ^^^ y.c1, x.c2 ^^^ y.c2, x.c3 ^^^ y.c3⟩

/-- The block that sixteen bytes stand for; missing bytes count as zero. -/
def Block.ofBytes (bs : Bytes) : Block :=
  let word (i : Nat) : UInt32 := UInt32.ofNat (Bytes.ofBE (((bs.drop (4 * i)).take 4 ++ [0, 0, 0, 0]).take 4))
  ⟨word 0, word 1, word 2, word 3⟩

def Block.toBytes (x : Block) : Bytes :=
  [x.c0, x.c1, x.c2, x.c3].flatMap fun w => Bytes.be 4 w.toNat

/-- Twice an element of the field of 256 elements. -/
def double (x : UInt8) : UInt8 := (x <<< 1) ^^^ (if x &&& 0x80 = 0 then 0 else 0x1B)

/-- The product of two elements of the field of 256 elements. -/
def times (x y : UInt8) : UInt8 :=
  ((List.range 8).foldl (fun (acc, x) i =>
    (if (y >>> UInt8.ofNat i) &&& 1 = 0 then acc else acc ^^^ x, double x)) ((0 : UInt8), x)).1

/-- The inverse of an element, and 0 for 0: its power with exponent 254. -/
def inverse (x : UInt8) : UInt8 :=
  let x2 := times x x
  let x4 := times x2 x2
  let x8 := times x4 x4
  let x16 := times x8 x8
  let x32 := times x16 x16
  let x64 := times x32 x32
  let x128 := times x64 x64
  times x128 (times x64 (times x32 (times x16 (times x8 (times x4 x2)))))

/-- The substitution of one byte: its inverse, mixed bit by bit. -/
def substituteByte (x : UInt8) : UInt8 :=
  let v := inverse x
  let turn (n : UInt8) : UInt8 := (v <<< n) ||| (v >>> (8 - n))
  v ^^^ turn 1 ^^^ turn 2 ^^^ turn 3 ^^^ turn 4 ^^^ 0x63

/-- The substitution of every byte, computed once. -/
def substitutions : Array UInt8 := (Array.range 256).map fun n => substituteByte (UInt8.ofNat n)

def sub (x : UInt8) : UInt8 := substitutions.getD x.toNat 0

/-- The bytes of a column, top row first. -/
def row0 (w : UInt32) : UInt8 := (w >>> 24).toUInt8
def row1 (w : UInt32) : UInt8 := (w >>> 16).toUInt8
def row2 (w : UInt32) : UInt8 := (w >>> 8).toUInt8
def row3 (w : UInt32) : UInt8 := w.toUInt8

/-- The column with the given rows. -/
def column (a b c d : UInt8) : UInt32 :=
  a.toUInt32 <<< 24 ||| b.toUInt32 <<< 16 ||| c.toUInt32 <<< 8 ||| d.toUInt32

/-- Every byte of a column substituted. -/
def subWord (w : UInt32) : UInt32 := column (sub (row0 w)) (sub (row1 w)) (sub (row2 w)) (sub (row3 w))

/-- A column turned up by one row. -/
def turnWord (w : UInt32) : UInt32 := (w <<< 8) ||| (w >>> 24)

/-- A column multiplied by the fixed polynomial of the cipher. -/
def mixColumn (w : UInt32) : UInt32 :=
  let a := row0 w
  let b := row1 w
  let c := row2 w
  let d := row3 w
  let all := a ^^^ b ^^^ c ^^^ d
  column (a ^^^ all ^^^ double (a ^^^ b)) (b ^^^ all ^^^ double (b ^^^ c))
    (c ^^^ all ^^^ double (c ^^^ d)) (d ^^^ all ^^^ double (d ^^^ a))

/-- Bytes substituted, and each row shifted left by its number. -/
def substituteAndShift (x : Block) : Block :=
  let pick (p q r s : UInt32) : UInt32 :=
    column (sub (row0 p)) (sub (row1 q)) (sub (row2 r)) (sub (row3 s))
  ⟨pick x.c0 x.c1 x.c2 x.c3, pick x.c1 x.c2 x.c3 x.c0,
    pick x.c2 x.c3 x.c0 x.c1, pick x.c3 x.c0 x.c1 x.c2⟩

def mixColumns (x : Block) : Block :=
  ⟨mixColumn x.c0, mixColumn x.c1, mixColumn x.c2, mixColumn x.c3⟩

/-- Two round keys from the two before them. -/
def nextKeys (constant : UInt8) (x y : Block) : Block × Block :=
  let p0 := x.c0 ^^^ subWord (turnWord y.c3) ^^^ (constant.toUInt32 <<< 24)
  let p1 := x.c1 ^^^ p0
  let p2 := x.c2 ^^^ p1
  let p3 := x.c3 ^^^ p2
  let q0 := y.c0 ^^^ subWord p3
  let q1 := y.c1 ^^^ q0
  let q2 := y.c2 ^^^ q1
  let q3 := y.c3 ^^^ q2
  (⟨p0, p1, p2, p3⟩, ⟨q0, q1, q2, q3⟩)

/-- `2 * n` further round keys after `x` and `y`. -/
def expand : Nat → UInt8 → Block → Block → List Block
  | 0, _, _, _ => []
  | n + 1, constant, x, y =>
    let (p, q) := nextKeys constant x y
    p :: q :: expand n (double constant) p q

/-- A key made ready: the key of the first mixing, those of the thirteen full
rounds, and that of the last round. -/
structure Schedule where
  first : Block
  middle : List Block
  last : Block

/-- Makes a key of 32 bytes ready. -/
def Schedule.ofKey (key : Bytes) : Schedule :=
  let x := Block.ofBytes (key.take 16)
  let y := Block.ofBytes (key.drop 16)
  let more := expand 7 1 x y
  ⟨x, y :: more.take 12, more.getD 12 x⟩

def encipher (k : Schedule) (x : Block) : Block :=
  let y := k.middle.foldl (fun x key => (mixColumns (substituteAndShift x)).xor key) (x.xor k.first)
  (substituteAndShift y).xor k.last

end ReverseTunnel.Seal.Aes256
