import FloodMesh.Bytes
import FloodMesh.Text.Quoted

/-!
# FloodMesh.Wire.Digest

The BLAKE3 digest, of which message ids are made. The input is cut into chunks of 1024 bytes, the
leaves of a binary tree whose left halves are complete; each chunk is a chain of blocks of 64 bytes.
-/

namespace FloodMesh
namespace Digest

/-- Sixteen words of 32 bits, or eight of a chaining value. -/
abbrev Words := Array UInt32

/-- The chaining value that every chunk starts from. -/
def initial : Words :=
  #[0x6a09e667, 0xbb67ae85, 0x3c6ef372, 0xa54ff53a, 0x510e527f, 0x9b05688c, 0x1f83d9ab, 0x5be0cd19]

/-- How a block's words change places between rounds. -/
def permutation : Array Nat := #[2, 6, 3, 10, 7, 0, 4, 13, 1, 11, 12, 5, 9, 14, 15, 8]

def rotateRight (x : UInt32) (n : UInt32) : UInt32 := (x >>> n) ||| (x <<< (32 - n))

/-- Mix two words of the block into four words of the state. -/
def mix (v : Words) (a b c d : Nat) (x y : UInt32) : Words :=
  let va := v.getD a 0 + v.getD b 0 + x
  let vd := rotateRight (v.getD d 0 ^^^ va) 16
  let vc := v.getD c 0 + vd
  let vb := rotateRight (v.getD b 0 ^^^ vc) 12
  let va := va + vb + y
  let vd := rotateRight (vd ^^^ va) 8
  let vc := vc + vd
  let vb := rotateRight (vb ^^^ vc) 7
  (((v.setIfInBounds a va).setIfInBounds b vb).setIfInBounds c vc).setIfInBounds d vd

/-- Columns, then diagonals. -/
def round (v m : Words) : Words :=
  let v := mix v 0 4 8 12 (m.getD 0 0) (m.getD 1 0)
  let v := mix v 1 5 9 13 (m.getD 2 0) (m.getD 3 0)
  let v := mix v 2 6 10 14 (m.getD 4 0) (m.getD 5 0)
  let v := mix v 3 7 11 15 (m.getD 6 0) (m.getD 7 0)
  let v := mix v 0 5 10 15 (m.getD 8 0) (m.getD 9 0)
  let v := mix v 1 6 11 12 (m.getD 10 0) (m.getD 11 0)
  let v := mix v 2 7 8 13 (m.getD 12 0) (m.getD 13 0)
  mix v 3 4 9 14 (m.getD 14 0) (m.getD 15 0)

/-- Several rounds, the block's words changing places after each. -/
def rounds : Nat → Words → Words → Words
  | 0, v, _ => v
  | n + 1, v, m => rounds n (round v m) (permutation.map fun i => m.getD i 0)

/-- A node of the tree before it is compressed: the chaining value so far, the last block, the
number of the chunk, the length of the block, and what kind of node it is. -/
structure Node where
  chaining : Words
  block : Words
  counter : Nat
  length : Nat
  flags : UInt32

def chunkStart : UInt32 := 1
def chunkEnd : UInt32 := 2
def parentFlag : UInt32 := 4
def rootFlag : UInt32 := 8

/-- The first half of a compressed node: a chaining value, or the digest of a root. -/
def Node.compress (n : Node) (extra : UInt32) : Words :=
  let v := n.chaining ++ initial.extract 0 4 ++
    #[UInt32.ofNat n.counter, UInt32.ofNat (n.counter / UInt32.size), UInt32.ofNat n.length,
      n.flags ||| extra]
  let v := rounds 7 v n.block
  (Array.range 8).map fun i => v.getD i 0 ^^^ v.getD (i + 8) 0

/-- Four bytes as a word, the least significant first. -/
def word (bytes : Bytes) : UInt32 :=
  bytes.foldr (fun b w => (w <<< 8) ||| b.toUInt32) 0

/-- A block of up to 64 bytes as sixteen words, zeros behind. -/
def blockWords (bytes : Bytes) : Words :=
  (Array.range 16).map fun i => word ((bytes.drop (4 * i)).take 4)

/-- A chunk's last block, those before it compressed; `n` bounds their number. -/
def chunk (counter : Nat) : Nat → Words → UInt32 → Bytes → Node
  | 0, chaining, start, bytes =>
    ⟨chaining, blockWords bytes, counter, bytes.length, start ||| chunkEnd⟩
  | n + 1, chaining, start, bytes =>
    if bytes.length ≤ 64 then
      ⟨chaining, blockWords bytes, counter, bytes.length, start ||| chunkEnd⟩
    else
      let node : Node := ⟨chaining, blockWords (bytes.take 64), counter, 64, start⟩
      chunk counter n (node.compress 0) 0 (bytes.drop 64)

/-- The tree over a byte string whose first chunk has a given number; `n` bounds its height. -/
def tree (counter : Nat) : Nat → Bytes → Node
  | 0, bytes => chunk counter 16 initial chunkStart bytes
  | n + 1, bytes =>
    if bytes.length ≤ 1024 then chunk counter 16 initial chunkStart bytes
    else
      let chunks := Nat.pow 2 ((bytes.length - 1) / 1024).log2
      let left := tree counter n (bytes.take (1024 * chunks))
      let right := tree (counter + chunks) n (bytes.drop (1024 * chunks))
      ⟨initial, left.compress 0 ++ right.compress 0, 0, 64, parentFlag⟩

/-- Bytes of a number, the least significant first. -/
def littleEndian : Nat → Nat → Bytes
  | 0, _ => []
  | n + 1, value => UInt8.ofNat value :: littleEndian n (value / 256)

/-- The digest, 32 bytes. -/
def blake3 (bytes : Bytes) : Bytes :=
  ((tree 0 (bytes.length.log2 + 1) bytes).compress rootFlag).toList.flatMap fun w =>
    littleEndian 4 w.toNat

/-- Bytes in lower-case hexadecimal, two digits each. -/
def hexText (bytes : Bytes) : String :=
  String.ofList (bytes.flatMap fun b =>
    Nat.toDigits 16 (b.toNat / 16) ++ Nat.toDigits 16 (b.toNat % 16))

/-- The id of a message: the digest of its content and of the time in nanoseconds, so that the same
content sent at different times has different ids. -/
def messageId (content : Bytes) (nanoseconds : Nat) : String :=
  hexText (blake3 (content ++ littleEndian 16 nanoseconds))

end Digest
end FloodMesh
