/-!
The hash function BLAKE3 with a 32-byte digest, on byte lists. The state of the compression
function is four rows of four words, so one mixing step acts on a whole row; the tree over the
chunks grows like a binary counter, a finished subtree joining an equally high left neighbour.
-/
namespace Realization.Digest

structure Quad where
  w0 : UInt32
  w1 : UInt32
  w2 : UInt32
  w3 : UInt32
  deriving DecidableEq, Repr

namespace Quad

def zip (f : UInt32 → UInt32 → UInt32) (p q : Quad) : Quad :=
  ⟨f p.w0 q.w0, f p.w1 q.w1, f p.w2 q.w2, f p.w3 q.w3⟩

def add : Quad → Quad → Quad := zip (· + ·)

def xor : Quad → Quad → Quad := zip (· ^^^ ·)

def turnRight (n : UInt32) (q : Quad) : Quad :=
  let turn (w : UInt32) := (w >>> n) ||| (w <<< (32 - n))
  ⟨turn q.w0, turn q.w1, turn q.w2, turn q.w3⟩

def shift1 (q : Quad) : Quad := ⟨q.w1, q.w2, q.w3, q.w0⟩

def shift2 (q : Quad) : Quad := ⟨q.w2, q.w3, q.w0, q.w1⟩

def shift3 (q : Quad) : Quad := ⟨q.w3, q.w0, q.w1, q.w2⟩

def words (q : Quad) : List UInt32 := [q.w0, q.w1, q.w2, q.w3]

end Quad

structure Chain where
  low : Quad
  high : Quad
  deriving DecidableEq, Repr

structure Block where
  m0 : Quad
  m1 : Quad
  m2 : Quad
  m3 : Quad
  deriving DecidableEq, Repr

def initialChain : Chain :=
  ⟨⟨0x6A09E667, 0xBB67AE85, 0x3C6EF372, 0xA54FF53A⟩,
   ⟨0x510E527F, 0x9B05688C, 0x1F83D9AB, 0x5BE0CD19⟩⟩

structure State where
  a : Quad
  b : Quad
  c : Quad
  d : Quad

def State.mix (s : State) (x y : Quad) : State :=
  let a := (s.a.add s.b).add x
  let d := (s.d.xor a).turnRight 16
  let c := s.c.add d
  let b := (s.b.xor c).turnRight 12
  let a := (a.add b).add y
  let d := (d.xor a).turnRight 8
  let c := c.add d
  let b := (b.xor c).turnRight 7
  ⟨a, b, c, d⟩

def State.round (s : State) (m : Block) : State :=
  let s := s.mix ⟨m.m0.w0, m.m0.w2, m.m1.w0, m.m1.w2⟩ ⟨m.m0.w1, m.m0.w3, m.m1.w1, m.m1.w3⟩
  let s : State := ⟨s.a, s.b.shift1, s.c.shift2, s.d.shift3⟩
  let s := s.mix ⟨m.m2.w0, m.m2.w2, m.m3.w0, m.m3.w2⟩ ⟨m.m2.w1, m.m2.w3, m.m3.w1, m.m3.w3⟩
  ⟨s.a, s.b.shift3, s.c.shift2, s.d.shift1⟩

def Block.permute (m : Block) : Block :=
  ⟨⟨m.m0.w2, m.m1.w2, m.m0.w3, m.m2.w2⟩, ⟨m.m1.w3, m.m0.w0, m.m1.w0, m.m3.w1⟩,
   ⟨m.m0.w1, m.m2.w3, m.m3.w0, m.m1.w1⟩, ⟨m.m2.w1, m.m3.w2, m.m3.w3, m.m2.w0⟩⟩

def State.rounds : Nat → State → Block → State
  | 0, s, _ => s
  | n + 1, s, m => State.rounds n (s.round m) m.permute

/-- A node of the hash tree before its last compression, which differs at the root. -/
structure Node where
  chain : Chain
  block : Block
  counter : UInt64
  length : UInt32
  flags : UInt32
  deriving DecidableEq, Repr

def chunkStart : UInt32 := 1

def chunkEnd : UInt32 := 2

def parentFlag : UInt32 := 4

def rootFlag : UInt32 := 8

def Node.compress (n : Node) : Chain :=
  let s := State.rounds 7
    ⟨n.chain.low, n.chain.high, initialChain.low,
      ⟨n.counter.toUInt32, (n.counter >>> 32).toUInt32, n.length, n.flags⟩⟩ n.block
  ⟨s.a.xor s.c, s.b.xor s.d⟩

def word : List UInt8 → UInt32
  | b0 :: b1 :: b2 :: b3 :: _ =>
    b0.toUInt32 ||| b1.toUInt32 <<< 8 ||| b2.toUInt32 <<< 16 ||| b3.toUInt32 <<< 24
  | b0 :: b1 :: b2 :: [] => b0.toUInt32 ||| b1.toUInt32 <<< 8 ||| b2.toUInt32 <<< 16
  | b0 :: b1 :: [] => b0.toUInt32 ||| b1.toUInt32 <<< 8
  | b0 :: [] => b0.toUInt32
  | [] => 0

def wordBytes (w : UInt32) : List UInt8 :=
  [w.toUInt8, (w >>> 8).toUInt8, (w >>> 16).toUInt8, (w >>> 24).toUInt8]

def quad (bytes : List UInt8) : Quad :=
  ⟨word bytes, word (bytes.drop 4), word (bytes.drop 8), word (bytes.drop 12)⟩

def block (bytes : List UInt8) : Block :=
  ⟨quad bytes, quad (bytes.drop 16), quad (bytes.drop 32), quad (bytes.drop 48)⟩

def pieces (size : Nat) (bytes : List UInt8) : List (List UInt8) :=
  (List.range (max 1 ((bytes.length + size - 1) / size))).map fun i =>
    (bytes.drop (size * i)).take size

def chunkNode (counter : UInt64) (chain : Chain) (opening : UInt32) : List (List UInt8) → Node
  | [] => ⟨chain, block [], counter, 0, opening ||| chunkEnd⟩
  | [last] => ⟨chain, block last, counter, last.length.toUInt32, opening ||| chunkEnd⟩
  | first :: rest =>
    let node : Node := ⟨chain, block first, counter, first.length.toUInt32, opening⟩
    chunkNode counter node.compress 0 rest

def parentNode (left right : Node) : Node :=
  let l := left.compress
  let r := right.compress
  ⟨initialChain, ⟨l.low, l.high, r.low, r.high⟩, 0, 64, parentFlag⟩

/-- The pending subtrees have decreasing heights towards the end of the input, nearest first. -/
def joinSubtree (height : Nat) (node : Node) : List (Nat × Node) → List (Nat × Node)
  | (h, left) :: rest =>
    if h = height then joinSubtree (height + 1) (parentNode left node) rest
    else (height, node) :: (h, left) :: rest
  | [] => [(height, node)]

def pendingSubtrees (bytes : List UInt8) : List (Nat × Node) :=
  (pieces 1024 bytes).zipIdx.foldl (fun pending (chunk, i) =>
    joinSubtree 0 (chunkNode i.toUInt64 initialChain chunkStart (pieces 64 chunk)) pending) []

def rootNode (bytes : List UInt8) : Node :=
  match pendingSubtrees bytes with
  | (_, node) :: rest => rest.foldl (fun right (_, left) => parentNode left right) node
  | [] => chunkNode 0 initialChain chunkStart []

def blake3 (bytes : List UInt8) : List UInt8 :=
  let root := rootNode bytes
  let out := Node.compress ⟨root.chain, root.block, 0, root.length, root.flags ||| rootFlag⟩
  (out.low.words ++ out.high.words).flatMap wordBytes

end Realization.Digest
