import ManaWallet.Bytes

/-!
# Digest/Blake3 — the 32-byte digest of every ledger value

    bytes ──blocks of 64──▸ chunks of 1024 ──chaining values──▸ binary tree ──root──▸ digest

A hasher takes bytes one at a time.  It holds the chunk it is filling and, for the chunks before it,
the chaining values of the complete subtrees they form, the latest first.  Its digest may be taken at
any moment and does not change it; since bytes are taken singly, it cannot matter how a message is cut
into parts (`Hasher.absorb_append`).
-/

namespace ManaWallet

namespace Blake3

/-! ## Compression

The state of a compression is four rows of four words.  A round mixes the four columns, then, with the
rows turned against each other, the four diagonals. -/

/-- Four words, worked on side by side. -/
structure Row where
  a : UInt32
  b : UInt32
  c : UInt32
  d : UInt32
deriving DecidableEq, Repr

namespace Row

/-- Applies an operation of words at each of the four places. -/
@[inline] def zip (f : UInt32 → UInt32 → UInt32) (x y : Row) : Row :=
  ⟨f x.a y.a, f x.b y.b, f x.c y.c, f x.d y.d⟩

instance : Add Row := ⟨zip (· + ·)⟩
instance : XorOp Row := ⟨zip (· ^^^ ·)⟩

/-- Turns the bits of a word to the right. -/
@[inline] def turnBits (n : UInt32) (x : UInt32) : UInt32 := (x >>> n) ||| (x <<< (32 - n))

/-- Turns the bits of each word to the right. -/
@[inline] def rotate (n : UInt32) (x : Row) : Row :=
  ⟨turnBits n x.a, turnBits n x.b, turnBits n x.c, turnBits n x.d⟩

/-- The words moved one place to the left, the first becoming the last. -/
def turn (x : Row) : Row := ⟨x.b, x.c, x.d, x.a⟩

end Row

/-- The sixteen words of a block. -/
abbrev Message := Vector UInt32 16

/-- Eight words that stand for a subtree. -/
structure ChainingValue where
  low : Row
  high : Row
deriving DecidableEq, Repr

/-- The chaining value that starts every chunk. -/
def start : ChainingValue where
  low := ⟨0x6A09E667, 0xBB67AE85, 0x3C6EF372, 0xA54FF53A⟩
  high := ⟨0x510E527F, 0x9B05688C, 0x1F83D9AB, 0x5BE0CD19⟩

/-- The working state of a compression. -/
structure State where
  r0 : Row
  r1 : Row
  r2 : Row
  r3 : Row

/-- Mixes the four columns of the state with two rows of message words. -/
def State.mix (s : State) (m₁ m₂ : Row) : State :=
  let a := s.r0 + s.r1 + m₁
  let d := (s.r3 ^^^ a).rotate 16
  let c := s.r2 + d
  let b := (s.r1 ^^^ c).rotate 12
  let a := a + b + m₂
  let d := (d ^^^ a).rotate 8
  let c := c + d
  let b := (b ^^^ c).rotate 7
  ⟨a, b, c, d⟩

/-- One round: the columns with the first half of the message, the diagonals with the second. -/
def State.round (s : State) (m : Message) : State :=
  let s := s.mix ⟨m[0], m[2], m[4], m[6]⟩ ⟨m[1], m[3], m[5], m[7]⟩
  let t : State := ⟨s.r0, s.r1.turn, s.r2.turn.turn, s.r3.turn.turn.turn⟩
  let t := t.mix ⟨m[8], m[10], m[12], m[14]⟩ ⟨m[9], m[11], m[13], m[15]⟩
  ⟨t.r0, t.r1.turn.turn.turn, t.r2.turn.turn, t.r3.turn⟩

/-- The order in which the words of a message enter the next round. -/
def permute (m : Message) : Message :=
  #v[m[2], m[6], m[3], m[10], m[7], m[0], m[4], m[13],
     m[1], m[11], m[12], m[5], m[9], m[14], m[15], m[8]]

/-- The given number of rounds, the message permuted after each. -/
def State.rounds : Nat → State → Message → State
  | 0, s, _ => s
  | n + 1, s, m => rounds n (s.round m) (permute m)

/-- The arguments of one compression: a block, the value it continues, and where it stands. -/
structure Node where
  input : ChainingValue
  block : Message
  counter : UInt64
  length : UInt32
  flags : UInt32

/-- Marks of where a block stands. -/
def chunkStart : UInt32 := 1

@[inherit_doc chunkStart] def chunkEnd : UInt32 := 2

@[inherit_doc chunkStart] def parentNode : UInt32 := 4

@[inherit_doc chunkStart] def rootNode : UInt32 := 8

/-- The chaining value that a node compresses to. -/
def Node.compress (n : Node) : ChainingValue :=
  let s : State := {
    r0 := n.input.low
    r1 := n.input.high
    r2 := start.low
    r3 := ⟨n.counter.toUInt32, (n.counter >>> 32).toUInt32, n.length, n.flags⟩ }
  let s := s.rounds 7 n.block
  ⟨s.r0 ^^^ s.r2, s.r1 ^^^ s.r3⟩

/-- The digest of a message whose tree has this node at its root. -/
def Node.digest (n : Node) : Bytes 32 :=
  let value := { n with counter := 0, flags := n.flags ||| rootNode }.compress
  let words : Vector UInt32 8 :=
    #v[value.low.a, value.low.b, value.low.c, value.low.d,
       value.high.a, value.high.b, value.high.c, value.high.d]
  Vector.ofFn fun i : Fin 32 =>
    have : i.val / 4 < 8 := by omega
    (words[i.val / 4] >>> (8 * (i.val % 4)).toUInt32).toUInt8

/-- The node above two subtrees. -/
def parent (left right : ChainingValue) : Node where
  input := start
  block :=
    #v[left.low.a, left.low.b, left.low.c, left.low.d,
       left.high.a, left.high.b, left.high.c, left.high.d,
       right.low.a, right.low.b, right.low.c, right.low.d,
       right.high.a, right.high.b, right.high.c, right.high.d]
  counter := 0
  length := 64
  flags := parentNode

/-! ## Chunks -/

/-- A byte of a block, zero behind its end. -/
@[inline] def byteAt (block : ByteArray) (i : Nat) : UInt32 :=
  if h : i < block.size then block[i].toUInt32 else 0

/-- The words of a block, filled up with zeros. -/
def blockWords (block : ByteArray) : Message :=
  Vector.ofFn fun i : Fin 16 =>
    let offset := 4 * i.val
    byteAt block offset ||| (byteAt block (offset + 1) <<< 8) |||
      (byteAt block (offset + 2) <<< 16) ||| (byteAt block (offset + 3) <<< 24)

/-- A chunk that is being filled: its number, the value of its compressed blocks, how many these are,
and the block that is still open. -/
structure Chunk where
  index : UInt64
  value : ChainingValue
  compressed : Nat
  block : ByteArray

/-- The chunk of a number, still without bytes. -/
def Chunk.empty (index : UInt64) : Chunk := ⟨index, start, 0, ByteArray.empty⟩

/-- The open block of a chunk as a node, with further marks. -/
def Chunk.node (c : Chunk) (marks : UInt32) : Node where
  input := c.value
  block := blockWords c.block
  counter := c.index
  length := c.block.size.toUInt32
  flags := (if c.compressed = 0 then chunkStart else 0) ||| marks

/-! ## Hashing -/

/-- The state between two bytes of a message. -/
structure Hasher where
  chunk : Chunk
  /-- Chaining values of the complete subtrees before the chunk, the latest first. -/
  subtrees : List ChainingValue

/-- A subtree joins the latest one for as long as both have the same size, which is as often as
`count`, the number of chunks so far, can be halved. -/
def joinSubtrees : List ChainingValue → ChainingValue → (count : Nat) → List ChainingValue
  | [], value, _ => [value]
  | left :: rest, value, count =>
    if count % 2 = 0 then joinSubtrees rest (parent left value).compress (count / 2)
    else value :: left :: rest

namespace Hasher

/-- The hasher that has taken no bytes. -/
def empty : Hasher := ⟨.empty 0, []⟩

/-- Closes a block that is full, and with it a chunk of sixteen; done only when a further byte comes,
since the last block of a message is marked. -/
def makeRoom (h : Hasher) : Hasher :=
  if h.chunk.block.size < 64 then h
  else if h.chunk.compressed < 15 then
    { h with chunk := { h.chunk with
        value := (h.chunk.node 0).compress
        compressed := h.chunk.compressed + 1
        block := ByteArray.empty } }
  else
    let next := h.chunk.index + 1
    { chunk := .empty next
      subtrees := joinSubtrees h.subtrees (h.chunk.node chunkEnd).compress next.toNat }

/-- Adds a byte to the open block. -/
def push (h : Hasher) (byte : UInt8) : Hasher :=
  let ⟨⟨index, value, compressed, block⟩, subtrees⟩ := h.makeRoom
  ⟨⟨index, value, compressed, block.push byte⟩, subtrees⟩

/-- Takes further bytes of the message. -/
def absorb (h : Hasher) (bytes : List UInt8) : Hasher := bytes.foldl push h

/-- The digest of the bytes taken so far. -/
def digest (h : Hasher) : Bytes 32 :=
  (h.subtrees.foldl (fun node left => parent left node.compress) (h.chunk.node chunkEnd)).digest

/-- **How a message is cut into parts does not matter.** -/
theorem absorb_append (h : Hasher) (xs ys : List UInt8) :
    h.absorb (xs ++ ys) = (h.absorb xs).absorb ys :=
  List.foldl_append

end Hasher

end Blake3

/-- The BLAKE3 digest of a message. -/
def blake3 (message : List UInt8) : Bytes 32 := (Blake3.Hasher.empty.absorb message).digest

end ManaWallet
