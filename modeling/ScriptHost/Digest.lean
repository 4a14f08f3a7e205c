/-!
# Digests

BLAKE3 with 256 bits of output, as lower-case hexadecimal text. The input is cut into chunks of
1024 bytes, each chunk into blocks of 64; a chunk is compressed block by block, and the chunks
are joined in pairs as a binary tree whose left subtrees are full. The last compression of all
is marked as the root.
-/
namespace ScriptHost.Digest

abbrev Words (n : Nat) := Vector UInt32 n

/-- The words that every compression starts from, and the chaining value of a first block. -/
def initial : Words 8 :=
  #v[0x6A09E667, 0xBB67AE85, 0x3C6EF372, 0xA54FF53A, 0x510E527F, 0x9B05688C, 0x1F83D9AB, 0x5BE0CD19]

/-- Where each word of the message of a round comes from in the message of the round before. -/
def permutation : Vector (Fin 16) 16 := #v[2, 6, 3, 10, 7, 0, 4, 13, 1, 11, 12, 5, 9, 14, 15, 8]

def chunkStart : UInt32 := 1
def chunkEnd : UInt32 := 2
def parentNode : UInt32 := 4
def rootNode : UInt32 := 8

def rotateRight (w : UInt32) (n : UInt32) : UInt32 := (w >>> n) ||| (w <<< (32 - n))

/-- Mixes two message words into four words of the state. -/
def mix (state : Words 16) (a b c d : Fin 16) (x y : UInt32) : Words 16 :=
  let wa := state[a] + state[b] + x
  let wd := rotateRight (state[d] ^^^ wa) 16
  let wc := state[c] + wd
  let wb := rotateRight (state[b] ^^^ wc) 12
  let wa := wa + wb + y
  let wd := rotateRight (wd ^^^ wa) 8
  let wc := wc + wd
  let wb := rotateRight (wb ^^^ wc) 7
  ((((state.set a wa).set b wb).set c wc).set d wd)

/-- Mixes the columns of the state, then its diagonals. -/
def round (state message : Words 16) : Words 16 :=
  let state := mix state 0 4 8 12 message[0] message[1]
  let state := mix state 1 5 9 13 message[2] message[3]
  let state := mix state 2 6 10 14 message[4] message[5]
  let state := mix state 3 7 11 15 message[6] message[7]
  let state := mix state 0 5 10 15 message[8] message[9]
  let state := mix state 1 6 11 12 message[10] message[11]
  let state := mix state 2 7 8 13 message[12] message[13]
  mix state 3 4 9 14 message[14] message[15]

/-- This many rounds, the message permuted after each. -/
def rounds : Nat → Words 16 → Words 16 → Words 16
  | 0, state, _ => state
  | n + 1, state, message => rounds n (round state message) (permutation.map fun i => message[i])

/-- One compression: a chaining value, a block of the message, and what the block is. -/
structure Node where
  chaining : Words 8
  block : Words 16
  counter : Nat
  size : UInt32
  flags : UInt32

/-- The chaining value that a node hands on. -/
def Node.compress (node : Node) : Words 8 :=
  let state : Words 16 := node.chaining ++
    #v[initial[0], initial[1], initial[2], initial[3], UInt32.ofNat node.counter,
      UInt32.ofNat (node.counter / 0x100000000), node.size, node.flags]
  let state := rounds 7 state node.block
  Vector.ofFn fun (i : Fin 8) => state[i.val] ^^^ state[i.val + 8]

/-- Four bytes, the lowest first, as a word; missing bytes are zero. -/
def wordAt (block : List UInt8) (i : Nat) : UInt32 :=
  let byte (k : Nat) : UInt32 := (block.getD (4 * i + k) 0).toUInt32
  byte 0 ||| (byte 1 <<< 8) ||| (byte 2 <<< 16) ||| (byte 3 <<< 24)

/-- The last node of a chunk, from the chaining value of the blocks before `bytes`. -/
def chunk (counter : Nat) (chaining : Words 8) (start : UInt32) (bytes : List UInt8) : Node :=
  let block := bytes.take 64
  let node : Node :=
    { chaining, counter, flags := start
      block := Vector.ofFn fun (i : Fin 16) => wordAt block i
      size := UInt32.ofNat block.length }
  if bytes.length ≤ 64 then { node with flags := start ||| chunkEnd }
  else chunk counter node.compress 0 (bytes.drop 64)
termination_by bytes.length

/-- The last nodes of all chunks, numbered from `counter`. -/
def chunks (counter : Nat) (bytes : List UInt8) : List Node :=
  let node := chunk counter initial chunkStart (bytes.take 1024)
  match _more : bytes.drop 1024 with
  | [] => [node]
  | first :: rest => node :: chunks (counter + 1) (first :: rest)
termination_by bytes.length
decreasing_by
  have := congrArg List.length _more
  simp only [List.length_drop, List.length_cons] at this ⊢
  omega

/-- The node above two subtrees. -/
def parent (left right : Words 8) : Node where
  chaining := initial
  block := left ++ right
  counter := 0
  size := 64
  flags := parentNode

/-- How many of `n` chunks, at least two, the left subtree holds: the largest power of two below
`n`. -/
def leftSize (n : Nat) : Nat := Nat.pow 2 (n - 1).log2

theorem leftSize_pos (n : Nat) : 0 < leftSize n := Nat.two_pow_pos _

theorem leftSize_lt {n : Nat} (h : 2 ≤ n) : leftSize n < n := by
  have : leftSize n ≤ n - 1 := Nat.log2_self_le (by omega)
  omega

theorem length_take_left {nodes : List Node} (h : 2 ≤ nodes.length) :
    (nodes.take (leftSize nodes.length)).length < nodes.length := by
  have := leftSize_lt h
  simp only [List.length_take]
  omega

theorem length_drop_left {nodes : List Node} (h : 2 ≤ nodes.length) :
    (nodes.drop (leftSize nodes.length)).length < nodes.length := by
  have := leftSize_pos nodes.length
  simp only [List.length_drop]
  omega

/-- The top of the tree over some nodes. -/
def top (nodes : List Node) : Node :=
  if _several : 2 ≤ nodes.length then
    let left := leftSize nodes.length
    parent (top (nodes.take left)).compress (top (nodes.drop left)).compress
  else nodes.headD (chunk 0 initial chunkStart [])
termination_by nodes.length
decreasing_by
  · exact length_take_left _several
  · exact length_drop_left _several

def hexByte (n : UInt32) : List Char :=
  [Nat.digitChar (n.toNat / 16 % 16), Nat.digitChar (n.toNat % 16)]

/-- A word as hexadecimal digits of its bytes, the lowest byte first. -/
def hexWord (w : UInt32) : List Char :=
  hexByte w ++ hexByte (w >>> 8) ++ hexByte (w >>> 16) ++ hexByte (w >>> 24)

def ofBytes (bytes : List UInt8) : String :=
  let root := top (chunks 0 bytes)
  String.ofList (({ root with flags := root.flags ||| rootNode }).compress.toList.flatMap hexWord)

/-- The digest of a text, of its bytes in UTF-8. -/
def ofText (text : String) : String := ofBytes text.toUTF8.toList

end ScriptHost.Digest
