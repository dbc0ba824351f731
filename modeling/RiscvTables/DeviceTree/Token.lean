import RiscvTables.DeviceTree.Property

/-!
# Structure tokens

The structure block of a blob is a sequence of tokens, each on a 4-byte boundary: a node begins
or ends, a property of the innermost open node is given, nothing happens, or the block is over.
Property names are not in the structure block; a property token holds the position of its name in
the strings block.

`Token.encode` writes a token and `Token.read` reads one at a `Cursor`.  Reading consumes at
least the four bytes of the token's number, and leaves the cursor on a 4-byte boundary.
-/

set_option autoImplicit false

namespace RiscvTables

/-- Why a blob was refused.  Offsets count from the start of the blob. -/
inductive BlobError where
  /-- The blob does not start with the magic number. -/
  | invalidMagic (magic : UInt32)
  /-- The blob can be read neither as version 16 nor as version 17. -/
  | unsupportedVersion (version lastCompatible : UInt32)
  /-- Something ends before its last byte. -/
  | truncated (offset : Nat)
  /-- A token does not stand on a 4-byte boundary. -/
  | tokenUnaligned (offset : Nat)
  /-- There is no token of that number. -/
  | badToken (token : UInt32) (offset : Nat)
  /-- A name has no end, or is not UTF-8. -/
  | badString (offset : Nat)
  /-- The beginnings and ends of nodes do not pair up. -/
  | unbalanced
  /-- The tokens describe a node or a property that the tree refuses. -/
  | edit (cause : EditError)
deriving DecidableEq, Repr

/-- The wording of a refusal. -/
def BlobError.message : BlobError → String
  | .invalidMagic magic =>
    s!"invalid magic {Numeral.hexPadded 8 magic.toNat}: expected 0xd00dfeed"
  | .unsupportedVersion version lastCompatible =>
    s!"unsupported blob version {version.toNat} (last compatible {lastCompatible.toNat})"
  | .truncated offset => s!"blob truncated at offset {offset}"
  | .tokenUnaligned offset => s!"token at offset {offset} is not 4-byte aligned"
  | .badToken token offset =>
    s!"unknown token {Numeral.hexPadded 8 token.toNat} at offset {offset}"
  | .badString offset => s!"malformed string at offset {offset}"
  | .unbalanced => "structure block has unbalanced node tokens"
  | .edit cause => cause.message

/-- What the structure block is made of. -/
inductive Token where
  | beginNode (name : String)
  | endNode
  | property (name : String) (value : Bytes)
  | nop
  | finish
deriving DecidableEq, Repr

namespace Token

/-! ## Writing -/

/-- Where a name starts in a strings block that holds `names` one after the other, each ended by
a zero byte. -/
def nameOffset (name : String) : List String → Nat
  | [] => 0
  | first :: rest =>
    if first = name then 0 else (Utf8.encode first).length + 1 + nameOffset name rest

/-- The bytes of a token, for a strings block that holds `names`. -/
def encode (names : List String) : Token → Bytes
  | .beginNode name => BigEndian.encode 4 1 ++ Bytes.padTo 4 (Utf8.encode name ++ [0])
  | .endNode => BigEndian.encode 4 2
  | .property name value =>
    BigEndian.encode 4 3 ++ BigEndian.encode 4 value.length ++
      BigEndian.encode 4 (nameOffset name names) ++ Bytes.padTo 4 value
  | .nop => BigEndian.encode 4 4
  | .finish => BigEndian.encode 4 9

/-! ## Reading -/

/-- The text before the first zero byte, and what follows that byte. -/
def cString? (bytes : Bytes) : Option (String × Bytes) :=
  let body := bytes.takeWhile (· ≠ 0)
  match bytes.drop body.length with
  | [] => none
  | _ :: rest => (Utf8.decode? body).map (·, rest)

/-- A position in the structure block and the bytes from there on. -/
structure Cursor where
  offset : Nat
  rest : Bytes

namespace Cursor

/-- The `n` bytes at the cursor, and the cursor behind them. -/
def take? (cursor : Cursor) (n : Nat) : Option (Bytes × Cursor) :=
  (cursor.rest.split? n).map fun (head, rest) => (head, { offset := cursor.offset + n, rest })

/-- The cursor on the next 4-byte boundary. -/
def align (cursor : Cursor) : Cursor where
  offset := Bytes.roundUp 4 cursor.offset
  rest := cursor.rest.drop (Bytes.gap 4 cursor.offset)

end Cursor

/-- The two blocks that a token is read from: where the structure block starts in the blob, and
where the strings block starts and what it holds. -/
structure Blocks where
  structureStart : Nat
  stringsStart : Nat
  strings : Bytes

namespace Blocks

variable (blocks : Blocks)

/-- The 32-bit number at the cursor. -/
def word (cursor : Cursor) : Except BlobError (UInt32 × Cursor) :=
  match cursor.take? 4 with
  | none => .error (.truncated (blocks.structureStart + cursor.offset))
  | some (bytes, next) => .ok (UInt32.ofNat (BigEndian.decode bytes), next)

/-- The name that starts at the given position of the strings block. -/
def nameAt (offset : Nat) : Except BlobError String :=
  match (blocks.strings.split? offset).bind fun (_, tail) => cString? tail with
  | none => .error (.badString (blocks.stringsStart + offset))
  | some (name, _) => .ok name

end Blocks

/-- Reads a node's name, behind the number of its token. -/
def readBeginNode (blocks : Blocks) (cursor : Cursor) : Except BlobError (Token × Cursor) :=
  match cString? cursor.rest with
  | none => .error (.badString (blocks.structureStart + cursor.offset))
  | some (name, rest) =>
    let next : Cursor := { offset := cursor.offset + (Utf8.encode name).length + 1, rest }
    .ok (.beginNode name, next.align)

/-- Reads a property, behind the number of its token. -/
def readProperty (blocks : Blocks) (cursor : Cursor) : Except BlobError (Token × Cursor) := do
  let (length, cursor) ← blocks.word cursor
  let (nameOffset, cursor) ← blocks.word cursor
  match cursor.take? length.toNat with
  | none => .error (.truncated (blocks.structureStart + cursor.offset + length.toNat))
  | some (value, next) => do
    let name ← blocks.nameAt nameOffset.toNat
    return (.property name value, next.align)

/-- Reads the token at the cursor. -/
def read (blocks : Blocks) (cursor : Cursor) : Except BlobError (Token × Cursor) := do
  let (number, next) ← blocks.word cursor
  if number = 1 then readBeginNode blocks next
  else if number = 2 then return (.endNode, next)
  else if number = 3 then readProperty blocks next
  else if number = 4 then return (.nop, next)
  else if number = 9 then return (.finish, next)
  else throw (.badToken number (blocks.structureStart + cursor.offset))

end Token
end RiscvTables
