import RiscvTables.Bytes

/-!
# Text in bytes

Names are stored as UTF-8.  A reader either insists on it (`decode?`) or puts U+FFFD wherever
the bytes spell no character (`decodeLossy`).

Insisting is membership: a `String` *is* its valid UTF-8 bytes, so `decode?` and `encode` undo
each other by construction.  The lossy reader is a machine that remembers how many continuation
bytes the current character still owes and which values the next one may take.  A byte that
the machine cannot use ends the unfinished character, which becomes one U+FFFD, and is then
looked at again as a first byte; so each maximal ill-formed stretch costs exactly one U+FFFD.
-/

set_option autoImplicit false

namespace RiscvTables
namespace Utf8

/-- The bytes of a text. -/
def encode (text : String) : Bytes :=
  text.toByteArray.data.toList

/-- The text that the bytes spell, if all of them are UTF-8. -/
def decode? (bytes : Bytes) : Option String :=
  String.fromUTF8? ⟨bytes.toArray⟩

theorem decode?_encode (text : String) : decode? (encode text) = some text := by
  have h : (⟨(encode text).toArray⟩ : ByteArray) = text.toByteArray := by simp [encode]
  rw [decode?, h, String.fromUTF8?, dif_pos text.isValidUTF8]
  rfl

theorem encode_of_decode? {bytes : Bytes} {text : String} (h : decode? bytes = some text) :
    encode text = bytes := by
  rw [decode?, String.fromUTF8?] at h
  split at h
  · obtain rfl := Option.some.inj h
    rfl
  · cases h

theorem decode?_eq_some_iff {bytes : Bytes} {text : String} :
    decode? bytes = some text ↔ bytes = encode text :=
  ⟨fun h => (encode_of_decode? h).symm, fun h => h ▸ decode?_encode text⟩

theorem encode_injective {a b : String} (h : encode a = encode b) : a = b := by
  have := decode?_encode a
  rw [h, decode?_encode] at this
  exact (Option.some.inj this).symm

/-! ## Reading with replacement -/

/-- Where the lossy reader stands: between characters, or inside one that owes `owed` more bytes,
the next of them from `low` to `high`, and whose bits so far are `bits`. -/
inductive Pending where
  | between
  | inside (owed : Nat) (low high : UInt8) (bits : Nat)

/-- What is put in place of bytes that spell no character. -/
def replacement : Char := '\uFFFD'

/-- A first byte of a character: what it writes, and where it leaves the reader. -/
def lead (b : UInt8) : List Char × Pending :=
  if b < 0x80 then ([Char.ofNat b.toNat], .between)
  else if 0xC2 ≤ b ∧ b ≤ 0xDF then ([], .inside 1 0x80 0xBF (b.toNat - 0xC0))
  else if b = 0xE0 then ([], .inside 2 0xA0 0xBF 0)
  else if b = 0xED then ([], .inside 2 0x80 0x9F 0xD)
  else if 0xE1 ≤ b ∧ b ≤ 0xEF then ([], .inside 2 0x80 0xBF (b.toNat - 0xE0))
  else if b = 0xF0 then ([], .inside 3 0x90 0xBF 0)
  else if b = 0xF4 then ([], .inside 3 0x80 0x8F 4)
  else if 0xF1 ≤ b ∧ b ≤ 0xF3 then ([], .inside 3 0x80 0xBF (b.toNat - 0xF0))
  else ([replacement], .between)

/-- One byte: what it writes, and where it leaves the reader. -/
def feed : Pending → UInt8 → List Char × Pending
  | .between, b => lead b
  | .inside owed low high bits, b =>
    if low ≤ b ∧ b ≤ high then
      let bits := bits * 64 + (b.toNat - 0x80)
      if owed ≤ 1 then ([Char.ofNat bits], .between)
      else ([], .inside (owed - 1) 0x80 0xBF bits)
    else
      let (written, pending) := lead b
      (replacement :: written, pending)

/-- What is written for the bytes that remain. -/
def feedAll : Pending → Bytes → List Char
  | .between, [] => []
  | .inside .., [] => [replacement]
  | pending, b :: rest => (feed pending b).1 ++ feedAll (feed pending b).2 rest

/-- The text that the bytes spell, each maximal ill-formed stretch read as one U+FFFD. -/
def decodeLossy (bytes : Bytes) : String :=
  String.ofList (feedAll .between bytes)

end Utf8
end RiscvTables
