import BokerChain.Protocol

/-!
# RLP encoding

The value model of `rlp`: a value is a byte string or a list of values, and `encode` is the
recursive encoding in which each header is written before its payload (`encbuf.encodeString`,
`puthead`, `listhead.encode`).  Go values are turned into items as the type writers of
`rlp/encode.go` do: unsigned integers and non-negative `big.Int`s as their minimal big-endian
bytes (`writeUint`, `writeBigInt`), byte arrays such as `common.Address` as strings of their
fixed width (`writeByteArray`), a nil pointer tagged `rlp:"nil"` as the empty string, and
structs as the list of their fields.
-/

namespace BokerChain.Rlp

/-- An RLP value. -/
inductive Item where
  | str (bytes : Bytes)
  | list (items : List Item)
  deriving Repr

/-- The minimal big-endian bytes of `n`, empty for zero; `fuel` bounds the number of bytes. -/
def beBytesFuel : Nat → Nat → Bytes
  | 0, _ => []
  | fuel + 1, n => if n = 0 then [] else beBytesFuel fuel (n / 256) ++ [UInt8.ofNat (n % 256)]

/-- The minimal big-endian bytes of `n`, empty for zero. -/
def beBytes (n : Nat) : Bytes := beBytesFuel n n

/-- The `width` low bytes of `n`, big-endian: a fixed-size byte array. -/
def fixedBytes : Nat → Nat → Bytes
  | 0, _ => []
  | width + 1, n => fixedBytes width (n / 256) ++ [UInt8.ofNat (n % 256)]

theorem fixedBytes_zero : ∀ width, fixedBytes width 0 = List.replicate width 0
  | 0 => rfl
  | width + 1 => by
    rw [fixedBytes, Nat.zero_div, fixedBytes_zero width, List.replicate_succ']
    rfl

/-- `putint`: the big-endian bytes of a size, at least one. -/
def putint (i : Nat) : Bytes := if i = 0 then [0] else beBytes i

/-- `puthead`: a string or list header for a payload of `size` bytes. -/
def puthead (smalltag largetag : Nat) (size : Nat) : Bytes :=
  if size < 56 then [UInt8.ofNat (smalltag + size)]
  else UInt8.ofNat (largetag + (putint size).length) :: putint size

/-- `encbuf.encodeString`: a single byte below `0x80` is its own encoding. -/
def encodeString (b : Bytes) : Bytes :=
  match b with
  | [x] => if x ≤ 0x7F then [x] else puthead 0x80 0xB7 1 ++ b
  | _ => puthead 0x80 0xB7 b.length ++ b

mutual

/-- The encoding of a value. -/
def encode : Item → Bytes
  | .str b => encodeString b
  | .list items => puthead 0xC0 0xF7 (encodeAll items).length ++ encodeAll items

/-- The concatenated encodings of a list's elements: the payload of its header. -/
def encodeAll : List Item → Bytes
  | [] => []
  | item :: items => encode item ++ encodeAll items

end

/-- `writeUint` and `writeBigInt` (for a non-negative value). -/
def ofUint (n : Nat) : Item := .str (beBytes n)

/-- `writeByteArray` for `common.Address`. -/
def ofAddress (a : Address) : Item := .str (fixedBytes 20 a.val)

/-- `writeByteArray` for `common.Hash`. -/
def ofHash (h : Hash) : Item := .str (fixedBytes 32 h.val)

/-- A `*common.Address` tagged `rlp:"nil"`: nil is the empty string. -/
def ofAddressPtr : Option Address → Item
  | none => .str []
  | some a => ofAddress a

/-- A `[]common.Address`. -/
def ofAddresses (l : List Address) : Item := .list (l.map ofAddress)

@[simp]
theorem encode_list (items : List Item) :
    encode (.list items) = puthead 0xC0 0xF7 (encodeAll items).length ++ encodeAll items := by
  rw [encode]

@[simp]
theorem encodeAll_nil : encodeAll [] = [] := by
  rw [encodeAll]

@[simp]
theorem encodeAll_cons (item : Item) (items : List Item) :
    encodeAll (item :: items) = encode item ++ encodeAll items := by
  rw [encodeAll]

theorem puthead_ne_nil (smalltag largetag size : Nat) : puthead smalltag largetag size ≠ [] := by
  unfold puthead
  split <;> simp

theorem encode_ne_nil : ∀ item : Item, encode item ≠ []
  | .str b => by
    rw [encode]
    unfold encodeString
    split
    · split <;> simp [puthead_ne_nil]
    · simp [puthead_ne_nil]
  | .list items => by simp [puthead_ne_nil]

end BokerChain.Rlp
