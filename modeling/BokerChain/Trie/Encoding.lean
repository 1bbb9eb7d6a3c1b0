import BokerChain.Protocol
import BokerChain.Library.Imperative

/-!
# Trie key encodings

`trie/encoding.go` keeps a key in three encodings.  KEYBYTES is the key itself.  HEX has one
byte per nibble of the key and an optional terminator `16`, which marks a key whose node holds
a value.  COMPACT, the hex-prefix encoding of the Yellow Paper, packs two nibbles a byte behind
a flag byte: the high nibble of the flag carries the terminator (bit 1) and the oddness of the
nibble count (bit 0), and its low nibble holds the first nibble of an odd key.

The functions are modelled over `[]byte`, a panic as an error with the panic's text.
`hexToCompact` never panics (`hexToCompact_ok`), `compactToHex` only on an empty input, and
`hexToKeybytes` exactly on a key of odd length (`hexToKeybytes_error_iff`).  The conversions
invert each other on the keys the trie builds (`key_encodings_inverse`): every key goes to HEX
and back, and every HEX key, nibbles below 16 with or without the terminator, goes to COMPACT
and back.  The proofs rest on one fact: the nibble strings of even length are exactly the
nibble expansions of byte strings (`exists_nibblesOf`).
-/

namespace BokerChain.Trie

open Library.Imperative

/-! ## The conversions -/

/-- `hasTerm`: whether a HEX key ends in the terminator. -/
def hasTerm (s : Bytes) : Bool := s.getLast? == some 16

/-- The nibbles of each byte, high nibble first. -/
def nibblesOf (str : Bytes) : Bytes := str.flatMap fun b ↦ [b / 16, b % 16]

/-- `keybytesToHex`: the loop writes the two nibbles of each byte, then the terminator. -/
def keybytesToHex (str : Bytes) : Bytes := nibblesOf str ++ [16]

/-- `decodeNibbles`: writes each pair of nibbles as one byte into the buffer `bytes` from its
start, and returns the buffer.  A lone last nibble or a buffer too short is an index panic. -/
def decodeNibbles : Bytes → Bytes → Except String Bytes
  | [], bytes => .ok bytes
  | hi :: lo :: nibbles, _ :: bytes => ((hi <<< 4 ||| lo) :: ·) <$> decodeNibbles nibbles bytes
  | _, _ => .error indexOutOfRange

/-- `hexToCompact`: the flag byte, then the nibbles after the first of an odd key, two a byte.
The buffer is `len(hex)/2+1` bytes of a key without its terminator. -/
def hexToCompact (hex : Bytes) : Except String Bytes :=
  let terminator : UInt8 := if hasTerm hex then 1 else 0
  let hex := if hasTerm hex then hex.dropLast else hex
  let buf := List.replicate (hex.length / 2 + 1) (0 : UInt8)
  -- an odd key puts its first nibble into the flag byte
  let odd := hex.length % 2 = 1
  let flag := if odd then terminator <<< 5 ||| (1 : UInt8) <<< 4 ||| hex.headD 0
    else terminator <<< 5
  let hex := if odd then hex.tail else hex
  (flag :: ·) <$> decodeNibbles hex buf.tail

/-- `compactToHex`: the nibbles of the compact key without the terminator that
`keybytesToHex` appends, the terminator put back when the flag says so, and the flag's nibble
(and the padding nibble of an even key) chopped off.  The first nibble `base[0]` is an index
panic on an empty key; the slice `base[chop:]` is in range, as `base` has at least two
nibbles. -/
def compactToHex (compact : Bytes) : Except String Bytes := do
  let base := (keybytesToHex compact).dropLast
  let some first := base.head? | throw indexOutOfRange
  -- apply terminator flag
  let base := if first ≥ 2 then base ++ [16] else base
  -- apply odd flag
  let chop := 2 - (first &&& 1)
  pure (base.drop chop.toNat)

/-- `hexToKeybytes`: a HEX key of even length, terminator dropped, packed two nibbles a byte. -/
def hexToKeybytes (hex : Bytes) : Except String Bytes := do
  let hex := if hasTerm hex then hex.dropLast else hex
  if hex.length % 2 ≠ 0 then throw "can't convert hex key of odd length"
  decodeNibbles hex (List.replicate ((hex.length + 1) / 2) 0)

/-- `prefixLen`: the length of the common prefix of two keys. -/
def prefixLen : Bytes → Bytes → Nat
  | x :: a, y :: b => if x = y then prefixLen a b + 1 else 0
  | _, _ => 0

/-- A key in HEX encoding: nibbles, each below 16, and the terminator or nothing after them. -/
structure HexKey where
  nibbles : Bytes
  nibbles_lt : ∀ n ∈ nibbles, n < 16
  terminated : Bool

/-- The bytes of a HEX key. -/
def HexKey.bytes (key : HexKey) : Bytes :=
  key.nibbles ++ if key.terminated then [16] else []

/-! ## Nibbles and bytes -/

theorem recombine_nibbles (b : UInt8) : (b / 16) <<< 4 ||| b % 16 = b := by
  revert b
  decide +kernel

theorem split_combine {hi lo : UInt8} (hhi : hi < 16) (hlo : lo < 16) :
    (hi <<< 4 ||| lo) / 16 = hi ∧ (hi <<< 4 ||| lo) % 16 = lo := by
  have hpairs : ∀ h l : Fin 16, (UInt8.ofNat h <<< 4 ||| UInt8.ofNat l) / 16 = UInt8.ofNat h ∧
      (UInt8.ofNat h <<< 4 ||| UInt8.ofNat l) % 16 = UInt8.ofNat l := by
    decide
  have hnat := hpairs ⟨hi.toNat, UInt8.lt_iff_toNat_lt.1 hhi⟩ ⟨lo.toNat, UInt8.lt_iff_toNat_lt.1 hlo⟩
  simpa only [UInt8.ofNat_toNat] using hnat

theorem evenFlag_nibbles (term : Bool) :
    ((if term then 1 else 0 : UInt8) <<< 5) / 16 = (if term then 2 else 0) ∧
      ((if term then 1 else 0 : UInt8) <<< 5) % 16 = 0 := by
  cases term <;> decide

theorem oddFlag_nibbles (term : Bool) {first : UInt8} (hfirst : first < 16) :
    ((if term then 1 else 0 : UInt8) <<< 5 ||| (1 : UInt8) <<< 4 ||| first) / 16 =
        (if term then 3 else 1) ∧
      ((if term then 1 else 0 : UInt8) <<< 5 ||| (1 : UInt8) <<< 4 ||| first) % 16 = first := by
  revert first
  cases term <;> decide +kernel

@[simp]
theorem nibblesOf_nil : nibblesOf [] = [] := rfl

@[simp]
theorem nibblesOf_cons (b : UInt8) (str : Bytes) :
    nibblesOf (b :: str) = b / 16 :: b % 16 :: nibblesOf str := rfl

@[simp]
theorem length_nibblesOf (str : Bytes) : (nibblesOf str).length = 2 * str.length := by
  induction str with
  | nil => rfl
  | cons b str ih =>
    rw [nibblesOf_cons, List.length_cons, List.length_cons, ih, List.length_cons]
    ring

/-- **Nibble strings of even length.** A string of nibbles of even length is the expansion of
the bytes its pairs make. -/
theorem exists_nibblesOf :
    ∀ nibbles : Bytes, (∀ n ∈ nibbles, n < 16) → nibbles.length % 2 = 0 →
      ∃ str, nibbles = nibblesOf str
  | [], _, _ => ⟨[], rfl⟩
  | [_], _, hlen => by simp at hlen
  | hi :: lo :: nibbles, hlt, hlen => by
    have hrest : nibbles.length % 2 = 0 := by
      simp only [List.length_cons] at hlen
      omega
    obtain ⟨str, rfl⟩ := exists_nibblesOf nibbles
      (fun n hn ↦ hlt n (List.mem_cons_of_mem _ (List.mem_cons_of_mem _ hn))) hrest
    have hsplit := split_combine (hlt hi List.mem_cons_self)
      (hlt lo (List.mem_cons_of_mem _ List.mem_cons_self))
    refine ⟨(hi <<< 4 ||| lo) :: str, ?_⟩
    rw [nibblesOf_cons, hsplit.1, hsplit.2]

/-! ## Packing -/

theorem decodeNibbles_nibblesOf :
    ∀ (str buf : Bytes), str.length ≤ buf.length →
      decodeNibbles (nibblesOf str) buf = .ok (str ++ buf.drop str.length)
  | [], buf, _ => rfl
  | _ :: _, [], hlen => by simp at hlen
  | b :: str, _ :: buf, hlen => by
    have hlen' : str.length ≤ buf.length := by simpa using hlen
    rw [nibblesOf_cons, decodeNibbles, decodeNibbles_nibblesOf str buf hlen', recombine_nibbles]
    rfl

theorem decodeNibbles_nibblesOf_replicate (str : Bytes) (fill : UInt8) :
    decodeNibbles (nibblesOf str) (List.replicate str.length fill) = .ok str := by
  rw [decodeNibbles_nibblesOf str _ (by simp), List.drop_replicate, Nat.sub_self,
    List.replicate_zero, List.append_nil]

theorem decodeNibbles_ok :
    ∀ (nibbles buf : Bytes), nibbles.length % 2 = 0 → nibbles.length / 2 ≤ buf.length →
      ∃ packed, decodeNibbles nibbles buf = .ok packed
  | [], buf, _, _ => ⟨buf, rfl⟩
  | [_], _, hlen, _ => by simp at hlen
  | _ :: _ :: _, [], _, hbuf => by simp at hbuf
  | hi :: lo :: nibbles, _ :: buf, hlen, hbuf => by
    simp only [List.length_cons] at hlen hbuf
    obtain ⟨packed, hpacked⟩ := decodeNibbles_ok nibbles buf (by omega) (by omega)
    refine ⟨(hi <<< 4 ||| lo) :: packed, ?_⟩
    rw [decodeNibbles, hpacked]
    rfl

/-! ## The terminator -/

@[simp]
theorem hasTerm_append_terminator (s : Bytes) : hasTerm (s ++ [16]) = true := by
  simp [hasTerm]

theorem hasTerm_of_lt {s : Bytes} (hs : ∀ n ∈ s, n < 16) : hasTerm s = false := by
  cases h : s.getLast? with
  | none => simp [hasTerm, h]
  | some b =>
    have hb : b < 16 := hs b (List.mem_of_getLast? h)
    have hne : b ≠ 16 := by
      intro heq
      rw [heq] at hb
      exact absurd hb (by decide)
    simp [hasTerm, h, hne]

theorem HexKey.hasTerm_bytes (key : HexKey) :
    hasTerm key.bytes = key.terminated ∧
      (if hasTerm key.bytes then key.bytes.dropLast else key.bytes) = key.nibbles := by
  cases h : key.terminated
  · simp [HexKey.bytes, h, hasTerm_of_lt key.nibbles_lt]
  · simp [HexKey.bytes, h]

/-! ## Round trips -/

/-- `hexToCompact` never panics: the buffer always has room for the pairs. -/
theorem hexToCompact_ok (hex : Bytes) : ∃ compact, hexToCompact hex = .ok compact := by
  simp only [hexToCompact]
  generalize (if hasTerm hex then hex.dropLast else hex) = key
  have hbuf : (List.replicate (key.length / 2 + 1) (0 : UInt8)).tail.length = key.length / 2 := by
    rw [List.length_tail, List.length_replicate, Nat.add_sub_cancel]
  by_cases hodd : key.length % 2 = 1
  · obtain ⟨packed, hpacked⟩ := decodeNibbles_ok key.tail _
      (by rw [List.length_tail]; omega) (by rw [hbuf, List.length_tail]; omega)
    simp only [hodd, if_true, hpacked]
    exact ⟨_, rfl⟩
  · obtain ⟨packed, hpacked⟩ := decodeNibbles_ok key _ (by omega) (by rw [hbuf])
    simp only [hodd, if_false, hpacked]
    exact ⟨_, rfl⟩

section HexKey

variable (key : HexKey)

/-- The terminator bit of the flag byte. -/
def HexKey.terminatorBit : UInt8 := if key.terminated then 1 else 0

theorem hexToCompact_even {str : Bytes} (hstr : key.nibbles = nibblesOf str) :
    hexToCompact key.bytes = .ok (key.terminatorBit <<< 5 :: str) := by
  obtain ⟨hterm, hstrip⟩ := key.hasTerm_bytes
  have heven : ¬key.nibbles.length % 2 = 1 := by
    rw [hstr, length_nibblesOf]
    omega
  have hlen : key.nibbles.length / 2 + 1 - 1 = str.length := by
    rw [hstr, length_nibblesOf]
    omega
  simp only [hexToCompact]
  rw [hstrip, hterm]
  simp only [heven, if_false, List.tail_replicate, hlen]
  rw [hstr, decodeNibbles_nibblesOf_replicate]
  rfl

theorem hexToCompact_odd {first : UInt8} {str : Bytes}
    (hstr : key.nibbles = first :: nibblesOf str) :
    hexToCompact key.bytes =
      .ok ((key.terminatorBit <<< 5 ||| (1 : UInt8) <<< 4 ||| first) :: str) := by
  obtain ⟨hterm, hstrip⟩ := key.hasTerm_bytes
  have hodd : key.nibbles.length % 2 = 1 := by
    rw [hstr, List.length_cons, length_nibblesOf]
    omega
  have hlen : key.nibbles.length / 2 + 1 - 1 = str.length := by
    rw [hstr, List.length_cons, length_nibblesOf]
    omega
  simp only [hexToCompact]
  rw [hstrip, hterm]
  simp only [hodd, if_true, List.tail_replicate, hlen]
  rw [hstr, List.headD_cons, List.tail_cons, decodeNibbles_nibblesOf_replicate]
  rfl

end HexKey

theorem compactToHex_cons (flag : UInt8) (str : Bytes) :
    compactToHex (flag :: str) =
      .ok (((flag / 16 :: flag % 16 :: nibblesOf str) ++
          if flag / 16 ≥ 2 then [16] else []).drop (2 - (flag / 16 &&& 1)).toNat) := by
  have hbase : (keybytesToHex (flag :: str)).dropLast =
      flag / 16 :: flag % 16 :: nibblesOf str := by
    rw [keybytesToHex, List.dropLast_concat, nibblesOf_cons]
  simp only [compactToHex, hbase, List.head?_cons]
  split
  · rfl
  · rw [List.append_nil]
    rfl

/-- **HEX to COMPACT and back.** -/
theorem compactToHex_hexToCompact (key : HexKey) :
    (hexToCompact key.bytes >>= compactToHex) = .ok key.bytes := by
  by_cases hodd : key.nibbles.length % 2 = 1
  · obtain ⟨first, rest, hsplit⟩ := List.exists_cons_of_ne_nil
      (List.ne_nil_of_length_pos (by omega : 0 < key.nibbles.length))
    have hfirst : first < 16 := key.nibbles_lt first (by rw [hsplit]; exact List.mem_cons_self)
    obtain ⟨str, rfl⟩ := exists_nibblesOf rest
      (fun n hn ↦ key.nibbles_lt n (by rw [hsplit]; exact List.mem_cons_of_mem _ hn))
      (by rw [hsplit, List.length_cons] at hodd; omega)
    have hflag := oddFlag_nibbles key.terminated hfirst
    rw [hexToCompact_odd key hsplit, except_ok_bind, compactToHex_cons, HexKey.terminatorBit, hflag.1, hflag.2, HexKey.bytes, hsplit]
    cases key.terminated <;> rfl
  · obtain ⟨str, hstr⟩ := exists_nibblesOf key.nibbles key.nibbles_lt (by omega)
    have hflag := evenFlag_nibbles key.terminated
    rw [hexToCompact_even key hstr, except_ok_bind, compactToHex_cons, HexKey.terminatorBit, hflag.1, hflag.2, HexKey.bytes, hstr]
    cases key.terminated <;> rfl

/-- **KEYBYTES to HEX and back.** -/
theorem hexToKeybytes_keybytesToHex (str : Bytes) :
    hexToKeybytes (keybytesToHex str) = .ok str := by
  have hlen : (nibblesOf str).length % 2 = 0 := by
    rw [length_nibblesOf]
    omega
  have hbuf : ((nibblesOf str).length + 1) / 2 = str.length := by
    rw [length_nibblesOf]
    omega
  simp only [hexToKeybytes, keybytesToHex, hasTerm_append_terminator, if_true,
    List.dropLast_concat, hlen, ne_eq, not_true_eq_false, if_false, hbuf]
  exact decodeNibbles_nibblesOf_replicate str 0

/-- `hexToKeybytes` panics exactly on a key whose nibbles without the terminator are odd in
number. -/
theorem hexToKeybytes_error_iff (hex : Bytes) :
    (∃ e, hexToKeybytes hex = .error e) ↔
      (if hasTerm hex then hex.dropLast else hex).length % 2 = 1 := by
  simp only [hexToKeybytes]
  generalize (if hasTerm hex then hex.dropLast else hex) = key
  by_cases hodd : key.length % 2 = 1
  · simp only [hodd, iff_true]
    exact ⟨_, rfl⟩
  · have heven : key.length % 2 = 0 := by omega
    obtain ⟨packed, hpacked⟩ := decodeNibbles_ok key
      (List.replicate ((key.length + 1) / 2) 0) heven (by rw [List.length_replicate]; omega)
    simp only [heven, ne_eq, not_true_eq_false, if_false]
    rw [hpacked]
    simp

theorem prefixLen_spec :
    ∀ a b : Bytes, a.take (prefixLen a b) = b.take (prefixLen a b) ∧
      ∀ x y, a[prefixLen a b]? = some x → b[prefixLen a b]? = some y → x ≠ y
  | [], b => by simp [prefixLen]
  | _ :: _, [] => by simp [prefixLen]
  | x :: a, y :: b => by
    by_cases hxy : x = y
    · obtain ⟨htake, hnext⟩ := prefixLen_spec a b
      simp only [prefixLen, hxy, if_true, List.take_succ_cons, htake,
        List.getElem?_cons_succ, true_and]
      exact hnext
    · simp [prefixLen, hxy]

/-! ## Round trips of the key encodings -/

/-- **Key encodings are mutually inverse.** Every key goes to HEX and back; every HEX key goes
to COMPACT and back; and every compact key made from a HEX key goes to HEX and back. -/
theorem key_encodings_inverse :
    (∀ str : Bytes, hexToKeybytes (keybytesToHex str) = .ok str) ∧
      (∀ key : HexKey, (hexToCompact key.bytes >>= compactToHex) = .ok key.bytes) ∧
      ∀ (key : HexKey) (compact : Bytes), hexToCompact key.bytes = .ok compact →
        (compactToHex compact >>= hexToCompact) = .ok compact := by
  refine ⟨hexToKeybytes_keybytesToHex, compactToHex_hexToCompact, ?_⟩
  intro key compact hcompact
  have hback := compactToHex_hexToCompact key
  rw [hcompact] at hback
  change compactToHex compact = .ok key.bytes at hback
  rw [hback]
  exact hcompact

/-- The odd terminated key `[1, 2, 3, 16]` has the compact form `[0x31, 0x23]`, which goes to
HEX and back. -/
theorem key_encodings_inverse_odd_key :
    hexToCompact [1, 2, 3, 16] = .ok [0x31, 0x23] ∧
      (compactToHex [0x31, 0x23] >>= hexToCompact) = .ok [0x31, 0x23] :=
  ⟨rfl, key_encodings_inverse.2.2 ⟨[1, 2, 3], by decide +kernel, true⟩ [0x31, 0x23] rfl⟩

end BokerChain.Trie
