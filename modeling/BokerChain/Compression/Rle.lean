import BokerChain.Protocol

/-!
# Run-length compression

`compression/rle/read_write.go`.  `Compress` cuts its input into chunks (`compressChunk`): the
token byte `0xfe` is escaped as `0xfe 0xff`, a run of two to 255 zero bytes becomes `0xfe`
followed by the length of the run plus two, a 32-byte window equal to the Keccak-256 hash of the
empty string or of the empty list becomes `0xfe 0xfd` or `0xfe 0xfe`, and any other byte stands
for itself.  `Decompress` reads the stream back, one token pair or one plain byte at a time.

The length byte of a zero run is computed modulo 256 on both sides, so runs of 254 and 255 zeros
(length bytes 0 and 1) come back whole; but runs of 251 to 253 zeros get the length bytes 0xfd,
0xfe and 0xff, which the decoder reads as the three reserved codes.  An input without 251 zeros in
a row round-trips (`decompress_compress`); a run of `n` zeros comes back whole exactly when
`n % 255` is not one of 251, 252 and 253 (`decompress_compress_zeros`).
-/

namespace BokerChain.Rle

/-- The escape byte. -/
def token : UInt8 := 0xfe

/-- The code after `token` for the hash of the empty string. -/
def emptyShaToken : UInt8 := 0xfd

/-- The code after `token` for the hash of the empty list. -/
def emptyListShaToken : UInt8 := 0xfe

/-- The code after `token` for the token byte itself. -/
def tokenToken : UInt8 := 0xff

/-- `crypto.Keccak256([]byte(""))`, the bytes the package's test expects for `0xfe 0xfd`. -/
def empty : Bytes :=
  [0xc5, 0xd2, 0x46, 0x01, 0x86, 0xf7, 0x23, 0x3c, 0x92, 0x7e, 0x7d, 0xb2, 0xdc, 0xc7, 0x03, 0xc0,
    0xe5, 0x00, 0xb6, 0x53, 0xca, 0x82, 0x27, 0x3b, 0x7b, 0xfa, 0xd8, 0x04, 0x5d, 0x85, 0xa4, 0x70]

/-- `crypto.Keccak256([]byte{0x80})`, the bytes the package's test expects for `0xfe 0xfe`. -/
def emptyList : Bytes :=
  [0x56, 0xe8, 0x1f, 0x17, 0x1b, 0xcc, 0x55, 0xa6, 0xff, 0x83, 0x45, 0xe6, 0x92, 0xc0, 0xf8, 0x6e,
    0x5b, 0x48, 0xe0, 0x1b, 0x99, 0x6c, 0xad, 0xc0, 0x01, 0x62, 0x2f, 0xb5, 0xe3, 0x63, 0xb4, 0x21]

/-! ## Decompression -/

/-- What `Decompress` writes for the byte `code` that follows a token: one of the reserved
values, or `code - 2` zero bytes with the subtraction on bytes. -/
def expandToken (code : UInt8) : Bytes :=
  if code = emptyShaToken then empty
  else if code = emptyListShaToken then emptyList
  else if code = tokenToken then [token]
  else List.replicate (code - 2).toNat 0

/-- The loop of `Decompress`, with the bytes written so far in `buf`. -/
def decompress.loop (buf : Bytes) : Bytes → Except String Bytes
  | [] => .ok buf
  | b :: dat =>
    if b = token then
      match dat with
      | code :: dat => decompress.loop (buf ++ expandToken code) dat
      | [] => .error "error reading bytes. token encountered without proceeding bytes"
    else decompress.loop (buf ++ [b]) dat

/-- `Decompress`. -/
def decompress (dat : Bytes) : Except String Bytes := decompress.loop [] dat

theorem decompress_loop_of_ne {b : UInt8} (hb : b ≠ token) (buf dat : Bytes) :
    decompress.loop buf (b :: dat) = decompress.loop (buf ++ [b]) dat := by
  conv_lhs => unfold decompress.loop
  rw [if_neg hb]

theorem decompress_loop_token (code : UInt8) (buf dat : Bytes) :
    decompress.loop buf (token :: code :: dat) = decompress.loop (buf ++ expandToken code) dat := by
  rw [decompress.loop.eq_2, if_pos rfl]

theorem toNat_ofNat_add_two_sub_two {j : ℕ} (hj : j < 256) :
    (UInt8.ofNat (j + 2) - 2).toNat = j := by
  rw [UInt8.toNat_sub, UInt8.toNat_ofNat']
  simp only [Nat.reducePow, UInt8.reduceToNat]
  omega

theorem expandToken_zeroRun {j : ℕ} (hj : j < 256)
    (hres : j ≠ 251 ∧ j ≠ 252 ∧ j ≠ 253) :
    expandToken (UInt8.ofNat (j + 2)) = List.replicate j 0 := by
  have hne : ∀ c : UInt8, 253 ≤ c.toNat → UInt8.ofNat (j + 2) ≠ c := by
    intro c hc heq
    have := congrArg UInt8.toNat heq
    rw [UInt8.toNat_ofNat'] at this
    have hc256 := c.toNat_lt
    omega
  rw [expandToken, if_neg (hne emptyShaToken (by decide)),
    if_neg (hne emptyListShaToken (by decide)), if_neg (hne tokenToken (by decide)),
    toNat_ofNat_add_two_sub_two hj]

/-! ## Compression -/

/-- The zero-run loop of `compressChunk`: from `j` zeros counted, count the leading zeros of the
rest `dat` of the chunk, up to 255 in all. -/
def zeroRun (j : ℕ) : Bytes → ℕ
  | [] => j
  | b :: dat => if j ≤ 254 then (if b ≠ 0 then j else zeroRun (j + 1) dat) else j

/-- `compressChunk` on the slice `b :: rest`; the Go function reads `dat[0]`, and `Compress`
calls it on non-empty slices only.  The comparison of first bytes before `bytes.Equal` is a
shortcut of the equality. -/
def compressChunk (b : UInt8) (rest : Bytes) : Bytes × ℕ :=
  if b = token then ([token, tokenToken], 1)
  else if b = 0 ∧ rest.head? = some 0 then
    let j := zeroRun 0 (b :: rest)
    ([token, UInt8.ofNat (j + 2)], j)
  else if 32 ≤ (b :: rest).length ∧ (b :: rest).take 32 = empty then
    ([token, emptyShaToken], 32)
  else if 32 ≤ (b :: rest).length ∧ (b :: rest).take 32 = emptyList then
    ([token, emptyListShaToken], 32)
  else ([b], 1)

/-- The loop of `Compress`: a chunk, then the rest of the input.  Every chunk takes at least one
byte (`compressChunk_consumed`), so the length of the input is fuel enough. -/
def compress.loop : ℕ → Bytes → Bytes
  | 0, _ => []
  | _, [] => []
  | fuel + 1, b :: rest =>
    let (out, n) := compressChunk b rest
    out ++ compress.loop fuel ((b :: rest).drop n)

/-- `Compress`. -/
def compress (dat : Bytes) : Bytes := compress.loop dat.length dat

/-! ## Zero runs -/

theorem zeroRun_spec : ∀ (dat : Bytes) (j : ℕ), j ≤ 255 →
    ∃ k, zeroRun j dat = j + k ∧ k ≤ dat.length ∧ j + k ≤ 255 ∧
      dat.take k = List.replicate k 0
  | [], j, _ => ⟨0, rfl, le_rfl, by omega, rfl⟩
  | b :: dat, j, hj => by
    rw [zeroRun]
    by_cases hjle : j ≤ 254
    · rw [if_pos hjle]
      by_cases hb : b ≠ 0
      · rw [if_pos hb]
        exact ⟨0, rfl, Nat.zero_le _, by omega, rfl⟩
      · rw [if_neg hb]
        have hb0 : b = 0 := not_not.1 hb
        obtain ⟨k, hk, hklen, hk255, htake⟩ := zeroRun_spec dat (j + 1) (by omega)
        refine ⟨k + 1, by omega, by simp only [List.length_cons]; omega, by omega, ?_⟩
        rw [List.take_succ_cons, htake, hb0, List.replicate_succ]
    · rw [if_neg hjle]
      exact ⟨0, rfl, Nat.zero_le _, by omega, rfl⟩

theorem zeroRun_replicate : ∀ (m j : ℕ), j ≤ 255 →
    zeroRun j (List.replicate m 0) = min (j + m) 255
  | 0, j, hj => by
    rw [List.replicate_zero, zeroRun]
    omega
  | m + 1, j, hj => by
    rw [List.replicate_succ, zeroRun]
    by_cases hjle : j ≤ 254
    · rw [if_pos hjle, if_neg (not_not.2 rfl), zeroRun_replicate m (j + 1) (by omega)]
      omega
    · rw [if_neg hjle]
      omega

/-! ## Chunks -/

theorem compressChunk_cases (b : UInt8) (rest : Bytes) :
    (b = token ∧ compressChunk b rest = ([token, tokenToken], 1)) ∨
    (∃ j, 2 ≤ j ∧ j ≤ 255 ∧ j ≤ (b :: rest).length ∧
      (b :: rest).take j = List.replicate j 0 ∧
      compressChunk b rest = ([token, UInt8.ofNat (j + 2)], j)) ∨
    ((b :: rest).take 32 = empty ∧ 32 ≤ (b :: rest).length ∧
      compressChunk b rest = ([token, emptyShaToken], 32)) ∨
    ((b :: rest).take 32 = emptyList ∧ 32 ≤ (b :: rest).length ∧
      compressChunk b rest = ([token, emptyListShaToken], 32)) ∨
    (b ≠ token ∧ compressChunk b rest = ([b], 1)) := by
  unfold compressChunk
  by_cases ht : b = token
  · exact Or.inl ⟨ht, if_pos ht⟩
  rw [if_neg ht]
  by_cases hz : b = 0 ∧ rest.head? = some 0
  · rw [if_pos hz]
    obtain ⟨hb, hhead⟩ := hz
    obtain ⟨c, rest', rfl⟩ : ∃ c rest', rest = c :: rest' := by
      cases rest with
      | nil => cases hhead
      | cons c rest' => exact ⟨c, rest', rfl⟩
    have hc : c = 0 := by simpa using hhead
    obtain ⟨k, hk, hklen, hk255, htake⟩ := zeroRun_spec rest' 2 (by omega)
    have hrun : zeroRun 0 (b :: c :: rest') = 2 + k := by
      rw [hb, hc, zeroRun, if_pos (by omega), if_neg (not_not.2 rfl), zeroRun,
        if_pos (by omega), if_neg (not_not.2 rfl), hk]
    refine Or.inr (Or.inl ⟨2 + k, by omega, by omega, ?_, ?_, ?_⟩)
    · simp only [List.length_cons]
      omega
    · rw [show 2 + k = k + 1 + 1 by omega, List.take_succ_cons, List.take_succ_cons, htake, hb,
        hc, List.replicate_succ, List.replicate_succ]
    · rw [hrun]
  rw [if_neg hz]
  by_cases he : 32 ≤ (b :: rest).length ∧ (b :: rest).take 32 = empty
  · rw [if_pos he]
    exact Or.inr (Or.inr (Or.inl ⟨he.2, he.1, rfl⟩))
  rw [if_neg he]
  by_cases hl : 32 ≤ (b :: rest).length ∧ (b :: rest).take 32 = emptyList
  · rw [if_pos hl]
    exact Or.inr (Or.inr (Or.inr (Or.inl ⟨hl.2, hl.1, rfl⟩)))
  rw [if_neg hl]
  exact Or.inr (Or.inr (Or.inr (Or.inr ⟨ht, rfl⟩)))

theorem compressChunk_consumed (b : UInt8) (rest : Bytes) :
    1 ≤ (compressChunk b rest).2 ∧ (compressChunk b rest).2 ≤ (b :: rest).length := by
  rcases compressChunk_cases b rest with ⟨-, h⟩ | ⟨j, hj2, -, hjlen, -, h⟩ | ⟨-, hlen, h⟩ |
      ⟨-, hlen, h⟩ | ⟨-, h⟩ <;> rw [h] <;> simp only [List.length_cons] at * <;> omega

theorem decompress_loop_compressChunk (b : UInt8) (rest : Bytes)
    (hrun : ¬ (List.replicate 251 0).IsPrefix (b :: rest)) (buf more : Bytes) :
    decompress.loop buf ((compressChunk b rest).1 ++ more) =
      decompress.loop (buf ++ (b :: rest).take (compressChunk b rest).2) more := by
  rcases compressChunk_cases b rest with ⟨hb, h⟩ | ⟨j, hj2, hj255, hjlen, htake, h⟩ |
      ⟨htake, -, h⟩ | ⟨htake, -, h⟩ | ⟨hb, h⟩ <;> rw [h]
  · rw [List.cons_append, List.cons_append, decompress_loop_token, List.take_succ_cons,
      List.take_zero, hb]
    rfl
  · have hj : j ≤ 250 := by
      by_contra hj
      apply hrun
      have h251 : (b :: rest).take 251 = List.replicate 251 0 :=
        calc (b :: rest).take 251 = ((b :: rest).take j).take 251 := by
              rw [List.take_take, Nat.min_eq_left (by omega)]
          _ = List.replicate 251 0 := by
              rw [htake, List.take_replicate, Nat.min_eq_left (by omega)]
      rw [← h251]
      exact List.take_prefix _ _
    rw [List.cons_append, List.cons_append, decompress_loop_token,
      expandToken_zeroRun (by omega) (by omega), htake, List.nil_append]
  · rw [List.cons_append, List.cons_append, decompress_loop_token, htake]
    rfl
  · rw [List.cons_append, List.cons_append, decompress_loop_token, htake]
    rfl
  · rw [List.cons_append, decompress_loop_of_ne hb]
    rfl

/-! ## Round trips -/

theorem compress_loop_nil (fuel : ℕ) : compress.loop fuel [] = [] := by
  cases fuel <;> rfl

theorem compress_loop_cons (fuel : ℕ) (b : UInt8) (rest : Bytes) :
    compress.loop (fuel + 1) (b :: rest) =
      (compressChunk b rest).1 ++ compress.loop fuel ((b :: rest).drop (compressChunk b rest).2) :=
  rfl

/-- Decompressing what the loop of `Compress` wrote gives back its input when no 251 zeros stand in
a row.  Induction on the fuel, one chunk a round: the chunk decodes to the bytes it consumed, and
the rest of the input keeps the hypothesis. -/
theorem decompress_loop_compress_loop (fuel : ℕ) : ∀ (dat buf : Bytes), dat.length ≤ fuel →
    ¬ (List.replicate 251 0).IsInfix dat →
    decompress.loop buf (compress.loop fuel dat) = .ok (buf ++ dat) := by
  induction fuel with
  | zero =>
    intro dat buf hlen _
    rw [List.length_eq_zero_iff.1 (Nat.le_zero.1 hlen), compress_loop_nil, List.append_nil]
    rfl
  | succ fuel ih =>
    intro dat buf hlen hrun
    cases dat with
    | nil =>
      rw [compress_loop_nil, List.append_nil]
      rfl
    | cons b rest =>
      have hconsumed := compressChunk_consumed b rest
      have hprefix : ¬ (List.replicate 251 0).IsPrefix (b :: rest) := fun h ↦ hrun h.isInfix
      have hdrop : ¬ (List.replicate 251 0).IsInfix ((b :: rest).drop (compressChunk b rest).2) :=
        fun h ↦ hrun (h.trans (List.drop_suffix _ _).isInfix)
      have hlen' : ((b :: rest).drop (compressChunk b rest).2).length ≤ fuel := by
        rw [List.length_drop]
        simp only [List.length_cons] at hlen hconsumed ⊢
        omega
      rw [compress_loop_cons, decompress_loop_compressChunk b rest hprefix, ih _ _ hlen' hdrop,
        List.append_assoc, List.take_append_drop]

/-- `Decompress` inverts `Compress` on every input without 251 zero bytes in a row; in particular
on hashes of the empty string and list and on data with the token byte. -/
theorem decompress_compress (dat : Bytes) (h : ¬ (List.replicate 251 0).IsInfix dat) :
    decompress (compress dat) = .ok dat :=
  decompress_loop_compress_loop dat.length dat [] le_rfl h

example : compress [0xfe, 0, 0, 0, 7] = [0xfe, 0xff, 0xfe, 5, 7] ∧
    decompress [0xfe, 0xff, 0xfe, 5, 7] = .ok [0xfe, 0, 0, 0, 7] := by decide

/-- A token byte followed by a run of three zeros is far from 251 zeros, and goes through. -/
theorem decompress_compress_token_run :
    ¬ (List.replicate 251 0).IsInfix ([0xfe, 0, 0, 0, 7] : Bytes) ∧
      decompress (compress [0xfe, 0, 0, 0, 7]) = .ok [0xfe, 0, 0, 0, 7] := by
  have hshort : ¬ (List.replicate 251 0).IsInfix ([0xfe, 0, 0, 0, 7] : Bytes) := fun h ↦ by
    have hlen := h.length_le
    simp only [List.length_replicate, List.length_cons, List.length_nil] at hlen
    omega
  exact ⟨hshort, decompress_compress _ hshort⟩

/-! ## Runs of zeros -/

theorem compressChunk_zeros {n : ℕ} (hn : 2 ≤ n) :
    compressChunk 0 (List.replicate (n - 1) 0) =
      ([token, UInt8.ofNat (min n 255 + 2)], min n 255) := by
  obtain ⟨m, rfl⟩ : ∃ m, n = m + 2 := ⟨n - 2, by omega⟩
  have hrun : zeroRun 0 (0 :: List.replicate (m + 1) 0) = min (m + 2) 255 := by
    rw [← List.replicate_succ, zeroRun_replicate (m + 2) 0 (by omega), Nat.zero_add]
  rw [show m + 2 - 1 = m + 1 by omega, compressChunk, if_neg (by decide), if_pos ⟨rfl, rfl⟩]
  dsimp only
  rw [hrun]

theorem decompress_loop_compress_loop_zeros (fuel : ℕ) :
    ∀ (n : ℕ) (buf : Bytes), n ≤ fuel →
    decompress.loop buf (compress.loop fuel (List.replicate n 0)) =
      .ok (buf ++ List.replicate (n / 255 * 255) 0 ++ expandToken (UInt8.ofNat (n % 255 + 2))) := by
  induction fuel with
  | zero =>
    intro n buf hn
    rw [Nat.le_zero.1 hn, List.replicate_zero, compress_loop_nil,
      show expandToken (UInt8.ofNat (0 % 255 + 2)) = [] by decide, List.append_nil, List.append_nil]
    rfl
  | succ fuel ih =>
    intro n buf hn
    match n, hn with
    | 0, _ =>
      rw [List.replicate_zero, compress_loop_nil,
        show expandToken (UInt8.ofNat (0 % 255 + 2)) = [] by decide, List.append_nil,
        List.append_nil]
      rfl
    | 1, _ =>
      rw [List.replicate_one, compress_loop_cons, show compressChunk 0 [] = ([0], 1) by decide,
        List.drop_one, List.tail_cons, compress_loop_nil, List.singleton_append,
        decompress_loop_of_ne (by decide),
        show expandToken (UInt8.ofNat (1 % 255 + 2)) = [0] by decide,
        show 1 / 255 * 255 = 0 from rfl,
        List.replicate_zero, List.append_nil]
      rfl
    | n + 2, hn =>
      rw [List.replicate_succ, compress_loop_cons, ← List.replicate_succ,
        show n + 1 = n + 2 - 1 by omega, compressChunk_zeros (by omega)]
      dsimp only
      rw [List.cons_append, List.cons_append, List.nil_append, decompress_loop_token,
        show n + 2 - 1 + 1 = n + 2 by omega, List.drop_replicate]
      by_cases hsmall : n + 2 < 255
      · rw [Nat.min_eq_left hsmall.le, Nat.sub_self, List.replicate_zero, compress_loop_nil,
          Nat.div_eq_of_lt hsmall, Nat.mod_eq_of_lt hsmall, Nat.zero_mul, List.replicate_zero,
          List.append_nil]
        rfl
      · have hexp : expandToken (UInt8.ofNat (255 + 2)) = List.replicate 255 0 :=
          expandToken_zeroRun (by omega) (by omega)
        rw [Nat.min_eq_right (by omega), hexp, ih (n + 2 - 255) _ (by omega), List.append_assoc buf,
          List.replicate_append_replicate,
          show 255 + (n + 2 - 255) / 255 * 255 = (n + 2) / 255 * 255 by omega,
          show (n + 2 - 255) % 255 = (n + 2) % 255 by omega]

/-- A run of `n` zero bytes comes back whole exactly when `n % 255` is not 251, 252 or 253: the
last chunk of such a run has a length byte equal to one of the reserved codes. -/
theorem decompress_compress_zeros (n : ℕ) :
    decompress (compress (List.replicate n 0)) = .ok (List.replicate n 0) ↔
      n % 255 ≠ 251 ∧ n % 255 ≠ 252 ∧ n % 255 ≠ 253 := by
  have hsplit : List.replicate n (0 : UInt8) =
      List.replicate (n / 255 * 255) 0 ++ List.replicate (n % 255) 0 := by
    rw [List.replicate_append_replicate, Nat.div_add_mod']
  rw [decompress, compress, List.length_replicate,
    decompress_loop_compress_loop_zeros n n [] le_rfl, List.nil_append]
  rw [hsplit]
  rw [Except.ok.injEq, List.append_cancel_left_eq]
  constructor
  · intro h
    refine ⟨fun hr ↦ ?_, fun hr ↦ ?_, fun hr ↦ ?_⟩ <;> rw [hr] at h <;> revert h <;> decide
  · intro hr
    exact expandToken_zeroRun (by omega) hr

end BokerChain.Rle
