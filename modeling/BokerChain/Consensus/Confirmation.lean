import BokerChain.Consensus.ProducerAgreement
import BokerChain.Library.FixedWidth

/-!
# The confirmed block

`Dpos.updateConfirmedBlockHeader` walks from the current header down towards the confirmed one.
Along the way it collects the validators of the blocks of the current epoch (epochs counted from
block 1's time), and it confirms the first block at which it has met `ConsensusSize` distinct
validators.  Before each block it gives up when fewer blocks remain above the confirmed one than
validators are missing.

`highestConfirmable` states what the walk is for: the highest block above the confirmed one
whose epoch, from it up to the head, carries `ConsensusSize` distinct validators.  Along a chain
of the importer's shape (consecutive numbers, increasing times, down to the genesis block, each
header verified against its parent), the walk returns that block, or the confirmed header when
there is none (`confirmed_block_rule`): the early exit never skips a block that would qualify
(`highestConfirmable_eq_none_of_few`).  The epoch is taken in Go's `int64` arithmetic of
`Header.Time.Int64()`, which is exact because `verifyHeader` keeps every time below the clock, an
`int64` (`Ancestry.time_lt`).
-/

namespace BokerChain.Dpos

open Library GoInt64 WrappingCounter

/-! ## The walk -/

/-- The epoch of a header as the walk counts it: from block 1's time, in Go's `int64`
arithmetic. -/
def confirmEpoch (firstTime : Int64) (h : Header) : Int64 :=
  (h.time64 - firstTime) / Protocol.epochInterval

section Walk

variable (c : Crypto) (consensusSize : Nat) (confirmed : Header)

/-- The loop of `updateConfirmedBlockHeader` at `cur`: `parents` are the ancestors that
`GetHeaderByHash` returns below it, `epoch` is the epoch of the block before and `validators`
the validators met in that epoch. -/
def confirmLoop (firstTime : Int64) :
    Int64 → Finset Address → Header → List Header → Except Error Header
  | epoch, validators, cur, parents =>
    if confirmed.hash c ≠ cur.hash c ∧
        UInt64.ofNat confirmed.number < UInt64.ofNat cur.number then
      let curEpoch := confirmEpoch firstTime cur
      let validators := if curEpoch ≠ epoch then ∅ else validators
      if Int64.ofNat cur.number - Int64.ofNat confirmed.number <
          Int64.ofNat consensusSize - Int64.ofNat validators.card then .ok confirmed
      else
        let validators := insert cur.validator validators
        if consensusSize ≤ validators.card then .ok cur
        else
          match parents with
          | [] => .error .errNilBlockHeader
          | parent :: parents => confirmLoop firstTime curEpoch validators parent parents
    else .ok confirmed

/-- `updateConfirmedBlockHeader` from the confirmed header `confirmed`, with `first` the block
that `GetHeaderByNumber(1)` returns, `head` the current header and `parents` its ancestors.  It
returns the new confirmed header; storing it in the database is left out. -/
def updateConfirmedBlockHeader (first : Option Header) (head : Header) (parents : List Header) :
    Except Error Header :=
  match first with
  | none => .ok confirmed
  | some first => confirmLoop c consensusSize confirmed first.time64 (-1) ∅ head parents

end Walk

/-! ## The block the walk should confirm -/

/-- The epoch of a time, counted from block 1's time `firstTime`. -/
def timeEpoch (firstTime time : Nat) : Int :=
  ((time : Int) - firstTime) / Protocol.epochInterval.toInt

/-- The distinct validators of the blocks of `blocks` in the epoch of `b`. -/
def seenIn (firstTime : Nat) (blocks : List Header) (b : Header) : Finset Address :=
  ((blocks.filter fun h ↦ timeEpoch firstTime h.time = timeEpoch firstTime b.time).map
    Header.validator).toFinset

section Spec

variable (consensusSize : Nat) (confirmed : Header) (firstTime : Nat)

/-- The highest block of `rest` above `confirmed` whose epoch, from it up to the head, carries
`consensusSize` distinct validators; `above` are the blocks from the head down to `rest`. -/
def highestConfirmable (above : List Header) : List Header → Option Header
  | [] => none
  | b :: rest =>
    if confirmed.number < b.number ∧
        consensusSize ≤ (seenIn firstTime (above ++ [b]) b).card then some b
    else highestConfirmable (above ++ [b]) rest

theorem highestConfirmable_eq_none_iff :
    ∀ {above rest : List Header},
      highestConfirmable consensusSize confirmed firstTime above rest = none ↔
        ∀ mid b tail, rest = mid ++ b :: tail →
          ¬(confirmed.number < b.number ∧
            consensusSize ≤ (seenIn firstTime (above ++ mid ++ [b]) b).card)
  | above, [] => by simp [highestConfirmable]
  | above, x :: rest => by
    rw [highestConfirmable]
    split
    · next hx =>
      simp only [reduceCtorEq, false_iff, not_forall]
      exact ⟨[], x, rest, rfl, by simpa using hx⟩
    · next hx =>
      rw [highestConfirmable_eq_none_iff]
      constructor
      · intro hrest mid b tail hsplit
        cases mid with
        | nil =>
          cases hsplit
          simpa using hx
        | cons y mid =>
          cases hsplit
          simpa using hrest mid b tail rfl
      · intro hall mid b tail hsplit
        simpa using hall (x :: mid) b tail (by rw [hsplit, List.cons_append])

theorem highestConfirmable_eq_none_of_le {above rest : List Header}
    (hle : ∀ b ∈ rest, b.number ≤ confirmed.number) :
    highestConfirmable consensusSize confirmed firstTime above rest = none := by
  rw [highestConfirmable_eq_none_iff]
  rintro mid b tail rfl ⟨hlt, -⟩
  have hb := hle b (by simp)
  omega

theorem number_lt_of_highestConfirmable :
    ∀ {above rest : List Header} {b : Header},
      highestConfirmable consensusSize confirmed firstTime above rest = some b →
        confirmed.number < b.number
  | _, [], _, h => by cases h
  | above, x :: rest, b, h => by
    rw [highestConfirmable] at h
    split at h
    · next hx =>
      cases h
      exact hx.1
    · exact number_lt_of_highestConfirmable h

end Spec

/-! ## Epochs -/

section Epochs

variable {firstTime : Nat}

theorem timeEpoch_le_timeEpoch {t t' : Nat} (h : t ≤ t') :
    timeEpoch firstTime t ≤ timeEpoch firstTime t' := by
  apply Int.ediv_le_ediv (by rw [epochInterval_toInt]; omega)
  omega

theorem toInt_confirmEpoch {h : Header} (hfirst : firstTime ≤ h.time) (ht : h.time < 2 ^ 63) :
    (confirmEpoch (Int64.ofNat firstTime) h).toInt = timeEpoch firstTime h.time := by
  have hdiff := toInt_ofNat_sub_ofNat hfirst ht
  rw [confirmEpoch, Header.time64, toInt_div_of_nonneg (by omega) (by rw [epochInterval_toInt]; omega),
    hdiff, timeEpoch]

theorem confirmEpoch_eq_iff {h h' : Header} (hfirst : firstTime ≤ h.time) (ht : h.time < 2 ^ 63)
    (hfirst' : firstTime ≤ h'.time) (ht' : h'.time < 2 ^ 63) :
    confirmEpoch (Int64.ofNat firstTime) h = confirmEpoch (Int64.ofNat firstTime) h' ↔
      timeEpoch firstTime h.time = timeEpoch firstTime h'.time := by
  rw [← Int64.toInt_inj, toInt_confirmEpoch hfirst ht, toInt_confirmEpoch hfirst' ht']

theorem seenIn_append_self (above : List Header) (b : Header) :
    seenIn firstTime (above ++ [b]) b = insert b.validator (seenIn firstTime above b) := by
  ext v
  simp only [seenIn, List.filter_append, List.filter_singleton, decide_true, cond_true,
    List.map_append, List.map_singleton, List.mem_toFinset, List.mem_append,
    List.mem_singleton, Finset.mem_insert]
  exact or_comm

theorem seenIn_parent {above : List Header} {cur p : Header} (hp : p.time ≤ cur.time)
    (habove : ∀ h ∈ above, cur.time ≤ h.time) :
    seenIn firstTime (above ++ [cur]) p =
      if timeEpoch firstTime p.time ≠ timeEpoch firstTime cur.time then ∅
      else insert cur.validator (seenIn firstTime above cur) := by
  split
  · next hne =>
    have hlt : timeEpoch firstTime p.time < timeEpoch firstTime cur.time :=
      lt_of_le_of_ne (timeEpoch_le_timeEpoch hp) hne
    rw [seenIn, List.toFinset_eq_empty_iff, List.map_eq_nil_iff, List.filter_eq_nil_iff]
    intro h hh
    have hle : cur.time ≤ h.time := by
      rw [List.mem_append, List.mem_singleton] at hh
      rcases hh with hh | rfl
      · exact habove h hh
      · exact le_refl _
    have : timeEpoch firstTime cur.time ≤ timeEpoch firstTime h.time := timeEpoch_le_timeEpoch hle
    simp only [decide_eq_true_eq]
    omega
  · next heq =>
    rw [not_not] at heq
    rw [← seenIn_append_self]
    simp only [seenIn, heq]

end Epochs

/-! ## The ancestry of the head -/

/-- `h` is the child of `p`: one number above it, and later. -/
def ParentOf (h p : Header) : Prop := h.number = p.number + 1 ∧ p.time < h.time

instance : DecidableRel ParentOf := fun _ _ ↦ inferInstanceAs (Decidable (_ ∧ _))

theorem IsChain.pairwise_lt {blocks : List Header} (h : blocks.IsChain ParentOf) :
    blocks.Pairwise fun h p ↦ p.number < h.number ∧ p.time < h.time := by
  have htrans : Trans (fun h p : Header ↦ p.number < h.number ∧ p.time < h.time)
      (fun h p : Header ↦ p.number < h.number ∧ p.time < h.time)
      (fun h p : Header ↦ p.number < h.number ∧ p.time < h.time) :=
    ⟨fun hab hbc ↦ ⟨hbc.1.trans hab.1, hbc.2.trans hab.2⟩⟩
  exact (h.imp fun a b hab ↦ ⟨by unfold ParentOf at hab; omega, hab.2⟩).pairwise

theorem number_add_length {b : Header} {tail : List Header} :
    ∀ {mid : List Header} {top : Header}, (top :: (mid ++ b :: tail)).IsChain ParentOf →
      b.number + mid.length + 1 = top.number ∧ b.time < top.time
  | [], top, h => by
    rw [List.nil_append, List.isChain_cons_cons] at h
    exact ⟨by simp [h.1.1], h.1.2⟩
  | y :: mid, top, h => by
    rw [List.cons_append, List.isChain_cons_cons] at h
    have hrest := number_add_length h.2
    constructor
    · rw [List.length_cons, h.1.1]
      omega
    · exact hrest.2.trans h.1.2

theorem number_le_time : ∀ {blocks : List Header}, blocks.IsChain ParentOf →
    blocks.getLast?.map Header.number = some 0 → ∀ b ∈ blocks, b.number ≤ b.time
  | [], _, _ => by simp
  | [x], _, hgen => by
    intro b hb
    rw [List.mem_singleton] at hb
    subst hb
    simp at hgen
    omega
  | x :: y :: rest, hchain, hgen => by
    rw [List.isChain_cons_cons] at hchain
    rw [List.getLast?_cons_cons] at hgen
    have hrest := number_le_time hchain.2 hgen
    intro b hb
    rcases List.mem_cons.1 hb with rfl | hb
    · have hy := hrest y List.mem_cons_self
      have hxy := hchain.1
      unfold ParentOf at hxy
      omega
    · exact hrest b hb

/-- The head's ancestors from a block down, as the walk meets them: linked down to the genesis
block, times below `2^63` and not before block 1's above the confirmed header, and no header
above the confirmed one with its hash. -/
structure Descent (c : Crypto) (firstTime : Nat) (confirmed : Header) (blocks : List Header) :
    Prop where
  linked : blocks.IsChain ParentOf
  genesis : blocks.getLast?.map Header.number = some 0
  first_le : ∀ b ∈ blocks, confirmed.number < b.number → firstTime ≤ b.time
  time_lt : ∀ b ∈ blocks, b.time < 2 ^ 63
  hash_ne : ∀ b ∈ blocks, confirmed.number < b.number → confirmed.hash c ≠ b.hash c

namespace Descent

variable {c : Crypto} {firstTime : Nat} {confirmed cur p : Header} {parents : List Header}

theorem tail (h : Descent c firstTime confirmed (cur :: p :: parents)) :
    Descent c firstTime confirmed (p :: parents) where
  linked := (List.isChain_cons_cons.1 h.linked).2
  genesis := by rw [← List.getLast?_cons_cons (a := cur)]; exact h.genesis
  first_le b hb := h.first_le b (List.mem_cons_of_mem _ hb)
  time_lt b hb := h.time_lt b (List.mem_cons_of_mem _ hb)
  hash_ne b hb := h.hash_ne b (List.mem_cons_of_mem _ hb)

theorem number_lt (h : Descent c firstTime confirmed (cur :: parents)) : cur.number < 2 ^ 63 :=
  lt_of_le_of_lt (number_le_time h.linked h.genesis cur List.mem_cons_self)
    (h.time_lt cur List.mem_cons_self)

end Descent

/-- The head and its ancestors as the chain returns them, with block 1 among them: linked down
to the genesis block, each header above it verified against its parent by the importer, and no
header above the confirmed one with its hash. -/
structure Ancestry (c : Crypto) (config : ChainConfig) (first confirmed : Header)
    (blocks : List Header) : Prop where
  linked : blocks.IsChain ParentOf
  genesis : blocks.getLast?.map Header.number = some 0
  first_mem : first ∈ blocks
  first_number : first.number = 1
  imported : blocks.IsChain (Verified c config)
  hash_ne : ∀ b ∈ blocks, confirmed.number < b.number → confirmed.hash c ≠ b.hash c

theorem time_lt_of_verified_linked {c : Crypto} {config : ChainConfig} :
    ∀ {blocks : List Header}, blocks.IsChain (Verified c config) → blocks.IsChain ParentOf →
      2 ≤ blocks.length → ∀ b ∈ blocks, b.time < 2 ^ 63
  | [], _, _, hlen | [_], _, _, hlen => absurd hlen (by simp)
  | x :: y :: rest, hverified, hlinked, _ => by
    rw [List.isChain_cons_cons] at hverified hlinked
    intro b hb
    rcases List.mem_cons.1 hb with rfl | hb
    · exact hverified.1.time_lt
    · cases rest with
      | nil =>
        rw [List.mem_singleton] at hb
        subst hb
        exact lt_trans hlinked.1.2 hverified.1.time_lt
      | cons z rest => exact time_lt_of_verified_linked hverified.2 hlinked.2 (by simp) b hb

/-- Block 1 above the genesis block makes the ancestry two blocks long at least, so every time on
it is below `2^63`. -/
theorem Ancestry.time_lt {c : Crypto} {config : ChainConfig} {first confirmed : Header}
    {blocks : List Header} (h : Ancestry c config first confirmed blocks) :
    ∀ b ∈ blocks, b.time < 2 ^ 63 := by
  refine time_lt_of_verified_linked h.imported h.linked ?_
  match blocks, h.first_mem, h.genesis, h.first_number with
  | [x], hfirst, hgenesis, hnumber =>
    rw [List.mem_singleton] at hfirst
    subst hfirst
    simp [hnumber] at hgenesis
  | _ :: _ :: _, _, _, _ => simp

theorem Ancestry.descent {c : Crypto} {config : ChainConfig} {first confirmed : Header}
    {blocks : List Header} (h : Ancestry c config first confirmed blocks) :
    Descent c first.time confirmed blocks where
  linked := h.linked
  genesis := h.genesis
  first_le b hb hnum := by
    obtain ⟨s, t, rfl⟩ := List.mem_iff_append.1 hb
    have hpair := IsChain.pairwise_lt h.linked
    rw [List.pairwise_append, List.pairwise_cons] at hpair
    rcases List.mem_append.1 h.first_mem with hs | ht
    · have := (hpair.2.2 first hs b List.mem_cons_self).1
      rw [h.first_number] at this
      omega
    · rcases List.mem_cons.1 ht with rfl | ht
      · exact le_refl _
      · exact (hpair.2.1.1 first ht).2.le
  time_lt := h.time_lt
  hash_ne := h.hash_ne

/-! ## The early exit -/

section Exit

variable {consensusSize : Nat} {confirmed : Header} {firstTime : Nat}

theorem seenIn_subset {above mid : List Header} {cur b : Header}
    (habove : ∀ h ∈ above, cur.time ≤ h.time) (hb : b.time ≤ cur.time) :
    seenIn firstTime (above ++ mid ++ [b]) b ⊆
      seenIn firstTime above cur ∪ ((mid ++ [b]).map Header.validator).toFinset := by
  intro v hv
  simp only [seenIn, List.mem_toFinset, List.mem_map, List.mem_filter, List.mem_append,
    List.mem_singleton, decide_eq_true_eq] at hv
  obtain ⟨h, ⟨hh, hepoch⟩, rfl⟩ := hv
  rw [Finset.mem_union]
  rcases hh with (hh | hh) | rfl
  · left
    have hcur := @timeEpoch_le_timeEpoch firstTime _ _ (habove h hh)
    have hbcur := @timeEpoch_le_timeEpoch firstTime _ _ hb
    simp only [seenIn, List.mem_toFinset, List.mem_map, List.mem_filter, decide_eq_true_eq]
    exact ⟨h, ⟨hh, by omega⟩, rfl⟩
  · right
    rw [List.mem_toFinset]
    exact List.mem_map_of_mem (List.mem_append_left _ hh)
  · right
    rw [List.mem_toFinset]
    exact List.mem_map_of_mem (List.mem_append_right _ (List.mem_singleton.2 rfl))

/-- The early exit is sound: when fewer blocks remain above the confirmed header than
validators are missing, no block from `cur` down qualifies. -/
theorem highestConfirmable_eq_none_of_few {above parents : List Header} {cur : Header}
    (hlinked : (cur :: parents).IsChain ParentOf) (habove : ∀ h ∈ above, cur.time ≤ h.time)
    (hfew : (seenIn firstTime above cur).card + (cur.number - confirmed.number) <
      consensusSize) :
    highestConfirmable consensusSize confirmed firstTime above (cur :: parents) = none := by
  rw [highestConfirmable_eq_none_iff]
  rintro mid b tail hsplit ⟨hnum, hsize⟩
  have hbelow : b.number + mid.length = cur.number ∧ b.time ≤ cur.time := by
    cases mid with
    | nil =>
      cases hsplit
      exact ⟨rfl, le_refl _⟩
    | cons y mid =>
      cases hsplit
      have h := number_add_length hlinked
      exact ⟨by rw [List.length_cons]; omega, h.2.le⟩
  have hcard : (seenIn firstTime (above ++ mid ++ [b]) b).card ≤
      (seenIn firstTime above cur).card + (mid.length + 1) :=
    calc (seenIn firstTime (above ++ mid ++ [b]) b).card
        ≤ (seenIn firstTime above cur ∪ ((mid ++ [b]).map Header.validator).toFinset).card :=
          Finset.card_le_card (seenIn_subset habove hbelow.2)
      _ ≤ (seenIn firstTime above cur).card + ((mid ++ [b]).map Header.validator).toFinset.card :=
          Finset.card_union_le _ _
      _ ≤ (seenIn firstTime above cur).card + (mid.length + 1) := by
          have := List.toFinset_card_le ((mid ++ [b]).map Header.validator)
          simp only [List.length_map, List.length_append, List.length_singleton] at this
          omega
  omega

end Exit

/-! ## The walk confirms the highest qualifying block -/

section Loop

variable {c : Crypto} {consensusSize : Nat} {confirmed : Header} {firstTime : Nat}

/-- The invariant of the walk at `cur`, once it is above the confirmed header: the set it will
carry into `cur`'s epoch is the validators of that epoch met above, fewer than the size. -/
def WalkInv (consensusSize firstTime : Nat) (confirmed : Header) (above : List Header)
    (epoch : Int64) (validators : Finset Address) (cur : Header) : Prop :=
  confirmed.number < cur.number →
    (if confirmEpoch (Int64.ofNat firstTime) cur ≠ epoch then ∅ else validators) =
        seenIn firstTime above cur ∧
      (seenIn firstTime above cur).card < consensusSize

theorem WalkInv.parent {above parents : List Header} {cur p : Header}
    (hd : Descent c firstTime confirmed (cur :: p :: parents))
    (habove : ∀ h ∈ above, cur.time < h.time) (hcur : confirmed.number < cur.number)
    (hshort : ¬consensusSize ≤ (insert cur.validator (seenIn firstTime above cur)).card) :
    WalkInv consensusSize firstTime confirmed (above ++ [cur]) (confirmEpoch (Int64.ofNat firstTime) cur)
      (insert cur.validator (seenIn firstTime above cur)) p := by
  intro hp
  have hparent := (List.isChain_cons_cons.1 hd.linked).1
  have hpmem : p ∈ cur :: p :: parents := List.mem_cons_of_mem _ List.mem_cons_self
  have hepoch := confirmEpoch_eq_iff (hd.first_le p hpmem hp) (hd.time_lt p hpmem)
    (hd.first_le cur List.mem_cons_self hcur) (hd.time_lt cur List.mem_cons_self)
  rw [seenIn_parent hparent.2.le fun h hh ↦ (habove h hh).le]
  constructor
  · by_cases hsame : timeEpoch firstTime p.time = timeEpoch firstTime cur.time
    · rw [if_neg (not_not.2 (hepoch.2 hsame)), if_neg (not_not.2 hsame)]
    · rw [if_pos (mt hepoch.1 hsame), if_pos hsame]
  · split
    · rw [Finset.card_empty]
      omega
    · omega

theorem confirmLoop_eq (hsize : 0 < consensusSize) (hsize' : consensusSize < 2 ^ 63)
    (hconfirmed : confirmed.number < 2 ^ 64) :
    ∀ (parents : List Header) {above : List Header} {cur : Header} {epoch : Int64}
      {validators : Finset Address}, Descent c firstTime confirmed (cur :: parents) →
      (∀ h ∈ above, cur.time < h.time) →
      WalkInv consensusSize firstTime confirmed above epoch validators cur →
      confirmLoop c consensusSize confirmed (Int64.ofNat firstTime) epoch validators cur parents =
        .ok ((highestConfirmable consensusSize confirmed firstTime above (cur :: parents)).getD
          confirmed)
  | parents, above, cur, epoch, validators, hd, habove, hinv => by
    have hcur63 := hd.number_lt
    rw [confirmLoop]
    by_cases hcur : confirmed.number < cur.number
    · obtain ⟨hseen, hcard⟩ := hinv hcur
      have hcond : confirmed.hash c ≠ cur.hash c ∧
          UInt64.ofNat confirmed.number < UInt64.ofNat cur.number :=
        ⟨hd.hash_ne cur List.mem_cons_self hcur, (ofNat_lt_ofNat_iff hconfirmed (by omega)).2 hcur⟩
      rw [if_pos hcond]
      simp only
      rw [hseen]
      by_cases hfew : Int64.ofNat cur.number - Int64.ofNat confirmed.number <
          Int64.ofNat consensusSize - Int64.ofNat (seenIn firstTime above cur).card
      · rw [if_pos hfew]
        rw [ofNat_sub_ofNat_lt_iff hcur.le hcur63 hcard.le hsize'] at hfew
        rw [highestConfirmable_eq_none_of_few hd.linked (fun h hh ↦ (habove h hh).le)
          (by omega)]
        rfl
      · rw [if_neg hfew]
        by_cases hdone : consensusSize ≤ (insert cur.validator (seenIn firstTime above cur)).card
        · rw [if_pos hdone, highestConfirmable, if_pos ⟨hcur, by rwa [seenIn_append_self]⟩]
          rfl
        · rw [if_neg hdone]
          have hskip : ¬(confirmed.number < cur.number ∧
              consensusSize ≤ (seenIn firstTime (above ++ [cur]) cur).card) := by
            rw [seenIn_append_self]
            exact fun h ↦ hdone h.2
          cases parents with
          | nil =>
            have hgen := hd.genesis
            simp only [List.getLast?_singleton, Option.map_some, Option.some.injEq] at hgen
            omega
          | cons p parents =>
            simp only
            rw [highestConfirmable, if_neg hskip]
            apply confirmLoop_eq hsize hsize' hconfirmed parents hd.tail
            · intro h hh
              rw [List.mem_append, List.mem_singleton] at hh
              have hp := (List.isChain_cons_cons.1 hd.linked).1.2
              rcases hh with hh | rfl
              · exact hp.trans (habove h hh)
              · exact hp
            · exact WalkInv.parent hd habove hcur hdone
    · have hstop : ¬(confirmed.hash c ≠ cur.hash c ∧
          UInt64.ofNat confirmed.number < UInt64.ofNat cur.number) := fun h ↦
        hcur ((ofNat_lt_ofNat_iff hconfirmed (by omega)).1 h.2)
      rw [if_neg hstop, highestConfirmable_eq_none_of_le]
      · rfl
      · intro b hb
        rcases List.mem_cons.1 hb with rfl | hb
        · omega
        · have := (List.rel_of_pairwise_cons (IsChain.pairwise_lt hd.linked) hb).1
          omega

end Loop

/-- **The confirmed-block rule.** On the head's ancestry as the importer verified it, the walk
terminates, never lowers the confirmed number, and confirms the highest block above the confirmed
one whose epoch carries `ConsensusSize` distinct validators, or keeps the confirmed header when
there is none. -/
theorem confirmed_block_rule {c : Crypto} {config : ChainConfig} {consensusSize : Nat}
    {first confirmed head : Header} {parents : List Header} (hsize : 1 ≤ consensusSize)
    (hsize' : consensusSize < 2 ^ 63) (hancestry : Ancestry c config first confirmed (head :: parents))
    (hconfirmed : confirmed.number < 2 ^ 64) :
    ∃ r, updateConfirmedBlockHeader c consensusSize confirmed (some first) head parents = .ok r ∧
      confirmed.number ≤ r.number ∧
      r = (highestConfirmable consensusSize confirmed first.time [] (head :: parents)).getD
        confirmed := by
  have hinit : WalkInv consensusSize first.time confirmed [] (-1) ∅ head := by
    intro _
    simp [seenIn]
    omega
  have hloop := confirmLoop_eq hsize hsize' hconfirmed parents hancestry.descent
    (fun h hh ↦ absurd hh List.not_mem_nil) hinit
  refine ⟨_, hloop, ?_, rfl⟩
  cases hfound : highestConfirmable consensusSize confirmed first.time [] (head :: parents) with
  | none => exact le_refl _
  | some b => exact (number_lt_of_highestConfirmable consensusSize confirmed first.time hfound).le

/-! ## A chain of three blocks -/

/-- Primitives whose Keccak-256 is the length of the input: the headers below have encodings of
different lengths. -/
def lengthCrypto : Crypto := ⟨lengthKeccak, fun _ _ ↦ .error .errRecoverFailed⟩

/-- A header at `number` and `time`, minted by `validator`. -/
def chainHeader (number time : Nat) (validator : Address) : Header :=
  ⟨0, 0, validator, 0, 0, 0, 0, ⟨0, 0, 0⟩, ⟨0, 0, 0⟩, 0, 1, number, 0, 0, time, [], 0, 0⟩

/-- The child of `parent` at `number` and `time`, minted by `validator`, as `verifyHeader`
accepts it under `lengthCrypto`: it names its parent's hash and the hash of no uncles, and its
extra field has room for the vanity and the seal. -/
def linkedHeader (parent : Header) (number time : Nat) (validator : Address) : Header :=
  ⟨parent.hash lengthCrypto, uncleHash lengthCrypto, validator, 0, 0, 0, 0, ⟨0, 0, 0⟩, ⟨0, 0, 0⟩, 0,
    1, number, 0, 0, time, List.replicate 97 0, 0, 0⟩

/-- Block 1 at time 200, minted by `1`, on the genesis block. -/
def block1 : Header := linkedHeader (chainHeader 0 0 0) 1 200 1

/-- Block 2 at time 400, minted by `2`, on block 1. -/
def block2 : Header := linkedHeader block1 2 400 2

theorem confirmed_block_rule_head :
    1 ≤ 1 ∧ 1 < 2 ^ 63 ∧
      Ancestry lengthCrypto openConfig block1 (chainHeader 0 0 0)
        [block2, block1, chainHeader 0 0 0] ∧
      (chainHeader 0 0 0).number < 2 ^ 64 ∧
      ∃ r, updateConfirmedBlockHeader lengthCrypto 1 (chainHeader 0 0 0) (some block1) block2
          [block1, chainHeader 0 0 0] = .ok r ∧
        (chainHeader 0 0 0).number ≤ r.number ∧
        r = (highestConfirmable 1 (chainHeader 0 0 0) block1.time []
          [block2, block1, chainHeader 0 0 0]).getD (chainHeader 0 0 0) := by
  have hverified : [block2, block1, chainHeader 0 0 0].IsChain (Verified lengthCrypto openConfig) := by
    simp only [List.isChain_cons_cons, List.isChain_singleton, and_true]
    exact ⟨⟨400, by norm_num, by set_option maxRecDepth 4096 in decide⟩,
      ⟨200, by norm_num, by set_option maxRecDepth 4096 in decide⟩⟩
  have hhash : ∀ b ∈ [block2, block1, chainHeader 0 0 0],
      (chainHeader 0 0 0).number < b.number →
        (chainHeader 0 0 0).hash lengthCrypto ≠ b.hash lengthCrypto := by
    set_option maxRecDepth 4096 in decide
  have hancestry : Ancestry lengthCrypto openConfig block1 (chainHeader 0 0 0)
      [block2, block1, chainHeader 0 0 0] :=
    ⟨by decide, by decide, List.mem_cons_of_mem _ List.mem_cons_self, rfl, hverified, hhash⟩
  exact ⟨le_refl 1, by decide, hancestry, by decide,
    confirmed_block_rule (le_refl 1) (by decide) hancestry (by decide)⟩

end BokerChain.Dpos
