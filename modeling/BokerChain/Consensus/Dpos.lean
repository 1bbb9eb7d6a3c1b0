import BokerChain.Types.Block
import BokerChain.Library.FixedWidth

/-!
# DPoS slots, the miner's gate and the seal check

A block may be produced every `ProducerInterval` seconds, and the producer of a slot is the
validator `GetProducer` computes from the time of the slot and a reference time.  Two paths
compute it.  The miner (`worker.mintBlock`) takes the genesis block's time as reference: it
passes `CheckDeadline` and then `CheckProducer`, which asks whether the producer of the slot is
the node's own signer.  The importer (`Dpos.verifySeal`) takes the time of the block's parent as
reference and requires the signer recovered from the seal to be the producer of the header's
time.

With one validator the two paths agree: every time on the slot grid belongs to it.  With two
the reference times shift the slot index, and the paths name different producers.
-/

namespace BokerChain.Dpos

open Library

/-- `PrevSlot`. -/
def prevSlot (now : Int64) : Int64 :=
  (now - 1) / Protocol.producerInterval * Protocol.producerInterval

/-- `NextSlot`. -/
def nextSlot (now : Int64) : Int64 :=
  (now + Protocol.producerInterval - 1) / Protocol.producerInterval * Protocol.producerInterval

/-- `CheckDeadline`: whether `now` is a slot at which to produce on top of a block of time
`lastBlockTime`. -/
def checkDeadline (lastBlockTime now firstTimer : Int64) : Except Error Unit := do
  let prev := prevSlot (now - firstTimer) + firstTimer
  let next := nextSlot (now - firstTimer) + firstTimer
  if next ≤ lastBlockTime then throw .errMintFutureBlock
  let offset := (now - firstTimer) % Protocol.epochInterval
  if offset % Protocol.producerInterval ≠ 0 then throw .errInvalidProducerTime
  if lastBlockTime = prev ∨ next - now ≤ 1 then return ()
  throw .errInvalidTimestamp

/-- `CheckProducer`: whether the node's signer is the producer of the slot. -/
def checkProducer (signer : Address) (dc : DposContext) (now firstTimer : Int64) :
    Except Error Unit := do
  let producer ← dc.getProducer now firstTimer
  if producer = 0 ∨ producer ≠ signer then throw .errInvalidProducer

/-- The decision of `worker.mintBlock` to produce a block at `now` on top of the current
block: the producer count comes from `GetProducerSize`; with no validator only the deadline is
checked (the validator test `IsValidator` accepts every account), otherwise also the producer.
The reference time is the genesis block's. -/
def mintBlock (signer : Address) (current : DposContext) (currentTime genesisTime now : Int64) :
    Except Error Unit := do
  let producers ← current.getEpochTrie
  checkDeadline currentTime now genesisTime
  if producers.length = 0 then return ()
  checkProducer signer current now genesisTime

/-- `uncleHash`: `CalcUncleHash` of no uncles, the hash of the empty RLP list. -/
def uncleHash (c : Crypto) : Hash := c.keccak256 (Rlp.encode (.list []))

/-- `misc.VerifyForkHashes` for a header that is not an uncle. -/
def verifyForkHashes (c : Crypto) (config : ChainConfig) (header : Header) : Except Error Unit :=
  if config.eip150Block = some header.number ∧ config.eip150Hash ≠ 0 ∧
      config.eip150Hash ≠ header.hash c then .error .errForkHashMismatch
  else .ok ()

/-- `verifyHeader`, for the clock's time `now` and the header the chain finds under the
header's parent hash, if any. -/
def verifyHeader (c : Crypto) (config : ChainConfig) (now : Nat) (parent : Option Header)
    (header : Header) : Except Error Unit := do
  if now < header.time then throw .errFutureBlock
  if header.extra.length < Protocol.extraVanity then throw .errMissingVanity
  if header.extra.length < Protocol.extraVanity + Protocol.extraSeal then
    throw .errMissingSignature
  if header.mixDigest ≠ 0 then throw .errInvalidMixDigest
  -- `Difficulty.Uint64()`: the low 64 bits
  if header.difficulty % 2 ^ 64 ≠ 1 then throw .errInvalidDifficulty
  if header.uncleHash ≠ uncleHash c then throw .errInvalidUncleHash
  verifyForkHashes c config header
  let some parent := parent | throw .errUnknownAncestor
  if parent.number ≠ header.number - 1 ∨ parent.hash c ≠ header.parentHash then
    throw .errUnknownAncestor
  -- `parent.Time.Uint64() + uint64(ProducerInterval)`, a `uint64` sum
  if header.time % 2 ^ 64 < (parent.time % 2 ^ 64 + 5) % 2 ^ 64 then throw .errInvalidTimestamp

/-- A chain configuration without the EIP-150 fork block. -/
def openConfig : ChainConfig := ⟨fun _ ↦ true, fun _ ↦ true, fun _ ↦ true, none, 0⟩

theorem verifyHeader_eq_ok {c : Crypto} {config : ChainConfig} {now : Nat} {parent header : Header} :
    verifyHeader c config now (some parent) header = .ok () ↔
      header.time ≤ now ∧ Protocol.extraVanity ≤ header.extra.length ∧
      Protocol.extraVanity + Protocol.extraSeal ≤ header.extra.length ∧
      header.mixDigest = 0 ∧ header.difficulty % 2 ^ 64 = 1 ∧ header.uncleHash = uncleHash c ∧
      verifyForkHashes c config header = .ok () ∧
      (parent.number = header.number - 1 ∧ parent.hash c = header.parentHash) ∧
      (parent.time % 2 ^ 64 + 5) % 2 ^ 64 ≤ header.time % 2 ^ 64 := by
  simp only [verifyHeader, Imperative.except_ite_throw_eq_ok, Imperative.except_guard_eq_ok,
    Imperative.except_bind_eq_ok, not_lt, ne_eq, not_not, not_or]
  constructor
  · rintro ⟨h1, h2, h3, h4, h5, h6, ⟨⟩, hfork, h7, h8⟩
    exact ⟨h1, h2, h3, h4, h5, h6, hfork, h7, h8⟩
  · rintro ⟨h1, h2, h3, h4, h5, h6, hfork, h7, h8⟩
    exact ⟨h1, h2, h3, h4, h5, h6, (), hfork, h7, h8⟩

/-- `header` passed `verifyHeader` against `parent` at a clock `time.Now().Unix()`, an
`int64`. -/
def Verified (c : Crypto) (config : ChainConfig) (header parent : Header) : Prop :=
  ∃ now < 2 ^ 63, verifyHeader c config now (some parent) header = .ok ()

namespace Verified

variable {c : Crypto} {config : ChainConfig} {header parent : Header}

theorem time_lt (h : Verified c config header parent) : header.time < 2 ^ 63 := by
  obtain ⟨now, hnow, hok⟩ := h
  exact lt_of_le_of_lt (verifyHeader_eq_ok.1 hok).1 hnow

end Verified

theorem time_lt_of_verified {c : Crypto} {config : ChainConfig} :
    ∀ {headers : List Header} {parent : Header},
      (parent :: headers).IsChain (fun parent header ↦ Verified c config header parent) →
        ∀ h ∈ headers, h.time < 2 ^ 63
  | [], _, _ => fun _ hh ↦ absurd hh List.not_mem_nil
  | header :: headers, _, hchain => by
    rw [List.isChain_cons_cons] at hchain
    intro h hh
    rcases List.mem_cons.1 hh with rfl | hh
    · exact hchain.1.time_lt
    · exact time_lt_of_verified hchain.2 h hh

/-- `verifyBlockSigner`: the recovered signer must be the producer and the header's
validator. -/
def verifyBlockSigner (producer : Address) (signer : Except Error Address)
    (validator : Address) : Except Error Unit := do
  let signer ← signer
  if signer ≠ producer then throw .errInvalidProducer
  if signer ≠ validator then throw .errMismatchSignerAndValidator

/-- `verifySeal`: block 1 sets the first validator and is not checked against a producer; every
later block must be sealed by the producer of its time measured from its parent's time.  The
confirmed-header update that ends the function is given as `updateConfirmed`. -/
def verifySeal (c : Crypto) (parentDpos : DposContext) (parent header : Header)
    (updateConfirmed : Except Error Unit) : Except Error Unit := do
  if header.number = 0 then return ()
  if header.number ≠ 1 then
    let producer ← parentDpos.getProducer header.time64 parent.time64
    verifyBlockSigner producer (header.ecrecover c) header.validator
  updateConfirmed

end BokerChain.Dpos
