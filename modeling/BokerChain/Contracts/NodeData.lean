import BokerChain.Protocol
import BokerChain.Library.Solidity

/-!
# The vote ledger of the Boker nodes

The storage of `contracts/src/BokerNodeData.sol` and the functions that write it.  Candidates
register once and carry a ticket count; a voter carries a deposit, an unlock time, a `Vote`
for each candidate, and the array of the candidates voted for, behind a placeholder at
position 0.  Both registries are arrays behind a placeholder too, and an address is registered
when its `index` is non-zero.

`_findAddVote` does not look the candidate up: every vote resets the voter's `Vote` for the
candidate to zero and appends the candidate to the voter's array once more
(`increaseVoterVote_ok`).

The description, team and name strings of a candidate are left out: nothing modelled reads them.
The global configuration values that the contracts read through `globalConfigInt` are the fields
of `Config`, with the values the manager's constructor sets as `Config.initial`.
-/

namespace BokerChain.Node

open Library.Imperative Library.Solidity

/-! ## Configuration -/

/-- The values of `globalConfigInt` that the vote and assignment paths read. -/
structure Config where
  /-- `CfgVoteLockup`. -/
  voteLockup : Uint256
  /-- `CfgVoteUnlockPrecision`. -/
  voteUnlockPrecision : Uint256
  /-- `CfgVoteCyclePeriod`. -/
  voteCyclePeriod : Uint256
  /-- `CfgAssignPeriod`. -/
  assignPeriod : Uint256
  /-- `CfgAssignTokenPerCycle`. -/
  assignTokenPerCycle : Uint256
  /-- `CfgAssignTokenLongtermRatio`, in percent. -/
  assignTokenLongtermRatio : Uint256

/-- The configuration as `BokerManager`'s constructor sets it. -/
def Config.initial : Config where
  voteLockup := 3 * 86400
  voteUnlockPrecision := 5 * 60
  voteCyclePeriod := 86400
  assignPeriod := 5 * 60
  -- `990 * bobby`, with `bobby = 1 ether`
  assignTokenPerCycle := 990 * 10 ^ 18
  assignTokenLongtermRatio := 20

/-! ## Storage -/

/-- `Candidate`. -/
structure Candidate where
  addr : Address
  index : Nat
  tickets : Uint256

def Candidate.zero : Candidate := ⟨0, 0, 0⟩

/-- `Vote`: what a voter gave one candidate. -/
structure Vote where
  index : Nat
  tickets : Uint256

def Vote.zero : Vote := ⟨0, 0⟩

/-- `Voter`. -/
structure Voter where
  addr : Address
  index : Nat
  deposit : Uint256
  unlockTime : Uint256
  votes : Address → Vote
  /-- The candidates voted for, behind the placeholder `address(0)`. -/
  candidateArray : List Address

def Voter.zero : Voter := ⟨0, 0, 0, 0, fun _ ↦ Vote.zero, []⟩

/-- `voter.votes[addrCandidate]` updated by `f`. -/
def Voter.updateVote (voter : Voter) (addrCandidate : Address) (f : Vote → Vote) : Voter :=
  { voter with votes := Function.update voter.votes addrCandidate (f (voter.votes addrCandidate)) }

/-- `voter.candidateArray.push(a)`. -/
def Voter.pushCandidate (voter : Voter) (a : Address) : Voter :=
  { voter with candidateArray := voter.candidateArray ++ [a] }

/-- The storage of `BokerNodeData`. -/
structure NodeData where
  voteCycleBegin : Uint256
  voteCycleRound : Uint256
  candidates : Address → Candidate
  /-- `candidateArray`, with the placeholder at position 0. -/
  candidateArray : List Address
  voters : Address → Voter
  /-- `voterArray`, with the placeholder at position 0. -/
  voterArray : List Address

/-- `candidates[a]` updated by `f`. -/
def NodeData.updateCandidate (d : NodeData) (a : Address) (f : Candidate → Candidate) :
    NodeData :=
  { d with candidates := Function.update d.candidates a (f (d.candidates a)) }

/-- `voters[a]` updated by `f`. -/
def NodeData.updateVoter (d : NodeData) (a : Address) (f : Voter → Voter) : NodeData :=
  { d with voters := Function.update d.voters a (f (d.voters a)) }

/-- `candidateArray.push(a)`. -/
def NodeData.pushCandidate (d : NodeData) (a : Address) : NodeData :=
  { d with candidateArray := d.candidateArray ++ [a] }

/-- `voterArray.push(a)`. -/
def NodeData.pushVoter (d : NodeData) (a : Address) : NodeData :=
  { d with voterArray := d.voterArray ++ [a] }

/-- The storage after the constructor, run at block time `now`. -/
def NodeData.deployed (now : Uint256) : NodeData where
  voteCycleBegin := now
  voteCycleRound := 0
  candidates := fun _ ↦ Candidate.zero
  candidateArray := [0]
  voters := fun _ ↦ Voter.zero
  voterArray := [0]

/-! ## Candidates -/

/-- `addCandidate`: registers a candidate once, with no tickets. -/
def addCandidate (addrCandidate : Address) : EStateM Revert NodeData PUnit := do
  if ((← get).candidates addrCandidate).index > 0 then return
  modify fun d ↦
    (d.updateCandidate addrCandidate fun c ↦
      { c with addr := addrCandidate, index := d.candidateArray.length, tickets := 0 }).pushCandidate
      addrCandidate

/-- `existCandidate`. -/
def existCandidate (d : NodeData) (addrCandidate : Address) : Bool :=
  0 ≠ (d.candidates addrCandidate).index

/-- `getCandidates`: the candidates past the placeholder, each with its tickets. -/
def getCandidates (d : NodeData) : List Address × List Uint256 :=
  let addresses := d.candidateArray.drop 1
  (addresses, addresses.map fun addr ↦ (d.candidates addr).tickets)

/-- `increaseCandidateTicket`: nothing for an address that is not a candidate. -/
def increaseCandidateTicket (addrCandidate : Address) (tokens : Uint256) :
    EStateM Revert NodeData PUnit := do
  let candidate := (← get).candidates addrCandidate
  if 0 = candidate.index then return
  let tickets ← liftExcept (safeAdd candidate.tickets tokens)
  modify fun d ↦ d.updateCandidate addrCandidate fun c ↦ { c with tickets }

/-- `decreaseCandidateTicket`: nothing for an address that is not a candidate, and a revert
when the candidate holds fewer tickets than `amount`. -/
def decreaseCandidateTicket (addrCandidate : Address) (amount : Uint256) :
    EStateM Revert NodeData PUnit := do
  let candidate := (← get).candidates addrCandidate
  if 0 = candidate.index then return
  require (candidate.tickets ≥ amount) "candidate.tickets < amount!"
  let tickets ← liftExcept (safeSub candidate.tickets amount)
  modify fun d ↦ d.updateCandidate addrCandidate fun c ↦ { c with tickets }

/-! ## Voters -/

/-- `_findAddVote`: resets the voter's vote for the candidate and appends the candidate to the
voter's array, whether or not it is there already. -/
def findAddVote (addrVoter addrCandidate : Address) : EStateM Revert NodeData PUnit :=
  modify fun d ↦ d.updateVoter addrVoter fun voter ↦
    (voter.updateVote addrCandidate fun vote ↦
      { vote with tickets := 0, index := voter.candidateArray.length }).pushCandidate addrCandidate

/-- `increaseVoterDeposit`: registers a new voter, with the placeholder in its array, then adds
to the deposit. -/
def increaseVoterDeposit (cfg : Config) (addrVoter : Address) (tokens : Uint256) :
    EStateM Revert NodeData PUnit := do
  if 0 = ((← get).voters addrVoter).index then
    modify fun d ↦
      (d.updateVoter addrVoter fun voter ↦
        Voter.pushCandidate
          { voter with
            addr := addrVoter, deposit := 0, unlockTime := d.voteCycleBegin + cfg.voteLockup,
            index := d.voterArray.length }
          0).pushVoter addrVoter
  let deposit ← liftExcept (safeAdd ((← get).voters addrVoter).deposit tokens)
  modify fun d ↦ d.updateVoter addrVoter fun voter ↦ { voter with deposit }

/-- `increaseVoterVote`: nothing for an address that never voted; else the vote that
`_findAddVote` gives is increased by `tokens`. -/
def increaseVoterVote (addrVoter addrCandidate : Address) (tokens : Uint256) :
    EStateM Revert NodeData PUnit := do
  if 0 = ((← get).voters addrVoter).index then return
  findAddVote addrVoter addrCandidate
  let vote := ((← get).voters addrVoter).votes addrCandidate
  let tickets ← liftExcept (safeAdd vote.tickets tokens)
  modify fun d ↦ d.updateVoter addrVoter fun voter ↦
    voter.updateVote addrCandidate fun vote ↦ { vote with tickets }

/-- The setters of a voter's fields: nothing for an address that never voted, else a write to
its entry. -/
def updateRegisteredVoter (addrVoter : Address) (f : NodeData → Voter → Voter) :
    EStateM Revert NodeData PUnit := do
  if 0 = ((← get).voters addrVoter).index then return
  modify fun d ↦ d.updateVoter addrVoter (f d)

/-- `clearVoterVote`. -/
def clearVoterVote (addrVoter addrCandidate : Address) : EStateM Revert NodeData PUnit :=
  updateRegisteredVoter addrVoter fun _ voter ↦
    voter.updateVote addrCandidate fun vote ↦ { vote with tickets := 0 }

/-- `updateVoterUnlockTime`. -/
def updateVoterUnlockTime (cfg : Config) (addrVoter : Address) : EStateM Revert NodeData PUnit :=
  updateRegisteredVoter addrVoter fun d voter ↦
    { voter with unlockTime := d.voteCycleBegin + cfg.voteLockup }

/-- `setVoterDeposit`. -/
def setVoterDeposit (addrVoter : Address) (amount : Uint256) : EStateM Revert NodeData PUnit :=
  updateRegisteredVoter addrVoter fun _ voter ↦ { voter with deposit := amount }

/-- `getVoteInfo`: the candidates of the voter's array past its placeholder, the tickets of
the voter's vote for each, the unlock time and the deposit; all zero for an address that never
voted. -/
def getVoteInfo (d : NodeData) (addrVoter : Address) :
    List Address × List Uint256 × Uint256 × Uint256 :=
  let voter := d.voters addrVoter
  if 0 = voter.index then ([], [], 0, 0)
  else
    let addresses := voter.candidateArray.drop 1
    (addresses, addresses.map fun c ↦ (voter.votes c).tickets, voter.unlockTime, voter.deposit)

/-- `getVoters`: the voters past the placeholder with a non-zero deposit, in order. -/
def getVoters (d : NodeData) : List Address :=
  (d.voterArray.drop 1).filter fun addrVoter ↦ (d.voters addrVoter).deposit > 0

/-! ## The vote cycle -/

/-- `setVoteCycleBegin`. -/
def setVoteCycleBegin (time : Uint256) : EStateM Revert NodeData PUnit :=
  modify fun d ↦ { d with voteCycleBegin := time }

/-- `increaseVoteCycleRound`. -/
def increaseVoteCycleRound (roundAdd : Uint256) : EStateM Revert NodeData Uint256 := do
  let round ← liftExcept (safeAdd (← get).voteCycleRound roundAdd)
  modify fun d ↦ { d with voteCycleRound := round }
  return round

/-- The rounds a cycle of `period` seconds begun at `old` has advanced by `now`, and the
begin of the current one: `now.sub(old).div(period)` and `old.add(roundAdd.mul(period))`, as
both `_rotateTickCycle` and `assignToken` compute them. -/
def cycleAdvance (now old period : Uint256) : Except Revert (Uint256 × Uint256) := do
  let roundAdd ← safeDiv (← safeSub now old) period
  let start ← safeAdd old (← safeMul roundAdd period)
  return (roundAdd, start)

/-! ## What each write does -/

/-- What every deposit sums to. -/
noncomputable def deposits (d : NodeData) : Nat :=
  ∑ a, (d.voters a).deposit.val

/-- The functions that leave every voter's deposit, and whether it is registered, as they
were. -/
def KeepsDeposits (d d' : NodeData) : Prop :=
  ∀ a, (d'.voters a).deposit = (d.voters a).deposit ∧ (d'.voters a).index = (d.voters a).index

theorem KeepsDeposits.refl (d : NodeData) : KeepsDeposits d d := fun _ ↦ ⟨rfl, rfl⟩

theorem KeepsDeposits.trans {d₁ d₂ d₃ : NodeData} (h₁ : KeepsDeposits d₁ d₂)
    (h₂ : KeepsDeposits d₂ d₃) : KeepsDeposits d₁ d₃ :=
  fun a ↦ ⟨(h₂ a).1.trans (h₁ a).1, (h₂ a).2.trans (h₁ a).2⟩

theorem keepsDeposits_of_voters {d d' : NodeData} (h : d'.voters = d.voters) :
    KeepsDeposits d d' := by
  intro a
  rw [h]
  exact ⟨rfl, rfl⟩

theorem KeepsDeposits.deposits_eq {d d' : NodeData} (h : KeepsDeposits d d') :
    deposits d' = deposits d :=
  Finset.sum_congr rfl fun a _ ↦ by rw [(h a).1]

theorem keepsDeposits_updateVoter {d : NodeData} {a : Address} {f : Voter → Voter}
    (hdeposit : (f (d.voters a)).deposit = (d.voters a).deposit)
    (hindex : (f (d.voters a)).index = (d.voters a).index) :
    KeepsDeposits d (d.updateVoter a f) := by
  intro b
  by_cases hb : b = a
  · subst hb
    simpa [NodeData.updateVoter] using And.intro hdeposit hindex
  · simp [NodeData.updateVoter, hb]

theorem deposits_updateVoter (d : NodeData) (a : Address) (f : Voter → Voter) :
    deposits (d.updateVoter a f) + (d.voters a).deposit.val =
      deposits d + (f (d.voters a)).deposit.val :=
  sum_update d.voters (fun voter ↦ voter.deposit.val) a _

theorem updateRegisteredVoter_ok {addrVoter : Address} {f : NodeData → Voter → Voter}
    {d d' : NodeData} {u : PUnit} (h : updateRegisteredVoter addrVoter f d = .ok u d') :
    d' = if 0 = (d.voters addrVoter).index then d else d.updateVoter addrVoter (f d) := by
  obtain ⟨_, d₁, hget, hrest⟩ := bind_eq_ok.1 h
  obtain ⟨rfl, rfl⟩ := get_eq_ok.1 hget
  split_ifs at hrest ⊢ with hidx
  · exact (pure_eq_ok.1 hrest).2.symm
  · exact modify_eq_ok.1 hrest

theorem updateRegisteredVoter_keepsDeposits {addrVoter : Address} {f : NodeData → Voter → Voter}
    {d d' : NodeData} {u : PUnit}
    (hdeposit : (f d (d.voters addrVoter)).deposit = (d.voters addrVoter).deposit)
    (hindex : (f d (d.voters addrVoter)).index = (d.voters addrVoter).index)
    (h : updateRegisteredVoter addrVoter f d = .ok u d') : KeepsDeposits d d' := by
  rw [updateRegisteredVoter_ok h]
  split_ifs
  · exact KeepsDeposits.refl d
  · exact keepsDeposits_updateVoter hdeposit hindex

theorem clearVoterVote_keepsDeposits {addrVoter addrCandidate : Address} {d d' : NodeData}
    {u : PUnit} (h : clearVoterVote addrVoter addrCandidate d = .ok u d') : KeepsDeposits d d' :=
  updateRegisteredVoter_keepsDeposits rfl rfl h

theorem updateVoterUnlockTime_keepsDeposits {cfg : Config} {addrVoter : Address}
    {d d' : NodeData} {u : PUnit} (h : updateVoterUnlockTime cfg addrVoter d = .ok u d') :
    KeepsDeposits d d' :=
  updateRegisteredVoter_keepsDeposits rfl rfl h

theorem getVoteInfo_deposit (d : NodeData) (addrVoter : Address) :
    (getVoteInfo d addrVoter).2.2.2 =
      if 0 = (d.voters addrVoter).index then 0 else (d.voters addrVoter).deposit := by
  unfold getVoteInfo
  dsimp only
  split_ifs <;> rfl

theorem KeepsDeposits.getVoteInfo_deposit {d d' : NodeData} (h : KeepsDeposits d d')
    (addrVoter : Address) :
    (getVoteInfo d' addrVoter).2.2.2 = (getVoteInfo d addrVoter).2.2.2 := by
  rw [Node.getVoteInfo_deposit, Node.getVoteInfo_deposit, (h addrVoter).1, (h addrVoter).2]

theorem setVoterDeposit_zero_ok {addrVoter : Address} {d d' : NodeData} {u : PUnit}
    (h : setVoterDeposit addrVoter 0 d = .ok u d') :
    deposits d' + (getVoteInfo d addrVoter).2.2.2.val = deposits d := by
  rw [updateRegisteredVoter_ok h, getVoteInfo_deposit]
  split_ifs with hidx
  · exact Nat.add_zero (deposits d)
  · simpa using deposits_updateVoter d addrVoter fun voter ↦ { voter with deposit := 0 }

theorem increaseCandidateTicket_keepsDeposits {addrCandidate : Address} {tokens : Uint256}
    {d d' : NodeData} {u : PUnit} (h : increaseCandidateTicket addrCandidate tokens d = .ok u d') :
    KeepsDeposits d d' := by
  obtain ⟨_, d₁, hget, hrest⟩ := bind_eq_ok.1 h
  obtain ⟨rfl, rfl⟩ := get_eq_ok.1 hget
  split_ifs at hrest
  · obtain ⟨-, rfl⟩ := pure_eq_ok.1 hrest
    exact KeepsDeposits.refl d
  · obtain ⟨tickets, d₂, hadd, hmodify⟩ := bind_eq_ok.1 hrest
    obtain ⟨-, rfl⟩ := liftExcept_eq_ok.1 hadd
    rw [modify_eq_ok.1 hmodify]
    exact keepsDeposits_of_voters rfl

theorem decreaseCandidateTicket_keepsDeposits {addrCandidate : Address} {amount : Uint256}
    {d d' : NodeData} {u : PUnit} (h : decreaseCandidateTicket addrCandidate amount d = .ok u d') :
    KeepsDeposits d d' := by
  obtain ⟨_, d₁, hget, hrest⟩ := bind_eq_ok.1 h
  obtain ⟨rfl, rfl⟩ := get_eq_ok.1 hget
  split_ifs at hrest
  · obtain ⟨-, rfl⟩ := pure_eq_ok.1 hrest
    exact KeepsDeposits.refl d
  · obtain ⟨⟨⟩, d₂, hreq, hrest₂⟩ := bind_eq_ok.1 hrest
    obtain ⟨-, rfl⟩ := require_eq_ok.1 hreq
    obtain ⟨tickets, d₃, hsub, hmodify⟩ := bind_eq_ok.1 hrest₂
    obtain ⟨-, rfl⟩ := liftExcept_eq_ok.1 hsub
    rw [modify_eq_ok.1 hmodify]
    exact keepsDeposits_of_voters rfl

theorem deposit_le_deposits (d : NodeData) (a : Address) : (d.voters a).deposit.val ≤ deposits d :=
  Finset.single_le_sum (fun b _ ↦ Nat.zero_le (d.voters b).deposit.val) (Finset.mem_univ a)

theorem deposits_pushVoter (d : NodeData) (a : Address) :
    deposits (d.pushVoter a) = deposits d := by
  unfold deposits
  rfl

theorem addDeposit_ok {addrVoter : Address} {tokens : Uint256} {d d' : NodeData} {u : PUnit}
    (h : (do
      let deposit ← liftExcept (safeAdd ((← get).voters addrVoter).deposit tokens)
      modify fun (d : NodeData) ↦ d.updateVoter addrVoter fun voter ↦ { voter with deposit } :
        EStateM Revert NodeData PUnit) d = .ok u d') :
    deposits d' = deposits d + tokens.val := by
  obtain ⟨_, d₁, hget, hrest⟩ := bind_eq_ok.1 h
  obtain ⟨rfl, rfl⟩ := get_eq_ok.1 hget
  obtain ⟨deposit, d₂, hadd, hmodify⟩ := bind_eq_ok.1 hrest
  obtain ⟨hsum, rfl⟩ := liftExcept_eq_ok.1 hadd
  rw [modify_eq_ok.1 hmodify]
  have hchange := deposits_updateVoter d addrVoter fun voter ↦ { voter with deposit }
  have hdeposit := (safeAdd_eq_ok.1 hsum).2
  simp only at hchange
  omega

theorem increaseVoterDeposit_le {cfg : Config} {addrVoter : Address} {tokens : Uint256}
    {d d' : NodeData} {u : PUnit} (h : increaseVoterDeposit cfg addrVoter tokens d = .ok u d') :
    deposits d' ≤ deposits d + tokens.val := by
  obtain ⟨_, d₁, hget, hrest⟩ := bind_eq_ok.1 h
  obtain ⟨rfl, rfl⟩ := get_eq_ok.1 hget
  dsimp only at hrest
  split_ifs at hrest with hidx
  · obtain ⟨⟨⟩, d₂, hregister, hrest₂⟩ := bind_eq_ok.1 hrest
    have hstep := addDeposit_ok hrest₂
    rw [modify_eq_ok.1 hregister] at hstep
    have hchange := deposits_updateVoter d addrVoter fun voter ↦
      Voter.pushCandidate
        { voter with
          addr := addrVoter, deposit := 0, unlockTime := d.voteCycleBegin + cfg.voteLockup,
          index := d.voterArray.length }
        0
    rw [deposits_pushVoter] at hstep
    have hzero : (Voter.pushCandidate
        { d.voters addrVoter with
          addr := addrVoter, deposit := 0, unlockTime := d.voteCycleBegin + cfg.voteLockup,
          index := d.voterArray.length } 0).deposit.val = 0 := rfl
    rw [hzero] at hchange
    omega
  · exact (addDeposit_ok hrest).le

/-- The vote entry after `increaseVoterVote`: `_findAddVote` has reset it, so it holds the last
vote's tokens alone, and the candidate is appended to the voter's array again. -/
theorem increaseVoterVote_ok {addrVoter addrCandidate : Address} {tokens : Uint256}
    {d d' : NodeData} {u : PUnit} (hidx : 0 ≠ (d.voters addrVoter).index)
    (h : increaseVoterVote addrVoter addrCandidate tokens d = .ok u d') :
    d' = d.updateVoter addrVoter fun voter ↦
      (voter.updateVote addrCandidate fun vote ↦
        { vote with tickets := tokens, index := voter.candidateArray.length }).pushCandidate
        addrCandidate := by
  obtain ⟨_, d₁, hget, hrest⟩ := bind_eq_ok.1 h
  obtain ⟨rfl, rfl⟩ := get_eq_ok.1 hget
  rw [if_neg hidx] at hrest
  obtain ⟨⟨⟩, d₂, hfind, hrest₂⟩ := bind_eq_ok.1 hrest
  obtain rfl := modify_eq_ok.1 hfind
  obtain ⟨_, d₃, hget₃, hrest₃⟩ := bind_eq_ok.1 hrest₂
  obtain ⟨rfl, rfl⟩ := get_eq_ok.1 hget₃
  obtain ⟨tickets, d₄, hadd, hmodify⟩ := bind_eq_ok.1 hrest₃
  obtain ⟨hsum, rfl⟩ := liftExcept_eq_ok.1 hadd
  rw [modify_eq_ok.1 hmodify]
  have htickets : tickets = tokens := by
    have hval := (safeAdd_eq_ok.1 hsum).2
    simp [NodeData.updateVoter, Voter.pushCandidate, Voter.updateVote] at hval
    exact Fin.ext hval
  subst htickets
  simp only [NodeData.updateVoter, Function.update_self, Function.update_idem, Voter.pushCandidate,
    Voter.updateVote]

theorem increaseVoterVote_keepsDeposits {addrVoter addrCandidate : Address} {tokens : Uint256}
    {d d' : NodeData} {u : PUnit} (h : increaseVoterVote addrVoter addrCandidate tokens d = .ok u d') :
    KeepsDeposits d d' := by
  by_cases hidx : 0 = (d.voters addrVoter).index
  · obtain ⟨_, d₁, hget, hrest⟩ := bind_eq_ok.1 h
    obtain ⟨rfl, rfl⟩ := get_eq_ok.1 hget
    rw [if_pos hidx] at hrest
    obtain ⟨-, rfl⟩ := pure_eq_ok.1 hrest
    exact KeepsDeposits.refl d
  · rw [increaseVoterVote_ok hidx h]
    exact keepsDeposits_updateVoter rfl rfl

theorem addCandidate_keepsDeposits {addrCandidate : Address} {d d' : NodeData} {u : PUnit}
    (h : addCandidate addrCandidate d = .ok u d') : KeepsDeposits d d' := by
  obtain ⟨_, d₁, hget, hrest⟩ := bind_eq_ok.1 h
  obtain ⟨rfl, rfl⟩ := get_eq_ok.1 hget
  split_ifs at hrest
  · obtain ⟨-, rfl⟩ := pure_eq_ok.1 hrest
    exact KeepsDeposits.refl d
  · rw [modify_eq_ok.1 hrest]
    exact keepsDeposits_of_voters rfl

end BokerChain.Node
