import BokerChain.Contracts.NodeData

/-!
# Votes, deposits and the token assignment

The contracts around the vote ledger: `BokerFinance`, which holds the ether; `BokerNode`, whose
`vote`, `cancelAllVotes` and `rotateVote` write the ledger and pay deposits back from
`BokerFinance`; the assignment of `BokerTokenPower.assignToken`, which pays users from the same
balance; and the entry points of `BokerInterface`.  The system's state holds the storage of
`BokerNodeData`, the users' powers as `BokerUserData` records them, the begin of the assignment
cycle of `BokerTokenPowerData`, and the ether balance of `BokerFinance`.

A deposit enters the balance with its vote and leaves it with its refund, so the deposits stay
covered by every call but one (`deposits_covered`); `assignToken` caps what it pays by the whole
balance, deposits included.

What `BokerUser` and `BokerUserData` do with user events and watch and upload records is left
open: a user event may set the powers to anything (`Reachable.userEvent`), and the power that
`_calculateUserPower` adds is a parameter of the environment.  The logs, the manager's role checks
(every call here comes from a registered contract) and its pause flag are left out.
-/

namespace BokerChain.Node

open Library.Imperative Library.Solidity

/-! ## The system -/

/-- The users and their powers, as `getUserAddresses` and `getUserPower` report them. -/
structure UserData where
  users : List Address
  longtermPower : Address → Uint256
  shorttermPower : Address → Uint256

/-- `clearUserShorttermPower`. -/
def UserData.clearShortterm (u : UserData) (addrUser : Address) : UserData :=
  { u with shorttermPower := Function.update u.shorttermPower addrUser 0 }

/-- What the contracts read from outside the modelled storage. -/
structure Env where
  cfg : Config
  /-- `AddressUtil.isContract`: whether code is deployed at an address. -/
  isContract : Address → Bool
  /-- The powers after `_calculateUserPower`, which adds the short-term power each user's watch
  time and uploads earn. -/
  calculateUserPower : UserData → UserData

/-- The state of the contracts. -/
structure Boker where
  nodeData : NodeData
  userData : UserData
  /-- `BokerTokenPowerData.assignCycleBegin`. -/
  assignCycleBegin : Uint256
  /-- The ether balance of `BokerFinance`. -/
  finance : Nat

def Boker.setNodeData (s : Boker) (d : NodeData) : Boker := { s with nodeData := d }

def Boker.setUserData (s : Boker) (u : UserData) : Boker := { s with userData := u }

def Boker.setAssignCycleBegin (s : Boker) (time : Uint256) : Boker :=
  { s with assignCycleBegin := time }

def Boker.setFinance (s : Boker) (balance : Nat) : Boker := { s with finance := balance }

/-! Each setter writes its own part of the state and leaves the others. -/

@[simp] theorem Boker.nodeData_setNodeData (s : Boker) (d : NodeData) :
    (s.setNodeData d).nodeData = d := rfl

@[simp] theorem Boker.finance_setNodeData (s : Boker) (d : NodeData) :
    (s.setNodeData d).finance = s.finance := rfl

@[simp] theorem Boker.nodeData_setFinance (s : Boker) (balance : Nat) :
    (s.setFinance balance).nodeData = s.nodeData := rfl

@[simp] theorem Boker.finance_setFinance (s : Boker) (balance : Nat) :
    (s.setFinance balance).finance = balance := rfl

@[simp] theorem Boker.nodeData_setUserData (s : Boker) (u : UserData) :
    (s.setUserData u).nodeData = s.nodeData := rfl

@[simp] theorem Boker.finance_setUserData (s : Boker) (u : UserData) :
    (s.setUserData u).finance = s.finance := rfl

@[simp] theorem Boker.nodeData_setAssignCycleBegin (s : Boker) (time : Uint256) :
    (s.setAssignCycleBegin time).nodeData = s.nodeData := rfl

@[simp] theorem Boker.finance_setAssignCycleBegin (s : Boker) (time : Uint256) :
    (s.setAssignCycleBegin time).finance = s.finance := rfl

/-- The contracts as deployed at block time `now`: no users, no ether. -/
def Boker.deployed (now : Uint256) : Boker where
  nodeData := NodeData.deployed now
  userData := ⟨[], fun _ ↦ 0, fun _ ↦ 0⟩
  assignCycleBegin := now
  finance := 0

/-- A call into `BokerNodeData`. -/
def onNodeData {α : Type} (x : EStateM Revert NodeData α) : EStateM Revert Boker α :=
  external Boker.nodeData Boker.setNodeData x

/-- A call into `BokerFinance`, whose state is its balance. -/
def onFinance {α : Type} (x : EStateM Revert Nat α) : EStateM Revert Boker α :=
  external Boker.finance Boker.setFinance x

/-! ## BokerFinance -/

/-- `grantTokenTo`: `addrTo.transfer(amount)`, which fails when the balance is short. -/
def grantTokenTo (amount : Uint256) : EStateM Revert Nat PUnit := do
  require (amount.val ≤ (← get)) ""
  modify (· - amount.val)

/-- `receiveTokenFrom`, and the fallback function: the ether sent with the call arrives. -/
def receiveTokenFrom (value : Uint256) : EStateM Revert Nat PUnit :=
  modify (· + value.val)

/-! ## BokerNode -/

/-- `registerCandidate`. -/
def registerCandidate (addrCandidate : Address) : EStateM Revert NodeData PUnit := do
  require (addrCandidate ≠ 0) "addrCandidate is 0"
  addCandidate addrCandidate

/-- `vote`. -/
def vote (cfg : Config) (addrVoter addrCandidate : Address) (tokens : Uint256) :
    EStateM Revert NodeData PUnit := do
  require (existCandidate (← get) addrCandidate) "addrCandidate not found!"
  require (tokens > 0) "tokens <= 0!"
  increaseVoterDeposit cfg addrVoter tokens
  increaseVoterVote addrVoter addrCandidate tokens
  updateVoterUnlockTime cfg addrVoter
  increaseCandidateTicket addrCandidate tokens

/-- `_cancelAllVotes`: for each candidate of the list, the voter's vote is cleared and the
ticket given with it taken off the candidate; reading `tickets[index]` past its end fails. -/
def cancelVotes (addrVoter : Address) : List Address → List Uint256 → EStateM Revert NodeData PUnit
  | [], _ => pure ⟨⟩
  | _ :: _, [] => throw .invalid
  | addrCandidate :: addresses, ticket :: tickets => do
    clearVoterVote addrVoter addrCandidate
    decreaseCandidateTicket addrCandidate ticket
    cancelVotes addrVoter addresses tickets

/-- The refund that `cancelAllVotes` and `_checkUnlockDeposit` make alike: the votes that
`getVoteInfo` listed cancelled, the deposit zeroed and paid back. -/
def refundVoter (addrVoter : Address) (addresses : List Address) (tickets : List Uint256)
    (deposit : Uint256) : EStateM Revert Boker PUnit := do
  onNodeData (cancelVotes addrVoter addresses tickets)
  onNodeData (setVoterDeposit addrVoter 0)
  onFinance (grantTokenTo deposit)

/-- `cancelAllVotes`. -/
def cancelAllVotes (addrVoter : Address) : EStateM Revert Boker PUnit := do
  let (addresses, tickets, _, deposit) := getVoteInfo (← get).nodeData addrVoter
  refundVoter addrVoter addresses tickets deposit

/-- `_voteCycleIsEnd`, whose sum is unchecked. -/
def voteCycleIsEnd (cfg : Config) (now : Uint256) (d : NodeData) : Bool :=
  decide (d.voteCycleBegin + cfg.voteCyclePeriod ≤ now)

/-- `Uint256Util.diff`. -/
def diff (a b : Uint256) : Uint256 :=
  if a > b then a - b else b - a

/-- One round of `_checkUnlockDeposit`: a voter whose unlock time is within the precision of
`now` is refunded. -/
def unlockDeposit (cfg : Config) (now : Uint256) (addrVoter : Address) :
    EStateM Revert Boker PUnit := do
  let (addresses, tickets, unlockTime, deposit) := getVoteInfo (← get).nodeData addrVoter
  if diff unlockTime now ≤ cfg.voteUnlockPrecision then
    refundVoter addrVoter addresses tickets deposit

/-- `_checkUnlockDeposit`, over the voters `getVoters` lists on entry. -/
def checkUnlockDeposit (cfg : Config) (now : Uint256) : EStateM Revert Boker PUnit := do
  (getVoters (← get).nodeData).forM (unlockDeposit cfg now)

/-- `_rotateTickCycle`. -/
def rotateTickCycle (cfg : Config) (now : Uint256) : EStateM Revert NodeData Uint256 := do
  let (roundAdd, start) ← liftExcept (cycleAdvance now (← get).voteCycleBegin cfg.voteCyclePeriod)
  setVoteCycleBegin start
  increaseVoteCycleRound roundAdd

/-- `rotateVote`. -/
def rotateVote (cfg : Config) (now : Uint256) : EStateM Revert Boker PUnit := do
  if !voteCycleIsEnd cfg now (← get).nodeData then return
  checkUnlockDeposit cfg now
  discard (onNodeData (rotateTickCycle cfg now))

/-! ## The token assignment of BokerTokenPower -/

/-- `_assignCycleIsEnd`. -/
def assignCycleIsEnd (cfg : Config) (now assignCycleBegin : Uint256) : Except Revert Bool := do
  return decide ((← safeAdd assignCycleBegin cfg.assignPeriod) ≤ now)

/-- `_assignTokensGet`: what a cycle assigns, capped by the balance of `BokerFinance`, split into
its long- and short-term parts. -/
def assignTokensGet (cfg : Config) (balance : Nat) : Except Revert (Uint256 × Uint256) := do
  let tokensToAsign : Uint256 :=
    if h : balance < cfg.assignTokenPerCycle.val then
      ⟨balance, h.trans cfg.assignTokenPerCycle.isLt⟩
    else cfg.assignTokenPerCycle
  let longtermTokens ← safeDiv (← safeMul tokensToAsign cfg.assignTokenLongtermRatio) 100
  let shorttermTokens ← safeSub tokensToAsign longtermTokens
  return (longtermTokens, shorttermTokens)

/-- `_userPowerGet`. -/
def userPowerGet (u : UserData) : Except Revert (Uint256 × Uint256) :=
  u.users.foldlM (fun totals addrUser ↦ do
    let longtermPowerTotal ← safeAdd totals.1 (u.longtermPower addrUser)
    let shorttermPowerTotal ← safeAdd totals.2 (u.shorttermPower addrUser)
    return (longtermPowerTotal, shorttermPowerTotal)) (0, 0)

/-- The share of one user in `_assignToken`. -/
def tokensAssignedTo (longtermTokens shorttermTokens longtermPowerTotal shorttermPowerTotal
    longtermPower shorttermPower : Uint256) : Except Revert Uint256 := do
  let mut tokensAssigned := 0
  if longtermTokens > 0 ∧ longtermPowerTotal > 0 then
    tokensAssigned ← safeAdd tokensAssigned
      (← safeDiv (← safeMul longtermTokens longtermPower) longtermPowerTotal)
  if shorttermTokens > 0 ∧ shorttermPowerTotal > 0 then
    tokensAssigned ← safeAdd tokensAssigned
      (← safeDiv (← safeMul shorttermTokens shorttermPower) shorttermPowerTotal)
  return tokensAssigned

/-- One round of `_assignToken`: the user's share, the short-term power cleared unless the user is
a contract (`clearUserShorttermPower` returns early for contracts), and the share paid unless the
user is a contract. -/
def assignTo (env : Env) (longtermTokens shorttermTokens longtermPowerTotal shorttermPowerTotal : Uint256)
    (addrUser : Address) : EStateM Revert Boker PUnit := do
  let u := (← get).userData
  let tokensAssigned ← liftExcept (tokensAssignedTo longtermTokens shorttermTokens
    longtermPowerTotal shorttermPowerTotal (u.longtermPower addrUser) (u.shorttermPower addrUser))
  if !env.isContract addrUser then
    modify fun s ↦ s.setUserData (s.userData.clearShortterm addrUser)
  if tokensAssigned > 0 ∧ !env.isContract addrUser then
    onFinance (grantTokenTo tokensAssigned)

/-- `assignToken`. -/
def assignToken (env : Env) (now : Uint256) : EStateM Revert Boker PUnit := do
  if !(← liftExcept (assignCycleIsEnd env.cfg now (← get).assignCycleBegin)) then return
  modify fun s ↦ s.setUserData (env.calculateUserPower s.userData)
  let (longtermTokens, shorttermTokens) ← liftExcept (assignTokensGet env.cfg (← get).finance)
  let (longtermPowerTotal, shorttermPowerTotal) ← liftExcept (userPowerGet (← get).userData)
  (← get).userData.users.forM
    (assignTo env longtermTokens shorttermTokens longtermPowerTotal shorttermPowerTotal)
  let (_, start) ← liftExcept (cycleAdvance now (← get).assignCycleBegin env.cfg.assignPeriod)
  modify fun s ↦ s.setAssignCycleBegin start

/-! ## BokerInterface and the runs of the system -/

/-- `voteCandidate`: the ether sent goes to `BokerFinance`, then the vote is cast. -/
def voteCandidate (cfg : Config) (sender addrCandidate : Address) (value : Uint256) :
    EStateM Revert Boker PUnit := do
  onFinance (receiveTokenFrom value)
  onNodeData (vote cfg sender addrCandidate value)

/-- The calls of the system that move ether or write the vote ledger. -/
inductive Call where
  /-- `BokerInterface.registerCandidate`. -/
  | registerCandidate
  /-- `BokerInterface.voteCandidate`, with the ether sent. -/
  | voteCandidate (addrCandidate : Address) (value : Uint256)
  /-- `BokerInterface.cancelAllVotes`. -/
  | cancelAllVotes
  /-- A plain payment to `BokerInterface`, which its fallback passes on to `BokerFinance`. -/
  | pay (value : Uint256)
  /-- `BokerNode.rotateVote`. -/
  | rotateVote
  /-- `BokerTokenPower.assignToken`. -/
  | assignToken
  deriving DecidableEq

/-- A call from `sender` at block time `now`. -/
def Call.run (env : Env) (sender : Address) (now : Uint256) : Call → EStateM Revert Boker PUnit
  | .registerCandidate => onNodeData (Node.registerCandidate sender)
  | .voteCandidate addrCandidate value => Node.voteCandidate env.cfg sender addrCandidate value
  | .cancelAllVotes => Node.cancelAllVotes sender
  | .pay value => onFinance (receiveTokenFrom value)
  | .rotateVote => Node.rotateVote env.cfg now
  | .assignToken => Node.assignToken env now

/-- The states reached from a deployment by the calls `allowed` admits, from any senders at any
block times, each of which succeeded or reverted, and by user events, which may change the
powers in any way. -/
inductive Reachable (env : Env) (allowed : Call → Prop) : Boker → Prop
  | deploy (now : Uint256) : Reachable env allowed (Boker.deployed now)
  | call {s : Boker} (sender : Address) (now : Uint256) (c : Call) :
      allowed c → Reachable env allowed s → Reachable env allowed (transact (c.run env sender now) s)
  | userEvent {s : Boker} (userData : UserData) :
      Reachable env allowed s → Reachable env allowed (s.setUserData userData)

/-- The calls of the vote ledger: registrations, votes, cancellations and rotations. -/
def Call.OnLedger : Call → Prop
  | .registerCandidate | .voteCandidate _ _ | .cancelAllVotes | .rotateVote => True
  | .pay _ | .assignToken => False

/-- The state after a sequence of transactions, each from its sender at its block time. -/
def Boker.runAll (env : Env) : Boker → List (Address × Uint256 × Call) → Boker
  | s, [] => s
  | s, (sender, now, c) :: rest => Boker.runAll env (transact (c.run env sender now) s) rest

/-! ## A repeated vote -/

theorem Reachable.runAll {env : Env} {allowed : Call → Prop} :
    ∀ {s : Boker} (calls : List (Address × Uint256 × Call)), Reachable env allowed s →
      (∀ x ∈ calls, allowed x.2.2) → Reachable env allowed (s.runAll env calls)
  | _, [], hs, _ => hs
  | _, (sender, now, c) :: rest, hs, hall =>
    Reachable.runAll rest (.call sender now c (hall _ List.mem_cons_self) hs)
      fun x hx ↦ hall x (List.mem_cons_of_mem _ hx)

/-- The manager's initial configuration, no contract among the users, and no power earned by
watching or uploading. -/
def sampleEnv : Env := ⟨Config.initial, fun _ ↦ false, id⟩

/-- A candidate registered by `1`, then two votes of `2` for it, of 5 and then 3 wei. -/
def doubleVoted : Boker :=
  (Boker.deployed 0).runAll sampleEnv
    [(1, 0, .registerCandidate), (2, 0, .voteCandidate 1 5), (2, 0, .voteCandidate 1 3)]

theorem double_vote_breaks_ledger :
    Reachable sampleEnv Call.OnLedger doubleVoted ∧
    (doubleVoted.nodeData.candidates 1).tickets = 8 ∧
    (doubleVoted.nodeData.voterArray.drop 1).map
      (fun v ↦ ((doubleVoted.nodeData.voters v).votes 1).tickets) = [3] ∧
    (doubleVoted.nodeData.voters 2).deposit = 8 ∧
    (doubleVoted.nodeData.candidateArray.drop 1).map
      (fun c ↦ ((doubleVoted.nodeData.voters 2).votes c).tickets) = [3] ∧
    getVoteInfo doubleVoted.nodeData 2 = ([1, 1], [3, 3], 3 * 86400, 8) ∧
    (transact (cancelAllVotes 2) doubleVoted).finance = 0 ∧
    ((transact (cancelAllVotes 2) doubleVoted).nodeData.candidates 1).tickets = 2 := by
  refine ⟨Reachable.runAll _ (.deploy 0) ?_, ?_⟩
  · intro x hx
    simp only [List.mem_cons, List.mem_nil_iff, or_false] at hx
    rcases hx with rfl | rfl | rfl <;> trivial
  · decide

/-! ## The deposits stay covered -/

/-- The balance of `BokerFinance` covers every deposit. -/
def Covered (s : Boker) : Prop :=
  deposits s.nodeData ≤ s.finance

theorem grantTokenTo_eq_ok {amount : Uint256} {b b' : Nat} {u : PUnit} :
    grantTokenTo amount b = .ok u b' ↔ amount.val ≤ b ∧ b' = b - amount.val := by
  constructor
  · intro h
    obtain ⟨_, b₁, hget, hrest⟩ := bind_eq_ok.1 h
    obtain ⟨rfl, rfl⟩ := get_eq_ok.1 hget
    obtain ⟨⟨⟩, b₂, hreq, hmodify⟩ := bind_eq_ok.1 hrest
    obtain ⟨hle, rfl⟩ := require_eq_ok.1 hreq
    exact ⟨hle, modify_eq_ok.1 hmodify⟩
  · rintro ⟨hle, rfl⟩
    simp [grantTokenTo, hle]

theorem onNodeData_covered {α : Type} {x : EStateM Revert NodeData α} {s s' : Boker} {a : α}
    (hkeep : ∀ d d' a, x d = .ok a d' → KeepsDeposits d d') (hs : Covered s)
    (h : onNodeData x s = .ok a s') : Covered s' := by
  obtain ⟨d, hx, rfl⟩ := external_eq_ok.1 h
  unfold Covered
  rw [Boker.nodeData_setNodeData, Boker.finance_setNodeData, (hkeep _ _ _ hx).deposits_eq]
  exact hs

theorem cancelVotes_keepsDeposits {addrVoter : Address} :
    ∀ {addresses : List Address} {tickets : List Uint256} {d d' : NodeData} {u : PUnit},
      cancelVotes addrVoter addresses tickets d = .ok u d' → KeepsDeposits d d'
  | [], _, d, d', u, h => by
    obtain ⟨-, rfl⟩ := pure_eq_ok.1 h
    exact KeepsDeposits.refl d
  | _ :: _, [], d, d', u, h => by cases h
  | addrCandidate :: addresses, ticket :: tickets, d, d', u, h => by
    obtain ⟨⟨⟩, d₁, hclear, hrest₁⟩ := bind_eq_ok.1 h
    obtain ⟨⟨⟩, d₂, hdecrease, hrest₂⟩ := bind_eq_ok.1 hrest₁
    exact ((clearVoterVote_keepsDeposits hclear).trans
      (decreaseCandidateTicket_keepsDeposits hdecrease)).trans (cancelVotes_keepsDeposits hrest₂)

theorem refundVoter_covered {addrVoter : Address} {addresses : List Address}
    {tickets : List Uint256} {deposit : Uint256} {s s' : Boker} {u : PUnit} (hs : Covered s)
    (hdeposit : deposit = (getVoteInfo s.nodeData addrVoter).2.2.2)
    (h : refundVoter addrVoter addresses tickets deposit s = .ok u s') : Covered s' := by
  obtain ⟨⟨⟩, s₁, h₁, hrest₁⟩ := bind_eq_ok.1 h
  obtain ⟨d₁, hcancel, rfl⟩ := external_eq_ok.1 h₁
  have hkeep := cancelVotes_keepsDeposits hcancel
  obtain ⟨⟨⟩, s₂, h₂, h₃⟩ := bind_eq_ok.1 hrest₁
  obtain ⟨d₂, hset, rfl⟩ := external_eq_ok.1 h₂
  have hsum := setVoterDeposit_zero_ok hset
  obtain ⟨b, hgrant, rfl⟩ := external_eq_ok.1 h₃
  obtain ⟨hle, rfl⟩ := grantTokenTo_eq_ok.1 hgrant
  simp only [Boker.nodeData_setNodeData, Boker.finance_setNodeData] at hsum hle
  rw [hkeep.getVoteInfo_deposit, hkeep.deposits_eq, ← hdeposit] at hsum
  unfold Covered at hs ⊢
  simp only [Boker.nodeData_setFinance, Boker.nodeData_setNodeData, Boker.finance_setFinance,
    Boker.finance_setNodeData]
  omega

theorem unlockDeposit_covered {cfg : Config} {now : Uint256} {addrVoter : Address}
    {s s' : Boker} {u : PUnit} (hs : Covered s) (h : unlockDeposit cfg now addrVoter s = .ok u s') :
    Covered s' := by
  obtain ⟨_, s₁, hget, hrest⟩ := bind_eq_ok.1 h
  obtain ⟨rfl, rfl⟩ := get_eq_ok.1 hget
  rcases hinfo : getVoteInfo s.nodeData addrVoter with ⟨addresses, tickets, unlockTime, deposit⟩
  rw [hinfo] at hrest
  dsimp only at hrest
  split_ifs at hrest
  · exact refundVoter_covered hs (by rw [hinfo]) hrest
  · obtain ⟨-, rfl⟩ := pure_eq_ok.1 hrest
    exact hs

theorem checkUnlockDeposit_covered {cfg : Config} {now : Uint256} {s s' : Boker} {u : PUnit}
    (hs : Covered s) (h : checkUnlockDeposit cfg now s = .ok u s') : Covered s' := by
  obtain ⟨_, s₁, hget, hloop⟩ := bind_eq_ok.1 h
  obtain ⟨rfl, rfl⟩ := get_eq_ok.1 hget
  exact forM_preserves (fun _ _ _ _ ↦ unlockDeposit_covered) _ hs hloop

theorem rotateTickCycle_voters {cfg : Config} {now : Uint256} {d d' : NodeData} {r : Uint256}
    (h : rotateTickCycle cfg now d = .ok r d') : d'.voters = d.voters := by
  obtain ⟨_, d₁, hget, hrest⟩ := bind_eq_ok.1 h
  obtain ⟨rfl, rfl⟩ := get_eq_ok.1 hget
  obtain ⟨⟨roundAdd, start⟩, d₂, hcycle, hrest₂⟩ := bind_eq_ok.1 hrest
  obtain ⟨-, rfl⟩ := liftExcept_eq_ok.1 hcycle
  obtain ⟨⟨⟩, d₃, hbegin, hround⟩ := bind_eq_ok.1 hrest₂
  obtain rfl := modify_eq_ok.1 hbegin
  obtain ⟨_, d₄, hget₄, hrest₄⟩ := bind_eq_ok.1 hround
  obtain ⟨rfl, rfl⟩ := get_eq_ok.1 hget₄
  obtain ⟨round, d₅, hadd, hrest₅⟩ := bind_eq_ok.1 hrest₄
  obtain ⟨-, rfl⟩ := liftExcept_eq_ok.1 hadd
  obtain ⟨⟨⟩, d₆, hmodify, hpure⟩ := bind_eq_ok.1 hrest₅
  obtain rfl := modify_eq_ok.1 hmodify
  obtain ⟨-, rfl⟩ := pure_eq_ok.1 hpure
  rfl

theorem rotateVote_covered {cfg : Config} {now : Uint256} {s s' : Boker} {u : PUnit}
    (hs : Covered s) (h : rotateVote cfg now s = .ok u s') : Covered s' := by
  obtain ⟨_, s₁, hget, hrest⟩ := bind_eq_ok.1 h
  obtain ⟨rfl, rfl⟩ := get_eq_ok.1 hget
  split_ifs at hrest
  · obtain ⟨-, rfl⟩ := pure_eq_ok.1 hrest
    exact hs
  · obtain ⟨⟨⟩, s₂, hcheck, hrotate⟩ := bind_eq_ok.1 hrest
    obtain ⟨_, hrun⟩ := discard_eq_ok.1 hrotate
    exact onNodeData_covered (fun _ _ _ hrot ↦ keepsDeposits_of_voters (rotateTickCycle_voters hrot))
      (checkUnlockDeposit_covered hs hcheck) hrun

theorem vote_deposits_le {cfg : Config} {addrVoter addrCandidate : Address} {tokens : Uint256}
    {d d' : NodeData} {u : PUnit} (h : vote cfg addrVoter addrCandidate tokens d = .ok u d') :
    deposits d' ≤ deposits d + tokens.val := by
  obtain ⟨_, d₁, hget, hrest⟩ := bind_eq_ok.1 h
  obtain ⟨rfl, rfl⟩ := get_eq_ok.1 hget
  obtain ⟨⟨⟩, d₂, hexist, hrest₂⟩ := bind_eq_ok.1 hrest
  obtain ⟨-, rfl⟩ := require_eq_ok.1 hexist
  obtain ⟨⟨⟩, d₃, hpositive, hrest₃⟩ := bind_eq_ok.1 hrest₂
  obtain ⟨-, rfl⟩ := require_eq_ok.1 hpositive
  obtain ⟨⟨⟩, d₄, hdeposit, hrest₄⟩ := bind_eq_ok.1 hrest₃
  obtain ⟨⟨⟩, d₅, hvote, hrest₅⟩ := bind_eq_ok.1 hrest₄
  obtain ⟨⟨⟩, d₆, hunlock, hticket⟩ := bind_eq_ok.1 hrest₅
  have hkeep := ((increaseVoterVote_keepsDeposits hvote).trans
    (updateVoterUnlockTime_keepsDeposits hunlock)).trans
    (increaseCandidateTicket_keepsDeposits hticket)
  rw [hkeep.deposits_eq]
  exact increaseVoterDeposit_le hdeposit

theorem voteCandidate_covered {cfg : Config} {sender addrCandidate : Address} {value : Uint256}
    {s s' : Boker} {u : PUnit} (hs : Covered s)
    (h : voteCandidate cfg sender addrCandidate value s = .ok u s') : Covered s' := by
  obtain ⟨⟨⟩, s₁, h₁, h₂⟩ := bind_eq_ok.1 h
  obtain ⟨b, hreceive, rfl⟩ := external_eq_ok.1 h₁
  obtain rfl := modify_eq_ok.1 hreceive
  obtain ⟨d, hvote, rfl⟩ := external_eq_ok.1 h₂
  have hle := vote_deposits_le hvote
  unfold Covered at hs ⊢
  simp only [Boker.nodeData_setNodeData, Boker.finance_setNodeData, Boker.finance_setFinance,
    Boker.nodeData_setFinance] at hle ⊢
  omega

theorem receiveTokenFrom_covered {value : Uint256} {s s' : Boker} {u : PUnit} (hs : Covered s)
    (h : onFinance (receiveTokenFrom value) s = .ok u s') : Covered s' := by
  obtain ⟨b, hreceive, rfl⟩ := external_eq_ok.1 h
  obtain rfl := modify_eq_ok.1 hreceive
  unfold Covered at hs ⊢
  simp only [Boker.nodeData_setFinance, Boker.finance_setFinance]
  omega

theorem registerCandidate_keepsDeposits {addrCandidate : Address} {d d' : NodeData} {u : PUnit}
    (h : registerCandidate addrCandidate d = .ok u d') : KeepsDeposits d d' := by
  obtain ⟨⟨⟩, d₁, hreq, hadd⟩ := bind_eq_ok.1 h
  obtain ⟨-, rfl⟩ := require_eq_ok.1 hreq
  exact addCandidate_keepsDeposits hadd

theorem run_covered (env : Env) (sender : Address) (now : Uint256) (c : Call)
    (hc : c ≠ .assignToken) {s s' : Boker} {u : PUnit} (hs : Covered s)
    (h : c.run env sender now s = .ok u s') : Covered s' := by
  cases c with
  | registerCandidate =>
    exact onNodeData_covered (fun _ _ _ ↦ registerCandidate_keepsDeposits) hs h
  | voteCandidate addrCandidate value => exact voteCandidate_covered hs h
  | cancelAllVotes =>
    obtain ⟨_, s₁, hget, hrefund⟩ := bind_eq_ok.1 h
    obtain ⟨rfl, rfl⟩ := get_eq_ok.1 hget
    exact refundVoter_covered hs rfl hrefund
  | pay value => exact receiveTokenFrom_covered hs h
  | rotateVote => exact rotateVote_covered hs h
  | assignToken => exact absurd rfl hc

theorem Reachable.covered {env : Env} {s : Boker}
    (h : Reachable env (fun c ↦ c ≠ .assignToken) s) : Covered s := by
  induction h with
  | deploy now =>
    show deposits (NodeData.deployed now) ≤ 0
    exact (Finset.sum_eq_zero fun _ _ ↦ rfl).le
  | call sender now c hc _ ih =>
    exact transact_preserves (fun _ _ _ ↦ run_covered env sender now c hc) ih
  | userEvent userData _ ih => exact ih

theorem reported_deposit_le (d : NodeData) (addrVoter : Address) :
    (getVoteInfo d addrVoter).2.2.2.val ≤ deposits d := by
  rw [getVoteInfo_deposit]
  split_ifs
  · exact Nat.zero_le _
  · exact deposit_le_deposits d addrVoter

theorem deposits_covered_without_assignment (env : Env) {s : Boker}
    (h : Reachable env (fun c ↦ c ≠ .assignToken) s) :
    deposits s.nodeData ≤ s.finance ∧ ∀ v, (getVoteInfo s.nodeData v).2.2.2.val ≤ s.finance := by
  have hcovered : Covered s := h.covered
  exact ⟨hcovered, fun v ↦ (reported_deposit_le s.nodeData v).trans hcovered⟩

theorem deposits_covered_after_double_vote :
    deposits doubleVoted.nodeData ≤ doubleVoted.finance ∧
      ∀ v, (getVoteInfo doubleVoted.nodeData v).2.2.2.val ≤ doubleVoted.finance :=
  deposits_covered_without_assignment sampleEnv
    (Reachable.runAll _ (.deploy 0) (by decide))

/-- A user with the long-term power a registration gives. -/
def registeredUser : UserData := ⟨[3], fun a ↦ if a = 3 then 10 else 0, fun _ ↦ 0⟩

/-- A candidate registered by `1`, the user `3` registered, a vote of 100 wei by `2`, and the
assignment due five minutes after deployment. -/
def assignedAfterVote : Boker :=
  (((Boker.deployed 0).runAll sampleEnv [(1, 0, .registerCandidate)]).setUserData
    registeredUser).runAll sampleEnv [(2, 0, .voteCandidate 1 100), (4, 300, .assignToken)]

theorem assignment_strands_deposit :
    Reachable sampleEnv (fun _ ↦ True) assignedAfterVote ∧
    assignedAfterVote.finance = 80 ∧ (assignedAfterVote.nodeData.voters 2).deposit = 100 ∧
    assignedAfterVote.finance < deposits assignedAfterVote.nodeData ∧
    succeeded (cancelAllVotes 2 assignedAfterVote) = false := by
  have hfinance : assignedAfterVote.finance = 80 := by decide
  have hdeposit : (assignedAfterVote.nodeData.voters 2).deposit = 100 := by decide
  have hsum := deposit_le_deposits assignedAfterVote.nodeData 2
  refine ⟨Reachable.runAll _ (.userEvent _ (Reachable.runAll _ (.deploy 0) fun _ _ ↦ trivial))
      fun _ _ ↦ trivial, hfinance, hdeposit, ?_, by decide⟩
  rw [hdeposit] at hsum
  rw [hfinance]
  exact lt_of_lt_of_le (by decide) hsum

/-! ## What the assignment's helpers compute -/

/-- A user's part of a pool of `tokens`, for a power `power` out of `total`: `⌊tokens·power/total⌋`,
nothing when the pool or the total is empty. -/
def share (tokens total power : ℕ) : ℕ :=
  if 0 < tokens ∧ 0 < total then tokens * power / total else 0

theorem sum_share_le {ι : Type} (tokens : ℕ) (l : List ι) (power : ι → ℕ) :
    (l.map fun i ↦ share tokens (l.map power).sum (power i)).sum ≤ tokens := by
  unfold share
  split_ifs
  · exact sum_mul_div_sum_le tokens l power
  · simp

theorem pool_bind_eq_ok {β : Type} {tokens total power acc : Uint256}
    {k : Uint256 → Except Revert β} {r : β}
    (h : (if tokens > 0 ∧ total > 0 then
        (safeMul tokens power >>= fun p ↦ safeDiv p total >>= fun q ↦ safeAdd acc q >>= k)
      else k acc) = .ok r) :
    ∃ acc', acc'.val = acc.val + share tokens.val total.val power.val ∧ k acc' = .ok r := by
  unfold share
  split_ifs at h with hpool
  · obtain ⟨p, hmul, hrest⟩ := except_bind_eq_ok.1 h
    obtain ⟨q, hdiv, hrest⟩ := except_bind_eq_ok.1 hrest
    obtain ⟨acc', hadd, hk⟩ := except_bind_eq_ok.1 hrest
    have hpos : 0 < tokens.val ∧ 0 < total.val := hpool
    refine ⟨acc', ?_, hk⟩
    rw [if_pos hpos, (safeAdd_eq_ok.1 hadd).2, (safeDiv_eq_ok.1 hdiv).2, (safeMul_eq_ok.1 hmul).2]
  · have hpos : ¬(0 < tokens.val ∧ 0 < total.val) := hpool
    exact ⟨acc, by rw [if_neg hpos, Nat.add_zero], h⟩

/-- **A user's grant.** What `_assignToken` computes for a user is its two parts,
`⌊T_l·l/L⌋ + ⌊T_s·s/S⌋`. -/
theorem tokensAssignedTo_val {longtermTokens shorttermTokens longtermPowerTotal shorttermPowerTotal
    longtermPower shorttermPower tokensAssigned : Uint256}
    (h : tokensAssignedTo longtermTokens shorttermTokens longtermPowerTotal shorttermPowerTotal
      longtermPower shorttermPower = .ok tokensAssigned) :
    tokensAssigned.val = share longtermTokens.val longtermPowerTotal.val longtermPower.val +
      share shorttermTokens.val shorttermPowerTotal.val shorttermPower.val := by
  unfold tokensAssignedTo at h
  obtain ⟨first, hfirst, h⟩ := pool_bind_eq_ok h
  obtain ⟨second, hsecond, h⟩ := pool_bind_eq_ok h
  cases h
  rw [hsecond, hfirst, Fin.val_zero, Nat.zero_add]

theorem userPowerGet_val {u : UserData} {longtermPowerTotal shorttermPowerTotal : Uint256}
    (h : userPowerGet u = .ok (longtermPowerTotal, shorttermPowerTotal)) :
    longtermPowerTotal.val = (u.users.map fun a ↦ (u.longtermPower a).val).sum ∧
      shorttermPowerTotal.val = (u.users.map fun a ↦ (u.shorttermPower a).val).sum := by
  have hloop : ∀ (l : List Address) (acc r : Uint256 × Uint256),
      l.foldlM (fun totals addrUser ↦ do
        let longtermPowerTotal ← safeAdd totals.1 (u.longtermPower addrUser)
        let shorttermPowerTotal ← safeAdd totals.2 (u.shorttermPower addrUser)
        return (longtermPowerTotal, shorttermPowerTotal)) acc = .ok r →
      r.1.val = acc.1.val + (l.map fun a ↦ (u.longtermPower a).val).sum ∧
        r.2.val = acc.2.val + (l.map fun a ↦ (u.shorttermPower a).val).sum := by
    intro l
    induction l with
    | nil =>
      intro acc r hr
      cases hr
      simp
    | cons a l ih =>
      intro acc r hr
      rw [List.foldlM_cons] at hr
      obtain ⟨acc', hround, hrest⟩ := except_bind_eq_ok.1 hr
      obtain ⟨L, hL, hround⟩ := except_bind_eq_ok.1 hround
      obtain ⟨S, hS, hround⟩ := except_bind_eq_ok.1 hround
      cases hround
      obtain ⟨ih₁, ih₂⟩ := ih _ r hrest
      rw [ih₁, ih₂, (safeAdd_eq_ok.1 hL).2, (safeAdd_eq_ok.1 hS).2]
      simp only [List.map_cons, List.sum_cons]
      omega
  have htotals := hloop u.users (0, 0) _ h
  simpa using htotals

theorem assignTokensGet_le {cfg : Config} {balance : Nat} {longtermTokens shorttermTokens : Uint256}
    (h : assignTokensGet cfg balance = .ok (longtermTokens, shorttermTokens)) :
    longtermTokens.val + shorttermTokens.val ≤ balance := by
  unfold assignTokensGet at h
  obtain ⟨p, -, h⟩ := except_bind_eq_ok.1 h
  obtain ⟨l, -, h⟩ := except_bind_eq_ok.1 h
  obtain ⟨r, hsub, h⟩ := except_bind_eq_ok.1 h
  cases h
  obtain ⟨hle, hval⟩ := safeSub_eq_ok.1 hsub
  rw [hval, Nat.add_sub_cancel' (Fin.le_def.1 hle)]
  split
  · exact le_refl balance
  · exact Nat.le_of_not_lt ‹_›

end BokerChain.Node
