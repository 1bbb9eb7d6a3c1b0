import BokerChain.Protocol
import BokerChain.Library.Solidity

/-!
# The BOBBY token with locked grants

The contract `ERC20` of `contracts/src/erc20/BokerChainLock.sol` and its base
`BobbyERC20Base`.  A user's tokens are a free balance and a list of locked grants, each with a
balance that `_checkUnlock` moves to the free balance period by period; users are registered in
`_userArray` the first time they receive tokens, behind a placeholder at position 0, and
`balanceOf` reports zero for an address never registered.

Every call keeps the registration records (`Books`: the array past its placeholder lists each
registered user once, and an address never registered holds nothing) and the total of what all
addresses hold (`run_books`); so in every reachable state the registered users' `balanceOf`
values, none of which overflows, add up to `_totalSupply` (`bobby_supply_conserved`).

Storage is one record; the mapping `_userMap` is a function that gives the zero `UserToken` to
an address never written.  `uint256` values are `Uint256`; a user's `index` is a position in
`_userArray`, a natural number.  The event log `_logs` and the name, symbol and decimals are left
out: nothing modelled reads them.
-/

namespace BokerChain.ChainLock

open Library.Imperative Library.Solidity

/-! ## BobbySafeMath -/

namespace BobbySafeMath

/-- `BobbySafeMath.mul`. -/
def mul (a b : Uint256) : Except Revert Uint256 :=
  if a = 0 then pure 0
  else
    let c := a * b
    if c / a = b then pure c else throw .invalid

/-- `BobbySafeMath.div`: Solidity's `/`, which fails on a zero divisor. -/
def div (a b : Uint256) : Except Revert Uint256 :=
  if b = 0 then throw .invalid else pure (a / b)

/-- `BobbySafeMath.sub`. -/
def sub (a b : Uint256) : Except Revert Uint256 :=
  if b ≤ a then pure (a - b) else throw .invalid

/-- `BobbySafeMath.add`. -/
def add (a b : Uint256) : Except Revert Uint256 :=
  let c := a + b
  if a ≤ c then pure c else throw .invalid

end BobbySafeMath

open BobbySafeMath

/-! ## Storage -/

/-- `LockedToken`: a grant, unlocked over `periods` periods of `duration / periods` each. -/
structure LockedToken where
  total : Uint256
  duration : Uint256
  periods : Uint256
  /-- What is still locked. -/
  balance : Uint256
  unlockLast : Uint256

/-- `UserToken`. -/
structure UserToken where
  /-- The position in `_userArray`; zero for an address never registered. -/
  index : Nat
  addr : Address
  /-- The free tokens. -/
  tokens : Uint256
  lockedTokens : List LockedToken

/-- The zero value of a `UserToken`, which the mapping gives an address never written. -/
def UserToken.zero : UserToken := ⟨0, 0, 0, []⟩

/-- The storage of `ERC20`. -/
structure ERC20 where
  ceoAddress : Address
  cfoAddress : Address
  paused : Bool
  /-- `_totalSupply`. -/
  totalSupply : Uint256
  /-- `_userMap`. -/
  userMap : Address → UserToken
  /-- `_userArray`, with the placeholder at position 0. -/
  userArray : List Address

/-- `_userMap[a]` updated by `f`. -/
def ERC20.updateUser (s : ERC20) (a : Address) (f : UserToken → UserToken) : ERC20 :=
  { s with userMap := Function.update s.userMap a (f (s.userMap a)) }

/-- `_userArray.push(a)`. -/
def ERC20.pushUser (s : ERC20) (a : Address) : ERC20 :=
  { s with userArray := s.userArray ++ [a] }

/-- The storage before the constructor's body runs: the initialisers of the state variables,
and the constructor of `BobbyERC20Base`, which makes the deploying account the CEO. -/
def ERC20.initial (sender cfoAddr : Address) : ERC20 where
  ceoAddress := sender
  cfoAddress := cfoAddr
  paused := false
  -- `10 * _Billion * (10 ** uint256(_decimals))` with nine decimals
  totalSupply := 10 * 1000 * 1000 * 1000 * 10 ^ 9
  userMap := fun _ ↦ UserToken.zero
  userArray := []

/-! ## Functions -/

/-- `_addUser`. -/
def addUser (addrUser : Address) : EStateM Revert ERC20 PUnit :=
  modify fun s ↦
    (s.updateUser addrUser fun u ↦
      { u with index := s.userArray.length, addr := addrUser, tokens := 0 }).pushUser addrUser

/-- The body of the constructor: the placeholder, then the CFO registered with the whole
supply. -/
def constructor (cfoAddr : Address) : EStateM Revert ERC20 PUnit := do
  modify fun s ↦ s.pushUser 0
  addUser cfoAddr
  modify fun s ↦ s.updateUser cfoAddr fun u ↦ { u with tokens := s.totalSupply }

/-- The contract as deployed by `sender` with `cfoAddr` as CFO. -/
def deployed (sender cfoAddr : Address) : ERC20 :=
  finalState (constructor cfoAddr (ERC20.initial sender cfoAddr))

/-- One round of the loop of `_checkUnlock` on a locked grant, at block time `now`, with the
user's free tokens so far. -/
def unlockLocked (now tokens : Uint256) (locked : LockedToken) :
    Except Revert (Uint256 × LockedToken) := do
  if locked.balance ≤ 0 then return (tokens, locked)
  let diff ← sub now locked.unlockLast
  let unlockUnit ← div locked.total locked.periods
  let periodDuration ← div locked.duration locked.periods
  let unlockedPeriods ← div (← sub locked.total locked.balance) unlockUnit
  let periodsToUnlock ← div diff periodDuration
  if periodsToUnlock > 0 then
    -- the sum of the periods is unchecked and wraps
    let tokenToUnlock ←
      if unlockedPeriods + periodsToUnlock ≥ locked.periods then pure locked.balance
      else mul unlockUnit periodsToUnlock
    let tokenToUnlock := if tokenToUnlock ≥ locked.balance then locked.balance else tokenToUnlock
    let balance ← sub locked.balance tokenToUnlock
    let tokens ← add tokens tokenToUnlock
    let unlockLast ← add locked.unlockLast (← mul periodDuration periodsToUnlock)
    return (tokens, { locked with balance, unlockLast })
  else return (tokens, locked)

/-- The loop of `_checkUnlock` over a user's locked grants, in order. -/
def unlockAll (now : Uint256) : Uint256 → List LockedToken → Except Revert (Uint256 × List LockedToken)
  | tokens, [] => pure (tokens, [])
  | tokens, locked :: rest => do
    let (tokens, locked) ← unlockLocked now tokens locked
    let (tokens, rest) ← unlockAll now tokens rest
    return (tokens, locked :: rest)

/-- `_checkUnlock`: moves what has come unlocked of a registered user's grants to the free
tokens. -/
def checkUnlock (addrUser : Address) (now : Uint256) : EStateM Revert ERC20 PUnit := do
  let user := (← get).userMap addrUser
  if user.index = 0 then return
  let (tokens, lockedTokens) ← liftExcept (unlockAll now user.tokens user.lockedTokens)
  modify fun s ↦ s.updateUser addrUser fun u ↦ { u with tokens, lockedTokens }

/-- The modifier `whenNotPaused`. -/
def whenNotPaused : EStateM Revert ERC20 PUnit := do
  require (¬(← get).paused) ""

/-- `transfer`. -/
def transfer (sender toAddr : Address) (value now : Uint256) : EStateM Revert ERC20 Bool := do
  whenNotPaused
  require (sender ≠ toAddr) ""
  checkUnlock sender now
  require (((← get).userMap sender).tokens ≥ value) ""
  let tokens ← liftExcept (sub ((← get).userMap sender).tokens value)
  modify fun s ↦ s.updateUser sender fun u ↦ { u with tokens }
  if ((← get).userMap toAddr).index = 0 then addUser toAddr
  let tokens ← liftExcept (add ((← get).userMap toAddr).tokens value)
  modify fun s ↦ s.updateUser toAddr fun u ↦ { u with tokens }
  return true

/-- `grant`: `value` tokens locked for `_duration` months, unlocked over `_periods` periods. -/
def grant (sender toAddr : Address) (value duration periods now : Uint256) :
    EStateM Revert ERC20 Bool := do
  whenNotPaused
  require (sender ≠ toAddr) ""
  checkUnlock sender now
  require (((← get).userMap sender).tokens ≥ value) ""
  let tokens ← liftExcept (sub ((← get).userMap sender).tokens value)
  modify fun s ↦ s.updateUser sender fun u ↦ { u with tokens }
  if ((← get).userMap toAddr).index = 0 then addUser toAddr
  -- `30 days` in seconds
  let duration ← liftExcept (mul duration 2592000)
  let locked : LockedToken :=
    { total := value, duration, periods, balance := value, unlockLast := now }
  modify fun s ↦ s.updateUser toAddr fun u ↦ { u with lockedTokens := u.lockedTokens ++ [locked] }
  return true

/-- `transferFrom` and `approve`: nothing but the pause check. -/
def noOp : EStateM Revert ERC20 Bool := do
  whenNotPaused
  return true

/-- `pause`. -/
def pause (sender : Address) : EStateM Revert ERC20 PUnit := do
  require (sender = (← get).ceoAddress) ""
  whenNotPaused
  modify fun s ↦ { s with paused := true }

/-- `unpause`. -/
def unpause (sender : Address) : EStateM Revert ERC20 PUnit := do
  require (sender = (← get).ceoAddress) ""
  require (← get).paused ""
  modify fun s ↦ { s with paused := false }

/-- `setCEO`. -/
def setCEO (sender newCEO : Address) : EStateM Revert ERC20 PUnit := do
  require (sender = (← get).ceoAddress) ""
  require (newCEO ≠ 0) ""
  modify fun s ↦ { s with ceoAddress := newCEO }

/-- The functions of the contract that write storage, with their arguments. -/
inductive Call where
  | transfer (toAddr : Address) (value : Uint256)
  | transferFrom
  | approve
  | grant (toAddr : Address) (value duration periods : Uint256)
  | pause
  | unpause
  | setCEO (newCEO : Address)

/-- A call from `sender` at block time `now`. -/
def Call.run (sender : Address) (now : Uint256) : Call → EStateM Revert ERC20 PUnit
  | .transfer toAddr value => discard (ChainLock.transfer sender toAddr value now)
  | .transferFrom => discard noOp
  | .approve => discard noOp
  | .grant toAddr value duration periods =>
    discard (ChainLock.grant sender toAddr value duration periods now)
  | .pause => ChainLock.pause sender
  | .unpause => ChainLock.unpause sender
  | .setCEO newCEO => ChainLock.setCEO sender newCEO

/-- The states of the contract after its deployment and any transactions, from any senders at
any block times, each of which succeeded or reverted. -/
inductive Reachable : ERC20 → Prop
  | deploy (sender cfoAddr : Address) : Reachable (deployed sender cfoAddr)
  | call {s : ERC20} (sender : Address) (now : Uint256) (c : Call) :
      Reachable s → Reachable (transact (c.run sender now) s)

/-! ## Views -/

/-- `balanceOf`: the free tokens and the locked balances of a registered user, added with
`BobbySafeMath.add`; zero for an address never registered. -/
def balanceOf (s : ERC20) (owner : Address) : Except Revert Uint256 :=
  let user := s.userMap owner
  if user.index = 0 then pure 0
  else user.lockedTokens.foldlM (fun balance locked ↦ add balance locked.balance) user.tokens

/-! ## What the safe arithmetic computes -/

theorem add_ok {a b c : Uint256} (h : add a b = .ok c) : c.val = a.val + b.val := by
  unfold add at h
  dsimp only at h
  split_ifs at h with hle
  · cases h
    exact val_add_of_le hle

theorem sub_ok {a b c : Uint256} (h : sub a b = .ok c) : b ≤ a ∧ c.val = a.val - b.val := by
  unfold sub at h
  split_ifs at h with hle
  · cases h
    exact ⟨hle, val_sub_of_le hle⟩

theorem add_of_lt (a b : Uint256) (h : a.val + b.val < 2 ^ 256) :
    add a b = .ok ⟨a.val + b.val, h⟩ := by
  have hval : a + b = ⟨a.val + b.val, h⟩ := Fin.ext (by rw [Fin.val_add, Nat.mod_eq_of_lt h])
  have hle : a ≤ a + b := by
    rw [Fin.le_def, hval]
    exact Nat.le_add_right a.val b.val
  unfold add
  dsimp only
  rw [if_pos hle, hval]
  rfl

/-! ## What a user holds -/

/-- The free tokens and the locked balances of a user. -/
def holdings (u : UserToken) : Nat :=
  u.tokens.val + (u.lockedTokens.map fun locked ↦ locked.balance.val).sum

theorem unlockLocked_ok {now tokens tokens' : Uint256} {locked locked' : LockedToken}
    (h : unlockLocked now tokens locked = .ok (tokens', locked')) :
    tokens'.val + locked'.balance.val = tokens.val + locked.balance.val := by
  unfold unlockLocked at h
  split_ifs at h with hzero
  · cases h
    rfl
  obtain ⟨diff, -, h⟩ := except_bind_eq_ok.1 h
  obtain ⟨unlockUnit, -, h⟩ := except_bind_eq_ok.1 h
  obtain ⟨periodDuration, -, h⟩ := except_bind_eq_ok.1 h
  obtain ⟨unlocked, -, h⟩ := except_bind_eq_ok.1 h
  obtain ⟨unlockedPeriods, -, h⟩ := except_bind_eq_ok.1 h
  obtain ⟨periodsToUnlock, -, h⟩ := except_bind_eq_ok.1 h
  dsimp only at h
  by_cases hpos : periodsToUnlock > 0
  · rw [if_pos hpos] at h
    split_ifs at h
    all_goals
      obtain ⟨tokenToUnlock, -, h⟩ := except_bind_eq_ok.1 h
      obtain ⟨balance, hbalance, h⟩ := except_bind_eq_ok.1 h
      obtain ⟨moved, hmoved, h⟩ := except_bind_eq_ok.1 h
      obtain ⟨_, -, h⟩ := except_bind_eq_ok.1 h
      obtain ⟨_, -, h⟩ := except_bind_eq_ok.1 h
      cases h
      have hsub := sub_ok hbalance
      have hle := Fin.le_def.1 hsub.1
      have hadd := add_ok hmoved
      simp only
      omega
  · rw [if_neg hpos] at h
    cases h
    rfl

theorem unlockAll_ok {now : Uint256} : ∀ {tokens tokens' : Uint256} {ls ls' : List LockedToken},
    unlockAll now tokens ls = .ok (tokens', ls') →
    tokens'.val + (ls'.map fun locked ↦ locked.balance.val).sum =
      tokens.val + (ls.map fun locked ↦ locked.balance.val).sum
  | tokens, tokens', [], ls', h => by
    simp only [unlockAll, except_pure, Except.ok.injEq, Prod.mk.injEq] at h
    obtain ⟨rfl, rfl⟩ := h
    rfl
  | tokens, tokens', locked :: ls, ls', h => by
    obtain ⟨⟨tokens₁, locked₁⟩, h₁, h⟩ := except_bind_eq_ok.1 h
    obtain ⟨⟨tokens₂, ls₂⟩, h₂, h⟩ := except_bind_eq_ok.1 h
    simp only [except_pure, Except.ok.injEq, Prod.mk.injEq] at h
    obtain ⟨rfl, rfl⟩ := h
    have hfirst := unlockLocked_ok h₁
    have hrest := unlockAll_ok h₂
    simp only [List.map_cons, List.sum_cons]
    omega

theorem checkUnlock_ok {a : Address} {now : Uint256} {s s' : ERC20} {u : PUnit}
    (h : checkUnlock a now s = .ok u s') :
    ∃ user, s' = s.updateUser a (fun _ ↦ user) ∧ user.index = (s.userMap a).index ∧
      holdings user = holdings (s.userMap a) ∧ ((s.userMap a).index = 0 → user = s.userMap a) := by
  simp only [checkUnlock, bind_apply, get_apply] at h
  by_cases hidx : (s.userMap a).index = 0
  · simp only [hidx, ite_true, pure_apply, EStateM.Result.ok.injEq] at h
    obtain ⟨-, rfl⟩ := h
    refine ⟨s.userMap a, ?_, rfl, rfl, fun _ ↦ rfl⟩
    simp [ERC20.updateUser]
  · simp only [hidx, ite_false] at h
    cases hun : unlockAll now (s.userMap a).tokens (s.userMap a).lockedTokens with
    | error e => simp [hun] at h
    | ok r =>
      obtain ⟨tokens, lockedTokens⟩ := r
      simp only [hun] at h
      obtain ⟨-, rfl⟩ := h
      refine ⟨{ s.userMap a with tokens, lockedTokens }, rfl, rfl, ?_, fun h0 ↦ absurd h0 hidx⟩
      simpa [holdings] using unlockAll_ok hun

/-! ## The books of the token -/

/-- What the contract holds in all: the free and locked tokens of every address. -/
noncomputable def total (s : ERC20) : Nat :=
  ∑ a, holdings (s.userMap a)

theorem total_pushUser (s : ERC20) (a : Address) : total (s.pushUser a) = total s := rfl

theorem total_updateUser (s : ERC20) (a : Address) (f : UserToken → UserToken) :
    total (s.updateUser a f) + holdings (s.userMap a) = total s + holdings (f (s.userMap a)) := by
  have hfun : (fun b ↦ holdings ((s.updateUser a f).userMap b)) =
      Function.update (fun b ↦ holdings (s.userMap b)) a (holdings (f (s.userMap a))) := by
    funext b
    simp only [ERC20.updateUser]
    exact Function.apply_update (fun _ ↦ holdings) s.userMap a _ b
  simp only [total, hfun, Finset.sum_update_of_mem (Finset.mem_univ a)]
  rw [← Finset.sum_erase_add _ _ (Finset.mem_univ a), Finset.sdiff_singleton_eq_erase]
  omega

/-- The registration records: the placeholder, each registered user once in the array, and
nothing held by an address never registered. -/
structure Books (s : ERC20) : Prop where
  placeholder : s.userArray ≠ []
  nodup : (s.userArray.drop 1).Nodup
  registered : ∀ a, a ∈ s.userArray.drop 1 ↔ (s.userMap a).index ≠ 0
  unregisteredEmpty : ∀ a, (s.userMap a).index = 0 →
    (s.userMap a).tokens = 0 ∧ (s.userMap a).lockedTokens = []

theorem holdings_le_total (s : ERC20) (a : Address) : holdings (s.userMap a) ≤ total s :=
  Finset.single_le_sum (fun b _ ↦ Nat.zero_le (holdings (s.userMap b))) (Finset.mem_univ a)

theorem total_setTokens (s : ERC20) (a : Address) (t : Uint256) :
    total (s.updateUser a fun u ↦ { u with tokens := t }) + (s.userMap a).tokens.val =
      total s + t.val := by
  have hsum := total_updateUser s a fun u ↦ { u with tokens := t }
  simp only [holdings] at hsum
  omega

theorem total_pushLocked (s : ERC20) (a : Address) (locked : LockedToken) :
    total (s.updateUser a fun u ↦ { u with lockedTokens := u.lockedTokens ++ [locked] }) =
      total s + locked.balance.val := by
  have hsum := total_updateUser s a fun u ↦ { u with lockedTokens := u.lockedTokens ++ [locked] }
  simp only [holdings, List.map_append, List.sum_append, List.map_cons, List.map_nil,
    List.sum_cons, List.sum_nil] at hsum
  omega

theorem holdings_of_unregistered {s : ERC20} (hb : Books s) {a : Address}
    (h : (s.userMap a).index = 0) : holdings (s.userMap a) = 0 := by
  obtain ⟨ht, hl⟩ := hb.unregisteredEmpty a h
  simp [holdings, ht, hl]

theorem Books.updateUser {s : ERC20} (hb : Books s) {a : Address} {f : UserToken → UserToken}
    (hindex : (f (s.userMap a)).index = (s.userMap a).index)
    (hempty : (s.userMap a).index = 0 →
      (f (s.userMap a)).tokens = 0 ∧ (f (s.userMap a)).lockedTokens = []) :
    Books (s.updateUser a f) := by
  refine ⟨hb.placeholder, hb.nodup, fun b ↦ ?_, fun b ↦ ?_⟩
  · change b ∈ s.userArray.drop 1 ↔ _
    rw [hb.registered]
    by_cases hab : b = a
    · subst hab
      simp [ERC20.updateUser, hindex]
    · simp [ERC20.updateUser, hab]
  · by_cases hab : b = a
    · subst hab
      simpa [ERC20.updateUser, hindex] using hempty
    · simpa [ERC20.updateUser, hab] using hb.unregisteredEmpty b

theorem Books.setTokens {s : ERC20} (hb : Books s) {a : Address} {t : Uint256}
    (h0 : (s.userMap a).index = 0 → t = 0) :
    Books (s.updateUser a fun u ↦ { u with tokens := t }) :=
  hb.updateUser rfl fun hidx ↦ ⟨h0 hidx, (hb.unregisteredEmpty a hidx).2⟩

theorem checkUnlock_books {a : Address} {now : Uint256} {s s' : ERC20} {u : PUnit} (hb : Books s)
    (h : checkUnlock a now s = .ok u s') :
    Books s' ∧ total s' = total s ∧ s'.totalSupply = s.totalSupply := by
  obtain ⟨user, rfl, hidx, hhold, hunreg⟩ := checkUnlock_ok h
  have hsum := total_updateUser s a fun _ ↦ user
  refine ⟨hb.updateUser hidx fun h0 ↦ ?_, by omega, rfl⟩
  rw [hunreg h0]
  exact hb.unregisteredEmpty a h0

theorem addUser_ok {s s' : ERC20} (hb : Books s) {a : Address} (h0 : (s.userMap a).index = 0)
    {u : PUnit} (h : addUser a s = .ok u s') :
    Books s' ∧ total s' = total s ∧ s'.totalSupply = s.totalSupply ∧ (s'.userMap a).index ≠ 0 := by
  simp only [addUser, modify_apply, EStateM.Result.ok.injEq] at h
  obtain ⟨-, rfl⟩ := h
  have hpos : s.userArray.length ≠ 0 := by simpa using hb.placeholder
  have hnew : a ∉ s.userArray.drop 1 := fun hmem ↦ (hb.registered a).1 hmem h0
  have hdrop : (s.userArray ++ [a]).drop 1 = s.userArray.drop 1 ++ [a] :=
    List.drop_append_of_le_length (by omega)
  refine ⟨⟨by simp [ERC20.pushUser], ?_, fun b ↦ ?_, fun b ↦ ?_⟩, ?_, rfl, ?_⟩
  · simp only [ERC20.pushUser, ERC20.updateUser]
    rw [hdrop]
    exact hb.nodup.append (List.nodup_singleton a) (by simpa using hnew)
  · simp only [ERC20.pushUser, ERC20.updateUser]
    rw [hdrop, List.mem_append, hb.registered]
    by_cases hab : b = a
    · subst hab
      simp [hpos]
    · simp [hab]
  · by_cases hab : b = a
    · subst hab
      simp [ERC20.pushUser, ERC20.updateUser, hpos]
    · simpa [ERC20.pushUser, ERC20.updateUser, hab] using hb.unregisteredEmpty b
  · have hsum := total_updateUser s a
      (fun u ↦ { u with index := s.userArray.length, addr := a, tokens := 0 })
    obtain ⟨htokens, hlocked⟩ := hb.unregisteredEmpty a h0
    simp only [holdings, htokens, hlocked, List.map_nil, List.sum_nil, Fin.val_zero,
      add_zero] at hsum
    rw [total_pushUser, hsum]
  · simp [ERC20.pushUser, ERC20.updateUser, hpos]

/-! ## Every call keeps the books -/

theorem whenNotPaused_ok {s s' : ERC20} {u : PUnit} (h : whenNotPaused s = .ok u s') :
    s.paused = false ∧ s = s' := by
  obtain ⟨_, s₁, hget, h⟩ := bind_eq_ok.1 h
  obtain ⟨rfl, rfl⟩ := get_eq_ok.1 hget
  simpa using require_eq_ok.1 h


theorem debit_ok {sender toAddr : Address} {value now : Uint256} {β : Type}
    {k : EStateM Revert ERC20 β} {s s' : ERC20} {r : β} (hb : Books s)
    (h : (do
      whenNotPaused
      require (sender ≠ toAddr) ""
      checkUnlock sender now
      require (((← get).userMap sender).tokens ≥ value) ""
      let tokens ← liftExcept (sub ((← get).userMap sender).tokens value)
      modify fun (s : ERC20) ↦ s.updateUser sender fun u ↦ { u with tokens }
      k : EStateM Revert ERC20 β) s = .ok r s') :
    ∃ s₁, Books s₁ ∧ total s₁ + value.val = total s ∧ s₁.totalSupply = s.totalSupply ∧
      k s₁ = .ok r s' := by
  obtain ⟨⟨⟩, s₁, h₁, hrest₁⟩ := bind_eq_ok.1 h
  obtain ⟨-, rfl⟩ := whenNotPaused_ok h₁
  obtain ⟨⟨⟩, s₂, h₂, hrest₂⟩ := bind_eq_ok.1 hrest₁
  obtain ⟨-, rfl⟩ := require_eq_ok.1 h₂
  obtain ⟨⟨⟩, s₃, h₃, hrest₃⟩ := bind_eq_ok.1 hrest₂
  obtain ⟨hb₃, htotal₃, hsupply₃⟩ := checkUnlock_books hb h₃
  obtain ⟨_, s₄, h₄, hrest₄⟩ := bind_eq_ok.1 hrest₃
  obtain ⟨rfl, rfl⟩ := get_eq_ok.1 h₄
  obtain ⟨⟨⟩, s₅, h₅, hrest₅⟩ := bind_eq_ok.1 hrest₄
  obtain ⟨-, rfl⟩ := require_eq_ok.1 h₅
  obtain ⟨_, s₆, h₆, hrest₆⟩ := bind_eq_ok.1 hrest₅
  obtain ⟨rfl, rfl⟩ := get_eq_ok.1 h₆
  obtain ⟨tokens, s₇, h₇, hrest₇⟩ := bind_eq_ok.1 hrest₆
  obtain ⟨hsub, rfl⟩ := liftExcept_eq_ok.1 h₇
  obtain ⟨hle, htokens⟩ := sub_ok hsub
  obtain ⟨⟨⟩, s₈, h₈, hrest₈⟩ := bind_eq_ok.1 hrest₇
  obtain rfl := modify_eq_ok.1 h₈
  have hle := Fin.le_def.1 hle
  have hsum := total_setTokens s₃ sender tokens
  refine ⟨_, hb₃.setTokens fun h0 ↦ ?_, by omega, hsupply₃, hrest₈⟩
  have hzero := (hb₃.unregisteredEmpty sender h0).1
  rw [hzero] at htokens
  exact Fin.ext (by simpa using htokens)

theorem register_ok {toAddr : Address} {β : Type} {k : EStateM Revert ERC20 β} {s s' : ERC20}
    {r : β} (hb : Books s)
    (h : (do
      if ((← get).userMap toAddr).index = 0 then addUser toAddr
      k : EStateM Revert ERC20 β) s = .ok r s') :
    ∃ s₁, Books s₁ ∧ total s₁ = total s ∧ s₁.totalSupply = s.totalSupply ∧
      (s₁.userMap toAddr).index ≠ 0 ∧ k s₁ = .ok r s' := by
  obtain ⟨_, s₁, h₁, hrest₁⟩ := bind_eq_ok.1 h
  obtain ⟨rfl, rfl⟩ := get_eq_ok.1 h₁
  dsimp only at hrest₁
  split_ifs at hrest₁ with h0
  · obtain ⟨⟨⟩, s₂, h₂, hrest₂⟩ := bind_eq_ok.1 hrest₁
    obtain ⟨hb₂, htotal₂, hsupply₂, hidx₂⟩ := addUser_ok hb h0 h₂
    exact ⟨s₂, hb₂, htotal₂, hsupply₂, hidx₂, hrest₂⟩
  · exact ⟨s, hb, rfl, rfl, h0, hrest₁⟩

theorem transfer_books {sender toAddr : Address} {value now : Uint256} {s s' : ERC20} {r : Bool}
    (hb : Books s) (h : transfer sender toAddr value now s = .ok r s') :
    Books s' ∧ total s' = total s ∧ s'.totalSupply = s.totalSupply := by
  obtain ⟨s₁, hb₁, htotal₁, hsupply₁, h₁⟩ := debit_ok hb h
  obtain ⟨s₂, hb₂, htotal₂, hsupply₂, hreg, h₂⟩ := register_ok hb₁ h₁
  obtain ⟨_, s₃, h₃, hrest₃⟩ := bind_eq_ok.1 h₂
  obtain ⟨rfl, rfl⟩ := get_eq_ok.1 h₃
  obtain ⟨tokens, s₄, h₄, hrest₄⟩ := bind_eq_ok.1 hrest₃
  obtain ⟨hadd, rfl⟩ := liftExcept_eq_ok.1 h₄
  obtain ⟨⟨⟩, s₅, h₅, hrest₅⟩ := bind_eq_ok.1 hrest₄
  obtain rfl := modify_eq_ok.1 h₅
  obtain ⟨-, rfl⟩ := pure_eq_ok.1 hrest₅
  have hsum := total_setTokens s₂ toAddr tokens
  have hcredit := add_ok hadd
  exact ⟨hb₂.setTokens fun h0 ↦ absurd h0 hreg, by omega, hsupply₂.trans hsupply₁⟩

theorem grant_books {sender toAddr : Address} {value duration periods now : Uint256}
    {s s' : ERC20} {r : Bool} (hb : Books s)
    (h : grant sender toAddr value duration periods now s = .ok r s') :
    Books s' ∧ total s' = total s ∧ s'.totalSupply = s.totalSupply := by
  obtain ⟨s₁, hb₁, htotal₁, hsupply₁, h₁⟩ := debit_ok hb h
  obtain ⟨s₂, hb₂, htotal₂, hsupply₂, hreg, h₂⟩ := register_ok hb₁ h₁
  obtain ⟨duration', s₃, h₃, hrest₃⟩ := bind_eq_ok.1 h₂
  obtain ⟨-, rfl⟩ := liftExcept_eq_ok.1 h₃
  obtain ⟨⟨⟩, s₄, h₄, hrest₄⟩ := bind_eq_ok.1 hrest₃
  obtain rfl := modify_eq_ok.1 h₄
  obtain ⟨-, rfl⟩ := pure_eq_ok.1 hrest₄
  have hsum := total_pushLocked s₂ toAddr
    { total := value, duration := duration', periods, balance := value, unlockLast := now }
  refine ⟨hb₂.updateUser rfl fun h0 ↦ absurd h0 hreg, ?_, hsupply₂.trans hsupply₁⟩
  rw [hsum, htotal₂, ← htotal₁]

/-- The functions that touch neither the users nor the supply. -/
def KeepsBooks (s s' : ERC20) : Prop :=
  s'.userMap = s.userMap ∧ s'.userArray = s.userArray ∧ s'.totalSupply = s.totalSupply

theorem noOp_keepsBooks {s s' : ERC20} {r : Bool} (h : noOp s = .ok r s') : KeepsBooks s s' := by
  obtain ⟨⟨⟩, s₁, h₁, hrest₁⟩ := bind_eq_ok.1 h
  obtain ⟨-, rfl⟩ := whenNotPaused_ok h₁
  obtain ⟨-, rfl⟩ := pure_eq_ok.1 hrest₁
  exact ⟨rfl, rfl, rfl⟩

theorem pause_keepsBooks {sender : Address} {s s' : ERC20} {u : PUnit}
    (h : pause sender s = .ok u s') : KeepsBooks s s' := by
  obtain ⟨_, s₁, h₁, hrest₁⟩ := bind_eq_ok.1 h
  obtain ⟨rfl, rfl⟩ := get_eq_ok.1 h₁
  obtain ⟨⟨⟩, s₂, h₂, hrest₂⟩ := bind_eq_ok.1 hrest₁
  obtain ⟨-, rfl⟩ := require_eq_ok.1 h₂
  obtain ⟨⟨⟩, s₃, h₃, hrest₃⟩ := bind_eq_ok.1 hrest₂
  obtain ⟨-, rfl⟩ := whenNotPaused_ok h₃
  obtain rfl := modify_eq_ok.1 hrest₃
  exact ⟨rfl, rfl, rfl⟩

theorem unpause_keepsBooks {sender : Address} {s s' : ERC20} {u : PUnit}
    (h : unpause sender s = .ok u s') : KeepsBooks s s' := by
  obtain ⟨_, s₁, h₁, hrest₁⟩ := bind_eq_ok.1 h
  obtain ⟨rfl, rfl⟩ := get_eq_ok.1 h₁
  obtain ⟨⟨⟩, s₂, h₂, hrest₂⟩ := bind_eq_ok.1 hrest₁
  obtain ⟨-, rfl⟩ := require_eq_ok.1 h₂
  obtain ⟨_, s₃, h₃, hrest₃⟩ := bind_eq_ok.1 hrest₂
  obtain ⟨rfl, rfl⟩ := get_eq_ok.1 h₃
  obtain ⟨⟨⟩, s₄, h₄, hrest₄⟩ := bind_eq_ok.1 hrest₃
  obtain ⟨-, rfl⟩ := require_eq_ok.1 h₄
  obtain rfl := modify_eq_ok.1 hrest₄
  exact ⟨rfl, rfl, rfl⟩

theorem setCEO_keepsBooks {sender newCEO : Address} {s s' : ERC20} {u : PUnit}
    (h : setCEO sender newCEO s = .ok u s') : KeepsBooks s s' := by
  obtain ⟨_, s₁, h₁, hrest₁⟩ := bind_eq_ok.1 h
  obtain ⟨rfl, rfl⟩ := get_eq_ok.1 h₁
  obtain ⟨⟨⟩, s₂, h₂, hrest₂⟩ := bind_eq_ok.1 hrest₁
  obtain ⟨-, rfl⟩ := require_eq_ok.1 h₂
  obtain ⟨⟨⟩, s₃, h₃, hrest₃⟩ := bind_eq_ok.1 hrest₂
  obtain ⟨-, rfl⟩ := require_eq_ok.1 h₃
  obtain rfl := modify_eq_ok.1 hrest₃
  exact ⟨rfl, rfl, rfl⟩

theorem KeepsBooks.books {s s' : ERC20} (hkeep : KeepsBooks s s') (hb : Books s) :
    Books s' ∧ total s' = total s ∧ s'.totalSupply = s.totalSupply := by
  obtain ⟨hmap, harr, hsupply⟩ := hkeep
  refine ⟨⟨?_, ?_, ?_, ?_⟩, ?_, hsupply⟩
  all_goals simp only [total, hmap, harr]
  exacts [hb.placeholder, hb.nodup, hb.registered, hb.unregisteredEmpty]

/-- Every call keeps the books, the total and the supply. -/
theorem run_books (sender : Address) (now : Uint256) (c : Call) {s s' : ERC20} {u : PUnit}
    (hb : Books s) (h : c.run sender now s = .ok u s') :
    Books s' ∧ total s' = total s ∧ s'.totalSupply = s.totalSupply := by
  cases c with
  | transfer toAddr value =>
    obtain ⟨r, hrun⟩ := discard_eq_ok.1 h
    exact transfer_books hb hrun
  | transferFrom =>
    obtain ⟨r, hrun⟩ := discard_eq_ok.1 h
    exact (noOp_keepsBooks hrun).books hb
  | approve =>
    obtain ⟨r, hrun⟩ := discard_eq_ok.1 h
    exact (noOp_keepsBooks hrun).books hb
  | grant toAddr value duration periods =>
    obtain ⟨r, hrun⟩ := discard_eq_ok.1 h
    exact grant_books hb hrun
  | pause => exact (pause_keepsBooks h).books hb
  | unpause => exact (unpause_keepsBooks h).books hb
  | setCEO newCEO => exact (setCEO_keepsBooks h).books hb

/-! ## Conservation of the supply -/

theorem deployed_books (sender cfoAddr : Address) :
    Books (deployed sender cfoAddr) ∧
      total (deployed sender cfoAddr) = (deployed sender cfoAddr).totalSupply.val := by
  have hrun : constructor cfoAddr (ERC20.initial sender cfoAddr) =
      .ok ⟨⟩ (deployed sender cfoAddr) := rfl
  obtain ⟨⟨⟩, s₁, h₁, hrest₁⟩ := bind_eq_ok.1 hrun
  obtain rfl := modify_eq_ok.1 h₁
  have hb₁ : Books ((ERC20.initial sender cfoAddr).pushUser 0) :=
    ⟨by simp [ERC20.pushUser, ERC20.initial], by simp [ERC20.pushUser, ERC20.initial],
      fun a ↦ by simp [ERC20.pushUser, ERC20.initial, UserToken.zero],
      fun a _ ↦ by simp [ERC20.pushUser, ERC20.initial, UserToken.zero]⟩
  have htotal₁ : total ((ERC20.initial sender cfoAddr).pushUser 0) = 0 := by
    simp [total, holdings, ERC20.pushUser, ERC20.initial, UserToken.zero]
  obtain ⟨⟨⟩, s₂, h₂, hrest₂⟩ := bind_eq_ok.1 hrest₁
  obtain ⟨hb₂, htotal₂, -, hidx₂⟩ := addUser_ok hb₁ rfl h₂
  have hsum := total_setTokens s₂ cfoAddr s₂.totalSupply
  have hheld := holdings_le_total s₂ cfoAddr
  simp only [holdings] at hheld
  rw [modify_eq_ok.1 hrest₂]
  refine ⟨hb₂.setTokens fun h0 ↦ absurd h0 hidx₂, ?_⟩
  change total (s₂.updateUser cfoAddr fun u ↦ { u with tokens := s₂.totalSupply }) =
    s₂.totalSupply.val
  omega

theorem Reachable.books {s : ERC20} (h : Reachable s) : Books s ∧ total s = s.totalSupply.val := by
  induction h with
  | deploy sender cfoAddr => exact deployed_books sender cfoAddr
  | call sender now c _ ih =>
    have hstep : ∀ s s' u, Books s ∧ total s = s.totalSupply.val →
        c.run sender now s = .ok u s' → Books s' ∧ total s' = s'.totalSupply.val := by
      rintro s s' u ⟨hb, htotal⟩ hrun
      obtain ⟨hb', htotal', hsupply'⟩ := run_books sender now c hb hrun
      exact ⟨hb', by rw [htotal', htotal, hsupply']⟩
    exact transact_preserves hstep ih

theorem foldlM_add_ok : ∀ (ls : List LockedToken) (acc : Uint256)
    (h : acc.val + (ls.map fun locked ↦ locked.balance.val).sum < 2 ^ 256),
    ls.foldlM (fun balance locked ↦ add balance locked.balance) acc =
      .ok ⟨acc.val + (ls.map fun locked ↦ locked.balance.val).sum, h⟩
  | [], acc, _ => by simp
  | locked :: ls, acc, h => by
    have hsum : acc.val + locked.balance.val + (ls.map fun locked ↦ locked.balance.val).sum =
        acc.val + ((locked :: ls).map fun locked ↦ locked.balance.val).sum := by
      simp only [List.map_cons, List.sum_cons, Nat.add_assoc]
    rw [List.foldlM_cons, add_of_lt acc locked.balance (by omega), except_ok_bind,
      foldlM_add_ok ls _ (by simp only [hsum]; exact h)]
    simp only [hsum]

theorem balanceOf_eq_holdings {s : ERC20} (hb : Books s) (htotal : total s < 2 ^ 256)
    (a : Address) :
    balanceOf s a = .ok ⟨holdings (s.userMap a), (holdings_le_total s a).trans_lt htotal⟩ := by
  unfold balanceOf
  dsimp only
  split_ifs with h0
  · simp only [except_pure, Except.ok.injEq]
    exact Fin.ext (holdings_of_unregistered hb h0).symm
  · exact foldlM_add_ok _ _ _

theorem sum_holdings_registered {s : ERC20} (hb : Books s) :
    ((s.userArray.drop 1).map fun a ↦ holdings (s.userMap a)).sum = total s := by
  rw [← List.sum_toFinset _ hb.nodup]
  apply Finset.sum_subset (Finset.subset_univ _)
  intro a _ hout
  apply holdings_of_unregistered hb
  by_contra hidx
  exact hout (List.mem_toFinset.2 ((hb.registered a).2 hidx))

theorem bobby_supply_conserved {s : ERC20} (h : Reachable s) :
    (s.userArray.drop 1).Nodup ∧ (∀ a, a ∈ s.userArray.drop 1 ↔ (s.userMap a).index ≠ 0) ∧
    ∃ balances, (s.userArray.drop 1).mapM (balanceOf s) = .ok balances ∧
      (balances.map Fin.val).sum = s.totalSupply.val := by
  obtain ⟨hb, htotal⟩ := h.books
  have hlt : total s < 2 ^ 256 := htotal ▸ s.totalSupply.isLt
  refine ⟨hb.nodup, hb.registered, _, mapM_eq_ok fun a _ ↦ balanceOf_eq_holdings hb hlt a, ?_⟩
  calc _ = ((s.userArray.drop 1).map fun a ↦ holdings (s.userMap a)).sum := by
        rw [List.map_map]
        rfl
    _ = total s := sum_holdings_registered hb
    _ = s.totalSupply.val := htotal

theorem deployed_supply_conserved :
    ((deployed 1 2).userArray.drop 1).Nodup ∧
    (∀ a, a ∈ (deployed 1 2).userArray.drop 1 ↔ ((deployed 1 2).userMap a).index ≠ 0) ∧
    ∃ balances, ((deployed 1 2).userArray.drop 1).mapM (balanceOf (deployed 1 2)) = .ok balances ∧
      (balances.map Fin.val).sum = (deployed 1 2).totalSupply.val :=
  bobby_supply_conserved (.deploy 1 2)

/-! ## A grant of fewer tokens than periods -/

/-- A grant whose unit per period, `total / periods`, is zero while something is still locked:
`_checkUnlock` then divides by the unit. -/
def LockedToken.Stuck (locked : LockedToken) : Prop :=
  0 < locked.balance ∧ locked.total / locked.periods = 0

/-- `_checkUnlock`'s round on a stuck grant reverts, at every time: either the time is before the
last unlock, or the periods are zero, or the count of unlocked periods divides by the zero
unit. -/
theorem unlockLocked_stuck {now tokens : Uint256} {locked : LockedToken} (hstuck : locked.Stuck) :
    ∃ e, unlockLocked now tokens locked = .error e := by
  obtain ⟨hbalance, hunit⟩ := hstuck
  unfold unlockLocked
  rw [if_neg (not_le.2 hbalance)]
  cases hdiff : sub now locked.unlockLast with
  | error e => exact ⟨e, rfl⟩
  | ok diff =>
    rw [except_ok_bind]
    by_cases hperiods : locked.periods = 0
    · exact ⟨.invalid, by simp [div, hperiods]⟩
    · have hdiv : ∀ a, div a locked.periods = .ok (a / locked.periods) := fun a ↦ if_neg hperiods
      rw [hdiv, except_ok_bind, hdiv, except_ok_bind, hunit]
      cases hsub : sub locked.total locked.balance with
      | error e => exact ⟨e, rfl⟩
      | ok unlocked => exact ⟨.invalid, by simp [div]⟩

theorem unlockAll_stuck {now : Uint256} {locked : LockedToken} (hstuck : locked.Stuck) :
    ∀ {tokens : Uint256} {ls : List LockedToken}, locked ∈ ls →
      ∃ e, unlockAll now tokens ls = .error e
  | _, [], hmem => absurd hmem List.not_mem_nil
  | tokens, l :: ls, hmem => by
    rw [unlockAll]
    cases hfirst : unlockLocked now tokens l with
    | error e => exact ⟨e, rfl⟩
    | ok r =>
      rcases List.mem_cons.1 hmem with rfl | hrest
      · obtain ⟨e, he⟩ := @unlockLocked_stuck now tokens _ hstuck
        rw [he] at hfirst
        cases hfirst
      · obtain ⟨e, he⟩ := @unlockAll_stuck now _ hstuck r.1 _ hrest
        refine ⟨e, ?_⟩
        rw [except_ok_bind]
        dsimp only
        rw [he]
        rfl

theorem transfer_stuck {s : ERC20} {a : Address} {locked : LockedToken}
    (hidx : (s.userMap a).index ≠ 0) (hmem : locked ∈ (s.userMap a).lockedTokens)
    (hstuck : locked.Stuck) (toAddr : Address) (value now : Uint256) :
    ∃ e, transfer a toAddr value now s = .error e s := by
  obtain ⟨e, he⟩ := @unlockAll_stuck now _ hstuck (s.userMap a).tokens _ hmem
  have hcheck : checkUnlock a now s = .error e s := by
    simp only [checkUnlock, bind_apply, get_apply, hidx, ite_false, he]
    rfl
  simp only [transfer, whenNotPaused, bind_apply, get_apply]
  by_cases hpaused : s.paused
  · exact ⟨.revert "", by simp [hpaused]⟩
  by_cases hself : a = toAddr
  · exact ⟨.revert "", by simp [hpaused, hself]⟩
  · exact ⟨e, by simp [hpaused, hself, hcheck]⟩

/-- The contract deployed by `1` with `2` as CFO, after the CFO sends `5` tokens to `3` and then
grants it `1` token for one month in `2` periods, both at time `100`. -/
def smallGrant : ERC20 :=
  transact ((Call.grant 3 1 1 2).run 2 100) (transact ((Call.transfer 3 5).run 2 100) (deployed 1 2))

/-- `grant` accepts one token over two periods, and from then on the recipient's `_checkUnlock`
reverts, so it can never move the five free tokens it holds. -/
theorem small_grant_freezes_tokens :
    Reachable smallGrant ∧ balanceOf smallGrant 3 = .ok 6 ∧
      ∀ toAddr value now, ∃ e, transfer 3 toAddr value now smallGrant = .error e smallGrant := by
  have hreach : Reachable smallGrant := .call 2 100 _ (.call 2 100 _ (.deploy 1 2))
  have hentry : smallGrant.userMap 3 =
      ⟨2, 3, 5, [{ total := 1, duration := 2592000, periods := 2, balance := 1, unlockLast := 100 }]⟩ :=
    rfl
  refine ⟨hreach, by decide, fun toAddr value now ↦ transfer_stuck (by rw [hentry]; decide)
    (by rw [hentry]; exact List.mem_singleton_self _) ⟨by decide, by decide⟩ toAddr value now⟩

end BokerChain.ChainLock
