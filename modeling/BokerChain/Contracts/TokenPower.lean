import BokerChain.Contracts.Voting
import BokerChain.Library.Frame

/-!
# Users' powers and the token assignment

`BokerUserData` keeps, for each user, the powers it holds (`longtermPower`, `shorttermPower`) and
what it did in the current assignment cycle: how long it watched each file (`watchTime`, the
files in `watchFiles`) and how many files it uploaded. `BokerTokenPower` turns user events into
these records. Once a cycle has ended, `assignToken` turns the records into short-term power
(`_calculateUserPower`: the watch power, shared with the files' owners, and the upload power),
pays the cycle's tokens out of `BokerFinance` in proportion to the powers, and clears the
records.

The watch ledger is meant to list each watched file once: exactly the files with a positive
time. It does so as long as every watch event has a positive time
(`watch_ledger_of_positive_watches`). A watch event of time zero lists its file with time zero,
and a later event for the same file lists it again. While such a user's total is zero,
`_calculateWatchPower` divides by it, so every `assignToken` after the cycle's end reverts, and
nothing but a positive watch of that user changes this (`zero_watch_blocks_assignment`).

One `assignToken` pays each user its two shares, `⌊T_l·l/L⌋ + ⌊T_s·s/S⌋`. These never add up to
more than the cycle's tokens, which `_assignTokensGet` caps by the balance
(`assignToken_pays_shares`). The bound rests on the user list staying well formed, each
registered user listed once, at its index (`Reachable.registry`).

Every function writes storage in one of a few ways, and the relations these writes keep are
kept by every function (`KeptByRecordWrites`, `KeptByLedgerWrites` and the `Keeps` rules).

`uint256` fields are `Uint256`, with `SafeMath`. A user's `index` is a natural number: the length
of `userArray` when the user registered, which no array grows long enough to wrap. The events
that add long-term power (`Register`, `LoginDaily`, `BindWallet`, `Certification`) are modelled
by their effect, an `increaseUserLongtermPower` of any amount. Left out: the logs, the manager's
role checks, `BokerFile`'s play counts, the owner's `withdraw` from `BokerFinance`, and the
fields no modelled function reads (the registration, login, certification and wallet times, and
the invited friends).
-/

namespace BokerChain.TokenPower

open Library.Imperative Library.Solidity

/-! ## Storage -/

/-- `BokerUserData.User`, the fields the power and assignment paths read and write. -/
structure User where
  index : ℕ
  watchTime : Uint256 → Uint256
  watchFiles : List Uint256
  uploadCount : Uint256
  longtermPower : Uint256
  shorttermPower : Uint256

/-- A user never written. -/
def User.zero : User := ⟨0, fun _ ↦ 0, [], 0, 0, 0⟩

/-- `UserPowerType`. -/
inductive UserPowerType where
  | longterm
  | shortterm
  deriving DecidableEq

/-- A user's power of one type. -/
def User.power (u : User) : UserPowerType → Uint256
  | .longterm => u.longtermPower
  | .shortterm => u.shorttermPower

/-- A user with its power of one type set. -/
def User.setPower (u : User) : UserPowerType → Uint256 → User
  | .longterm, value => { u with longtermPower := value }
  | .shortterm, value => { u with shorttermPower := value }

/-- The state of the contracts: `BokerUserData`'s users, the begin of the assignment cycle that
`BokerTokenPowerData` holds, the ether balance of `BokerFinance`, and the transfers it made (what
`BokerLog.financeLogAdd` records of each `grantTokenTo`), in order. -/
structure Store where
  users : Address → User
  userArray : List Address
  assignCycleBegin : Uint256
  finance : ℕ
  transfers : List (Address × Uint256)

/-- One user's record, rewritten. -/
def Store.updateUser (s : Store) (a : Address) (f : User → User) : Store :=
  { s with users := Function.update s.users a (f (s.users a)) }

/-- `getUserAddresses`: the users, without the placeholder at index 0. -/
def Store.userAddresses (s : Store) : List Address := s.userArray.drop 1

/-- The powers as `getUserAddresses` and `getUserPower` report them, which the token assignment
of `Contracts.Voting` reads. -/
def Store.powers (s : Store) : Node.UserData :=
  ⟨s.userAddresses, fun a ↦ (s.users a).longtermPower, fun a ↦ (s.users a).shorttermPower⟩

/-- The contracts as deployed at block time `now`: `userArray` holds the placeholder. -/
def Store.deployed (now : Uint256) : Store := ⟨fun _ ↦ User.zero, [0], now, 0, []⟩

/-- What the contracts read from outside the modelled storage. -/
structure Env where
  cfg : Node.Config
  /-- `CfgUploadCountMax`. -/
  uploadCountMax : Uint256
  /-- `CfgPowerWatchOwnerRatio`, in percent. -/
  powerWatchOwnerRatio : Uint256
  /-- `AddressUtil.isContract`. -/
  isContract : Address → Bool
  /-- `BokerFileData.fileOwnerGet`. -/
  fileOwnerGet : Uint256 → Address

/-! ## BokerUserData -/

/-- `_findAddUser`: a user not registered yet is appended to `userArray`. -/
def findAddUser (addr : Address) : EStateM Revert Store PUnit :=
  modify fun s ↦
    if (s.users addr).index ≤ 0 then
      { s.updateUser addr (fun u ↦ { u with index := s.userArray.length }) with
        userArray := s.userArray ++ [addr] }
    else s

/-- `addUserWatchTime`: a file whose time is still zero is listed, then its time grows. -/
def addUserWatchTime (env : Env) (addrUser : Address) (fileId watchTime : Uint256) :
    EStateM Revert Store PUnit := do
  if env.isContract addrUser then return
  findAddUser addrUser
  if ((← get).users addrUser).watchTime fileId ≤ 0 then
    modify fun s ↦ s.updateUser addrUser fun u ↦ { u with watchFiles := u.watchFiles ++ [fileId] }
  let time ← liftExcept (safeAdd (((← get).users addrUser).watchTime fileId) watchTime)
  modify fun s ↦ s.updateUser addrUser fun u ↦
    { u with watchTime := Function.update u.watchTime fileId time }

/-- `getUserWatchTime`: the total over the listed files, the files, and their times. -/
def getUserWatchTime (s : Store) (addrUser : Address) :
    Except Revert (Uint256 × List Uint256 × List Uint256) := do
  let user := s.users addrUser
  let watchTimes := user.watchFiles.map user.watchTime
  let watchTotal ← watchTimes.foldlM safeAdd 0
  return (watchTotal, user.watchFiles, watchTimes)

/-- `clearUserWatchTime`: the listed files' times deleted, then the list. -/
def clearUserWatchTime (addrUser : Address) : EStateM Revert Store PUnit := do
  findAddUser addrUser
  modify fun s ↦ s.updateUser addrUser fun u ↦
    { u with
      watchTime := u.watchFiles.foldl (fun w fileId ↦ Function.update w fileId 0) u.watchTime
      watchFiles := [] }

/-- `addUserUploadCount`. -/
def addUserUploadCount (env : Env) (addrUser : Address) (uploadCount : Uint256) :
    EStateM Revert Store PUnit := do
  if env.isContract addrUser then return
  findAddUser addrUser
  let count ← liftExcept (safeAdd ((← get).users addrUser).uploadCount uploadCount)
  modify fun s ↦ s.updateUser addrUser fun u ↦ { u with uploadCount := count }

/-- `clearUserUploadCount`. -/
def clearUserUploadCount (addrUser : Address) : EStateM Revert Store PUnit := do
  findAddUser addrUser
  modify fun s ↦ s.updateUser addrUser fun u ↦ { u with uploadCount := 0 }

/-- `setUserShorttermPower` and `setUserLongtermPower`: a contract is ignored, a user is
registered, and its power of the type is set. -/
def setUserPower (env : Env) (addrUser : Address) (type : UserPowerType) (value : Uint256) :
    EStateM Revert Store PUnit := do
  if env.isContract addrUser then return
  findAddUser addrUser
  modify fun s ↦ s.updateUser addrUser (·.setPower type value)

/-- `setUserShorttermPower`. -/
def setUserShorttermPower (env : Env) (addrUser : Address) (value : Uint256) :
    EStateM Revert Store PUnit :=
  setUserPower env addrUser .shortterm value

/-- `setUserLongtermPower`. -/
def setUserLongtermPower (env : Env) (addrUser : Address) (value : Uint256) :
    EStateM Revert Store PUnit :=
  setUserPower env addrUser .longterm value

/-! ## BokerUser -/

/-- `increaseUserShorttermPower` and `increaseUserLongtermPower`: nothing for a contract or a
zero value, else the power of the type grows by the value. -/
def increaseUserPower (env : Env) (addrUser : Address) (type : UserPowerType) (value : Uint256) :
    EStateM Revert Store PUnit := do
  if env.isContract addrUser then return
  if value = 0 then return
  let powerOld := ((← get).users addrUser).power type
  let powerNew ← liftExcept (safeAdd powerOld value)
  setUserPower env addrUser type powerNew

/-- `increaseUserShorttermPower`. -/
def increaseUserShorttermPower (env : Env) (addrUser : Address) (value : Uint256) :
    EStateM Revert Store PUnit :=
  increaseUserPower env addrUser .shortterm value

/-- `increaseUserLongtermPower`. -/
def increaseUserLongtermPower (env : Env) (addrUser : Address) (value : Uint256) :
    EStateM Revert Store PUnit :=
  increaseUserPower env addrUser .longterm value

/-- `clearUserShorttermPower`: nothing for a contract or a zero power, else the power is set to
zero. -/
def clearUserShorttermPower (env : Env) (addrUser : Address) : EStateM Revert Store PUnit := do
  if env.isContract addrUser then return
  if ((← get).users addrUser).shorttermPower = 0 then return
  setUserShorttermPower env addrUser 0

/-! ## BokerTokenPower: the powers -/

/-- `watchGetPower`'s `if` chain: for each range of watch times, the power. -/
def watchPowerTable : List (ℕ × ℕ × ℕ) :=
  [(1, 1, 1), (2, 2, 2), (3, 3, 3), (4, 4, 4), (5, 5, 5), (6, 6, 6), (7, 8, 7), (9, 9, 8),
    (10, 10, 9), (11, 11, 10), (12, 12, 11), (13, 14, 12), (15, 15, 13), (16, 16, 14),
    (17, 18, 15), (19, 19, 16), (20, 21, 17), (22, 22, 18), (23, 24, 19), (25, 26, 20),
    (27, 27, 21), (28, 29, 22), (30, 31, 23), (32, 33, 24), (34, 35, 25), (36, 37, 26),
    (38, 39, 27), (40, 41, 28), (42, 44, 29), (45, 46, 30), (47, 49, 31), (50, 51, 32),
    (52, 54, 33), (55, 57, 34), (58, 61, 35), (62, 64, 36), (65, 68, 37), (69, 72, 38),
    (73, 76, 39), (77, 81, 40), (82, 87, 41), (88, 93, 42), (94, 100, 43), (101, 108, 44),
    (109, 118, 45), (119, 130, 46), (131, 146, 47), (147, 170, 48), (171, 218, 49),
    (219, 300, 50)]

/-- `uploadGetPower`'s `if` chain: for each range of upload counts, the power. -/
def uploadPowerTable : List (ℕ × ℕ × ℕ) :=
  [(1, 1, 10), (2, 2, 19), (3, 3, 27), (4, 4, 34), (5, 5, 41), (6, 6, 47), (7, 7, 52),
    (8, 8, 57), (9, 9, 61), (10, 10, 65), (11, 11, 69), (12, 12, 72), (13, 13, 75),
    (14, 14, 77), (15, 15, 80), (16, 16, 82), (17, 17, 84), (18, 18, 85), (19, 19, 87),
    (20, 20, 88), (21, 21, 89), (22, 22, 91), (23, 24, 92), (25, 25, 93), (26, 26, 94),
    (27, 28, 95), (29, 30, 96), (31, 33, 97), (34, 37, 98), (38, 43, 99), (44, 50, 100)]

/-- `watchGetPower` and `uploadGetPower`: the value capped at its maximum, then the power of the
first range of the table that holds it, zero when none does. -/
def getPower (valueMax : Uint256) (table : List (ℕ × ℕ × ℕ)) (value : Uint256) : Uint256 :=
  let value := if value > valueMax then valueMax else value
  let power : ℕ := ((table.find? fun r ↦ r.1 ≤ value.val ∧ value.val ≤ r.2.1).map (·.2.2)).getD 0
  ⟨power % 2 ^ 256, Nat.mod_lt _ (Nat.two_pow_pos 256)⟩

/-- `watchGetPower`: the watch time is capped at `CfgAssignPeriod`. -/
def watchGetPower (cfg : Node.Config) (value : Uint256) : Uint256 :=
  getPower cfg.assignPeriod watchPowerTable value

/-- `uploadGetPower`: the upload count is capped at `CfgUploadCountMax`. -/
def uploadGetPower (env : Env) (value : Uint256) : Uint256 :=
  getPower env.uploadCountMax uploadPowerTable value

/-- The loop of `_calculateWatchPower` over the files watched: each file's power, the owner's
share credited to the file's owner, and the watcher's shares summed. -/
def calculateWatchPower.loop (env : Env) (watchTotal powerWatch : Uint256) :
    List (Uint256 × Uint256) → Uint256 → EStateM Revert Store Uint256
  | [], powerWatcher => pure powerWatcher
  | (fileId, watchTime) :: files, powerWatcher => do
    let powerFile ← liftExcept (do safeDiv (← safeMul watchTime powerWatch) watchTotal)
    let powerOwner ← liftExcept (do safeDiv (← safeMul powerFile env.powerWatchOwnerRatio) 100)
    let powerWatcher ← liftExcept (do safeAdd powerWatcher (← safeSub powerFile powerOwner))
    if powerOwner > 0 then
      increaseUserShorttermPower env (env.fileOwnerGet fileId) powerOwner
    loop env watchTotal powerWatch files powerWatcher

/-- `_calculateWatchPower`. -/
def calculateWatchPower (env : Env) (addrUser : Address) : EStateM Revert Store PUnit := do
  let (watchTotal, fileIds, watchTimes) ← liftExcept (getUserWatchTime (← get) addrUser)
  let powerWatch := watchGetPower env.cfg watchTotal
  let powerWatcher ←
    calculateWatchPower.loop env watchTotal powerWatch (fileIds.zip watchTimes) 0
  if powerWatcher > 0 then
    increaseUserShorttermPower env addrUser powerWatcher

/-- `_calculateUploadPower`. -/
def calculateUploadPower (env : Env) (addrUser : Address) : EStateM Revert Store PUnit := do
  let powerUpload := uploadGetPower env ((← get).users addrUser).uploadCount
  if powerUpload > 0 then
    increaseUserShorttermPower env addrUser powerUpload

/-- `_calculateUserPower`, over the users registered when it starts. -/
def calculateUserPower (env : Env) : EStateM Revert Store PUnit := do
  (← get).userAddresses.forM fun addrUser ↦ do
    calculateWatchPower env addrUser
    calculateUploadPower env addrUser

/-! ## BokerTokenPower: the assignment -/

/-- `BokerFinance.grantTokenTo`: `addrTo.transfer(amount)`, which fails when the balance is
short. -/
def grantTokenTo (addrTo : Address) (amount : Uint256) : EStateM Revert Store PUnit := do
  require (amount.val ≤ (← get).finance) ""
  modify fun s ↦
    { s with finance := s.finance - amount.val, transfers := s.transfers ++ [(addrTo, amount)] }

/-- One round of `_assignToken`: the user's shares, its records cleared, and the shares paid
unless the user is a contract. -/
def assignTo (env : Env) (longtermTokens shorttermTokens longtermPowerTotal shorttermPowerTotal :
    Uint256) (addrUser : Address) : EStateM Revert Store PUnit := do
  let user := (← get).users addrUser
  let tokensAssigned ← liftExcept (Node.tokensAssignedTo longtermTokens shorttermTokens
    longtermPowerTotal shorttermPowerTotal user.longtermPower user.shorttermPower)
  clearUserShorttermPower env addrUser
  clearUserWatchTime addrUser
  clearUserUploadCount addrUser
  if tokensAssigned > 0 ∧ !env.isContract addrUser then
    grantTokenTo addrUser tokensAssigned

/-- `assignToken`. -/
def assignToken (env : Env) (now : Uint256) : EStateM Revert Store PUnit := do
  if !(← liftExcept (Node.assignCycleIsEnd env.cfg now (← get).assignCycleBegin)) then return
  calculateUserPower env
  let (longtermTokens, shorttermTokens) ← liftExcept (Node.assignTokensGet env.cfg (← get).finance)
  let (longtermPowerTotal, shorttermPowerTotal) ← liftExcept (Node.userPowerGet (← get).powers)
  (← get).userAddresses.forM
    (assignTo env longtermTokens shorttermTokens longtermPowerTotal shorttermPowerTotal)
  let (_, start) ← liftExcept (Node.cycleAdvance now (← get).assignCycleBegin env.cfg.assignPeriod)
  modify fun s ↦ { s with assignCycleBegin := start }

/-! ## The calls -/

/-- The calls that reach these contracts. -/
inductive Call where
  /-- A `Watch` event of `addrFrom` for `addrTo`: `_onUserEventWatch(addrFrom, fileId, watchTime)`. -/
  | watch (addrFrom addrTo : Address) (fileId watchTime : Uint256)
  /-- An `Upload` event: `addUserUploadCount(addrFrom, 1)`. -/
  | upload (addrFrom addrTo : Address)
  /-- An event that adds long-term power. -/
  | increaseLongterm (addrUser : Address) (value : Uint256)
  /-- `assignToken`. -/
  | assignToken
  /-- Ether sent to `BokerFinance`, through its fallback function or `receiveTokenFrom`. -/
  | pay (value : Uint256)

/-- A call at block time `now`. `BokerUser.onUserEvent` drops an event from or for a contract. -/
def Call.run (env : Env) (now : Uint256) : Call → EStateM Revert Store PUnit
  | .watch addrFrom addrTo fileId watchTime =>
    if env.isContract addrFrom || env.isContract addrTo then pure ⟨⟩
    else addUserWatchTime env addrFrom fileId watchTime
  | .upload addrFrom addrTo =>
    if env.isContract addrFrom || env.isContract addrTo then pure ⟨⟩
    else addUserUploadCount env addrFrom 1
  | .increaseLongterm addrUser value => increaseUserLongtermPower env addrUser value
  | .assignToken => TokenPower.assignToken env now
  | .pay value => modify fun s ↦ { s with finance := s.finance + value.val }

/-- The states reached from a deployment by calls at any block times, each of which succeeded
or reverted. -/
inductive Reachable (env : Env) : Store → Prop
  | deploy (now : Uint256) : Reachable env (Store.deployed now)
  | call {s : Store} (now : Uint256) (c : Call) :
      Reachable env s → Reachable env (transact (c.run env now) s)

/-! ## The writes of the storage

Every function above writes storage in one of four ways: it registers a user (`_findAddUser`),
rewrites one user's record without touching its index, pays from `BokerFinance`, or moves the
begin of the cycle. A relation that each of these writes keeps is kept by every function, by
walking its body with the rules of `Keeps`; the three structures below name what a function's
writes are. -/

@[simp]
theorem Store.updateUser_users_self (s : Store) (a : Address) (f : User → User) :
    (s.updateUser a f).users a = f (s.users a) :=
  Function.update_self a _ s.users

@[simp]
theorem Store.updateUser_users_of_ne (s : Store) {a b : Address} (f : User → User) (h : b ≠ a) :
    (s.updateUser a f).users b = s.users b :=
  Function.update_of_ne h _ s.users

@[simp]
theorem Store.updateUser_userArray (s : Store) (a : Address) (f : User → User) :
    (s.updateUser a f).userArray = s.userArray := rfl

@[simp]
theorem Store.updateUser_finance (s : Store) (a : Address) (f : User → User) :
    (s.updateUser a f).finance = s.finance := rfl

@[simp]
theorem Store.updateUser_transfers (s : Store) (a : Address) (f : User → User) :
    (s.updateUser a f).transfers = s.transfers := rfl

@[simp]
theorem Store.updateUser_assignCycleBegin (s : Store) (a : Address) (f : User → User) :
    (s.updateUser a f).assignCycleBegin = s.assignCycleBegin := rfl

theorem Store.updateUser_updateUser (s : Store) (a : Address) (f g : User → User) :
    (s.updateUser a f).updateUser a g = s.updateUser a (g ∘ f) := by
  simp only [Store.updateUser, Function.update_self, Function.update_idem, Function.comp_apply]

theorem Store.updateUser_id (s : Store) (a : Address) : s.updateUser a id = s := by
  simp only [Store.updateUser, id, Function.update_eq_self]

/-- `R` is kept by the writes of the power functions for the user `a`: its registration, and the
setting of one of its powers. -/
structure KeptByPowerWrites (R : Store → Store → Prop) (a : Address) : Prop where
  find : Keeps R (findAddUser a)
  setPower : ∀ s type value, R s (s.updateUser a (·.setPower type value))

/-- `R` is kept by the writes of `BokerUserData` for the user `a`: its registration, and every
rewrite of its record that keeps its index. -/
structure KeptByRecordWrites (R : Store → Store → Prop) (a : Address) : Prop where
  find : Keeps R (findAddUser a)
  update : ∀ s (f : User → User), (∀ u, (f u).index = u.index) → R s (s.updateUser a f)

/-- `R` is kept by the writes of the assignment outside `BokerUserData`: a payment of
`BokerFinance`, and the move of the cycle's begin. -/
structure KeptByLedgerWrites (R : Store → Store → Prop) : Prop where
  grant : ∀ s addrTo (amount : Uint256),
    R s { s with finance := s.finance - amount.val, transfers := s.transfers ++ [(addrTo, amount)] }
  cycle : ∀ s start, R s { s with assignCycleBegin := start }
  receive : ∀ s (value : Uint256), R s { s with finance := s.finance + value.val }

theorem KeptByRecordWrites.power {R : Store → Store → Prop} {a : Address}
    (h : KeptByRecordWrites R a) : KeptByPowerWrites R a where
  find := h.find
  setPower s type value := h.update s _ fun u ↦ by cases type <;> rfl

section Writes

variable {R : Store → Store → Prop} [Std.Refl R] [IsTrans Store R] (env : Env)

theorem setUserPower_keeps {a : Address} (hR : KeptByPowerWrites R a) (type : UserPowerType)
    (value : Uint256) : Keeps R (setUserPower env a type value) := by
  unfold setUserPower
  exact Keeps.ite (Keeps.pure _) (Keeps.bind hR.find fun _ ↦
    Keeps.modify fun s ↦ hR.setPower s type value)

theorem increaseUserPower_keeps {a : Address} (hR : KeptByPowerWrites R a) (type : UserPowerType)
    (value : Uint256) : Keeps R (increaseUserPower env a type value) := by
  unfold increaseUserPower
  exact Keeps.ite (Keeps.pure _) (Keeps.ite (Keeps.pure _) (Keeps.get_bind fun _ ↦
    Keeps.liftExcept_bind fun powerNew ↦ setUserPower_keeps env hR type powerNew))

theorem clearUserShorttermPower_keeps {a : Address} (hR : KeptByPowerWrites R a) :
    Keeps R (clearUserShorttermPower env a) := by
  unfold clearUserShorttermPower
  exact Keeps.ite (Keeps.pure _) (Keeps.get_bind fun _ ↦
    Keeps.ite (Keeps.pure _) (setUserPower_keeps env hR .shortterm 0))

theorem calculateWatchPower.loop_keeps (hR : ∀ a, KeptByPowerWrites R a)
    (watchTotal powerWatch : Uint256) :
    ∀ (files : List (Uint256 × Uint256)) (powerWatcher : Uint256),
      Keeps R (calculateWatchPower.loop env watchTotal powerWatch files powerWatcher)
  | [], powerWatcher => Keeps.pure powerWatcher
  | (fileId, _) :: files, _ => by
    rw [calculateWatchPower.loop]
    refine Keeps.liftExcept_bind fun _ ↦ Keeps.liftExcept_bind fun _ ↦
      Keeps.liftExcept_bind fun powerWatcher ↦ ?_
    dsimp only
    exact Keeps.ite
      (Keeps.bind (increaseUserPower_keeps env (hR _) _ _) fun _ ↦ loop_keeps hR _ _ files _)
      (loop_keeps hR _ _ files _)

theorem calculateWatchPower_keeps (hR : ∀ a, KeptByPowerWrites R a) (addrUser : Address) :
    Keeps R (calculateWatchPower env addrUser) := by
  unfold calculateWatchPower
  refine Keeps.get_bind fun _ ↦ Keeps.liftExcept_bind fun ⟨watchTotal, fileIds, watchTimes⟩ ↦ ?_
  exact Keeps.bind (calculateWatchPower.loop_keeps env hR _ _ _ _) fun _ ↦
    Keeps.ite (increaseUserPower_keeps env (hR addrUser) _ _) (Keeps.pure _)

theorem calculateUploadPower_keeps {addrUser : Address} (hR : KeptByPowerWrites R addrUser) :
    Keeps R (calculateUploadPower env addrUser) := by
  unfold calculateUploadPower
  exact Keeps.get_bind fun _ ↦ Keeps.ite (increaseUserPower_keeps env hR _ _) (Keeps.pure _)

theorem calculateUserPower_keeps (hR : ∀ a, KeptByPowerWrites R a) :
    Keeps R (calculateUserPower env) := by
  unfold calculateUserPower
  exact Keeps.get_bind fun _ ↦ Keeps.forM fun addrUser _ ↦
    Keeps.bind (calculateWatchPower_keeps env hR addrUser) fun _ ↦
      calculateUploadPower_keeps env (hR addrUser)

theorem addUserWatchTime_keeps {a : Address} (hR : KeptByRecordWrites R a)
    (fileId watchTime : Uint256) : Keeps R (addUserWatchTime env a fileId watchTime) := by
  unfold addUserWatchTime
  refine Keeps.ite (Keeps.pure _) (Keeps.bind hR.find fun _ ↦ Keeps.get_bind fun _ ↦ ?_)
  dsimp only
  refine Keeps.ite (Keeps.bind (Keeps.modify fun s ↦ hR.update s _ fun _ ↦ rfl) fun _ ↦ ?_) ?_
  all_goals exact Keeps.get_bind fun _ ↦ Keeps.liftExcept_bind fun _ ↦
    Keeps.modify fun s ↦ hR.update s _ fun _ ↦ rfl

omit [Std.Refl R] in
theorem clearUserWatchTime_keeps {a : Address} (hR : KeptByRecordWrites R a) :
    Keeps R (clearUserWatchTime a) :=
  Keeps.bind hR.find fun _ ↦ Keeps.modify fun s ↦ hR.update s _ fun _ ↦ rfl

theorem addUserUploadCount_keeps {a : Address} (hR : KeptByRecordWrites R a)
    (uploadCount : Uint256) : Keeps R (addUserUploadCount env a uploadCount) := by
  unfold addUserUploadCount
  exact Keeps.ite (Keeps.pure _) (Keeps.bind hR.find fun _ ↦ Keeps.get_bind fun _ ↦
    Keeps.liftExcept_bind fun _ ↦ Keeps.modify fun s ↦ hR.update s _ fun _ ↦ rfl)

omit [Std.Refl R] in
theorem clearUserUploadCount_keeps {a : Address} (hR : KeptByRecordWrites R a) :
    Keeps R (clearUserUploadCount a) :=
  Keeps.bind hR.find fun _ ↦ Keeps.modify fun s ↦ hR.update s _ fun _ ↦ rfl

theorem grantTokenTo_keeps (hL : KeptByLedgerWrites R) (addrTo : Address) (amount : Uint256) :
    Keeps R (grantTokenTo addrTo amount) := by
  unfold grantTokenTo require
  exact Keeps.get_bind fun _ ↦ Keeps.bind (Keeps.ite (Keeps.pure _) (Keeps.throw _)) fun _ ↦
    Keeps.modify fun s ↦ hL.grant s addrTo amount

theorem assignTo_keeps {addrUser : Address} (hshort : Keeps R (clearUserShorttermPower env addrUser))
    (hwatch : Keeps R (clearUserWatchTime addrUser))
    (hupload : Keeps R (clearUserUploadCount addrUser))
    (hgrant : ∀ amount, Keeps R (grantTokenTo addrUser amount))
    (longtermTokens shorttermTokens longtermPowerTotal shorttermPowerTotal : Uint256) :
    Keeps R (assignTo env longtermTokens shorttermTokens longtermPowerTotal shorttermPowerTotal
      addrUser) := by
  unfold assignTo
  exact Keeps.get_bind fun _ ↦ Keeps.liftExcept_bind fun _ ↦
    Keeps.bind hshort fun _ ↦ Keeps.bind hwatch fun _ ↦ Keeps.bind hupload fun _ ↦
    Keeps.ite (hgrant _) (Keeps.pure _)

theorem assignToken_keeps (hcalc : Keeps R (calculateUserPower env))
    (hassign : ∀ addrUser longtermTokens shorttermTokens longtermPowerTotal shorttermPowerTotal,
      Keeps R (assignTo env longtermTokens shorttermTokens longtermPowerTotal shorttermPowerTotal
        addrUser))
    (hcycle : ∀ s start, R s { s with assignCycleBegin := start }) (now : Uint256) :
    Keeps R (assignToken env now) := by
  unfold assignToken
  refine Keeps.get_bind fun _ ↦ Keeps.liftExcept_bind fun _ ↦ Keeps.ite (Keeps.pure _) ?_
  refine Keeps.bind hcalc fun _ ↦
    Keeps.get_bind fun _ ↦ Keeps.liftExcept_bind fun ⟨longtermTokens, shorttermTokens⟩ ↦
    Keeps.get_bind fun _ ↦ Keeps.liftExcept_bind fun ⟨longtermPowerTotal, shorttermPowerTotal⟩ ↦ ?_
  exact Keeps.get_bind fun _ ↦
    Keeps.bind (Keeps.forM fun a _ ↦ hassign a _ _ _ _) fun _ ↦
    Keeps.get_bind fun _ ↦ Keeps.liftExcept_bind fun ⟨_, start⟩ ↦
    Keeps.modify fun s ↦ hcycle s start

theorem assignToken_keeps_of_writes (hR : ∀ a, KeptByRecordWrites R a) (hL : KeptByLedgerWrites R)
    (now : Uint256) : Keeps R (assignToken env now) :=
  assignToken_keeps env (calculateUserPower_keeps env fun a ↦ (hR a).power)
    (fun a _ _ _ _ ↦ assignTo_keeps env (clearUserShorttermPower_keeps env (hR a).power)
      (clearUserWatchTime_keeps (hR a)) (clearUserUploadCount_keeps (hR a))
      (fun amount ↦ grantTokenTo_keeps hL a amount) _ _ _ _)
    hL.cycle now

theorem Call.run_keeps (hR : ∀ a, KeptByRecordWrites R a) (hL : KeptByLedgerWrites R)
    (now : Uint256) (c : Call) : Keeps R (c.run env now) := by
  cases c with
  | watch addrFrom addrTo fileId watchTime =>
    exact Keeps.ite (Keeps.pure _) (addUserWatchTime_keeps env (hR addrFrom) fileId watchTime)
  | upload addrFrom addrTo =>
    exact Keeps.ite (Keeps.pure _) (addUserUploadCount_keeps env (hR addrFrom) 1)
  | increaseLongterm addrUser value => exact increaseUserPower_keeps env (hR addrUser).power _ _
  | assignToken => exact assignToken_keeps_of_writes env hR hL now
  | pay value => exact Keeps.modify fun s ↦ hL.receive s value

end Writes

/-! ## The relations the writes keep -/

/-- The watch records of the users that `p` holds are unchanged. -/
def WatchKept (p : Address → Prop) (s s' : Store) : Prop :=
  ∀ a, p a → (s'.users a).watchFiles = (s.users a).watchFiles ∧
    (s'.users a).watchTime = (s.users a).watchTime

instance (p : Address → Prop) : Std.Refl (WatchKept p) := ⟨fun _ _ _ ↦ ⟨rfl, rfl⟩⟩

instance (p : Address → Prop) : IsTrans Store (WatchKept p) :=
  ⟨fun _ _ _ h₁ h₂ a ha ↦ ⟨(h₂ a ha).1.trans (h₁ a ha).1, (h₂ a ha).2.trans (h₁ a ha).2⟩⟩

/-- What the assignment owns outside the users: the balance, the transfers and the begin of the
cycle, unchanged. -/
def AssignmentKept (s s' : Store) : Prop :=
  s'.finance = s.finance ∧ s'.transfers = s.transfers ∧ s'.assignCycleBegin = s.assignCycleBegin

instance : Std.Refl AssignmentKept := ⟨fun _ ↦ ⟨rfl, rfl, rfl⟩⟩

instance : IsTrans Store AssignmentKept :=
  ⟨fun _ _ _ h₁ h₂ ↦ ⟨h₂.1.trans h₁.1, h₂.2.1.trans h₁.2.1, h₂.2.2.trans h₁.2.2⟩⟩

/-- `userArray` only grows, at its end. -/
def ArrayGrows (s s' : Store) : Prop :=
  s.userArray <+: s'.userArray

instance : Std.Refl ArrayGrows := ⟨fun s ↦ List.prefix_refl s.userArray⟩

instance : IsTrans Store ArrayGrows := ⟨fun _ _ _ h₁ h₂ ↦ h₁.trans h₂⟩

/-- Once `a` is registered, only its record changes, and not its index. -/
def RecordOf (a : Address) (s s' : Store) : Prop :=
  0 < (s.users a).index → ∃ f : User → User, (∀ u, (f u).index = u.index) ∧ s' = s.updateUser a f

instance (a : Address) : Std.Refl (RecordOf a) :=
  ⟨fun s _ ↦ ⟨id, fun _ ↦ rfl, (Store.updateUser_id s a).symm⟩⟩

instance (a : Address) : IsTrans Store (RecordOf a) := by
  refine ⟨fun s₁ s₂ s₃ h₁ h₂ hs ↦ ?_⟩
  obtain ⟨f, hf, rfl⟩ := h₁ hs
  have hs₂ : 0 < ((s₁.updateUser a f).users a).index := by
    rw [Store.updateUser_users_self, hf]
    exact hs
  obtain ⟨g, hg, rfl⟩ := h₂ hs₂
  exact ⟨g ∘ f, fun u ↦ (hg (f u)).trans (hf u), Store.updateUser_updateUser s₁ a f g⟩

/-- The user list as `BokerUserData` keeps it: the placeholder first, then each registered user
once, with a positive index. -/
structure Store.Wf (s : Store) : Prop where
  placeholder : s.userArray ≠ []
  registered : ∀ a ∈ s.userAddresses, 0 < (s.users a).index
  nodup : s.userAddresses.Nodup

theorem Store.deployed_wf (now : Uint256) : (Store.deployed now).Wf where
  placeholder := List.cons_ne_nil 0 []
  registered _ ha := absurd ha List.not_mem_nil
  nodup := List.nodup_nil

/-- **Registration keeps the list well formed.** A user not registered yet is not listed, so
appending it keeps each user listed once, and it gets a positive index behind the
placeholder. -/
theorem findAddUser_wf (a : Address) : Keeps (Preserving Store.Wf) (findAddUser a) := by
  refine Keeps.modify fun s hs ↦ ?_
  split
  · next hnew =>
    have hnot : a ∉ s.userAddresses := fun ha ↦ Nat.not_le.2 (hs.registered a ha) hnew
    have hdrop : (s.userArray ++ [a]).drop 1 = s.userAddresses ++ [a] :=
      List.drop_append_of_le_length (List.length_pos_of_ne_nil hs.placeholder)
    refine ⟨List.append_ne_nil_of_right_ne_nil _ (List.cons_ne_nil a []), ?_, ?_⟩
    · intro b hb
      change b ∈ (s.userArray ++ [a]).drop 1 at hb
      rw [hdrop, List.mem_append, List.mem_singleton] at hb
      by_cases hba : b = a
      · subst hba
        rw [Store.updateUser_users_self]
        exact List.length_pos_of_ne_nil hs.placeholder
      · rw [Store.updateUser_users_of_ne _ _ hba]
        exact hs.registered b (hb.resolve_right hba)
    · change ((s.userArray ++ [a]).drop 1).Nodup
      rw [hdrop, List.nodup_append]
      exact ⟨hs.nodup, List.nodup_singleton a, fun b hb c hc hbc ↦
        hnot (List.mem_singleton.1 hc ▸ hbc ▸ hb)⟩
  · exact hs

theorem Store.Wf.updateUser {s : Store} (hs : s.Wf) (a : Address) {f : User → User}
    (hf : ∀ u, (f u).index = u.index) : (s.updateUser a f).Wf where
  placeholder := hs.placeholder
  registered b hb := by
    by_cases hba : b = a
    · subst hba
      rw [Store.updateUser_users_self, hf]
      exact hs.registered b hb
    · rw [Store.updateUser_users_of_ne _ _ hba]
      exact hs.registered b hb
  nodup := hs.nodup

theorem wf_recordWrites (a : Address) : KeptByRecordWrites (Preserving Store.Wf) a where
  find := findAddUser_wf a
  update _ _ hf hs := hs.updateUser a hf

theorem arrayGrows_recordWrites (a : Address) : KeptByRecordWrites ArrayGrows a where
  find := Keeps.modify fun s ↦ by
    split
    · exact List.prefix_append s.userArray [a]
    · exact List.prefix_refl s.userArray
  update s _ _ := List.prefix_refl s.userArray

theorem assignmentKept_recordWrites (a : Address) : KeptByRecordWrites AssignmentKept a where
  find := Keeps.modify fun s ↦ by
    split
    · exact ⟨rfl, rfl, rfl⟩
    · exact ⟨rfl, rfl, rfl⟩
  update _ _ _ := ⟨rfl, rfl, rfl⟩

theorem recordOf_recordWrites (a : Address) : KeptByRecordWrites (RecordOf a) a where
  find := Keeps.modify fun s hs ↦ by
    rw [if_neg (Nat.not_le.2 hs)]
    exact ⟨id, fun _ ↦ rfl, (Store.updateUser_id s a).symm⟩
  update _ f hf _ := ⟨f, hf, rfl⟩

theorem findAddUser_watchKept (p : Address → Prop) (a : Address) :
    Keeps (WatchKept p) (findAddUser a) := by
  refine Keeps.modify fun s b _ ↦ ?_
  split
  · by_cases hba : b = a
    · subst hba
      simp
    · simp [Store.updateUser_users_of_ne _ _ hba]
  · exact ⟨rfl, rfl⟩

theorem watchKept_powerWrites (p : Address → Prop) (a : Address) :
    KeptByPowerWrites (WatchKept p) a where
  find := findAddUser_watchKept p a
  setPower s type value b _ := by
    by_cases hba : b = a
    · subst hba
      cases type <;> simp [User.setPower]
    · simp [Store.updateUser_users_of_ne _ _ hba]

theorem watchKept_ne_recordWrites (a : Address) : KeptByRecordWrites (WatchKept (· ≠ a)) a where
  find := findAddUser_watchKept _ a
  update s _ _ b hba := by simp [Store.updateUser_users_of_ne _ _ hba]

theorem addUserUploadCount_watchKept (env : Env) (p : Address → Prop) (a : Address)
    (uploadCount : Uint256) : Keeps (WatchKept p) (addUserUploadCount env a uploadCount) := by
  unfold addUserUploadCount
  refine Keeps.ite (Keeps.pure _) (Keeps.bind (findAddUser_watchKept p a) fun _ ↦
    Keeps.get_bind fun _ ↦ Keeps.liftExcept_bind fun _ ↦ Keeps.modify fun s b _ ↦ ?_)
  by_cases hba : b = a
  · subst hba
    simp
  · simp [Store.updateUser_users_of_ne _ _ hba]

/-! ## The user list stays well formed -/

/-- The registry as `_findAddUser` builds it: a well-formed list whose placeholder is address 0,
and in which a user with a positive index sits at that index. -/
structure Store.Registry (s : Store) : Prop extends s.Wf where
  head : s.userArray.head? = some 0
  position : ∀ a, 0 < (s.users a).index → s.userArray[(s.users a).index]? = some a

theorem Store.deployed_registry (now : Uint256) : (Store.deployed now).Registry where
  toWf := Store.deployed_wf now
  head := rfl
  position _ ha := absurd ha (Nat.lt_irrefl 0)

theorem Store.Registry.mem_userAddresses_iff {s : Store} (hs : s.Registry) {a : Address} :
    a ∈ s.userAddresses ↔ 0 < (s.users a).index := by
  refine ⟨hs.registered a, fun ha ↦ ?_⟩
  rw [Store.userAddresses, List.mem_iff_getElem?]
  refine ⟨(s.users a).index - 1, ?_⟩
  rw [List.getElem?_drop, Nat.add_sub_of_le ha]
  exact hs.position a ha

theorem findAddUser_registry (a : Address) : Keeps (Preserving Store.Registry) (findAddUser a) := by
  refine Keeps.modify fun s hs ↦ ?_
  have hwf := findAddUser_wf a s ⟨⟩ _ rfl hs.toWf
  beta_reduce at hwf
  by_cases hnew : (s.users a).index ≤ 0
  · rw [if_pos hnew] at hwf ⊢
    refine ⟨hwf, by simp [List.head?_append, hs.head], fun b hb ↦ ?_⟩
    by_cases hba : b = a
    · subst hba
      simp
    · simp only [Store.updateUser_users_of_ne _ _ hba] at hb ⊢
      have hold := hs.position b hb
      rw [List.getElem?_append_left (List.getElem?_eq_some_iff.1 hold).1, hold]
  · rw [if_neg hnew]
    exact hs

theorem Store.Registry.updateUser {s : Store} (hs : s.Registry) (a : Address) {f : User → User}
    (hf : ∀ u, (f u).index = u.index) : (s.updateUser a f).Registry where
  toWf := hs.toWf.updateUser a hf
  head := hs.head
  position b hb := by
    have hidx : ((s.updateUser a f).users b).index = (s.users b).index := by
      by_cases hba : b = a
      · subst hba
        rw [Store.updateUser_users_self, hf]
      · rw [Store.updateUser_users_of_ne _ _ hba]
    rw [hidx] at hb ⊢
    exact hs.position b hb

theorem registry_recordWrites (a : Address) : KeptByRecordWrites (Preserving Store.Registry) a where
  find := findAddUser_registry a
  update _ _ hf hs := hs.updateUser a hf

theorem registry_ledgerWrites : KeptByLedgerWrites (Preserving Store.Registry) where
  grant _ _ _ hs := ⟨⟨hs.placeholder, hs.registered, hs.nodup⟩, hs.head, hs.position⟩
  cycle _ _ hs := ⟨⟨hs.placeholder, hs.registered, hs.nodup⟩, hs.head, hs.position⟩
  receive _ _ hs := ⟨⟨hs.placeholder, hs.registered, hs.nodup⟩, hs.head, hs.position⟩

/-- **Each registered user is listed once, at its index.** In every reachable state `userArray`
holds the placeholder, address 0, and then each registered user once, at the position its index
names; a user is listed exactly when its index is positive.  This holds whatever calls were
made and whichever of them reverted. -/
theorem Reachable.registry {env : Env} {s : Store} (h : Reachable env s) :
    s.Registry ∧ ∀ a, a ∈ s.userAddresses ↔ 0 < (s.users a).index := by
  have hreg : s.Registry := by
    induction h with
    | deploy now => exact Store.deployed_registry now
    | call now c _ ih =>
      exact transact_preserves (fun s s' u hs hrun ↦
        Call.run_keeps env registry_recordWrites registry_ledgerWrites now c s u s' hrun hs) ih
  exact ⟨hreg, fun _ ↦ hreg.mem_userAddresses_iff⟩

/-! ## A watch of time zero blocks the assignment -/

/-- The user `a` lists a watched file, and every file it lists has time zero: the total that
`_calculateWatchPower` divides by is zero. -/
def WatchBlocked (s : Store) (a : Address) : Prop :=
  (s.users a).watchFiles ≠ [] ∧ ∀ fileId ∈ (s.users a).watchFiles, (s.users a).watchTime fileId = 0

theorem WatchKept.mono {p q : Address → Prop} {s s' : Store} (h : WatchKept p s s')
    (hqp : ∀ b, q b → p b) : WatchKept q s s' :=
  fun b hb ↦ h b (hqp b hb)

theorem WatchKept.watchBlocked {s s' : Store} {a : Address} (h : WatchKept (· = a) s s')
    (hs : WatchBlocked s a) : WatchBlocked s' a := by
  obtain ⟨hfiles, htime⟩ := h a rfl
  unfold WatchBlocked
  rw [hfiles, htime]
  exact hs

theorem ArrayGrows.mem_userAddresses {s s' : Store} {a : Address} (h : ArrayGrows s s')
    (ha : a ∈ s.userAddresses) : a ∈ s'.userAddresses :=
  (h.drop 1).subset ha

theorem foldlM_safeAdd_zero : ∀ {l : List Uint256}, (∀ x ∈ l, x = 0) → l.foldlM safeAdd 0 = .ok 0
  | [], _ => rfl
  | x :: l, h => by
    have hzero : safeAdd 0 0 = .ok 0 := rfl
    rw [List.foldlM_cons, h x List.mem_cons_self, hzero, except_ok_bind]
    exact foldlM_safeAdd_zero fun y hy ↦ h y (List.mem_cons_of_mem x hy)

theorem getUserWatchTime_blocked {s : Store} {a : Address} (h : WatchBlocked s a) :
    getUserWatchTime s a =
      .ok (0, (s.users a).watchFiles, (s.users a).watchFiles.map (s.users a).watchTime) := by
  have hzero : ((s.users a).watchFiles.map (s.users a).watchTime).foldlM safeAdd 0 = .ok 0 :=
    foldlM_safeAdd_zero fun x hx ↦ by
      obtain ⟨fileId, hfile, rfl⟩ := List.mem_map.1 hx
      exact h.2 fileId hfile
  unfold getUserWatchTime
  dsimp only
  rw [hzero]
  rfl

theorem calculateWatchPower.loop_zero_total (env : Env) (powerWatch : Uint256)
    (file : Uint256 × Uint256) (files : List (Uint256 × Uint256)) (powerWatcher : Uint256)
    (s : Store) (r : Uint256) (s' : Store) :
    calculateWatchPower.loop env 0 powerWatch (file :: files) powerWatcher s ≠ .ok r s' := by
  obtain ⟨fileId, watchTime⟩ := file
  intro h
  rw [calculateWatchPower.loop] at h
  obtain ⟨powerFile, s₁, hlift, -⟩ := bind_eq_ok.1 h
  obtain ⟨hfile, -⟩ := liftExcept_eq_ok.1 hlift
  obtain ⟨_, -, hdiv⟩ := except_bind_eq_ok.1 hfile
  exact (safeDiv_eq_ok.1 hdiv).1 rfl

theorem calculateWatchPower_blocked (env : Env) {s : Store} {a : Address} (h : WatchBlocked s a)
    (u : PUnit) (s' : Store) : calculateWatchPower env a s ≠ .ok u s' := by
  intro hrun
  unfold calculateWatchPower at hrun
  obtain ⟨_, s₁, hget, hrest⟩ := bind_eq_ok.1 hrun
  obtain ⟨rfl, rfl⟩ := get_eq_ok.1 hget
  obtain ⟨⟨watchTotal, fileIds, watchTimes⟩, s₂, hlift, hrest⟩ := bind_eq_ok.1 hrest
  obtain ⟨htotal, rfl⟩ := liftExcept_eq_ok.1 hlift
  rw [getUserWatchTime_blocked h] at htotal
  cases htotal
  obtain ⟨_, s₃, hloop, -⟩ := bind_eq_ok.1 hrest
  obtain ⟨fileId, rest, hfiles⟩ := List.exists_cons_of_ne_nil h.1
  rw [hfiles, List.map_cons, List.zip_cons_cons] at hloop
  exact calculateWatchPower.loop_zero_total env _ _ _ _ _ _ _ hloop

theorem calculateUserPower_blocked (env : Env) {s : Store} {a : Address}
    (hmem : a ∈ s.userAddresses) (h : WatchBlocked s a) (u : PUnit) (s' : Store) :
    calculateUserPower env s ≠ .ok u s' := by
  intro hrun
  obtain ⟨_, s₁, hget, hloop⟩ := bind_eq_ok.1 hrun
  obtain ⟨rfl, rfl⟩ := get_eq_ok.1 hget
  have hkeep : ∀ b, Keeps (Preserving (WatchBlocked · a))
      (calculateWatchPower env b >>= fun _ ↦ calculateUploadPower env b) := fun b ↦
    Keeps.mono (fun _ _ hkept ↦ hkept.watchBlocked)
      (Keeps.bind (calculateWatchPower_keeps env (watchKept_powerWrites _) b) fun _ ↦
        calculateUploadPower_keeps env (watchKept_powerWrites _ b))
  have hfail : ∀ s₂ u s₃, WatchBlocked s₂ a →
      (calculateWatchPower env a >>= fun _ ↦ calculateUploadPower env a) s₂ ≠ .ok u s₃ := by
    intro s₂ u s₃ hs₂ hround
    obtain ⟨⟨⟩, s₄, hwatch, -⟩ := bind_eq_ok.1 hround
    exact calculateWatchPower_blocked env hs₂ _ _ hwatch
  exact forM_ne_ok hkeep hfail hmem s u s' h hloop

/-- **`assignToken` is blocked.** While a listed user is blocked, `assignToken` returns normally
only before the cycle's end, and then changes nothing. -/
theorem assignToken_blocked (env : Env) (now : Uint256) {s : Store} {a : Address}
    (hmem : a ∈ s.userAddresses) (h : WatchBlocked s a) {u : PUnit} {s' : Store}
    (hrun : assignToken env now s = .ok u s') :
    Node.assignCycleIsEnd env.cfg now s.assignCycleBegin = .ok false ∧ s' = s := by
  obtain ⟨_, s₁, hget, hrest⟩ := bind_eq_ok.1 hrun
  obtain ⟨rfl, rfl⟩ := get_eq_ok.1 hget
  obtain ⟨isEnd, s₂, hlift, hrest⟩ := bind_eq_ok.1 hrest
  obtain ⟨hend, rfl⟩ := liftExcept_eq_ok.1 hlift
  cases isEnd with
  | false =>
    obtain ⟨-, rfl⟩ := pure_eq_ok.1 hrest
    exact ⟨hend, rfl⟩
  | true =>
    obtain ⟨⟨⟩, s₃, hcalc, -⟩ := bind_eq_ok.1 hrest
    exact absurd hcalc (calculateUserPower_blocked env hmem h _ _)

/-- **What a watch event writes.** For a user that is not a contract, the file is listed when
its time is still zero, and its time grows by the watch time without wrapping. -/
theorem addUserWatchTime_spec (env : Env) {a : Address} (ha : env.isContract a = false)
    {fileId watchTime : Uint256} {s s' : Store} {u : PUnit}
    (h : addUserWatchTime env a fileId watchTime s = .ok u s') :
    (s'.users a).watchFiles = (s.users a).watchFiles ++
        (if (s.users a).watchTime fileId ≤ 0 then [fileId] else []) ∧
      ∃ time, safeAdd ((s.users a).watchTime fileId) watchTime = .ok time ∧
        (s'.users a).watchTime = Function.update (s.users a).watchTime fileId time := by
  unfold addUserWatchTime at h
  rw [if_neg (by simp [ha])] at h
  obtain ⟨⟨⟩, s₁, hfind, hrest⟩ := bind_eq_ok.1 h
  obtain ⟨hfiles₁, htime₁⟩ := findAddUser_watchKept (· = a) a s ⟨⟩ s₁ hfind a rfl
  obtain ⟨_, s₂, hget, hrest⟩ := bind_eq_ok.1 hrest
  obtain ⟨rfl, rfl⟩ := get_eq_ok.1 hget
  dsimp only at hrest
  have hwrite : ∀ {t : Store}, (t.users a).watchTime = (s.users a).watchTime →
      (do
        let time ← liftExcept (safeAdd (((← get).users a).watchTime fileId) watchTime)
        modify fun s ↦ s.updateUser a fun u ↦
          { u with watchTime := Function.update u.watchTime fileId time } :
        EStateM Revert Store PUnit) t = .ok u s' →
      (s'.users a).watchFiles = (t.users a).watchFiles ∧
        ∃ time, safeAdd ((s.users a).watchTime fileId) watchTime = .ok time ∧
          (s'.users a).watchTime = Function.update (s.users a).watchTime fileId time := by
    intro t ht hrun
    obtain ⟨_, t₁, hget, hrest⟩ := bind_eq_ok.1 hrun
    obtain ⟨rfl, rfl⟩ := get_eq_ok.1 hget
    obtain ⟨time, t₂, hlift, hmodify⟩ := bind_eq_ok.1 hrest
    obtain ⟨htime, rfl⟩ := liftExcept_eq_ok.1 hlift
    obtain rfl := modify_eq_ok.1 hmodify
    rw [ht] at htime
    exact ⟨by simp, time, htime, by simp [ht]⟩
  split_ifs at hrest with hzero
  · obtain ⟨⟨⟩, s₃, hlist, hrest⟩ := bind_eq_ok.1 hrest
    obtain rfl := modify_eq_ok.1 hlist
    rw [htime₁] at hzero
    obtain ⟨hfiles, htime⟩ := hwrite (by simp [htime₁]) hrest
    refine ⟨?_, htime⟩
    rw [hfiles, if_pos hzero]
    simp [hfiles₁]
  · rw [htime₁] at hzero
    obtain ⟨hfiles, htime⟩ := hwrite htime₁ hrest
    rw [hfiles, hfiles₁, if_neg hzero, List.append_nil]
    exact ⟨rfl, htime⟩

theorem addUserWatchTime_zero_blocked (env : Env) {a : Address} (ha : env.isContract a = false)
    (fileId : Uint256) {s s' : Store} {u : PUnit} (hs : WatchBlocked s a)
    (h : addUserWatchTime env a fileId 0 s = .ok u s') : WatchBlocked s' a := by
  obtain ⟨hfiles, time, hadd, htime⟩ := addUserWatchTime_spec env ha h
  have htime_eq : time = (s.users a).watchTime fileId :=
    Fin.ext (by rw [(safeAdd_eq_ok.1 hadd).2, Fin.val_zero, Nat.add_zero])
  rw [htime_eq, Function.update_eq_self] at htime
  refine ⟨by simp [hfiles, hs.1], fun f hf ↦ ?_⟩
  rw [htime]
  rw [hfiles, List.mem_append] at hf
  rcases hf with hf | hf
  · exact hs.2 f hf
  · split_ifs at hf with hzero
    · rw [List.mem_singleton.1 hf]
      exact nonpos_iff_eq_zero.1 hzero
    · exact absurd hf List.not_mem_nil

/-- The user `a` is listed and blocked, and the cycle begins at `begin`. -/
def AssignmentBlocked (a : Address) (begin : Uint256) (s : Store) : Prop :=
  a ∈ s.userAddresses ∧ WatchBlocked s a ∧ s.assignCycleBegin = begin

theorem AssignmentBlocked.of_kept {a : Address} {begin : Uint256} {s s' : Store}
    (hs : AssignmentBlocked a begin s) (hw : WatchKept (· = a) s s') (hg : ArrayGrows s s')
    (hk : AssignmentKept s s') : AssignmentBlocked a begin s' :=
  ⟨hg.mem_userAddresses hs.1, hw.watchBlocked hs.2.1, hk.2.2.trans hs.2.2⟩

/-- **Nothing unblocks the assignment but a positive watch.** Every call other than a watch of
positive time by the blocked user keeps the user blocked and the cycle's begin where it is. -/
theorem Call.run_assignmentBlocked (env : Env) (now : Uint256) {a : Address} {begin : Uint256}
    (c : Call) (hc : ∀ addrTo fileId watchTime, c = .watch a addrTo fileId watchTime → watchTime = 0)
    {s : Store} (hs : AssignmentBlocked a begin s) :
    AssignmentBlocked a begin (transact (c.run env now) s) := by
  cases hrun : c.run env now s with
  | error e s' => rw [transact_of_error hrun]; exact hs
  | ok u s' =>
    rw [transact_of_ok hrun]
    cases c with
    | watch addrFrom addrTo fileId watchTime =>
      dsimp only [Call.run] at hrun
      split_ifs at hrun with hcontract
      · obtain ⟨-, rfl⟩ := pure_eq_ok.1 hrun
        exact hs
      · have hfrom : env.isContract addrFrom = false := by simp_all
        by_cases hba : addrFrom = a
        · subst hba
          obtain rfl := hc addrTo fileId watchTime rfl
          refine ⟨(addUserWatchTime_keeps env (arrayGrows_recordWrites _) _ _ s u s' hrun
              ).mem_userAddresses hs.1,
            addUserWatchTime_zero_blocked env hfrom fileId hs.2.1 hrun, ?_⟩
          exact (addUserWatchTime_keeps env (assignmentKept_recordWrites _) _ _ s u s'
            hrun).2.2.trans hs.2.2
        · exact hs.of_kept
            ((addUserWatchTime_keeps env (watchKept_ne_recordWrites addrFrom) _ _ s u s' hrun).mono
              fun b hb ↦ hb ▸ Ne.symm hba)
            (addUserWatchTime_keeps env (arrayGrows_recordWrites _) _ _ s u s' hrun)
            (addUserWatchTime_keeps env (assignmentKept_recordWrites _) _ _ s u s' hrun)
    | upload addrFrom addrTo =>
      dsimp only [Call.run] at hrun
      split_ifs at hrun
      · obtain ⟨-, rfl⟩ := pure_eq_ok.1 hrun
        exact hs
      · exact hs.of_kept (addUserUploadCount_watchKept env _ _ _ s u s' hrun)
          (addUserUploadCount_keeps env (arrayGrows_recordWrites _) _ s u s' hrun)
          (addUserUploadCount_keeps env (assignmentKept_recordWrites _) _ s u s' hrun)
    | increaseLongterm addrUser value =>
      exact hs.of_kept (increaseUserPower_keeps env (watchKept_powerWrites _ _) _ _ s u s' hrun)
        (increaseUserPower_keeps env (arrayGrows_recordWrites _).power _ _ s u s' hrun)
        (increaseUserPower_keeps env (assignmentKept_recordWrites _).power _ _ s u s' hrun)
    | assignToken =>
      obtain ⟨-, rfl⟩ := assignToken_blocked env now hs.1 hs.2.1 hrun
      exact hs
    | pay value =>
      obtain rfl := modify_eq_ok.1 hrun
      exact hs

/-- The state after calls at the given block times, each of which succeeded or reverted. -/
def Store.runAll (env : Env) (s : Store) (calls : List (Uint256 × Call)) : Store :=
  calls.foldl (fun s call ↦ transact (call.2.run env call.1) s) s

theorem Store.runAll_assignmentBlocked (env : Env) {a : Address} {begin : Uint256} :
    ∀ {calls : List (Uint256 × Call)} {s : Store},
      (∀ call ∈ calls, ∀ addrTo fileId watchTime,
        call.2 = .watch a addrTo fileId watchTime → watchTime = 0) →
      AssignmentBlocked a begin s → AssignmentBlocked a begin (s.runAll env calls)
  | [], _, _, hs => hs
  | call :: calls, _, hcalls, hs =>
    @Store.runAll_assignmentBlocked env a begin calls _
      (fun c hc ↦ hcalls c (List.mem_cons_of_mem call hc))
      (Call.run_assignmentBlocked env call.1 call.2 (hcalls call List.mem_cons_self) hs)

/-- **A watch of time zero blocks every later assignment.** After deployment at `deployedAt`,
a watch event of user `1` for file `7` with time zero lists the file with time zero. From then on,
whatever calls follow, unless user `1` watches for a positive time, the cycle keeps its begin and
every `assignToken` at or after its end reverts: `_calculateWatchPower` divides by the user's
total, zero. -/
theorem zero_watch_blocks_assignment (env : Env) (huser : env.isContract 1 = false)
    (howner : env.isContract 2 = false) (deployedAt : Uint256) (calls : List (Uint256 × Call))
    (hcalls : ∀ call ∈ calls, ∀ addrTo fileId watchTime,
      call.2 = .watch 1 addrTo fileId watchTime → watchTime = 0) :
    let watched := transact ((Call.watch 1 2 7 0).run env deployedAt) (Store.deployed deployedAt)
    let s := watched.runAll env calls
    (watched.users 1).watchFiles = [7] ∧ (watched.users 1).watchTime 7 = 0 ∧
      s.assignCycleBegin = deployedAt ∧
      ∀ now, Node.assignCycleIsEnd env.cfg now deployedAt = .ok true →
        ∀ u s', TokenPower.assignToken env now s ≠ .ok u s' := by
  intro watched s
  obtain ⟨s₀, hrun⟩ : ∃ s₀, (Call.watch 1 2 7 0).run env deployedAt (Store.deployed deployedAt) =
      .ok ⟨⟩ s₀ := by
    simp only [Call.run, addUserWatchTime, huser, howner, Bool.or_false, Bool.false_eq_true,
      if_false]
    exact ⟨_, rfl⟩
  have hwatched : watched = s₀ := transact_of_ok hrun
  simp only [Call.run, addUserWatchTime, huser, howner, Bool.or_false, Bool.false_eq_true,
    if_false] at hrun
  cases hrun
  have hblocked : AssignmentBlocked 1 deployedAt watched := by
    rw [hwatched]
    refine ⟨List.mem_singleton_self 1, ⟨List.cons_ne_nil 7 [], fun fileId hfile ↦ ?_⟩, rfl⟩
    rw [List.mem_singleton.1 hfile]
    rfl
  have hs := Store.runAll_assignmentBlocked env hcalls hblocked
  refine ⟨by rw [hwatched]; rfl, by rw [hwatched]; rfl, hs.2.2, fun now hend u s' hassign ↦ ?_⟩
  have hnotEnd := (assignToken_blocked env now hs.1 hs.2.1 hassign).1
  rw [hs.2.2, hend] at hnotEnd
  exact absurd hnotEnd (by simp)

/-- The configuration `BokerManager`'s constructor sets, no contract among the users, and every
file owned by `2`. -/
def sampleEnv : Env := ⟨Node.Config.initial, 50, 20, fun _ ↦ false, fun _ ↦ 2⟩

/-- After deployment, a watch event and a payment, the store is reachable, so its registry is
well formed. -/
theorem watched_store_registry :
    Reachable sampleEnv (transact ((Call.pay 100).run sampleEnv 0)
        (transact ((Call.watch 1 2 7 5).run sampleEnv 0) (Store.deployed 0))) ∧
      (transact ((Call.pay 100).run sampleEnv 0)
        (transact ((Call.watch 1 2 7 5).run sampleEnv 0) (Store.deployed 0))).Registry ∧
      ∀ a, a ∈ (transact ((Call.pay 100).run sampleEnv 0)
          (transact ((Call.watch 1 2 7 5).run sampleEnv 0) (Store.deployed 0))).userAddresses ↔
        0 < ((transact ((Call.pay 100).run sampleEnv 0)
          (transact ((Call.watch 1 2 7 5).run sampleEnv 0) (Store.deployed 0))).users a).index := by
  have hreach : Reachable sampleEnv (transact ((Call.pay 100).run sampleEnv 0)
      (transact ((Call.watch 1 2 7 5).run sampleEnv 0) (Store.deployed 0))) :=
    .call 0 (.pay 100) (.call 0 (.watch 1 2 7 5) (.deploy 0))
  exact ⟨hreach, Reachable.registry hreach⟩

theorem zero_watch_blocks_first_assignment :
    sampleEnv.isContract 1 = false ∧ sampleEnv.isContract 2 = false ∧
      Node.assignCycleIsEnd sampleEnv.cfg 300 0 = .ok true ∧
      ∀ u s', TokenPower.assignToken sampleEnv 300
        (transact ((Call.watch 1 2 7 0).run sampleEnv 0) (Store.deployed 0)) ≠ .ok u s' := by
  have hend : Node.assignCycleIsEnd sampleEnv.cfg 300 0 = .ok true := by decide
  have hblocked := zero_watch_blocks_assignment sampleEnv rfl rfl 0 [] (by simp)
  exact ⟨rfl, rfl, hend, hblocked.2.2.2 300 hend⟩

/-- Two watch events for one file, of times zero and five, list the file twice, and the total
counts its time twice. -/
example :
    let s := (Store.deployed 0).runAll sampleEnv [(0, .watch 1 2 7 0), (0, .watch 1 2 7 5)]
    (s.users 1).watchFiles = [7, 7] ∧ getUserWatchTime s 1 = .ok (10, [7, 7], [5, 5]) := by
  decide

/-! ## What one assignment pays -/

/-- What `_assignToken` pays the user `a` of `s`: the two parts of its powers, when they add up
to something and `a` is not a contract. -/
def payment (env : Env) (longtermTokens shorttermTokens longtermPowerTotal shorttermPowerTotal : ℕ)
    (s : Store) (a : Address) : Option (Address × ℕ) :=
  let tokens := Node.share longtermTokens longtermPowerTotal (s.users a).longtermPower.val +
    Node.share shorttermTokens shorttermPowerTotal (s.users a).shorttermPower.val
  if 0 < tokens ∧ env.isContract a = false then some (a, tokens) else none

theorem grantTokenTo_eq_ok {addrTo : Address} {amount : Uint256} {s s' : Store} {u : PUnit} :
    grantTokenTo addrTo amount s = .ok u s' ↔ amount.val ≤ s.finance ∧
      s' = { s with finance := s.finance - amount.val, transfers := s.transfers ++ [(addrTo, amount)] } := by
  constructor
  · intro h
    obtain ⟨_, s₁, hget, hrest⟩ := bind_eq_ok.1 h
    obtain ⟨rfl, rfl⟩ := get_eq_ok.1 hget
    obtain ⟨⟨⟩, s₂, hreq, hmodify⟩ := bind_eq_ok.1 hrest
    obtain ⟨hle, rfl⟩ := require_eq_ok.1 hreq
    exact ⟨hle, modify_eq_ok.1 hmodify⟩
  · rintro ⟨hle, rfl⟩
    simp [grantTokenTo, hle]

/-- **One round of `_assignToken`.** For a registered user, the round rewrites only the user's
record, and pays it what `payment` says. -/
theorem assignTo_spec (env : Env) {longtermTokens shorttermTokens longtermPowerTotal
    shorttermPowerTotal : Uint256} {a : Address} {s s' : Store} {u : PUnit}
    (ha : 0 < (s.users a).index)
    (h : assignTo env longtermTokens shorttermTokens longtermPowerTotal shorttermPowerTotal a s =
      .ok u s') :
    (∀ b ≠ a, s'.users b = s.users b) ∧ (∀ b, (s'.users b).index = (s.users b).index) ∧
      ∃ paid, s'.transfers = s.transfers ++ paid ∧ paid.map (fun p ↦ (p.1, p.2.val)) =
        (payment env longtermTokens.val shorttermTokens.val longtermPowerTotal.val
          shorttermPowerTotal.val s a).toList := by
  obtain ⟨_, s₁, hget, hrest⟩ := bind_eq_ok.1 h
  obtain ⟨rfl, rfl⟩ := get_eq_ok.1 hget
  obtain ⟨tokensAssigned, s₂, hlift, hrest⟩ := bind_eq_ok.1 hrest
  obtain ⟨htokens, rfl⟩ := liftExcept_eq_ok.1 hlift
  obtain ⟨⟨⟩, s₃, hshort, hrest⟩ := bind_eq_ok.1 hrest
  obtain ⟨⟨⟩, s₄, hwatch, hrest⟩ := bind_eq_ok.1 hrest
  obtain ⟨⟨⟩, s₅, hupload, hpay⟩ := bind_eq_ok.1 hrest
  have hrecord : RecordOf a s s₅ :=
    IsTrans.trans _ _ _ (IsTrans.trans _ _ _
      (clearUserShorttermPower_keeps env (recordOf_recordWrites a).power s ⟨⟩ s₃ hshort)
      (clearUserWatchTime_keeps (recordOf_recordWrites a) s₃ ⟨⟩ s₄ hwatch))
      (clearUserUploadCount_keeps (recordOf_recordWrites a) s₄ ⟨⟩ s₅ hupload)
  obtain ⟨f, hf, rfl⟩ := hrecord ha
  have hval := Node.tokensAssignedTo_val htokens
  have hpayment : payment env longtermTokens.val shorttermTokens.val longtermPowerTotal.val
      shorttermPowerTotal.val s a = if 0 < tokensAssigned.val ∧ env.isContract a = false then
        some (a, tokensAssigned.val) else none := by
    rw [payment, ← hval]
  split_ifs at hpay with hgrant
  · obtain ⟨-, rfl⟩ := grantTokenTo_eq_ok.1 hpay
    have hcond : 0 < tokensAssigned.val ∧ env.isContract a = false :=
      ⟨hgrant.1, by simpa using hgrant.2⟩
    refine ⟨fun b hb ↦ Store.updateUser_users_of_ne s f hb, fun b ↦ ?_, [(a, tokensAssigned)],
      rfl, by rw [hpayment, if_pos hcond]; rfl⟩
    by_cases hba : b = a
    · subst hba
      exact (congrArg User.index (Store.updateUser_users_self s b f)).trans (hf _)
    · rw [show ({ s.updateUser a f with finance := _, transfers := _ } : Store).users b =
        (s.updateUser a f).users b from rfl, Store.updateUser_users_of_ne s f hba]
  · obtain ⟨-, rfl⟩ := pure_eq_ok.1 hpay
    have hcond : ¬(0 < tokensAssigned.val ∧ env.isContract a = false) := fun hc ↦
      hgrant ⟨hc.1, by simp [hc.2]⟩
    refine ⟨fun b hb ↦ Store.updateUser_users_of_ne s f hb, fun b ↦ ?_, [], by simp,
      by rw [hpayment, if_neg hcond]; rfl⟩
    by_cases hba : b = a
    · subst hba
      exact (congrArg User.index (Store.updateUser_users_self s b f)).trans (hf _)
    · rw [Store.updateUser_users_of_ne s f hba]

/-- **The loop of `_assignToken`.** Over distinct registered users, the loop pays each user, in
order, what `payment` says of the state it started from: a round rewrites its own user's record
only, which no later round reads. -/
theorem assignTo_forM_spec (env : Env) (longtermTokens shorttermTokens longtermPowerTotal
    shorttermPowerTotal : Uint256) :
    ∀ {l : List Address} {s s' : Store} {u : PUnit}, l.Nodup → (∀ a ∈ l, 0 < (s.users a).index) →
      l.forM (assignTo env longtermTokens shorttermTokens longtermPowerTotal shorttermPowerTotal) s =
        .ok u s' →
      ∃ payments, s'.transfers = s.transfers ++ payments ∧
        payments.map (fun p ↦ (p.1, p.2.val)) = l.filterMap (payment env longtermTokens.val
          shorttermTokens.val longtermPowerTotal.val shorttermPowerTotal.val s)
  | [], s, s', u, _, _, h => by
    obtain ⟨-, rfl⟩ := pure_eq_ok.1 h
    exact ⟨[], (List.append_nil _).symm, rfl⟩
  | a :: l, s, s', u, hnodup, hregistered, h => by
    obtain ⟨⟨⟩, s₁, hfirst, hrest⟩ := bind_eq_ok.1 h
    obtain ⟨hothers, hindex, paid, htransfers, hpaid⟩ :=
      assignTo_spec env (hregistered a List.mem_cons_self) hfirst
    have hnotMem : a ∉ l := (List.nodup_cons.1 hnodup).1
    obtain ⟨payments, htransfers', hpayments⟩ := assignTo_forM_spec env longtermTokens
      shorttermTokens longtermPowerTotal shorttermPowerTotal (List.nodup_cons.1 hnodup).2
      (fun b hb ↦ (hindex b).symm ▸ hregistered b (List.mem_cons_of_mem a hb)) hrest
    have hsame : l.filterMap (payment env longtermTokens.val shorttermTokens.val
        longtermPowerTotal.val shorttermPowerTotal.val s₁) = l.filterMap (payment env
          longtermTokens.val shorttermTokens.val longtermPowerTotal.val shorttermPowerTotal.val s) :=
      List.filterMap_congr fun b hb ↦ by
        rw [payment, payment, hothers b fun hba ↦ hnotMem (hba ▸ hb)]
    refine ⟨paid ++ payments, by rw [htransfers', htransfers, List.append_assoc], ?_⟩
    rw [List.map_append, hpaid, hpayments, hsame, List.filterMap_cons]
    cases payment env longtermTokens.val shorttermTokens.val longtermPowerTotal.val
      shorttermPowerTotal.val s a <;> rfl

theorem sum_payments_le (env : Env) (longtermTokens shorttermTokens longtermPowerTotal
    shorttermPowerTotal : ℕ) (s : Store) (l : List Address) :
    ((l.filterMap (payment env longtermTokens shorttermTokens longtermPowerTotal
        shorttermPowerTotal s)).map Prod.snd).sum ≤
      (l.map fun a ↦ Node.share longtermTokens longtermPowerTotal (s.users a).longtermPower.val).sum +
        (l.map fun a ↦ Node.share shorttermTokens shorttermPowerTotal
          (s.users a).shorttermPower.val).sum := by
  induction l with
  | nil => simp
  | cons a l ih =>
    simp only [List.map_cons, List.sum_cons]
    cases hp : payment env longtermTokens shorttermTokens longtermPowerTotal shorttermPowerTotal
      s a with
    | none =>
      rw [List.filterMap_cons_none hp]
      omega
    | some p =>
      rw [List.filterMap_cons_some hp, List.map_cons, List.sum_cons]
      have hparts : p.2 = Node.share longtermTokens longtermPowerTotal (s.users a).longtermPower.val +
          Node.share shorttermTokens shorttermPowerTotal (s.users a).shorttermPower.val := by
        unfold payment at hp
        dsimp only at hp
        split_ifs at hp
        cases hp
        rfl
      omega

/-- **How `assignToken` returns.** Before the cycle's end it changes nothing; after it, it has run
`_calculateUserPower`, read the cycle's tokens and the power totals, and run the loop of
`_assignToken`, whose transfers it keeps. -/
theorem assignToken_eq_ok (env : Env) (now : Uint256) {s s' : Store} {u : PUnit}
    (h : TokenPower.assignToken env now s = .ok u s') :
    (Node.assignCycleIsEnd env.cfg now s.assignCycleBegin = .ok false ∧ s' = s) ∨
      ∃ (s₁ s₂ : Store) (longtermTokens shorttermTokens longtermPowerTotal
        shorttermPowerTotal : Uint256),
        calculateUserPower env s = .ok ⟨⟩ s₁ ∧
        Node.assignTokensGet env.cfg s₁.finance = .ok (longtermTokens, shorttermTokens) ∧
        Node.userPowerGet s₁.powers = .ok (longtermPowerTotal, shorttermPowerTotal) ∧
        s₁.userAddresses.forM (assignTo env longtermTokens shorttermTokens longtermPowerTotal
          shorttermPowerTotal) s₁ = .ok ⟨⟩ s₂ ∧ s'.transfers = s₂.transfers := by
  obtain ⟨_, s₁, hget, hrest⟩ := bind_eq_ok.1 h
  obtain ⟨rfl, rfl⟩ := get_eq_ok.1 hget
  obtain ⟨isEnd, s₂, hlift, hrest⟩ := bind_eq_ok.1 hrest
  obtain ⟨hend, rfl⟩ := liftExcept_eq_ok.1 hlift
  cases isEnd with
  | false =>
    obtain ⟨-, rfl⟩ := pure_eq_ok.1 hrest
    exact .inl ⟨hend, rfl⟩
  | true =>
    obtain ⟨⟨⟩, s₁, hcalc, hrest⟩ := bind_eq_ok.1 hrest
    obtain ⟨_, s₃, hget, hrest⟩ := bind_eq_ok.1 hrest
    obtain ⟨rfl, rfl⟩ := get_eq_ok.1 hget
    obtain ⟨⟨longtermTokens, shorttermTokens⟩, s₃, hlift, hrest⟩ := bind_eq_ok.1 hrest
    obtain ⟨htokens, rfl⟩ := liftExcept_eq_ok.1 hlift
    obtain ⟨_, s₄, hget, hrest⟩ := bind_eq_ok.1 hrest
    obtain ⟨rfl, rfl⟩ := get_eq_ok.1 hget
    obtain ⟨⟨longtermPowerTotal, shorttermPowerTotal⟩, s₄, hlift, hrest⟩ := bind_eq_ok.1 hrest
    obtain ⟨htotals, rfl⟩ := liftExcept_eq_ok.1 hlift
    obtain ⟨_, s₅, hget, hrest⟩ := bind_eq_ok.1 hrest
    obtain ⟨rfl, rfl⟩ := get_eq_ok.1 hget
    obtain ⟨⟨⟩, s₂, hloop, hrest⟩ := bind_eq_ok.1 hrest
    obtain ⟨_, s₆, hget, hrest⟩ := bind_eq_ok.1 hrest
    obtain ⟨rfl, rfl⟩ := get_eq_ok.1 hget
    obtain ⟨⟨_, start⟩, s₆, hlift, hmodify⟩ := bind_eq_ok.1 hrest
    obtain ⟨-, rfl⟩ := liftExcept_eq_ok.1 hlift
    obtain rfl := modify_eq_ok.1 hmodify
    exact .inr ⟨s₁, s₂, longtermTokens, shorttermTokens, longtermPowerTotal, shorttermPowerTotal,
      hcalc, htokens, htotals, hloop, rfl⟩

/-- **One assignment never pays out more than the cycle's tokens.** From a well-formed state, an
`assignToken` that returns either changed nothing, before the cycle's end, or paid each user,
in the order of `userArray` after `_calculateUserPower`, its two parts `⌊T_l·l/L⌋ + ⌊T_s·s/S⌋` of
the powers it then had. The long-term parts add up to at most `T_l`, the short-term parts to at
most `T_s`, all payments to at most `T_l + T_s`, and that to at most the balance of
`BokerFinance`. -/
theorem assignToken_pays_shares (env : Env) (now : Uint256) {s s' : Store} {u : PUnit}
    (hs : s.Wf) (h : TokenPower.assignToken env now s = .ok u s') :
    (Node.assignCycleIsEnd env.cfg now s.assignCycleBegin = .ok false ∧ s' = s) ∨
      ∃ (s₁ : Store) (longtermTokens shorttermTokens longtermPowerTotal shorttermPowerTotal :
          Uint256) (payments : List (Address × Uint256)),
        calculateUserPower env s = .ok ⟨⟩ s₁ ∧
        Node.assignTokensGet env.cfg s.finance = .ok (longtermTokens, shorttermTokens) ∧
        Node.userPowerGet s₁.powers = .ok (longtermPowerTotal, shorttermPowerTotal) ∧
        s'.transfers = s.transfers ++ payments ∧
        payments.map (fun p ↦ (p.1, p.2.val)) = s₁.userAddresses.filterMap (payment env
          longtermTokens.val shorttermTokens.val longtermPowerTotal.val shorttermPowerTotal.val s₁) ∧
        (s₁.userAddresses.map fun a ↦ Node.share longtermTokens.val longtermPowerTotal.val
          (s₁.users a).longtermPower.val).sum ≤ longtermTokens.val ∧
        (s₁.userAddresses.map fun a ↦ Node.share shorttermTokens.val shorttermPowerTotal.val
          (s₁.users a).shorttermPower.val).sum ≤ shorttermTokens.val ∧
        (payments.map fun p ↦ p.2.val).sum ≤ longtermTokens.val + shorttermTokens.val ∧
        longtermTokens.val + shorttermTokens.val ≤ s.finance := by
  rcases assignToken_eq_ok env now h with hidle | ⟨s₁, s₂, longtermTokens, shorttermTokens,
    longtermPowerTotal, shorttermPowerTotal, hcalc, htokens, htotals, hloop, htransfers⟩
  · exact .inl hidle
  right
  have hwf₁ : s₁.Wf :=
    calculateUserPower_keeps env (fun a ↦ (wf_recordWrites a).power) s ⟨⟩ s₁ hcalc hs
  have hkept : AssignmentKept s s₁ :=
    calculateUserPower_keeps env (fun a ↦ (assignmentKept_recordWrites a).power) s ⟨⟩ s₁ hcalc
  rw [hkept.1] at htokens
  obtain ⟨payments, htransfers₂, hpayments⟩ := assignTo_forM_spec env longtermTokens
    shorttermTokens longtermPowerTotal shorttermPowerTotal hwf₁.nodup hwf₁.registered hloop
  obtain ⟨hlongterm, hshortterm⟩ := Node.userPowerGet_val htotals
  have hlongterm' : longtermPowerTotal.val =
      (s₁.userAddresses.map fun a ↦ (s₁.users a).longtermPower.val).sum := hlongterm
  have hshortterm' : shorttermPowerTotal.val =
      (s₁.userAddresses.map fun a ↦ (s₁.users a).shorttermPower.val).sum := hshortterm
  have hlongPool := Node.sum_share_le longtermTokens.val s₁.userAddresses
    fun a ↦ (s₁.users a).longtermPower.val
  have hshortPool := Node.sum_share_le shorttermTokens.val s₁.userAddresses
    fun a ↦ (s₁.users a).shorttermPower.val
  rw [← hlongterm'] at hlongPool
  rw [← hshortterm'] at hshortPool
  have hsum : (payments.map fun p ↦ p.2.val).sum ≤ longtermTokens.val + shorttermTokens.val :=
    calc (payments.map fun p ↦ p.2.val).sum
        = ((payments.map fun p ↦ (p.1, p.2.val)).map Prod.snd).sum := by rw [List.map_map]; rfl
      _ ≤ _ := hpayments ▸ sum_payments_le env _ _ _ _ s₁ s₁.userAddresses
      _ ≤ longtermTokens.val + shorttermTokens.val := Nat.add_le_add hlongPool hshortPool
  exact ⟨s₁, longtermTokens, shorttermTokens, longtermPowerTotal, shorttermPowerTotal, payments,
    hcalc, htokens, htotals, by rw [htransfers, htransfers₂, hkept.2.1], hpayments, hlongPool,
    hshortPool, hsum, Node.assignTokensGet_le htokens⟩

/-- User `3`, registered, with a long-term power of 10, and 1000 wei in `BokerFinance`. -/
def oneUserStore : Store :=
  ⟨fun a ↦ if a = 3 then { User.zero with index := 1, longtermPower := 10 } else User.zero,
    [0, 3], 0, 1000, []⟩

theorem assignToken_pays_one_user :
    oneUserStore.Wf ∧ ∃ s', TokenPower.assignToken sampleEnv 300 oneUserStore = .ok ⟨⟩ s' ∧
      (s'.transfers.map fun p ↦ p.2.val).sum ≤ oneUserStore.finance := by
  have hwf : oneUserStore.Wf := by
    refine ⟨List.cons_ne_nil _ _, fun a ha ↦ ?_, List.nodup_singleton 3⟩
    rw [show oneUserStore.userAddresses = [3] from rfl, List.mem_singleton] at ha
    subst ha
    decide
  obtain ⟨s', hrun⟩ : ∃ s', TokenPower.assignToken sampleEnv 300 oneUserStore = .ok ⟨⟩ s' :=
    ⟨_, rfl⟩
  refine ⟨hwf, s', hrun, ?_⟩
  rcases assignToken_pays_shares sampleEnv 300 hwf hrun with hidle | ⟨s₁, longtermTokens,
    shorttermTokens, longtermPowerTotal, shorttermPowerTotal, payments, -, -, -, htransfers, -, -,
    -, hsum, hfinance⟩
  · exact absurd hidle.1 (by decide)
  · rw [htransfers, show oneUserStore.transfers = [] from rfl, List.nil_append]
    exact hsum.trans hfinance

/-! ## The watch ledger under positive watches -/

/-- The watch ledger as `BokerUserData` means it to be: each user lists each file at most once,
and exactly the files with a positive time. -/
def WatchLedger (s : Store) : Prop :=
  ∀ a, (s.users a).watchFiles.Nodup ∧
    ∀ fileId, fileId ∈ (s.users a).watchFiles ↔ (s.users a).watchTime fileId ≠ 0

theorem WatchKept.watchLedger {s s' : Store} (h : WatchKept (fun _ ↦ True) s s')
    (hs : WatchLedger s) : WatchLedger s' := by
  intro a
  obtain ⟨hfiles, htime⟩ := h a trivial
  rw [hfiles, htime]
  exact hs a

theorem WatchLedger.of_user {s s' : Store} {a : Address} (hs : WatchLedger s)
    (hothers : WatchKept (· ≠ a) s s') (ha : (s'.users a).watchFiles.Nodup ∧
      ∀ fileId, fileId ∈ (s'.users a).watchFiles ↔ (s'.users a).watchTime fileId ≠ 0) :
    WatchLedger s' := by
  intro b
  by_cases hba : b = a
  · exact hba ▸ ha
  · obtain ⟨hfiles, htime⟩ := hothers b hba
    rw [hfiles, htime]
    exact hs b

theorem watchKept_ledgerWrites (p : Address → Prop) : KeptByLedgerWrites (WatchKept p) where
  grant _ _ _ _ _ := ⟨rfl, rfl⟩
  cycle _ _ _ _ := ⟨rfl, rfl⟩
  receive _ _ _ _ := ⟨rfl, rfl⟩

theorem clearUserUploadCount_watchKept (p : Address → Prop) (a : Address) :
    Keeps (WatchKept p) (clearUserUploadCount a) := by
  refine Keeps.bind (findAddUser_watchKept p a) fun _ ↦ Keeps.modify fun s b _ ↦ ?_
  by_cases hba : b = a
  · subst hba
    simp
  · simp [Store.updateUser_users_of_ne _ _ hba]

/-- **A positive watch keeps the ledger.** A file with time zero is not listed, so listing it
keeps each file once, and its time becomes positive. -/
theorem addUserWatchTime_ledger (env : Env) (a : Address) (fileId : Uint256) {watchTime : Uint256}
    (hpos : watchTime ≠ 0) : Keeps (Preserving WatchLedger) (addUserWatchTime env a fileId watchTime) := by
  intro s u s' h hs
  cases hcontract : env.isContract a with
  | true =>
    unfold addUserWatchTime at h
    rw [if_pos hcontract] at h
    obtain ⟨-, rfl⟩ := pure_eq_ok.1 h
    exact hs
  | false =>
  obtain ⟨hfiles, time, hadd, htime⟩ := addUserWatchTime_spec env hcontract h
  obtain ⟨hnodup, hmem⟩ := hs a
  have htime_pos : time ≠ 0 := by
    intro h0
    apply hpos
    have hval := (safeAdd_eq_ok.1 hadd).2
    rw [h0, Fin.val_zero] at hval
    exact Fin.ext (by rw [Fin.val_zero]; omega)
  refine hs.of_user (addUserWatchTime_keeps env (watchKept_ne_recordWrites a) fileId watchTime
    s u s' h) ⟨?_, fun g ↦ ?_⟩
  · rw [hfiles]
    split_ifs with hzero
    · have hnot : fileId ∉ (s.users a).watchFiles := fun hf ↦
        (hmem fileId).1 hf (nonpos_iff_eq_zero.1 hzero)
      exact List.nodup_append.2 ⟨hnodup, List.nodup_singleton fileId, fun x hx y hy hxy ↦
        hnot (List.mem_singleton.1 hy ▸ hxy ▸ hx)⟩
    · rw [List.append_nil]
      exact hnodup
  · rw [hfiles, htime, List.mem_append]
    by_cases hg : g = fileId
    · subst hg
      rw [Function.update_self]
      refine ⟨fun _ ↦ htime_pos, fun _ ↦ ?_⟩
      split_ifs with hzero
      · exact Or.inr (List.mem_singleton_self g)
      · exact Or.inl ((hmem g).2 fun h0 ↦ hzero (le_of_eq h0))
    · rw [Function.update_of_ne hg, ← hmem g]
      split_ifs
      · simp [hg]
      · simp

theorem foldl_update_zero (files : List Uint256) (t : Uint256 → Uint256) (g : Uint256) :
    files.foldl (fun w fileId ↦ Function.update w fileId 0) t g = if g ∈ files then 0 else t g := by
  induction files generalizing t with
  | nil => simp
  | cons f files ih =>
    rw [List.foldl_cons, ih]
    by_cases hg : g = f
    · subst hg
      simp
    · simp [hg]

theorem clearUserWatchTime_ledger (a : Address) :
    Keeps (Preserving WatchLedger) (clearUserWatchTime a) := by
  intro s u s' h hs
  obtain ⟨⟨⟩, s₁, hfind, hmodify⟩ := bind_eq_ok.1 h
  obtain rfl := modify_eq_ok.1 hmodify
  have hs₁ : WatchLedger s₁ := (findAddUser_watchKept (fun _ ↦ True) a s ⟨⟩ s₁ hfind).watchLedger hs
  refine hs₁.of_user (a := a) (fun b hba ↦ by simp [Store.updateUser_users_of_ne _ _ hba])
    ⟨?_, fun g ↦ ?_⟩
  · simp
  · rw [Store.updateUser_users_self]
    dsimp only
    rw [foldl_update_zero]
    split_ifs with hg
    · simp
    · simp [← (hs₁ a).2 g, hg]

theorem assignToken_ledger (env : Env) (now : Uint256) :
    Keeps (Preserving WatchLedger) (assignToken env now) :=
  have hkept : ∀ s s', WatchKept (fun _ ↦ True) s s' → Preserving WatchLedger s s' :=
    fun _ _ h ↦ h.watchLedger
  assignToken_keeps env
    ((calculateUserPower_keeps env (watchKept_powerWrites _)).mono hkept)
    (fun a _ _ _ _ ↦ assignTo_keeps env
      ((clearUserShorttermPower_keeps env (watchKept_powerWrites _ a)).mono hkept)
      (clearUserWatchTime_ledger a) ((clearUserUploadCount_watchKept _ a).mono hkept)
      (fun amount ↦ (grantTokenTo_keeps (watchKept_ledgerWrites _) a amount).mono hkept) _ _ _ _)
    (fun s start ↦ hkept s _ ((watchKept_ledgerWrites _).cycle s start)) now

theorem Call.run_ledger (env : Env) (now : Uint256) (c : Call)
    (hc : ∀ addrFrom addrTo fileId watchTime, c = .watch addrFrom addrTo fileId watchTime →
      watchTime ≠ 0) : Keeps (Preserving WatchLedger) (c.run env now) := by
  have hkept : ∀ s s', WatchKept (fun _ ↦ True) s s' → Preserving WatchLedger s s' :=
    fun _ _ h ↦ h.watchLedger
  cases c with
  | watch addrFrom addrTo fileId watchTime =>
    exact Keeps.ite (Keeps.pure _)
      (addUserWatchTime_ledger env addrFrom fileId (hc addrFrom addrTo fileId watchTime rfl))
  | upload addrFrom addrTo =>
    exact Keeps.ite (Keeps.pure _) ((addUserUploadCount_watchKept env _ addrFrom 1).mono hkept)
  | increaseLongterm addrUser value =>
    exact (increaseUserPower_keeps env (watchKept_powerWrites _ addrUser) _ _).mono hkept
  | assignToken => exact assignToken_ledger env now
  | pay value => exact Keeps.modify fun s ↦ hkept s _ ((watchKept_ledgerWrites _).receive s value)

theorem foldlM_safeAdd_val : ∀ {l : List Uint256} {acc r : Uint256},
    l.foldlM safeAdd acc = .ok r → r.val = acc.val + (l.map Fin.val).sum
  | [], acc, r, h => by
    cases h
    simp
  | x :: l, acc, r, h => by
    rw [List.foldlM_cons] at h
    obtain ⟨acc', hadd, hrest⟩ := except_bind_eq_ok.1 h
    rw [foldlM_safeAdd_val hrest, (safeAdd_eq_ok.1 hadd).2, List.map_cons, List.sum_cons]
    omega

/-- **The watch ledger holds while every watch is positive.** From deployment, through any calls
whose watch events all have a positive time, every user lists each file once, exactly the files
with a positive time; so the total `getUserWatchTime` returns for a user with a listed file, the
divisor of `_calculateWatchPower`, is never zero. -/
theorem watch_ledger_of_positive_watches (env : Env) (deployedAt : Uint256)
    (calls : List (Uint256 × Call))
    (hcalls : ∀ call ∈ calls, ∀ addrFrom addrTo fileId watchTime,
      call.2 = .watch addrFrom addrTo fileId watchTime → watchTime ≠ 0) :
    let s := (Store.deployed deployedAt).runAll env calls
    WatchLedger s ∧ ∀ a watchTotal fileIds watchTimes,
      getUserWatchTime s a = .ok (watchTotal, fileIds, watchTimes) → fileIds ≠ [] →
        watchTotal ≠ 0 := by
  intro s
  have hrun : ∀ (calls : List (Uint256 × Call)) (t : Store), WatchLedger t →
      (∀ call ∈ calls, ∀ addrFrom addrTo fileId watchTime,
        call.2 = .watch addrFrom addrTo fileId watchTime → watchTime ≠ 0) →
      WatchLedger (t.runAll env calls) := by
    intro calls
    induction calls with
    | nil => exact fun t ht _ ↦ ht
    | cons call calls ih =>
      intro t ht hc
      exact ih _ (transact_preserves (fun t t' u ht hx ↦
          Call.run_ledger env call.1 call.2 (hc call List.mem_cons_self) t u t' hx ht) ht)
        fun c hmem ↦ hc c (List.mem_cons_of_mem call hmem)
  have hdeployed : WatchLedger (Store.deployed deployedAt) := fun _ ↦
    ⟨List.nodup_nil, fun _ ↦ ⟨fun h ↦ absurd h List.not_mem_nil, fun h ↦ absurd rfl h⟩⟩
  have hledger := hrun calls _ hdeployed hcalls
  refine ⟨hledger, fun a watchTotal fileIds watchTimes hget hne ↦ ?_⟩
  obtain ⟨total, htotal, hret⟩ := except_bind_eq_ok.1 hget
  cases hret
  obtain ⟨fileId, rest, hfiles⟩ := List.exists_cons_of_ne_nil hne
  have hfirst : (s.users a).watchTime fileId ≠ 0 :=
    ((hledger a).2 fileId).1 (hfiles ▸ List.mem_cons_self)
  have hval := foldlM_safeAdd_val htotal
  rw [hfiles, List.map_cons, List.map_cons, List.sum_cons] at hval
  intro h0
  apply hfirst
  apply Fin.ext
  rw [h0, Fin.val_zero] at hval
  rw [Fin.val_zero]
  omega

theorem watch_ledger_after_positive_watch :
    (∀ call ∈ [((0 : Uint256), Call.watch 1 2 7 5)], ∀ addrFrom addrTo fileId watchTime,
      call.2 = .watch addrFrom addrTo fileId watchTime → watchTime ≠ 0) ∧
    WatchLedger ((Store.deployed 0).runAll sampleEnv [(0, .watch 1 2 7 5)]) := by
  have hcalls : ∀ call ∈ [((0 : Uint256), Call.watch 1 2 7 5)], ∀ addrFrom addrTo fileId watchTime,
      call.2 = .watch addrFrom addrTo fileId watchTime → watchTime ≠ 0 := by
    intro call hcall addrFrom addrTo fileId watchTime hwatch
    rw [List.mem_singleton] at hcall
    subst hcall
    cases hwatch
    decide
  exact ⟨hcalls, (watch_ledger_of_positive_watches sampleEnv 0 _ hcalls).1⟩

end BokerChain.TokenPower
