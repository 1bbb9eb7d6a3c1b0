import BokerChain.Protocol

/-!
# The state database

`state.StateDB` as the state transition uses it: the state objects by address, each with its
nonce, balance, code and self-destruct flag, the set of objects changed since the last
`Finalise`, and the refund counter.  Reads of a missing object give zero; writes create it
(`GetOrNewStateObject`).  `Finalise` deletes the changed objects that self-destructed or, when
asked, are empty, and clears the refund counter.

Contract storage is read and written by the EVM only, which the model takes as given; it is left
out of the state objects.
-/

namespace BokerChain

open scoped BigOperators

/-- A state object. -/
structure Account where
  nonce : UInt64
  balance : Int
  code : Bytes
  suicided : Bool
  deriving DecidableEq, Repr

namespace Account

/-- A new object (`newObject` with an empty `Account`). -/
def fresh : Account := ⟨0, 0, [], false⟩

/-- `stateObject.empty` (EIP-161): no nonce, no balance, no code. -/
def empty (o : Account) : Bool := o.nonce = 0 ∧ o.balance = 0 ∧ o.code = []

end Account

/-- `state.StateDB`. -/
structure StateDB where
  accounts : Address → Option Account
  dirty : Address → Bool
  refund : Nat

namespace StateDB

variable (s : StateDB) (addr : Address)

/-- `Exist`. -/
def exist : Bool := (s.accounts addr).isSome

/-- `GetBalance`. -/
def getBalance : Int := ((s.accounts addr).map Account.balance).getD 0

/-- `GetNonce`. -/
def getNonce : UInt64 := ((s.accounts addr).map Account.nonce).getD 0

/-- `GetRefund`. -/
def getRefund : Nat := s.refund

/-- `GetCode`. -/
def getCode : Bytes := ((s.accounts addr).map Account.code).getD []

/-- `HasSuicided`. -/
def hasSuicided : Bool := ((s.accounts addr).map Account.suicided).getD false

/-- The object at an address as the reads see it: a missing object reads as a fresh one. -/
def view : Account := (s.accounts addr).getD Account.fresh

/-- Store an object and mark it changed. -/
def setObject (o : Account) : StateDB :=
  { s with accounts := Function.update s.accounts addr (some o),
           dirty := Function.update s.dirty addr true }

/-- `GetOrNewStateObject`: the object, created empty if it is missing. -/
def getOrNew : Account × StateDB :=
  match s.accounts addr with
  | some o => (o, s)
  | none => (Account.fresh, s.setObject addr Account.fresh)

/-- `CreateAccount`: a new object that keeps the balance of the one it replaces. -/
def createAccount : StateDB :=
  match s.accounts addr with
  | some prev => s.setObject addr { Account.fresh with balance := prev.balance }
  | none => s.setObject addr Account.fresh

/-- `AddBalance`: a zero amount only touches an empty object. -/
def addBalance (amount : Int) : StateDB :=
  let (o, s) := s.getOrNew addr
  if amount = 0 then (if o.empty then s.setObject addr o else s)
  else s.setObject addr { o with balance := o.balance + amount }

/-- `SubBalance`. -/
def subBalance (amount : Int) : StateDB :=
  let (o, s) := s.getOrNew addr
  if amount = 0 then s else s.setObject addr { o with balance := o.balance - amount }

/-- `SetNonce`. -/
def setNonce (nonce : UInt64) : StateDB :=
  let (o, s) := s.getOrNew addr
  s.setObject addr { o with nonce }

/-- `Finalise`: delete the changed objects that self-destructed or, with `deleteEmpty`, are
empty; then clear the journal and the refund counter.  The set of changed objects stays as it is
until `CommitTo`. -/
def finalise (deleteEmpty : Bool) : StateDB where
  accounts a := match s.accounts a with
    | some o => if s.dirty a ∧ (o.suicided ∨ (deleteEmpty ∧ o.empty)) then none else some o
    | none => none
  dirty := s.dirty
  refund := 0

/-- The sum of all balances. -/
def totalBalance : Int := ∑ a, s.getBalance a

/-! ## Balances after each operation -/

variable {s addr}

@[simp]
theorem getBalance_setObject (o : Account) (a : Address) :
    (s.setObject addr o).getBalance a = if a = addr then o.balance else s.getBalance a := by
  by_cases h : a = addr
  · subst h
    simp [setObject, getBalance]
  · simp [setObject, getBalance, h]

theorem getOrNew_spec {o : Account} {t : StateDB} (h : s.getOrNew addr = (o, t)) :
    o.balance = s.getBalance addr ∧ ∀ a, t.getBalance a = s.getBalance a := by
  unfold getOrNew at h
  cases hacc : s.accounts addr with
  | some o' =>
    rw [hacc] at h
    obtain ⟨rfl, rfl⟩ := Prod.mk.inj h
    exact ⟨by simp [getBalance, hacc], fun _ ↦ rfl⟩
  | none =>
    rw [hacc] at h
    obtain ⟨rfl, rfl⟩ := Prod.mk.inj h
    refine ⟨by simp [getBalance, hacc, Account.fresh], fun a ↦ ?_⟩
    rw [getBalance_setObject]
    split
    · next ha => subst ha; simp [getBalance, hacc, Account.fresh]
    · rfl

@[simp]
theorem getBalance_addBalance (amount : Int) (a : Address) :
    (s.addBalance addr amount).getBalance a =
      if a = addr then s.getBalance a + amount else s.getBalance a := by
  rcases hg : s.getOrNew addr with ⟨o, t⟩
  obtain ⟨hbal, hsame⟩ := getOrNew_spec hg
  simp only [addBalance, hg]
  by_cases ha : a = addr
  · subst ha
    split_ifs <;> simp_all
  · split_ifs <;> simp_all

@[simp]
theorem getBalance_subBalance (amount : Int) (a : Address) :
    (s.subBalance addr amount).getBalance a =
      if a = addr then s.getBalance a - amount else s.getBalance a := by
  rcases hg : s.getOrNew addr with ⟨o, t⟩
  obtain ⟨hbal, hsame⟩ := getOrNew_spec hg
  simp only [subBalance, hg]
  by_cases ha : a = addr
  · subst ha
    split_ifs <;> simp_all
  · split_ifs <;> simp_all

@[simp]
theorem getBalance_setNonce (nonce : UInt64) (a : Address) :
    (s.setNonce addr nonce).getBalance a = s.getBalance a := by
  rcases hg : s.getOrNew addr with ⟨o, t⟩
  obtain ⟨hbal, hsame⟩ := getOrNew_spec hg
  simp only [setNonce, hg, getBalance_setObject]
  split
  · next ha => subst ha; exact hbal
  · exact hsame a

@[simp]
theorem getBalance_createAccount (a : Address) :
    (s.createAccount addr).getBalance a = s.getBalance a := by
  unfold createAccount
  cases h : s.accounts addr with
  | some prev =>
    simp only [getBalance_setObject]
    split
    · next ha => subst ha; simp [getBalance, h]
    · rfl
  | none =>
    simp only [getBalance_setObject]
    split
    · next ha => subst ha; simp [getBalance, h, Account.fresh]
    · rfl

@[simp]
theorem refund_setObject (o : Account) : (s.setObject addr o).refund = s.refund := rfl

@[simp]
theorem refund_addBalance (amount : Int) : (s.addBalance addr amount).refund = s.refund := by
  unfold addBalance getOrNew
  cases s.accounts addr <;> dsimp only <;> split_ifs <;> rfl

@[simp]
theorem refund_subBalance (amount : Int) : (s.subBalance addr amount).refund = s.refund := by
  unfold subBalance getOrNew
  cases s.accounts addr <;> dsimp only <;> split_ifs <;> rfl

@[simp]
theorem refund_setNonce (nonce : UInt64) : (s.setNonce addr nonce).refund = s.refund := by
  unfold setNonce getOrNew
  cases s.accounts addr <;> rfl

@[simp]
theorem refund_createAccount : (s.createAccount addr).refund = s.refund := by
  unfold createAccount
  cases s.accounts addr <;> rfl

/-! ## The total -/

theorem totalBalance_congr {t : StateDB} (h : ∀ a, t.getBalance a = s.getBalance a) :
    t.totalBalance = s.totalBalance :=
  Finset.sum_congr rfl fun a _ ↦ h a

theorem totalBalance_update {t : StateDB} (a : Address) (delta : Int)
    (h : ∀ b, t.getBalance b = if b = a then s.getBalance b + delta else s.getBalance b) :
    t.totalBalance = s.totalBalance + delta := by
  have hsplit : ∀ b, t.getBalance b = s.getBalance b + if b = a then delta else 0 := by
    intro b
    rw [h b]
    split <;> simp
  simp only [totalBalance, hsplit, Finset.sum_add_distrib, Finset.sum_ite_eq', Finset.mem_univ,
    if_true]

@[simp]
theorem totalBalance_addBalance (amount : Int) :
    (s.addBalance addr amount).totalBalance = s.totalBalance + amount :=
  totalBalance_update addr amount (getBalance_addBalance amount)

@[simp]
theorem totalBalance_subBalance (amount : Int) :
    (s.subBalance addr amount).totalBalance = s.totalBalance - amount := by
  have h := totalBalance_update (s := s) (t := s.subBalance addr amount) addr (-amount)
    (fun b ↦ by rw [getBalance_subBalance]; split <;> simp [sub_eq_add_neg])
  rw [h, sub_eq_add_neg]

@[simp]
theorem totalBalance_setNonce (nonce : UInt64) :
    (s.setNonce addr nonce).totalBalance = s.totalBalance :=
  totalBalance_congr (getBalance_setNonce nonce)

@[simp]
theorem totalBalance_createAccount : (s.createAccount addr).totalBalance = s.totalBalance :=
  totalBalance_congr getBalance_createAccount

/-! ## The objects as the reads see them

Every read is a field of `view`, and each write changes `view` at its own address only; so one
lemma per write says what it does to every field a read returns. -/

theorem getNonce_eq_view (a : Address) : s.getNonce a = (s.view a).nonce := by
  unfold getNonce view
  cases s.accounts a <;> rfl

theorem getCode_eq_view (a : Address) : s.getCode a = (s.view a).code := by
  unfold getCode view
  cases s.accounts a <;> rfl

theorem hasSuicided_eq_view (a : Address) : s.hasSuicided a = (s.view a).suicided := by
  unfold hasSuicided view
  cases s.accounts a <;> rfl

@[simp]
theorem view_setObject (o : Account) (a : Address) :
    (s.setObject addr o).view a = if a = addr then o else s.view a := by
  by_cases h : a = addr
  · subst h
    simp [setObject, view]
  · simp [setObject, view, h]

theorem view_getOrNew {o : Account} {t : StateDB} (h : s.getOrNew addr = (o, t)) :
    o = s.view addr ∧ ∀ a, t.view a = s.view a := by
  unfold getOrNew at h
  cases hacc : s.accounts addr with
  | some o' =>
    rw [hacc] at h
    obtain ⟨rfl, rfl⟩ := Prod.mk.inj h
    exact ⟨by simp [view, hacc], fun _ ↦ rfl⟩
  | none =>
    rw [hacc] at h
    obtain ⟨rfl, rfl⟩ := Prod.mk.inj h
    have hfresh : s.view addr = Account.fresh := by simp [view, hacc]
    refine ⟨hfresh.symm, fun a ↦ ?_⟩
    rw [view_setObject]
    split
    · next ha => rw [ha, hfresh]
    · rfl

@[simp]
theorem view_addBalance (amount : Int) (a : Address) :
    (s.addBalance addr amount).view a =
      if a = addr then { s.view addr with balance := (s.view addr).balance + amount }
      else s.view a := by
  rcases hg : s.getOrNew addr with ⟨o, t⟩
  obtain ⟨rfl, hsame⟩ := view_getOrNew hg
  simp only [addBalance, hg]
  by_cases hzero : amount = 0
  · subst hzero
    by_cases ha : a = addr <;> by_cases he : (s.view addr).empty = true <;>
      simp [ha, he, hsame]
  · simp [hzero, hsame]

@[simp]
theorem view_subBalance (amount : Int) (a : Address) :
    (s.subBalance addr amount).view a =
      if a = addr then { s.view addr with balance := (s.view addr).balance - amount }
      else s.view a := by
  rcases hg : s.getOrNew addr with ⟨o, t⟩
  obtain ⟨rfl, hsame⟩ := view_getOrNew hg
  simp only [subBalance, hg]
  by_cases hzero : amount = 0
  · subst hzero
    by_cases ha : a = addr <;> simp [ha, hsame]
  · simp [hzero, hsame]

@[simp]
theorem view_setNonce (nonce : UInt64) (a : Address) :
    (s.setNonce addr nonce).view a =
      if a = addr then { s.view addr with nonce } else s.view a := by
  rcases hg : s.getOrNew addr with ⟨o, t⟩
  obtain ⟨rfl, hsame⟩ := view_getOrNew hg
  simp only [setNonce, hg, view_setObject, hsame]

@[simp]
theorem view_createAccount (a : Address) :
    (s.createAccount addr).view a =
      if a = addr then { Account.fresh with balance := (s.view addr).balance } else s.view a := by
  unfold createAccount
  cases hacc : s.accounts addr with
  | some prev =>
    rw [view_setObject]
    simp [view, hacc]
  | none =>
    rw [view_setObject]
    simp [view, hacc, Account.fresh]

@[simp]
theorem view_finalise (deleteEmpty : Bool) (a : Address) :
    (s.finalise deleteEmpty).view a =
      if s.dirty a ∧ ((s.view a).suicided ∨ (deleteEmpty ∧ (s.view a).empty)) then Account.fresh
      else s.view a := by
  simp only [finalise, view]
  split
  · next o hacc =>
    simp only [hacc, Option.getD_some]
    split_ifs <;> rfl
  · next hacc => simp [hacc]

/-! ## Self-destructed objects

`Finalise` deletes the changed objects that self-destructed, whatever their balance, and the
empty ones, whose balance is zero; so it keeps the total when no object is marked
self-destructed.  The operations above never mark one. -/

/-- No object is marked self-destructed. -/
def NoSuicides (s : StateDB) : Prop := ∀ a o, s.accounts a = some o → o.suicided = false

theorem NoSuicides.setObject (hs : s.NoSuicides) {o : Account} (ho : o.suicided = false) :
    (s.setObject addr o).NoSuicides := by
  intro a o' h
  by_cases ha : a = addr
  · subst ha
    simp only [StateDB.setObject, Function.update_self, Option.some.injEq] at h
    rw [← h, ho]
  · simp only [StateDB.setObject, Function.update_of_ne ha] at h
    exact hs a o' h

theorem NoSuicides.getOrNew (hs : s.NoSuicides) {o : Account} {t : StateDB}
    (h : s.getOrNew addr = (o, t)) : o.suicided = false ∧ t.NoSuicides := by
  unfold StateDB.getOrNew at h
  cases hacc : s.accounts addr with
  | some o' =>
    rw [hacc] at h
    obtain ⟨rfl, rfl⟩ := Prod.mk.inj h
    exact ⟨hs addr o' hacc, hs⟩
  | none =>
    rw [hacc] at h
    obtain ⟨rfl, rfl⟩ := Prod.mk.inj h
    exact ⟨rfl, hs.setObject rfl⟩

theorem NoSuicides.addBalance (hs : s.NoSuicides) (amount : Int) :
    (s.addBalance addr amount).NoSuicides := by
  rcases hg : s.getOrNew addr with ⟨o, t⟩
  obtain ⟨ho, ht⟩ := hs.getOrNew hg
  simp only [StateDB.addBalance, hg]
  split_ifs
  · exact ht.setObject ho
  · exact ht
  · exact ht.setObject ho

theorem NoSuicides.subBalance (hs : s.NoSuicides) (amount : Int) :
    (s.subBalance addr amount).NoSuicides := by
  rcases hg : s.getOrNew addr with ⟨o, t⟩
  obtain ⟨ho, ht⟩ := hs.getOrNew hg
  simp only [StateDB.subBalance, hg]
  split_ifs
  · exact ht
  · exact ht.setObject ho

theorem NoSuicides.setNonce (hs : s.NoSuicides) (nonce : UInt64) :
    (s.setNonce addr nonce).NoSuicides := by
  rcases hg : s.getOrNew addr with ⟨o, t⟩
  obtain ⟨ho, ht⟩ := hs.getOrNew hg
  simp only [StateDB.setNonce, hg]
  exact ht.setObject ho

theorem NoSuicides.createAccount (hs : s.NoSuicides) : (s.createAccount addr).NoSuicides := by
  unfold StateDB.createAccount
  split
  · exact hs.setObject rfl
  · exact hs.setObject rfl

theorem NoSuicides.finalise (hs : s.NoSuicides) (deleteEmpty : Bool) :
    (s.finalise deleteEmpty).NoSuicides := by
  intro a o h
  simp only [StateDB.finalise] at h
  split at h
  · next o' hacc =>
    split_ifs at h
    cases h
    exact hs a o hacc
  · cases h

theorem getBalance_finalise (hs : s.NoSuicides) (deleteEmpty : Bool) (a : Address) :
    (s.finalise deleteEmpty).getBalance a = s.getBalance a := by
  simp only [StateDB.finalise, StateDB.getBalance]
  cases hacc : s.accounts a with
  | none => rfl
  | some o =>
    have hsuicided := hs a o hacc
    dsimp only
    split_ifs with hdel
    · obtain ⟨-, hsui | ⟨-, hempty⟩⟩ := hdel
      · rw [hsuicided] at hsui
        cases hsui
      · simp only [Account.empty, decide_eq_true_eq] at hempty
        simp [hempty.2.1]
    · rfl

theorem totalBalance_finalise (hs : s.NoSuicides) (deleteEmpty : Bool) :
    (s.finalise deleteEmpty).totalBalance = s.totalBalance :=
  totalBalance_congr (getBalance_finalise hs deleteEmpty)

end StateDB

end BokerChain
