import BokerChain.Core.Journal

/-!
# The view of the state database

What a revert of the journal gives back is what the readers of the database see: the trie, each
visible object without the flags that steer the journal and `Finalise` (`touched`, `onDirty`,
`deleted`), and the values of the transaction (`View`).  The flags and the dirty set are not
part of it.

Undoing an entry in two databases with one view fails in both or gives one view
(`undo_respects`): each undo reads the visible object at its address and writes back a value it
recorded, or restores a transaction-level value.  `Valid` is the consistency between the live
objects, the trie and the revisions that every operation keeps.
-/

namespace BokerChain.State

open Library UndoLog

/-! ## What readers see -/

/-- What an object shows to the queries: its address, its account and whether it
self-destructed, not the flags that steer the journal and `Finalise`. -/
def StateObject.contents (o : StateObject) : Address × Account × Bool := (o.address, o.data, o.suicided)

/-- What a database shows to its readers. -/
@[ext]
structure View where
  trie : Address → Option Account
  objects : Address → Option (Address × Account × Bool)
  refund : ℕ
  logs : Hash → List Log
  logSize : ℕ
  preimages : Hash → Option Bytes
  thash : Hash
  bhash : Hash
  txIndex : ℕ

namespace StateDB

/-- The view of a database. -/
def view (s : StateDB) : View :=
  ⟨s.trie, fun a ↦ (s.getStateObject a).map StateObject.contents, s.refund, s.logs, s.logSize,
    s.preimages, s.thash, s.bhash, s.txIndex⟩

variable {s u v : StateDB} {o : StateObject} {a : Address}

theorem deleted_of_getStateObject (h : s.getStateObject a = some o) : o.deleted = false := by
  unfold getStateObject at h
  split at h
  · split_ifs at h with hdel
    cases h
    simpa using hdel
  · obtain ⟨acc, -, rfl⟩ := Option.map_eq_some_iff.1 h
    rfl

theorem getStateObject_setStateObject (o : StateObject) (a : Address) :
    (s.setStateObject o).getStateObject a =
      if a = o.address then (if o.deleted then none else some o) else s.getStateObject a := by
  by_cases ha : a = o.address
  · subst ha
    simp [getStateObject, setStateObject]
  · simp [getStateObject, setStateObject, ha]

theorem writeObject_eq_setStateObject (s : StateDB) (o : StateObject) :
    ∃ d, s.writeObject o = { s with stateObjectsDirty := d }.setStateObject { o with onDirty := false } := by
  unfold writeObject
  split
  · exact ⟨_, rfl⟩
  · exact ⟨s.stateObjectsDirty, rfl⟩

theorem writeObject_fields (s : StateDB) (o : StateObject) :
    (s.writeObject o).trie = s.trie ∧ (s.writeObject o).journal = s.journal ∧
      (s.writeObject o).validRevisions = s.validRevisions ∧
      (s.writeObject o).nextRevisionId = s.nextRevisionId := by
  obtain ⟨d, hd⟩ := writeObject_eq_setStateObject s o
  rw [hd]
  exact ⟨rfl, rfl, rfl, rfl⟩

@[simp]
theorem writeObject_journal : (s.writeObject o).journal = s.journal := (writeObject_fields s o).2.1

@[simp]
theorem writeObject_validRevisions : (s.writeObject o).validRevisions = s.validRevisions :=
  (writeObject_fields s o).2.2.1

@[simp]
theorem writeObject_nextRevisionId : (s.writeObject o).nextRevisionId = s.nextRevisionId :=
  (writeObject_fields s o).2.2.2

theorem getStateObject_writeObject (o : StateObject) (a : Address) :
    (s.writeObject o).getStateObject a = (s.setStateObject { o with onDirty := false }).getStateObject a := by
  obtain ⟨d, hd⟩ := writeObject_eq_setStateObject s o
  rw [hd]
  rfl

theorem view_setStateObject (o : StateObject) :
    (s.setStateObject o).view = { s.view with
      objects := Function.update s.view.objects o.address (if o.deleted then none else some o.contents) } := by
  ext1
  all_goals try rfl
  funext b
  by_cases hb : b = o.address
  · subst hb
    simp only [view, getStateObject_setStateObject, Function.update_self, if_true]
    cases o.deleted <;> rfl
  · simp only [view, getStateObject_setStateObject, if_neg hb, Function.update_of_ne hb]

theorem view_writeObject (o : StateObject) :
    (s.writeObject o).view = (s.setStateObject { o with onDirty := false }).view := by
  obtain ⟨d, hd⟩ := writeObject_eq_setStateObject s o
  rw [hd]
  rfl

@[simp]
theorem getStateObject_appendJournal (e : Entry) (a : Address) :
    (s.appendJournal e).getStateObject a = s.getStateObject a := rfl

@[simp]
theorem view_appendJournal (e : Entry) : (s.appendJournal e).view = s.view := rfl

theorem view_removeObject (account : Address) (d : List Address) :
    ({ s with stateObjects := Function.update s.stateObjects account none, stateObjectsDirty := d } : StateDB).view =
      { s.view with objects := (Function.update s.view.objects account
          ((s.view.trie account).map fun acc ↦ (newObject account acc).contents)) } := by
  ext1
  all_goals try rfl
  funext b
  by_cases hb : b = account
  · subst hb
    simp only [view, getStateObject, Function.update_self, Option.map_map]
    rfl
  · simp [view, getStateObject, Function.update_of_ne hb]

theorem view_withDirty (s : StateDB) (d : List Address) :
    ({ s with stateObjectsDirty := d } : StateDB).view = s.view :=
  rfl

theorem view_setLogs (s : StateDB) (logs : Hash → List Log) (logSize : ℕ) :
    ({ s with logs := logs, logSize := logSize } : StateDB).view = { s.view with logs := logs, logSize := logSize } :=
  rfl

theorem view_setPreimages (s : StateDB) (preimages : Hash → Option Bytes) :
    ({ s with preimages := preimages } : StateDB).view = { s.view with preimages := preimages } :=
  rfl

/-! ## Undoing respects views -/

theorem getStateObject_cases (h : u.view = v.view) (a : Address) :
    (u.getStateObject a = none ∧ v.getStateObject a = none) ∨
      ∃ o₁ o₂, u.getStateObject a = some o₁ ∧ v.getStateObject a = some o₂ ∧ o₁.contents = o₂.contents := by
  have hc : (u.getStateObject a).map StateObject.contents = (v.getStateObject a).map StateObject.contents :=
    congrFun (congrArg View.objects h) a
  cases hu : u.getStateObject a with
  | none =>
    rw [hu, Option.map_none, eq_comm, Option.map_eq_none_iff] at hc
    exact .inl ⟨rfl, hc⟩
  | some o₁ =>
    rw [hu, Option.map_some, eq_comm, Option.map_eq_some_iff] at hc
    obtain ⟨o₂, hv, hc⟩ := hc
    exact .inr ⟨o₁, o₂, rfl, hv, hc.symm⟩

theorem view_setStateObject_congr (h : u.view = v.view) {o₁ o₂ : StateObject}
    (hc : o₁.contents = o₂.contents) (hdel : o₁.deleted = o₂.deleted) :
    (u.setStateObject o₁).view = (v.setStateObject o₂).view := by
  have haddr : o₁.address = o₂.address := congrArg Prod.fst hc
  rw [view_setStateObject, view_setStateObject, hc, hdel, haddr, h]

theorem respects_map (f : StateDB → StateObject → StateDB) (g : StateObject → StateObject)
    (gc : Address × Account × Bool → Address × Account × Bool)
    (hf : ∀ s o, (f s o).view = (s.setStateObject (g o)).view)
    (hg : ∀ o, (g o).contents = gc o.contents) (hdel : ∀ o, (g o).deleted = o.deleted)
    (h : u.view = v.view) (a : Address) :
    Option.Rel (fun x y ↦ x.view = y.view) ((u.getStateObject a).map (f u))
      ((v.getStateObject a).map (f v)) := by
  rcases getStateObject_cases h a with ⟨hu, hv⟩ | ⟨o₁, o₂, hu, hv, hc⟩
  · rw [hu, hv]
    exact .none
  · rw [hu, hv]
    refine .some ?_
    rw [hf, hf]
    apply view_setStateObject_congr h
    · rw [hg, hg, hc]
    · rw [hdel, hdel, deleted_of_getStateObject hu, deleted_of_getStateObject hv]

/-- Undoing an entry in two databases with one view fails in both or gives one view. -/
theorem undo_respects : Respects undo view := by
  intro u v e h
  cases e with
  | createObjectChange account =>
    refine .some ?_
    rw [view_removeObject, view_removeObject, h]
  | resetObjectChange prev => exact .some (view_setStateObject_congr h rfl rfl)
  | suicideChange account prev prevbalance =>
    simp only [undo]
    rcases getStateObject_cases h account with ⟨hu, hv⟩ | ⟨o₁, o₂, hu, hv, hc⟩
    · rw [hu, hv]
      exact .some h
    · rw [hu, hv]
      refine .some ?_
      rw [StateObject.setBalance, StateObject.setBalance, view_writeObject, view_writeObject]
      apply view_setStateObject_congr h
      · exact congrArg (fun c ↦ (c.1, { c.2.1 with balance := prevbalance }, prev)) hc
      · exact (deleted_of_getStateObject hu).trans (deleted_of_getStateObject hv).symm
  | balanceChange account prev =>
    exact respects_map (fun s o ↦ StateObject.setBalance s o prev)
      (fun o ↦ { o with data := { o.data with balance := prev }, onDirty := false })
      (fun c ↦ (c.1, { c.2.1 with balance := prev }, c.2.2))
      (fun _ _ ↦ view_writeObject _) (fun _ ↦ rfl) (fun _ ↦ rfl) h account
  | nonceChange account prev =>
    exact respects_map (fun s o ↦ StateObject.setNonce s o prev)
      (fun o ↦ { o with data := { o.data with nonce := prev }, onDirty := false })
      (fun c ↦ (c.1, { c.2.1 with nonce := prev }, c.2.2))
      (fun _ _ ↦ view_writeObject _) (fun _ ↦ rfl) (fun _ ↦ rfl) h account
  | storageChange account key prevalue =>
    exact respects_map (fun s o ↦ StateObject.setState s o key prevalue)
      (fun o ↦ { o with data := { o.data with storage := Function.update o.data.storage key prevalue }, onDirty := false })
      (fun c ↦ (c.1, { c.2.1 with storage := Function.update c.2.1.storage key prevalue }, c.2.2))
      (fun _ _ ↦ view_writeObject _) (fun _ ↦ rfl) (fun _ ↦ rfl) h account
  | codeChange account prevcode prevhash =>
    exact respects_map (fun s o ↦ StateObject.setCode s o prevhash prevcode)
      (fun o ↦ { o with data := { o.data with codeHash := prevhash, code := prevcode }, onDirty := false })
      (fun c ↦ (c.1, { c.2.1 with codeHash := prevhash, code := prevcode }, c.2.2))
      (fun _ _ ↦ view_writeObject _) (fun _ ↦ rfl) (fun _ ↦ rfl) h account
  | refundChange prev => exact .some (show { u.view with refund := prev } = { v.view with refund := prev } by rw [h])
  | addLogChange txhash =>
    have hlogs : u.logs = v.logs := congrArg View.logs h
    have hsize : u.logSize = v.logSize := congrArg View.logSize h
    simp only [undo]
    rw [← hlogs]
    split_ifs
    · refine .some ?_
      rw [view_setLogs u, view_setLogs v, h, hsize]
    · exact .none
    · refine .some ?_
      rw [view_setLogs u, view_setLogs v, h, hsize]
  | addPreimageChange hash =>
    have hpre : u.preimages = v.preimages := congrArg View.preimages h
    refine .some ?_
    rw [view_setPreimages u, view_setPreimages v, h, hpre]
  | touchChange account prev prevDirty =>
    simp only [undo]
    split
    · exact respects_map
        (fun s obj ↦
          let s' := s.setStateObject { obj with touched := prev }
          if !prevDirty then { s' with stateObjectsDirty := s'.stateObjectsDirty.filter (· != account) } else s')
        (fun o ↦ { o with touched := prev }) (fun c ↦ c)
        (fun _ _ ↦ by dsimp only; split <;> rfl) (fun _ ↦ rfl) (fun _ ↦ rfl) h account
    · exact .some h

/-! ## The consistency of a database -/

/-- What every operation keeps: a deleted live object is gone from the trie, a visible object
sits at its own address, and every valid revision is older than the next id. -/
structure Valid (s : StateDB) : Prop where
  trie_of_deleted : ∀ addr obj, s.stateObjects addr = some obj → obj.deleted = true → s.trie addr = none
  address_eq : ∀ addr obj, s.getStateObject addr = some obj → obj.address = addr
  revision_lt : ∀ r ∈ s.validRevisions, r.id < s.nextRevisionId

theorem valid_new (trie : Address → Option Account) : (StateDB.new trie).Valid where
  trie_of_deleted _ _ h := by cases h
  address_eq addr obj h := by
    obtain ⟨acc, -, rfl⟩ := Option.map_eq_some_iff.1 h
    rfl
  revision_lt _ h := by cases h

theorem Valid.trie_eq_none (hs : s.Valid) (h : s.getStateObject a = none) : s.trie a = none := by
  unfold getStateObject at h
  split at h
  · rename_i obj hobj
    split_ifs at h with hdel
    exact hs.trie_of_deleted a obj hobj hdel
  · exact Option.map_eq_none_iff.1 h

theorem Valid.of_view {t : StateDB} (hs : s.Valid) (hv : t.view = s.view)
    (hrev : ∀ r ∈ t.validRevisions, r.id < t.nextRevisionId) : t.Valid where
  trie_of_deleted addr obj hobj hdel := by
    have hnone : t.getStateObject addr = none := by simp [getStateObject, hobj, hdel]
    have hsnone : s.getStateObject addr = none := by
      have := congrFun (congrArg View.objects hv) addr
      simpa [view, hnone, eq_comm] using this
    rw [show t.trie = s.trie from congrArg View.trie hv]
    exact hs.trie_eq_none hsnone
  address_eq addr obj hobj := by
    have hmap := congrFun (congrArg View.objects hv) addr
    simp only [view, hobj, Option.map_some] at hmap
    obtain ⟨obj', hobj', hc⟩ := Option.map_eq_some_iff.1 hmap.symm
    rw [← hs.address_eq addr obj' hobj']
    exact congrArg Prod.fst hc.symm
  revision_lt := hrev

theorem getStateObject_writeObject_self (h : o.deleted = false) :
    (s.writeObject o).getStateObject o.address = some { o with onDirty := false } := by
  rw [getStateObject_writeObject, getStateObject_setStateObject, if_pos rfl]
  simp [h]

theorem getStateObject_writeObject_of_ne (h : a ≠ o.address) :
    (s.writeObject o).getStateObject a = s.getStateObject a := by
  rw [getStateObject_writeObject, getStateObject_setStateObject, if_neg h]

theorem Valid.writeObject (hs : s.Valid) (h : o.deleted = false) : (s.writeObject o).Valid := by
  obtain ⟨d, hd⟩ := writeObject_eq_setStateObject s o
  refine ⟨fun addr obj hobj hdel ↦ ?_, fun addr obj hobj ↦ ?_, ?_⟩
  · rw [hd] at hobj
    rw [(writeObject_fields s o).1]
    by_cases ha : addr = o.address
    · subst ha
      simp only [setStateObject, Function.update_self, Option.some_inj] at hobj
      rw [← hobj] at hdel
      simp [h] at hdel
    · simp only [setStateObject, Function.update_of_ne ha] at hobj
      exact hs.trie_of_deleted addr obj hobj hdel
  · by_cases ha : addr = o.address
    · subst ha
      rw [getStateObject_writeObject_self h, Option.some_inj] at hobj
      rw [← hobj]
    · rw [getStateObject_writeObject_of_ne ha] at hobj
      exact hs.address_eq addr obj hobj
  · rw [writeObject_validRevisions, writeObject_nextRevisionId]
    exact hs.revision_lt

theorem Valid.appendJournal (hs : s.Valid) (e : Entry) : (s.appendJournal e).Valid :=
  ⟨hs.trie_of_deleted, hs.address_eq, hs.revision_lt⟩

theorem view_writeObject_of_deleted (o : StateObject) (h : o.deleted = false) :
    (s.writeObject o).view = { s.view with objects := Function.update s.view.objects o.address (some o.contents) } := by
  rw [view_writeObject, view_setStateObject]
  simp [h]
  rfl

theorem view_update_self (ho : s.getStateObject a = some o) :
    { s.view with objects := Function.update s.view.objects a (some o.contents) } = s.view := by
  have hself : s.view.objects a = some o.contents := by simp [view, ho]
  rw [← hself, Function.update_eq_self]

theorem view_restore (ho : s.getStateObject a = some o) {w : StateDB}
    (x : Option (Address × Account × Bool))
    (hw : w.view = { s.view with objects := Function.update s.view.objects a x })
    {o' : StateObject} (haddr : o'.address = a) (hc : o'.contents = o.contents) (hdel : o'.deleted = false) :
    (w.setStateObject o').view = s.view := by
  have hself : s.view.objects a = some o.contents := by simp [view, ho]
  rw [view_setStateObject, hw, haddr, if_neg (by simp [hdel]), hc, Function.update_idem, ← hself,
    Function.update_eq_self]

end StateDB

end BokerChain.State
