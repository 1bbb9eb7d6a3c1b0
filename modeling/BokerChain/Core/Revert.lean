import BokerChain.Core.JournalView

/-!
# Reverting to a snapshot

`RevertToSnapshot(id)` after a run of mutations and nested snapshots since `id := Snapshot()`
succeeds, every query answers as it did at the snapshot, and the journal and the valid revisions
are those of the snapshot (`revertToSnapshot_restores`).  The flags and the dirty set are not
restored, and through them the root that `IntermediateRoot` computes afterwards can differ from
the one without the reverted mutations (`ripemd_touch_changes_root`).

The proof follows the journal.  A run is `Revertible` from its start when it appended entries
that undo themselves back to the start's view; runs compose (`Revertible.trans`, from
`UndoLog.Undoes.append` and `undo_respects`), every mutation is one (`Mutation.revertible`), and
a nested run is either kept, and then part of the outer run, or reverted, and then invisible to
it (`revertToSnapshot_of_revertible`).  `sort.Search` finds the snapshot's revision because the
ids of the revisions grow with their position (`search_revision`).
-/

namespace BokerChain.State

open Library UndoLog

namespace StateDB

variable {s u v : StateDB} {o : StateObject} {a : Address}

/-! ## Runs that a revert takes back -/

/-- A run from `s` to `s'` that a revert to a snapshot taken at `s` takes back: it appended
entries that undo themselves back to the view of `s`, pushed only revisions newer than `s`, and
kept the database valid. -/
structure Revertible (s s' : StateDB) : Prop where
  undoes : ∃ log, s'.journal = s.journal ++ log ∧ Undoes undo view s log s'
  revisions : ∃ revs, s'.validRevisions = s.validRevisions ++ revs ∧ ∀ r ∈ revs, s.nextRevisionId ≤ r.id
  nextRevisionId_le : s.nextRevisionId ≤ s'.nextRevisionId
  valid : s'.Valid

theorem Revertible.refl (hs : s.Valid) : Revertible s s :=
  ⟨⟨[], (List.append_nil _).symm, Undoes.nil s⟩, ⟨[], (List.append_nil _).symm, by simp⟩, le_rfl, hs⟩

theorem Revertible.trans {s₁ s₂ : StateDB} (h₁ : Revertible s s₁) (h₂ : Revertible s₁ s₂) :
    Revertible s s₂ := by
  obtain ⟨l₁, hj₁, hu₁⟩ := h₁.undoes
  obtain ⟨l₂, hj₂, hu₂⟩ := h₂.undoes
  obtain ⟨r₁, hr₁, hge₁⟩ := h₁.revisions
  obtain ⟨r₂, hr₂, hge₂⟩ := h₂.revisions
  refine ⟨⟨l₁ ++ l₂, by rw [hj₂, hj₁, List.append_assoc], hu₁.append undo_respects hu₂⟩,
    ⟨r₁ ++ r₂, by rw [hr₂, hr₁, List.append_assoc], ?_⟩,
    h₁.nextRevisionId_le.trans h₂.nextRevisionId_le, h₂.valid⟩
  intro r hr
  rcases List.mem_append.1 hr with hr | hr
  · exact hge₁ r hr
  · exact h₁.nextRevisionId_le.trans (hge₂ r hr)

theorem undoes_singleton {w : StateDB} {e : Entry} (h : (w.undo e).map view = some s.view) :
    Undoes undo view s [e] w := by
  obtain ⟨t, ht, hview⟩ := Option.map_eq_some_iff.1 h
  exact ⟨t, by rw [rollback_singleton, ht], hview⟩

theorem Revertible.of_undoes {s' : StateDB} (log : List Entry) (hj : s'.journal = s.journal ++ log)
    (hu : Undoes undo view s log s') (hrev : s'.validRevisions = s.validRevisions)
    (hnext : s'.nextRevisionId = s.nextRevisionId) (hv : s'.Valid) : Revertible s s' :=
  ⟨⟨log, hj, hu⟩, ⟨[], by rw [hrev, List.append_nil], by simp⟩, hnext.ge, hv⟩

/-! ### The setters of a visible object

`o` is the object that a valid `s` shows at its address; a setter logs an entry `e` and writes a
changed copy `o'`. -/

theorem revertible_write (hs : s.Valid) (e : Entry) (o' : StateObject) (hdel : o'.deleted = false)
    (hundo : (((s.appendJournal e).writeObject o').undo e).map view = some s.view) :
    Revertible s ((s.appendJournal e).writeObject o') := by
  exact Revertible.of_undoes [e] (by simp [appendJournal]) (undoes_singleton hundo) (by simp [appendJournal])
    (by simp [appendJournal]) ((hs.appendJournal e).writeObject hdel)

theorem view_write_back (ho : s.getStateObject o.address = some o) (e : Entry) (o' : StateObject)
    (haddr : o'.address = o.address) (hdel : o'.deleted = false) (g : StateObject)
    (hc : g.contents = o.contents) (hdelg : g.deleted = false) :
    (((s.appendJournal e).writeObject o').writeObject g).view = s.view := by
  rw [view_writeObject]
  refine view_restore ho (some o'.contents) ?_ (congrArg Prod.fst hc) hc hdelg
  rw [view_writeObject_of_deleted o' hdel, haddr, view_appendJournal]

theorem revertible_setter (hs : s.Valid) (ho : s.getStateObject o.address = some o) (e : Entry)
    (f r : Account → Account)
    (hundo : ∀ w : StateDB, w.undo e =
      (w.getStateObject o.address).map fun obj ↦ w.writeObject { obj with data := r obj.data })
    (hr : r (f o.data) = o.data) :
    Revertible s ((s.appendJournal e).writeObject { o with data := f o.data }) := by
  have hdel := deleted_of_getStateObject ho
  refine revertible_write hs _ _ hdel ?_
  rw [hundo, getStateObject_writeObject, getStateObject_setStateObject, if_pos rfl,
    if_neg (by simp [hdel]), Option.map_some, Option.map_some]
  refine congrArg some (view_write_back ho _ _ ?_ ?_ _ ?_ ?_)
  · rfl
  · exact hdel
  · simp only [StateObject.contents, hr]
  · exact hdel

theorem revertible_SetBalance (hs : s.Valid) (ho : s.getStateObject o.address = some o)
    (amount : Int) : Revertible s (StateObject.SetBalance s o amount) := by
  refine revertible_setter hs ho _ (fun d ↦ { d with balance := amount })
    (fun d ↦ { d with balance := o.data.balance }) (fun _ ↦ ?_) rfl
  rfl

theorem revertible_SetNonce (hs : s.Valid) (ho : s.getStateObject o.address = some o)
    (nonce : UInt64) : Revertible s (StateObject.SetNonce s o nonce) := by
  refine revertible_setter hs ho _ (fun d ↦ { d with nonce := nonce })
    (fun d ↦ { d with nonce := o.data.nonce }) (fun _ ↦ ?_) rfl
  rfl

theorem revertible_SetCode (hs : s.Valid) (ho : s.getStateObject o.address = some o)
    (codeHash : Hash) (code : Bytes) : Revertible s (StateObject.SetCode s o codeHash code) := by
  refine revertible_setter hs ho _ (fun d ↦ { d with codeHash := codeHash, code := code })
    (fun d ↦ { d with codeHash := o.data.codeHash, code := o.data.code }) (fun _ ↦ ?_) rfl
  rfl

theorem revertible_SetState (hs : s.Valid) (ho : s.getStateObject o.address = some o)
    (key value : Hash) : Revertible s (StateObject.SetState s o key value) := by
  refine revertible_setter hs ho _ (fun d ↦ { d with storage := Function.update d.storage key value })
    (fun d ↦ { d with storage := Function.update d.storage key (o.data.storage key) }) (fun _ ↦ ?_) ?_
  · rfl
  · simp only [Function.update_idem, Function.update_eq_self]

theorem revertible_touch (hs : s.Valid) (ho : s.getStateObject o.address = some o) :
    Revertible s (StateObject.touch s o) := by
  have hdel := deleted_of_getStateObject ho
  refine revertible_write hs _ _ hdel ?_
  simp only [undo]
  split
  · rw [getStateObject_writeObject, getStateObject_setStateObject, if_pos rfl,
      if_neg (by simp [hdel]), Option.map_some, Option.map_some]
    refine congrArg some ?_
    dsimp only
    split
    all_goals
      try rw [view_withDirty]
      refine view_restore ho (some o.contents) ?_ rfl rfl hdel
      rw [view_writeObject_of_deleted { o with touched := true } hdel, view_appendJournal]
      rfl
  · refine congrArg some ?_
    rw [view_writeObject_of_deleted { o with touched := true } hdel, view_appendJournal]
    exact (view_update_self ho :)

theorem revertible_AddBalance (keccak256 : Bytes → Hash) (hs : s.Valid)
    (ho : s.getStateObject o.address = some o) (amount : Int) :
    Revertible s (StateObject.AddBalance s o keccak256 amount) := by
  unfold StateObject.AddBalance
  split_ifs
  · exact revertible_touch hs ho
  · exact Revertible.refl hs
  · exact revertible_SetBalance hs ho _

theorem revertible_SubBalance (hs : s.Valid) (ho : s.getStateObject o.address = some o)
    (amount : Int) : Revertible s (StateObject.SubBalance s o amount) := by
  unfold StateObject.SubBalance
  split_ifs
  · exact Revertible.refl hs
  · exact revertible_SetBalance hs ho _

/-! ### Creating and fetching objects -/

section Create

variable (keccak256 : Bytes → Hash)

theorem createObject_view (a : Address) :
    (s.createObject keccak256 a).2.2.view =
      { s.view with objects := Function.update s.view.objects a (some (a, Account.new keccak256, false)) } := by
  simp only [createObject, view_appendJournal, StateObject.setNonce]
  exact view_writeObject_of_deleted _ rfl

theorem getStateObject_createObject (a : Address) :
    (s.createObject keccak256 a).2.2.getStateObject a = some (s.createObject keccak256 a).1 := by
  simp only [createObject, StateObject.setNonce, getStateObject_appendJournal]
  refine getStateObject_writeObject_self ?_
  rfl

theorem createObject_journal (hs : s.Valid) (a : Address) :
    ∃ e, (s.createObject keccak256 a).2.2.journal = s.journal ++ [e] ∧
      ∀ (w : StateDB) (x : Option (Address × Account × Bool)),
        w.view = { s.view with objects := Function.update s.view.objects a x } →
        (w.undo e).map view = some s.view := by
  cases hprev : s.getStateObject a with
  | none =>
    refine ⟨.createObjectChange a, by simp [createObject, hprev, appendJournal, StateObject.setNonce], ?_⟩
    intro w x hw
    have htrie : s.view.trie a = none := hs.trie_eq_none hprev
    have hnone : s.view.objects a = none := by simp [view, hprev]
    refine congrArg some ?_
    rw [view_removeObject, hw]
    simp only [htrie, Option.map_none, Function.update_idem, ← hnone, Function.update_eq_self]
  | some prev =>
    refine ⟨.resetObjectChange prev, by simp [createObject, hprev, appendJournal, StateObject.setNonce], ?_⟩
    intro w x hw
    have haddr : prev.address = a := hs.address_eq a prev hprev
    exact congrArg some (view_restore hprev x hw haddr rfl (deleted_of_getStateObject hprev))

theorem createObject_revisions (a : Address) :
    (s.createObject keccak256 a).2.2.validRevisions = s.validRevisions ∧
      (s.createObject keccak256 a).2.2.nextRevisionId = s.nextRevisionId := by
  simp [createObject, appendJournal, StateObject.setNonce]

theorem Valid.createObject (hs : s.Valid) (a : Address) : (s.createObject keccak256 a).2.2.Valid :=
  ((hs.writeObject rfl).appendJournal _)

theorem revertible_createObject (hs : s.Valid) (a : Address) :
    Revertible s (s.createObject keccak256 a).2.2 := by
  obtain ⟨e, hj, hundo⟩ := createObject_journal keccak256 hs a
  exact Revertible.of_undoes [e] hj (undoes_singleton (hundo _ _ (createObject_view keccak256 a)))
    (createObject_revisions keccak256 a).1 (createObject_revisions keccak256 a).2 (hs.createObject keccak256 a)

theorem getOrNewStateObject_spec (hs : s.Valid) (a : Address) :
    Revertible s (s.getOrNewStateObject keccak256 a).2 ∧
      (s.getOrNewStateObject keccak256 a).2.getStateObject a = some (s.getOrNewStateObject keccak256 a).1 := by
  unfold getOrNewStateObject
  cases h : s.getStateObject a with
  | none => exact ⟨revertible_createObject keccak256 hs a, getStateObject_createObject keccak256 a⟩
  | some o =>
    rw [Option.filter_some, if_pos (by simp [deleted_of_getStateObject h])]
    exact ⟨Revertible.refl hs, h⟩

theorem revertible_getOrNew (hs : s.Valid) (a : Address) (m : StateDB → StateObject → StateDB)
    (hm : ∀ s o, s.Valid → s.getStateObject o.address = some o → Revertible s (m s o)) :
    Revertible s (m (s.getOrNewStateObject keccak256 a).2 (s.getOrNewStateObject keccak256 a).1) := by
  obtain ⟨hrev, hget⟩ := getOrNewStateObject_spec keccak256 hs a
  have haddr := hrev.valid.address_eq a _ hget
  exact hrev.trans (hm _ _ hrev.valid (by rw [haddr]; exact hget))

end Create

/-! ### The other mutations -/

theorem revertible_suicide (hs : s.Valid) (a : Address) : Revertible s (s.suicide a).2 := by
  unfold suicide
  cases h : s.getStateObject a with
  | none => exact Revertible.refl hs
  | some o =>
    have haddr : o.address = a := hs.address_eq a o h
    have hdel := deleted_of_getStateObject h
    subst haddr
    refine revertible_write hs _ _ hdel ?_
    simp only [undo, getStateObject_writeObject, getStateObject_setStateObject, if_true, hdel,
      Bool.false_eq_true, if_false, Option.map_some]
    refine congrArg some (view_write_back h _ _ ?_ ?_ _ ?_ ?_) <;> rfl

theorem revertible_createAccount (keccak256 : Bytes → Hash) (hs : s.Valid) (a : Address) :
    Revertible s (s.createAccount keccak256 a) := by
  have hrev := revertible_createObject keccak256 hs a
  obtain ⟨e, hj, hundo⟩ := createObject_journal keccak256 hs a
  have hget := @getStateObject_createObject s keccak256 a
  have hview := @createObject_view s keccak256 a
  have hvalid := hs.createObject keccak256 a
  have haddr : (s.createObject keccak256 a).1.address = a := rfl
  obtain ⟨hrevs, hnext⟩ := @createObject_revisions s keccak256 a
  rcases hc : s.createObject keccak256 a with ⟨new, prev, s₁⟩
  simp only [hc] at hrev hj hget hview hvalid haddr hrevs hnext
  subst haddr
  simp only [createAccount, hc]
  cases prev with
  | none => exact hrev
  | some prev =>
    dsimp only
    have hdel : new.deleted = false := deleted_of_getStateObject hget
    have hw := @view_writeObject_of_deleted s₁ { new with data := { new.data with balance := prev.data.balance } } hdel
    rw [hview, Function.update_idem] at hw
    refine Revertible.of_undoes [e] (by simp [StateObject.setBalance, hj]) (undoes_singleton (hundo _ _ hw))
      (by simp [StateObject.setBalance, hrevs]) (by simp [StateObject.setBalance, hnext]) (hvalid.writeObject hdel)

theorem revertible_addRefund (hs : s.Valid) (gas : ℕ) : Revertible s (s.addRefund gas) :=
  Revertible.of_undoes [.refundChange s.refund] rfl (undoes_singleton rfl) rfl rfl
    ⟨hs.trie_of_deleted, hs.address_eq, hs.revision_lt⟩

theorem revertible_addLog (hs : s.Valid) (log : Log) : Revertible s (s.addLog log) := by
  refine Revertible.of_undoes [.addLogChange s.thash] rfl (undoes_singleton ?_) rfl rfl
    ⟨hs.trie_of_deleted, hs.address_eq, hs.revision_lt⟩
  have hback : Function.update s.logs s.thash (s.logs s.thash) = s.logs := Function.update_eq_self _ _
  simp only [undo, addLog, appendJournal, Function.update_self, Function.update_idem,
    List.length_append, List.length_singleton, Nat.add_sub_cancel]
  cases hlogs : s.logs s.thash with
  | nil =>
    rw [hlogs] at hback
    simp only [List.length_nil, Nat.zero_add, if_true, hback, List.nil_append, Option.map_some]
    rfl
  | cons l ls =>
    rw [hlogs] at hback
    have hlen : (l :: ls).length + 1 ≠ 1 := by simp
    simp only [hlen, if_false, Nat.add_one_ne_zero, List.dropLast_concat, hback, Option.map_some]
    rfl

theorem revertible_addPreimage (hs : s.Valid) (hash : Hash) (preimage : Bytes) :
    Revertible s (s.addPreimage hash preimage) := by
  unfold addPreimage
  cases h : s.preimages hash with
  | some _ => exact Revertible.refl hs
  | none =>
    refine Revertible.of_undoes [.addPreimageChange hash] rfl (undoes_singleton ?_) rfl rfl
      ⟨hs.trie_of_deleted, hs.address_eq, hs.revision_lt⟩
    have hback : Function.update s.preimages hash none = s.preimages := h ▸ Function.update_eq_self _ _
    simp only [undo, appendJournal, Function.update_idem, hback, Option.map_some]
    rfl

/-! ## Snapshots and reverts -/

/-- The journal and the revisions of a database. -/
def revisions (s : StateDB) : List Entry × List Revision × ℕ := (s.journal, s.validRevisions, s.nextRevisionId)

@[simp]
theorem revisions_writeObject : (s.writeObject o).revisions = s.revisions := by
  simp [revisions]

theorem revisions_undo {e : Entry} {t : StateDB} (h : s.undo e = some t) : t.revisions = s.revisions := by
  cases e with
  | suicideChange account prev prevbalance =>
    simp only [undo] at h
    split at h <;> cases h
    · simp [StateObject.setBalance]
    · rfl
  | balanceChange account prev =>
    obtain ⟨obj, -, rfl⟩ := Option.map_eq_some_iff.1 h
    simp [StateObject.setBalance]
  | nonceChange account prev =>
    obtain ⟨obj, -, rfl⟩ := Option.map_eq_some_iff.1 h
    simp [StateObject.setNonce]
  | storageChange account key prevalue =>
    obtain ⟨obj, -, rfl⟩ := Option.map_eq_some_iff.1 h
    simp [StateObject.setState]
  | codeChange account prevcode prevhash =>
    obtain ⟨obj, -, rfl⟩ := Option.map_eq_some_iff.1 h
    simp [StateObject.setCode]
  | addLogChange txhash =>
    simp only [undo] at h
    split_ifs at h <;> cases h <;> rfl
  | touchChange account prev prevDirty =>
    simp only [undo] at h
    split at h
    · obtain ⟨obj, -, rfl⟩ := Option.map_eq_some_iff.1 h
      split <;> rfl
    · cases h
      rfl
  | createObjectChange account => cases h; rfl
  | resetObjectChange prev => cases h; rfl
  | refundChange prev => cases h; rfl
  | addPreimageChange hash => cases h; rfl

theorem revisions_rollback {log : List Entry} {t : StateDB} (h : rollback undo s log = some t) :
    t.revisions = s.revisions :=
  rollback_invariant undo (fun _ _ _ hu hs ↦ (revisions_undo hu).trans hs) log h rfl

theorem Valid.snapshot (hs : s.Valid) : s.snapshot.2.Valid := by
  refine ⟨hs.trie_of_deleted, hs.address_eq, fun r hr ↦ ?_⟩
  change r ∈ s.validRevisions ++ [⟨s.nextRevisionId, s.journal.length⟩] at hr
  change r.id < s.nextRevisionId + 1
  rcases List.mem_append.1 hr with hr | hr
  · exact (hs.revision_lt r hr).trans (Nat.lt_succ_self _)
  · rw [List.mem_singleton.1 hr]
    exact Nat.lt_succ_self _

theorem revertible_snapshot (hs : s.Valid) : Revertible s s.snapshot.2 :=
  ⟨⟨[], (List.append_nil _).symm, ⟨_, rfl, rfl⟩⟩,
    ⟨[⟨s.nextRevisionId, s.journal.length⟩], rfl, fun r hr ↦ by simp_all⟩,
    Nat.le_succ _, hs.snapshot⟩

/-- `sort.Search` finds the revision of a snapshot of `s` at the place it was pushed: every
older revision has a smaller id, and every later one a larger. -/
theorem search_revision (hs : s.Valid) {revs : List Revision} (hge : ∀ r ∈ revs, s.nextRevisionId < r.id)
    (journalIndex : ℕ) :
    search (s.validRevisions ++ ⟨s.nextRevisionId, journalIndex⟩ :: revs).length
      (fun i ↦ decide (s.nextRevisionId ≤
        ((s.validRevisions ++ ⟨s.nextRevisionId, journalIndex⟩ :: revs).getD i ⟨0, 0⟩).id)) =
      s.validRevisions.length := by
  apply search_eq (by simp)
  · intro i hi
    rw [List.getD_eq_getElem?_getD, List.getElem?_append_left hi, ← List.getD_eq_getElem?_getD,
      List.getD_eq_getElem _ _ hi]
    simpa using hs.revision_lt _ (List.getElem_mem hi)
  · intro i hki hin
    rw [List.getD_eq_getElem?_getD, List.getElem?_append_right hki]
    rcases Nat.eq_or_lt_of_le hki with heq | hlt
    · simp [← heq]
    · obtain ⟨j, rfl⟩ := Nat.exists_eq_add_of_lt hlt
      have hj : j < revs.length := by simp at hin; omega
      have hsub : s.validRevisions.length + j + 1 - s.validRevisions.length = j + 1 := by omega
      rw [hsub, List.getElem?_cons_succ, List.getElem?_eq_getElem hj, Option.getD_some]
      simpa using (hge _ (List.getElem_mem hj)).le

/-- A revert to a snapshot of `s`, after a run the snapshot takes back, finds the snapshot,
succeeds, and gives back the view, the journal and the revisions of `s`. -/
theorem revertToSnapshot_of_revertible (hs : s.Valid) {s' : StateDB} (h : Revertible s.snapshot.2 s') :
    ∃ t, s'.revertToSnapshot s.snapshot.1 = some t ∧ t.view = s.view ∧ t.journal = s.journal ∧
      t.validRevisions = s.validRevisions ∧ t.nextRevisionId = s'.nextRevisionId := by
  obtain ⟨log, hj, t₀, hrb, hview⟩ := h.undoes
  obtain ⟨revs, hvr, hge⟩ := h.revisions
  have hframe := revisions_rollback hrb
  simp only [revisions, Prod.mk.injEq] at hframe
  simp only [snapshot, List.append_assoc, List.singleton_append] at hj hvr hge hview
  have hidx : (s.validRevisions ++ ⟨s.nextRevisionId, s.journal.length⟩ :: revs)[s.validRevisions.length]? =
      some ⟨s.nextRevisionId, s.journal.length⟩ := by simp
  have hdrop : s'.journal.drop s.journal.length = log := by rw [hj, List.drop_left]
  refine ⟨{ t₀ with journal := t₀.journal.take s.journal.length, validRevisions := t₀.validRevisions.take s.validRevisions.length }, ?_, hview, ?_, ?_, hframe.2.2⟩
  · unfold revertToSnapshot
    rw [show s.snapshot.1 = s.nextRevisionId from rfl, hvr, search_revision hs hge]
    dsimp only
    rw [hidx]
    have hlen : ¬s'.journal.length < s.journal.length := by simp [hj]
    simp only [ne_eq, not_true_eq_false, if_false, hlen, hdrop, hrb, Option.map_some]
  · rw [hframe.1, hj, List.take_left]
  · rw [hframe.2.1, hvr, List.take_left]

/-! ## What the queries answer -/

/-- Every query of the database answers the same in `t` as in `s`. -/
structure SameQueries (keccak256 : Bytes → Hash) (t s : StateDB) : Prop where
  getBalance : ∀ addr, t.getBalance addr = s.getBalance addr
  getNonce : ∀ addr, t.getNonce addr = s.getNonce addr
  getCode : ∀ addr, t.getCode addr = s.getCode addr
  getState : ∀ addr key, t.getState addr key = s.getState addr key
  exist : ∀ addr, t.exist addr = s.exist addr
  empty : ∀ addr, t.empty keccak256 addr = s.empty keccak256 addr
  hasSuicided : ∀ addr, t.hasSuicided addr = s.hasSuicided addr
  getRefund : t.getRefund = s.getRefund
  getLogs : ∀ hash, t.getLogs hash = s.getLogs hash
  preimages : t.preimages = s.preimages

theorem map_getStateObject_of_view {t : StateDB} (h : t.view = s.view) {β : Type}
    (g : Address × Account × Bool → β) (a : Address) :
    (t.getStateObject a).map (g ∘ StateObject.contents) = (s.getStateObject a).map (g ∘ StateObject.contents) := by
  rw [← Option.map_map, ← Option.map_map]
  exact congrArg (Option.map g) (congrFun (congrArg View.objects h) a)

theorem sameQueries_of_view (keccak256 : Bytes → Hash) {t : StateDB} (h : t.view = s.view) :
    SameQueries keccak256 t s where
  getBalance a := congrArg (·.getD 0) (map_getStateObject_of_view h (fun c ↦ c.2.1.balance) a)
  getNonce a := congrArg (·.getD 0) (map_getStateObject_of_view h (fun c ↦ c.2.1.nonce) a)
  getCode a := congrArg (·.getD []) (map_getStateObject_of_view h (fun c ↦ c.2.1.code) a)
  getState a key := congrArg (·.getD 0) (map_getStateObject_of_view h (fun c ↦ c.2.1.storage key) a)
  exist a := by
    show (t.getStateObject a).isSome = (s.getStateObject a).isSome
    simpa only [Option.isSome_map] using congrArg Option.isSome (map_getStateObject_of_view h id a)
  empty a := congrArg (·.getD true)
    (map_getStateObject_of_view h (fun c ↦ decide (c.2.1.nonce = 0 ∧ c.2.1.balance = 0 ∧ c.2.1.codeHash = keccak256 [])) a)
  hasSuicided a := congrArg (·.getD false) (map_getStateObject_of_view h (fun c ↦ c.2.2) a)
  getRefund := congrArg View.refund h
  getLogs hash := congrFun (congrArg View.logs h) hash
  preimages := congrArg View.preimages h

end StateDB

open StateDB in
/-- Every mutation is taken back by the entries it logs. -/
theorem Mutation.revertible (keccak256 : Bytes → Hash) {s : StateDB} (hs : s.Valid) :
    ∀ m : Mutation, Revertible s (m.apply keccak256 s)
  | .addBalance a amount => revertible_getOrNew keccak256 hs a (fun s o ↦ StateObject.AddBalance s o keccak256 amount)
      fun _ _ hs ho ↦ revertible_AddBalance keccak256 hs ho amount
  | .subBalance a amount => revertible_getOrNew keccak256 hs a (fun s o ↦ StateObject.SubBalance s o amount)
      fun _ _ hs ho ↦ revertible_SubBalance hs ho amount
  | .setBalance a amount => revertible_getOrNew keccak256 hs a (fun s o ↦ StateObject.SetBalance s o amount)
      fun _ _ hs ho ↦ revertible_SetBalance hs ho amount
  | .setNonce a nonce => revertible_getOrNew keccak256 hs a (fun s o ↦ StateObject.SetNonce s o nonce)
      fun _ _ hs ho ↦ revertible_SetNonce hs ho nonce
  | .setCode a code => revertible_getOrNew keccak256 hs a
      (fun s o ↦ StateObject.SetCode s o (keccak256 code) code)
      fun _ _ hs ho ↦ revertible_SetCode hs ho (keccak256 code) code
  | .setState a key value => revertible_getOrNew keccak256 hs a
      (fun s o ↦ StateObject.SetState s o key value) fun _ _ hs ho ↦ revertible_SetState hs ho key value
  | .suicide a => revertible_suicide hs a
  | .createAccount a => revertible_createAccount keccak256 hs a
  | .addRefund gas => revertible_addRefund hs gas
  | .addLog log => revertible_addLog hs log
  | .addPreimage hash preimage => revertible_addPreimage hs hash preimage

/-! ## Runs with nested snapshots -/

open StateDB

mutual

/-- Every step of a run from a valid database succeeds, and a revert to a snapshot before it
takes it back. -/
theorem Op.revertible (keccak256 : Bytes → Hash) :
    ∀ (op : Op) {s : StateDB}, s.Valid → ∃ s', op.run keccak256 s = some s' ∧ Revertible s s'
  | .mutate m, s, hs => ⟨_, rfl, Mutation.revertible keccak256 hs m⟩
  | .nested ops revert, s, hs => by
    obtain ⟨s₂, hrun, hrev⟩ := runOps_revertible keccak256 ops hs.snapshot
    cases revert with
    | false => exact ⟨s₂, by simp [Op.run, hrun], (revertible_snapshot hs).trans hrev⟩
    | true =>
      obtain ⟨t, hrevert, hview, hj, hvr, hnext⟩ := revertToSnapshot_of_revertible hs hrev
      have hlt : s.nextRevisionId < t.nextRevisionId := hnext ▸ hrev.nextRevisionId_le
      refine ⟨t, by simp [Op.run, hrun, hrevert],
        ⟨⟨[], by simp [hj], ⟨t, rfl, hview⟩⟩, ⟨[], by simp [hvr], by simp⟩, hlt.le, ?_⟩⟩
      refine hs.of_view hview fun r hr ↦ ?_
      rw [hvr] at hr
      exact (hs.revision_lt r hr).trans hlt

theorem runOps_revertible (keccak256 : Bytes → Hash) :
    ∀ (ops : List Op) {s : StateDB}, s.Valid → ∃ s', runOps keccak256 ops s = some s' ∧ Revertible s s'
  | [], s, hs => ⟨s, rfl, Revertible.refl hs⟩
  | op :: ops, s, hs => by
    obtain ⟨s₁, h₁, hrev₁⟩ := Op.revertible keccak256 op hs
    obtain ⟨s₂, h₂, hrev₂⟩ := runOps_revertible keccak256 ops hrev₁.valid
    exact ⟨s₂, by simp [runOps, h₁, h₂], hrev₁.trans hrev₂⟩

end

/-- `RevertToSnapshot(id)` after any run of mutations and nested snapshots since
`id := Snapshot()` succeeds, answers every query as at the snapshot, and gives back the journal
and the valid revisions of the snapshot. -/
theorem revertToSnapshot_restores (keccak256 : Bytes → Hash) {s : StateDB} (hs : s.Valid) (ops : List Op) :
    ∃ t, (runOps keccak256 ops s.snapshot.2).bind (fun s' ↦ s'.revertToSnapshot s.snapshot.1) = some t ∧
      SameQueries keccak256 t s ∧ t.journal = s.journal ∧ t.validRevisions = s.validRevisions := by
  obtain ⟨s', hrun, hrev⟩ := runOps_revertible keccak256 ops hs.snapshot
  obtain ⟨t, hrevert, hview, hj, hvr, -⟩ := revertToSnapshot_of_revertible hs hrev
  exact ⟨t, by rw [hrun, Option.bind_some, hrevert], sameQueries_of_view keccak256 hview, hj, hvr⟩

/-! ## A revert on a trie with the RIPEMD account -/

/-- A trie that holds only the account of the RIPEMD precompile, empty. -/
def ripemdTrie (keccak256 : Bytes → Hash) : Address → Option Account :=
  fun a ↦ if a = ripemd then some (Account.new keccak256) else none

/-- A hash function for runs on closed inputs.  The runs below compare the hash of the empty code
only with itself, so they go the same way for every hash function. -/
def constantHash : Bytes → Hash := fun _ ↦ 0

/-- A call that touches RIPEMD and fails, then a transfer to another account. -/
def touchRun : List Op := [.nested [.mutate (.addBalance ripemd 0)] true, .mutate (.addBalance 5 7)]

theorem revertToSnapshot_restores_touchRun :
    (StateDB.new (ripemdTrie constantHash)).Valid ∧
      ∃ t, (runOps constantHash touchRun (StateDB.new (ripemdTrie constantHash)).snapshot.2).bind
          (fun s' ↦ s'.revertToSnapshot (StateDB.new (ripemdTrie constantHash)).snapshot.1) = some t ∧
        SameQueries constantHash t (StateDB.new (ripemdTrie constantHash)) ∧ t.journal = [] ∧
        t.validRevisions = [] :=
  ⟨valid_new _, revertToSnapshot_restores constantHash (valid_new _) touchRun⟩

/-- The touch of RIPEMD outlives the revert of the call that made it: `IntermediateRoot(true)`
afterwards deletes the empty account, which the root of the database without the touch keeps. -/
theorem ripemd_touch_changes_root :
    (StateDB.new (ripemdTrie constantHash)).Valid ∧
      ((Op.run constantHash (.nested [.mutate (.addBalance ripemd 0)] true)
          (StateDB.new (ripemdTrie constantHash))).bind fun t ↦
        (t.intermediateRoot constantHash true).map fun r ↦ (r.1 ripemd).isSome) = some false ∧
      (((StateDB.new (ripemdTrie constantHash)).intermediateRoot constantHash true).map
        fun r ↦ (r.1 ripemd).isSome) = some true :=
  ⟨valid_new _, by decide, by decide⟩

-- Not only RIPEMD: a reverted `SetNonce` of an empty account leaves it dirty, and deleted.
example : ((Op.run constantHash (.nested [.mutate (.setNonce ripemd 0)] true)
    (StateDB.new (ripemdTrie constantHash))).bind fun t ↦
      (t.intermediateRoot constantHash true).map fun r ↦ (r.1 ripemd).isSome) = some false := by
  decide

end BokerChain.State
