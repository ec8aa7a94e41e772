import Tgcompat.Broker.Atomicity

/-!
# Who a change is attributed to

The pid and the identity of a request come from the peer credentials of its connection. Whatever
the bytes of the packet, what a dispatch writes into the store as a pid, an owner or a group is
that of the actor. An undo entry of another process is at most retired, by a request that clears
the semaphore it is for.
-/

namespace Tgcompat

variable {st : SemStore} {request : ProtocolPacket} {actor : BrokerActor} {e : UndoEntry}
  {t u : UndoTable} {pid : Int32}

/-- The requests that clear an undo entry: `SETVAL` on its semaphore, `SETALL` on its set and the
removal of its set. -/
def Clears (request : ProtocolPacket) (e : UndoEntry) : Prop :=
  (request.opcode = some .setval ∧ e.semid = wireGetI32 request.payload 0 ∧
      e.semnum = (wireGetU32 request.payload 4).toNat) ∨
    ((request.opcode = some .setall ∨ request.opcode = some .remove) ∧
      e.semid = wireGetI32 request.payload 0)

/-- What a request may make of a slot of the undo table. -/
inductive EntryChange (request : ProtocolPacket) (actor : BrokerActor) (e e' : UndoEntry) : Prop
  | same : e' = e → EntryChange request actor e e'
  | adjusted : request.opcode.any Opcode.isSemop = true → e'.pid = actor.pid →
      (e.active = false ∨ e.pid = actor.pid) → EntryChange request actor e e'
  | retired : e.active = true → Clears request e → e' = { e with active := false } →
      EntryChange request actor e e'

/-- What a request may make of a set that stays. -/
structure SetKept (actor : BrokerActor) (set set' : SemSet) : Prop where
  lastPids : ∀ s < set.nsems,
    set'.lastPids[s]? = set.lastPids[s]? ∨ set'.lastPids[s]? = some actor.pid
  uid : set'.uid = set.uid
  cuid : set'.cuid = set.cuid
  cgid : set'.cgid = set.cgid
  gid : set'.gid ≠ set.gid → set'.gid = actor.identity.gid ∧
    (actor.identity.uid = set.uid ∨ actor.identity.uid = set.cuid)

/-- A set that carries the identity of the actor as its owner and creator. -/
structure SetOwned (actor : BrokerActor) (set : SemSet) : Prop where
  uid : set.uid = actor.identity.uid
  cuid : set.cuid = actor.identity.uid
  gid : set.gid = actor.identity.gid
  cgid : set.cgid = actor.identity.gid

/-- Everything a request wrote is the actor's. -/
structure AttributedTo (request : ProtocolPacket) (actor : BrokerActor) (st st' : SemStore) :
    Prop where
  kept : ∀ i, (st.sets i).active = true → (st'.sets i).active = true →
    SetKept actor (st.sets i) (st'.sets i)
  created : ∀ i, (st.sets i).active = false → (st'.sets i).active = true →
    SetOwned actor (st'.sets i)
  entries : ∀ k, EntryChange request actor (st.undoEntries k) (st'.undoEntries k)

lemma SetKept.refl (actor : BrokerActor) (set : SemSet) : SetKept actor set set :=
  ⟨fun _ _ => Or.inl rfl, rfl, rfl, rfl, fun hne => absurd rfl hne⟩

/-- One slot is written, and the undo table with it. -/
lemma attributedTo_of_write {i : Fin semMaxSets} {set : SemSet}
    (hkept : (st.sets i).active = true → set.active = true → SetKept actor (st.sets i) set)
    (hcreated : (st.sets i).active = false → set.active = true → SetOwned actor set)
    (hentries : ∀ k, EntryChange request actor (st.undoEntries k) (t k)) :
    AttributedTo request actor st { (st.writeSet i set) with undoEntries := t } where
  kept := by
    intro j hj hj'
    by_cases hji : j = i
    · subst hji
      rw [SemStore.writeSet_sets_self] at hj' ⊢
      exact hkept hj hj'
    · rw [SemStore.writeSet_sets_of_ne _ hji]
      exact SetKept.refl actor _
  created := by
    intro j hj hj'
    by_cases hji : j = i
    · subst hji
      rw [SemStore.writeSet_sets_self] at hj' ⊢
      exact hcreated hj hj'
    · rw [SemStore.writeSet_sets_of_ne _ hji, hj] at hj'
      cases hj'
  entries := hentries

lemma AttributedTo.refl (request : ProtocolPacket) (actor : BrokerActor) (st : SemStore) :
    AttributedTo request actor st st where
  kept := fun _ _ _ => SetKept.refl actor _
  created := by
    intro i hfree hactive
    rw [hfree] at hactive
    cases hactive
  entries := fun _ => .same rfl

/-! ### Undo entries -/

/-- What the commit loop of a process may make of a slot. -/
def Adjusts (pid : Int32) (t u : UndoTable) : Prop :=
  ∀ k, u k = t k ∨ ((u k).pid = pid ∧ ((t k).active = false ∨ (t k).pid = pid))

lemma Adjusts.refl (pid : Int32) (t : UndoTable) : Adjusts pid t t :=
  fun _ => Or.inl rfl

/-- One write of the loop goes to an entry of the process or to a free slot. -/
lemma Adjusts.update {k : Fin semMaxUndoEntries} (h : Adjusts pid t u) (hpid : e.pid = pid)
    (hslot : (u k).active = false ∨ (u k).pid = pid) :
    Adjusts pid t (Function.update u k e) := by
  intro j
  by_cases hj : j = k
  · subst hj
    rw [Function.update_self]
    refine Or.inr ⟨hpid, ?_⟩
    rcases h j with hsame | ⟨-, hold⟩
    · rwa [hsame] at hslot
    · exact hold
  · rw [Function.update_of_ne hj]
    exact h j

lemma Adjusts.commitUndo {semid : Int32} {deltas : ℕ → ℤ} {s : ℕ} (h : Adjusts pid t u) :
    (∀ v, UndoTable.commitUndo pid semid deltas u s = .ok v → Adjusts pid t v) ∧
      ∀ v, UndoTable.commitUndo pid semid deltas u s = .error v → Adjusts pid t v := by
  rw [UndoTable.commitUndo]
  by_cases hz : deltas s = 0
  · rw [if_pos hz]
    exact ⟨fun v hv => Except.ok.inj hv ▸ h, fun v hv => by cases hv⟩
  rw [if_neg hz]
  cases hfound : u.findUndoEntry pid semid (s % 2 ^ 16) with
  | some k =>
    have hown : (u k).pid = pid := (UndoTable.find_spec hfound).2.1
    exact ⟨fun v hv => Except.ok.inj hv ▸ h.update hown (Or.inr hown), fun v hv => by cases hv⟩
  | none =>
    cases hfree : u.findFreeUndoEntry with
    | some k =>
      have hslot : (u k).active = false := Table.Keyed.dead_of_findFree (K := UndoTable.keyed) hfree
      exact ⟨fun v hv => Except.ok.inj hv ▸ h.update rfl (Or.inl hslot), fun v hv => by cases hv⟩
    | none => exact ⟨fun v hv => (by cases hv), fun v hv => Except.error.inj hv ▸ h⟩

/-- The whole loop, also where it leaves early. -/
lemma adjusts_commit {semid : Int32} {deltas : ℕ → ℤ} {l : List ℕ} :
    (∀ v, l.foldlM (UndoTable.commitUndo pid semid deltas) t = .ok v → Adjusts pid t v) ∧
      ∀ v, l.foldlM (UndoTable.commitUndo pid semid deltas) t = .error v → Adjusts pid t v := by
  refine ⟨fun v hv => ?_, fun v hv => ?_⟩
  · refine Fold.foldlM_ok (I := fun _ u => Adjusts pid t u) (Adjusts.refl pid t) ?_ hv
    intro _ s c c' _ hc hstep
    exact hc.commitUndo.1 c' hstep
  · refine Fold.foldlM_error_of (Adjusts.refl pid t) ?_ ?_ hv
    · intro c s c' hc hstep
      exact hc.commitUndo.1 c' hstep
    · intro c s v hc hstep
      exact hc.commitUndo.2 v hstep

/-- An entry that is cleared is retired. -/
lemma entryChange_clear {semid : Int32} {semnum : ℕ} {all : Bool}
    (hclears : ∀ e : UndoEntry, UndoTable.Cleared semid semnum all e → Clears request e)
    (k : Fin semMaxUndoEntries) :
    EntryChange request actor (t k) (t.clearUndoEntries semid semnum all k) := by
  by_cases hk : UndoTable.Cleared semid semnum all (t k)
  · refine .retired hk.1 (hclears _ hk) ?_
    rw [UndoTable.Cleared] at hk
    simp only [UndoTable.clearUndoEntries, if_pos hk]
  · exact .same (UndoTable.clear_on k hk)

/-! ### The operations a request may perform -/

variable {identity : SemIdentity} {now : Int64} {semid : Int32}

lemma attributedTo_getAs (hidentity : identity = actor.identity) (key nsems flags : Int32)
    (allocated : Bool) :
    AttributedTo request actor st (st.getAs key nsems flags identity allocated now).2 := by
  rcases st.getAs_cases key nsems flags identity allocated now with ⟨-, heq⟩ | ⟨i, -, heq⟩ |
    ⟨i, hcreates, heq⟩
  · rw [heq]
    exact AttributedTo.refl request actor st
  · rw [heq]
    exact AttributedTo.refl request actor st
  · rw [heq]
    refine attributedTo_of_write ?_ ?_ fun k => .same rfl
    · intro hactive
      rw [hcreates.free] at hactive
      cases hactive
    · intro _ _
      rw [hidentity]
      exact ⟨rfl, rfl, rfl, rfl⟩

lemma attributedTo_remove (hop : request.opcode = some .remove)
    (hsemid : semid = wireGetI32 request.payload 0) :
    AttributedTo request actor st (st.remove semid).2 := by
  rcases st.remove_cases semid with ⟨-, heq⟩ | ⟨i, -, heq⟩
  · rw [heq]
    exact AttributedTo.refl request actor st
  · rw [heq]
    refine attributedTo_of_write nofun nofun (entryChange_clear ?_)
    rintro e ⟨-, hset, -⟩
    exact Or.inr ⟨Or.inr hop, hset.trans hsemid⟩

/-- A write of a last pid. -/
lemma getElem?_set_pid (pids : List Int32) (n : ℕ) (pid : Int32) (s : ℕ) :
    (pids.set n pid)[s]? = pids[s]? ∨ (pids.set n pid)[s]? = some pid := by
  by_cases hn : n = s
  · subst hn
    by_cases hlt : n < pids.length
    · exact Or.inr (List.getElem?_set_self hlt)
    · rw [List.set_eq_of_length_le (not_lt.mp hlt)]
      exact Or.inl rfl
  · exact Or.inl (List.getElem?_set_ne hn)

lemma attributedTo_setval {semnum : ℕ} {value : UInt32} (hop : request.opcode = some .setval)
    (hsemid : semid = wireGetI32 request.payload 0)
    (hsemnum : semnum = (wireGetU32 request.payload 4).toNat) :
    AttributedTo request actor st (st.setval semid semnum value actor.pid now).2 := by
  rcases st.setval_cases semid semnum value actor.pid now with ⟨-, heq⟩ | ⟨i, hfound, -, -, heq⟩
  · rw [heq]
    exact AttributedTo.refl request actor st
  · rw [heq]
    refine attributedTo_of_write ?_ ?_ (entryChange_clear ?_)
    · intro _ _
      refine ⟨fun s _ => ?_, rfl, rfl, rfl, fun hne => absurd rfl hne⟩
      exact getElem?_set_pid _ semnum actor.pid s
    · intro hfree
      rw [SemStore.active_of_findSet hfound] at hfree
      cases hfree
    · rintro e ⟨-, hset, hnum⟩
      exact Or.inl ⟨hop, hset.trans hsemid, (hnum.resolve_left Bool.false_ne_true).trans hsemnum⟩

lemma attributedTo_setall {values : List UInt16} (hop : request.opcode = some .setall)
    (hsemid : semid = wireGetI32 request.payload 0) :
    AttributedTo request actor st (st.setall semid values actor.pid now).2 := by
  rcases st.setall_cases semid values actor.pid now with ⟨-, heq⟩ | ⟨i, hfound, hlength, -, heq⟩
  · rw [heq]
    exact AttributedTo.refl request actor st
  · rw [heq]
    refine attributedTo_of_write ?_ ?_ (entryChange_clear ?_)
    · intro _ _
      refine ⟨fun s hs => Or.inr ?_, rfl, rfl, rfl, fun hne => absurd rfl hne⟩
      rw [← hlength] at hs
      simp [SemStore.valuesSet, hs]
    · intro hfree
      rw [SemStore.active_of_findSet hfound] at hfree
      cases hfree
    · rintro e ⟨-, hset, -⟩
      exact Or.inr ⟨Or.inl hop, hset.trans hsemid⟩

lemma attributedTo_setMetadata (hidentity : identity = actor.identity) (uid gid mode : UInt32) :
    AttributedTo request actor st (st.setMetadata semid uid gid mode identity now).2 := by
  rcases st.setMetadata_cases semid uid gid mode identity now with ⟨-, heq⟩ |
    ⟨i, hfound, howner, hgid, -, heq⟩
  · rw [heq]
    exact AttributedTo.refl request actor st
  · rw [heq]
    refine attributedTo_of_write ?_ ?_ fun k => .same rfl
    · intro _ _
      refine ⟨fun s _ => Or.inl rfl, rfl, rfl, rfl, fun hne => ?_⟩
      rw [hidentity] at howner hgid
      exact ⟨hgid.resolve_left hne, howner⟩
    · intro hfree
      rw [SemStore.active_of_findSet hfound] at hfree
      cases hfree

/-- The last pids after a commit. -/
lemma getElem?_foldl_set (operations : List SemOp) (pids : List Int32) (pid : Int32) (s : ℕ) :
    (operations.foldl (fun pids op => pids.set op.semNum.toNat pid) pids)[s]? = pids[s]? ∨
      (operations.foldl (fun pids op => pids.set op.semNum.toNat pid) pids)[s]? = some pid := by
  induction operations generalizing pids with
  | nil => exact Or.inl rfl
  | cons op operations ih =>
    rw [List.foldl_cons]
    rcases ih (pids.set op.semNum.toNat pid) with hs | hs
    · rw [hs]
      exact getElem?_set_pid pids op.semNum.toNat pid s
    · exact Or.inr hs

lemma attributedTo_tryopDetail (hop : request.opcode.any Opcode.isSemop = true)
    (operations : List SemOp) :
    AttributedTo request actor st (st.tryopDetail semid operations actor.pid now).2.2 := by
  rw [SemStore.tryopDetail]
  cases hplan : st.planTryop semid operations actor.pid with
  | error r => exact AttributedTo.refl request actor st
  | ok plan =>
    have hfound := (SemStore.planTryop_ok.mp hplan).found
    have hkept : ∀ set : SemSet, set.lastPids = operations.foldl
        (fun pids op => pids.set op.semNum.toNat actor.pid) (st.sets plan.index).lastPids →
        set.uid = (st.sets plan.index).uid → set.cuid = (st.sets plan.index).cuid →
        set.cgid = (st.sets plan.index).cgid → set.gid = (st.sets plan.index).gid →
        SetKept actor (st.sets plan.index) set := by
      intro set hpids huid hcuid hcgid hgid
      refine ⟨fun s _ => ?_, huid, hcuid, hcgid, fun hne => absurd hgid hne⟩
      rw [hpids]
      exact getElem?_foldl_set operations _ actor.pid s
    have hcreated : ∀ set : SemSet, (st.sets plan.index).active = false → set.active = true →
        SetOwned actor set := by
      intro set hfree
      rw [SemStore.active_of_findSet hfound] at hfree
      cases hfree
    have hentries : ∀ u, Adjusts actor.pid st.undoEntries u →
        ∀ k, EntryChange request actor (st.undoEntries k) (u k) := by
      intro u hu k
      rcases hu k with hsame | ⟨hpid, hslot⟩
      · exact .same hsame
      · exact .adjusted hop hpid hslot
    simp only [SemStore.commitTryop]
    cases hloop : (List.range (SemStore.committedSet (st.sets plan.index) plan operations
        actor.pid).nsems).foldlM (UndoTable.commitUndo actor.pid semid plan.deltas)
        st.undoEntries with
    | error u =>
      exact attributedTo_of_write (fun _ _ => hkept _ rfl rfl rfl rfl rfl) (hcreated _)
        (hentries u (adjusts_commit.2 u hloop))
    | ok u =>
      exact attributedTo_of_write (fun _ _ => hkept _ rfl rfl rfl rfl rfl) (hcreated _)
        (hentries u (adjusts_commit.1 u hloop))

lemma Requested.attributedTo {op : StoreOp} (hop : Requested request actor op)
    (haddressed : Addressed request op) : AttributedTo request actor st (st.perform op).2 := by
  cases op with
  | getAs key nsems flags identity allocated now =>
    exact attributedTo_getAs hop.2 key nsems flags allocated
  | remove semid => exact attributedTo_remove hop haddressed
  | setval semid semnum value pid now =>
    obtain ⟨hopcode, rfl⟩ := hop
    exact attributedTo_setval hopcode haddressed.1 haddressed.2
  | setall semid values pid now =>
    obtain ⟨hopcode, rfl⟩ := hop
    exact attributedTo_setall hopcode haddressed
  | setMetadata semid uid gid mode identity now =>
    exact attributedTo_setMetadata hop.2 uid gid mode
  | tryopDetail semid operations pid now =>
    obtain ⟨hsemop, rfl, -⟩ := hop
    exact attributedTo_tryopDetail hsemop operations
  | adjustWaitCount semid semnum waitForZero adjustment => exact hop.elim
  | processExit pid now => exact hop.elim

/-- Whatever the packet, everything a dispatch writes into the store is attributed to the actor. -/
theorem dispatch_attributed (st : SemStore) (request : ProtocolPacket) (actor : BrokerActor)
    (env : DispatchEnv) (response : ProtocolPacket) :
    AttributedTo request actor st (brokerDispatch st request actor env response).2.2 := by
  rcases brokerDispatch_cases st request actor env response with ⟨e, -, heq⟩ | heq
  · rw [heq]
    exact AttributedTo.refl request actor st
  · rw [heq]
    rcases dispatchOpcode_performs st request actor env (prepareResponse request response) with
      hstore | ⟨op, hop, haddressed, -, hstore⟩
    · rw [hstore]
      exact AttributedTo.refl request actor st
    · rw [hstore]
      exact hop.attributedTo haddressed

end Tgcompat
