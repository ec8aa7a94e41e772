import Tgcompat.Broker.Atomicity
import Tgcompat.Broker.Server
import Tgcompat.Store.Frame

/-!
# What a dispatch answers

A dispatch of a `semop` request applies it and answers zero, or leaves the store alone and
answers that it has to wait, or leaves the store alone and answers an error. Whether it has to
wait depends on the values of its set alone. Every dispatch performs at most one operation of the
store, and one after which no waiter is notified keeps the values of every set.
-/

namespace Tgcompat

variable {st st' : SemStore} {semid pid : Int32} {operations : List SemOp}
  {packet response : ProtocolPacket} {actor : BrokerActor} {env : DispatchEnv}

/-! ### Requests that reach `tryop` -/

/-- A packet that passes every check before `tryop`, with the arguments it passes on. -/
structure Live (packet : ProtocolPacket) (actor : BrokerActor) (semid : Int32)
    (operations : List SemOp) : Prop where
  pid_pos : 0 < actor.pid
  isRequest : packet.isRequest = true
  isSemop : packet.opcode.any Opcode.isSemop = true
  decoded : decodeSemop packet = .ok (semid, operations)

lemma Live.commits_eq (h : Live packet actor semid operations) (st : SemStore) :
    commits st packet actor = (st.planTryop semid operations actor.pid).toBool := by
  simp [commits, h.pid_pos, h.isRequest, h.isSemop, h.decoded]

/-- The payload of a blocked answer as the broker reads it back. -/
structure WaitReply (response : ProtocolPacket) (op : SemOp) : Prop where
  length : response.length = 8
  semnum : wireGetU16 response.payload 0 = op.semNum
  waitForZero : wireGetU16 response.payload 2 = if op.semOp = 0 then 1 else 0
  reserved : wireGetU32 response.payload 4 = 0

lemma waitReply_put (response : ProtocolPacket) (op : SemOp) :
    WaitReply (sealResponse (putWaitReason response
      ⟨op.semNum, if op.semOp = 0 then 1 else 0⟩) semOpBlocked) op where
  length := by
    have h : ¬ semOpBlocked < 0 := by decide
    simp only [ProtocolPacket.length, sealResponse, putWaitReason, if_neg h]
    decide
  semnum := by
    simp (disch := simp) only [sealResponse, putWaitReason, Wire.get_u16, Wire.put_u16,
      Wire.put_u32, Layout.Field.get_put, Layout.Field.get_put_of_disjoint]
  waitForZero := by
    simp (disch := simp) only [sealResponse, putWaitReason, Wire.get_u16, Wire.put_u16,
      Wire.put_u32, Layout.Field.get_put, Layout.Field.get_put_of_disjoint]
  reserved := by
    simp only [sealResponse, putWaitReason, Wire.get_u32, Wire.put_u32, Layout.Field.get_put]

/-- The three answers to a live request. -/
inductive Answered (st : SemStore) (packet : ProtocolPacket) (actor : BrokerActor)
    (semid : Int32) (operations : List SemOp) (now : Int64) : ProtocolPacket → SemStore → Prop
  | applied {response : ProtocolPacket} (plan : SemStore.TryopPlan) (t : UndoTable)
      (hplan : st.Planned semid operations actor.pid plan) (hwf : t.Wf)
      (hadded : st.undoEntries.AddedTo actor.pid semid plan.deltas
        (List.range (st.sets plan.index).nsems) t)
      (hcommits : commits st packet actor = true) (hblocks : st.blocks semid operations = false)
      (hresult : response.header.result = 0) :
      Answered st packet actor semid operations now response
        (st.committedStore operations actor.pid now plan t)
  | blocked {response : ProtocolPacket} (op : SemOp)
      (hop : st.blockingOp semid operations = some op)
      (hcommits : commits st packet actor = false) (hblocks : st.blocks semid operations = true)
      (hresult : response.header.result = semOpBlocked) (hreply : WaitReply response op) :
      Answered st packet actor semid operations now response st
  | failed {response : ProtocolPacket} (hcommits : commits st packet actor = false)
      (hblocks : st.blocks semid operations = false) (hresult : response.header.result < 0) :
      Answered st packet actor semid operations now response st

/-- The answer says to wait exactly when the values do. -/
lemma Answered.blocked_iff {now : Int64}
    (h : Answered st packet actor semid operations now response st') :
    response.header.result = semOpBlocked ↔ st.blocks semid operations = true := by
  cases h with
  | applied plan t hplan hwf hadded hcommits hblocks hresult =>
    rw [hblocks, hresult]
    decide
  | blocked op hop hcommits hblocks hresult hreply => simp only [hblocks, hresult]
  | failed hcommits hblocks hresult =>
    rw [hblocks]
    refine ⟨fun hb => ?_, fun hb => by cases hb⟩
    rw [hb] at hresult
    exact absurd hresult (by decide)

/-- A request that is told to wait has changed nothing, and is told what it waits for. -/
lemma Answered.waits {now : Int64}
    (h : Answered st packet actor semid operations now response st')
    (hresult : response.header.result = semOpBlocked) :
    commits st packet actor = false ∧ st.blocks semid operations = true ∧ st' = st ∧
      ∃ op, st.blockingOp semid operations = some op ∧ WaitReply response op := by
  cases h with
  | applied plan t hplan hwf hadded hcommits hblocks hzero =>
    rw [hresult] at hzero
    exact absurd hzero (by decide)
  | blocked op hop hcommits hblocks _ hreply => exact ⟨hcommits, hblocks, rfl, op, hop, hreply⟩
  | failed hcommits hblocks hneg =>
    rw [hresult] at hneg
    exact absurd hneg (by decide)

/-- `SEMOP` and `SEMTIMEDOP` go to one handler. -/
lemma dispatchOpcode_semop (hsemop : packet.opcode.any Opcode.isSemop = true) :
    dispatchOpcode st packet actor env response =
      dispatchSemop st packet actor.pid env response := by
  rw [dispatchOpcode]
  cases hop : packet.opcode with
  | none =>
    rw [hop] at hsemop
    cases hsemop
  | some op =>
    rw [hop] at hsemop
    cases op with
    | semop => rfl
    | semtimedop => rfl
    | _ => cases hsemop

lemma brokerDispatch_semop (hpid : 0 < actor.pid) (hrequest : packet.isRequest = true)
    (hsemop : packet.opcode.any Opcode.isSemop = true) (response : ProtocolPacket) :
    brokerDispatch st packet actor env response =
      (0, sealResponse (dispatchSemop st packet actor.pid env (prepareResponse packet response)).2.1
          (dispatchSemop st packet actor.pid env (prepareResponse packet response)).1,
        (dispatchSemop st packet actor.pid env (prepareResponse packet response)).2.2) := by
  rw [brokerDispatch, if_neg (Int32.not_le.mpr hpid), if_neg (by rw [hrequest]; decide)]
  simp only [dispatchOpcode_semop hsemop]

/-- What a dispatch answers to a live request. -/
theorem Live.answered (hl : Live packet actor semid operations) (h : st.Inv) (env : DispatchEnv)
    (response : ProtocolPacket) :
    (brokerDispatch st packet actor env response).1 = 0 ∧
      Answered st packet actor semid operations env.now
        (brokerDispatch st packet actor env response).2.1
        (brokerDispatch st packet actor env response).2.2 := by
  rw [brokerDispatch_semop hl.pid_pos hl.isRequest hl.isSemop]
  refine ⟨rfl, ?_⟩
  have hcommits := hl.commits_eq st
  rw [dispatchSemop, hl.decoded]
  rcases h.tryopDetail_cases semid operations actor.pid env.now with ⟨r, hp, heq⟩ |
    ⟨plan, t, hplan, hwf, hadded, heq⟩
  · rw [hp] at hcommits
    simp only [heq]
    rcases SemStore.planTryop_error hp with ⟨hneg, hblocks⟩ | ⟨hblocked, hblocks, op, hop, hr⟩
    · rw [if_neg (by rintro hb; rw [hb] at hneg; exact absurd hneg (by decide))]
      exact .failed hcommits hblocks hneg
    · rw [if_pos hblocked, hblocked, hr]
      exact .blocked op hop hcommits hblocks rfl (waitReply_put _ op)
  · rw [SemStore.planTryop_ok.mpr hplan] at hcommits
    simp only [heq]
    rw [if_neg (by decide)]
    exact .applied plan t hplan hwf hadded hcommits hplan.blocks_eq_false rfl

/-- What a request that can be decoded looks like. -/
lemma decodeSemop_ok (h : decodeSemop packet = .ok (semid, operations)) :
    semid = wireGetI32 packet.payload 0 ∧ ¬ packet.length < opPrefixSize packet ∧
      ¬ ((wireGetU32 packet.payload 4).toNat = 0 ∨
        (wireGetU32 packet.payload 4).toNat > semMaxPerSet ∨
        packet.length ≠ opPrefixSize packet + (wireGetU32 packet.payload 4).toNat * opSize) ∧
      (List.range (wireGetU32 packet.payload 4).toNat).mapM (fun i =>
        decodeOp packet.payload (opPrefixSize packet + i * opSize)) = .ok operations := by
  simp only [decodeSemop] at h
  split at h
  · cases h
  · next hprefix =>
    split at h
    · cases h
    · next hcount =>
      split at h
      · cases h
      · obtain ⟨ops, hops, heq⟩ := Fold.bind_eq_ok.mp h
        cases heq
        exact ⟨rfl, hprefix, hcount, hops⟩

/-- The request names its set in the first four bytes. -/
lemma Live.semid_eq (h : Live packet actor semid operations) :
    semid = wireGetI32 packet.payload 0 :=
  (decodeSemop_ok h.decoded).1

/-! ### Requests that do not reach `tryop` -/

lemma decodeSemop_error {e : Int32} (h : decodeSemop packet = .error e) : e < 0 := by
  simp only [decodeSemop] at h
  split at h
  · cases h
    decide
  · split at h
    · cases h
      decide
    · split at h
      · cases h
        decide
      · rcases Fold.bind_eq_error.mp h with hops | ⟨ops, -, h⟩
        · obtain ⟨i, -, hop⟩ := Fold.mapM_error hops
          rw [decodeOp] at hop
          split_ifs at hop
          cases hop
          decide
        · cases h

/-- A `semop` request is live, or a dispatch of it fails and changes nothing. -/
lemma live_or_failed (hsemop : packet.opcode.any Opcode.isSemop = true) (st : SemStore)
    (actor : BrokerActor) (env : DispatchEnv) (response : ProtocolPacket) :
    (∃ semid operations, Live packet actor semid operations) ∨
      (commits st packet actor = false ∧
        (brokerDispatch st packet actor env response).2.2 = st ∧
        ((brokerDispatch st packet actor env response).1 ≠ 0 ∨
          (brokerDispatch st packet actor env response).2.1.header.result < 0)) := by
  by_cases hpid : 0 < actor.pid
  · by_cases hrequest : packet.isRequest = true
    · cases hd : decodeSemop packet with
      | ok p => exact Or.inl ⟨p.1, p.2, hpid, hrequest, hsemop, hd⟩
      | error e =>
        right
        rw [brokerDispatch_semop hpid hrequest hsemop, dispatchSemop, hd]
        exact ⟨by simp [commits, hd], rfl, Or.inr (decodeSemop_error hd)⟩
    · right
      rw [brokerDispatch, if_neg (Int32.not_le.mpr hpid), if_pos (Bool.not_eq_true _ ▸ hrequest)]
      have hne : -EPROTO ≠ 0 := by decide
      exact ⟨by simp [commits, hrequest], rfl, Or.inl hne⟩
  · right
    rw [brokerDispatch, if_pos (Int32.not_lt.mp hpid)]
    have hne : -EINVAL ≠ 0 := by decide
    exact ⟨by simp [commits, hpid], rfl, Or.inl hne⟩

lemma commits_of_not_semop (hsemop : packet.opcode.any Opcode.isSemop = false) :
    commits st packet actor = false := by
  simp [commits, hsemop]

/-! ### Effects on the store -/

/-- A dispatch performs at most one operation of the store, and `tryop` only for a live request
and the process that sent it. -/
theorem brokerDispatch_store (st : SemStore) (packet : ProtocolPacket) (actor : BrokerActor)
    (env : DispatchEnv) (response : ProtocolPacket) :
    (brokerDispatch st packet actor env response).2.2 = st ∨
      ∃ op : StoreOp, (brokerDispatch st packet actor env response).2.2 = st.next op ∧
        ∀ semid operations pid now, op = .tryopDetail semid operations pid now →
          pid = actor.pid ∧ Live packet actor semid operations := by
  rw [brokerDispatch]
  split_ifs with hpid hrequest
  · exact Or.inl rfl
  · exact Or.inl rfl
  · rcases dispatchOpcode_cases st packet actor env (prepareResponse packet response) with
      heq | ⟨op, hop, -, heq⟩
    · exact Or.inl heq
    · refine Or.inr ⟨op, heq, ?_⟩
      rintro semid operations pid now rfl
      obtain ⟨hsemop, hp, hdecoded⟩ := hop
      exact ⟨hp, Int32.not_le.mp hpid, Bool.not_eq_false _ ▸ hrequest, hsemop, hdecoded⟩

lemma SemStore.Inv.brokerDispatch (h : st.Inv) (packet : ProtocolPacket) (actor : BrokerActor)
    (env : DispatchEnv) (response : ProtocolPacket) :
    (brokerDispatch st packet actor env response).2.2.Inv := by
  rcases brokerDispatch_store st packet actor env response with heq | ⟨op, heq, -⟩
  · rw [heq]
    exact h
  · rw [heq]
    exact h.next op

/-! ### Changes that no waiter has to know about -/

/-- Every set that resolves is still there, with the same values. -/
def SemStore.KeepsValues (st st' : SemStore) : Prop :=
  ∀ id i, st.findSet id = some i → st'.findSet id = some i ∧
    (st'.sets i).nsems = (st.sets i).nsems ∧ (st'.sets i).values = (st.sets i).values

namespace SemStore

lemma KeepsValues.refl (st : SemStore) : st.KeepsValues st :=
  fun _ _ h => ⟨h, rfl, rfl⟩

lemma KeepsValues.trans {st'' : SemStore} (h : st.KeepsValues st') (h' : st'.KeepsValues st'') :
    st.KeepsValues st'' := by
  intro id i hf
  obtain ⟨h1, h2, h3⟩ := h id i hf
  obtain ⟨h1', h2', h3'⟩ := h' id i h1
  exact ⟨h1', h2'.trans h2, h3'.trans h3⟩

/-- A request that has to wait still has to. -/
lemma KeepsValues.blocks (h : st.KeepsValues st') (hb : st.blocks semid operations = true) :
    st'.blocks semid operations = true := by
  rw [SemStore.blocks] at hb ⊢
  cases hf : st.findSet semid with
  | none =>
    rw [hf] at hb
    cases hb
  | some i =>
    obtain ⟨hf', hnsems, hvalues⟩ := h semid i hf
    rw [hf] at hb
    rw [hf']
    simpa only [hnsems, hvalues] using hb

/-- Whether a request has to wait depends on the values of its set alone. -/
lemma SameFrames.blocks_eq (h : st.SameFrames st')
    (hvalues : ∀ i, st.findSet semid = some i → (st'.sets i).values = (st.sets i).values) :
    st'.blocks semid operations = st.blocks semid operations := by
  rw [SemStore.blocks, SemStore.blocks, h.findSet semid]
  cases hf : st.findSet semid with
  | none => rfl
  | some i => simp only [hvalues i hf, (h i).nsems]

/-- An in-place change of one set that keeps its values. -/
lemma keepsValues_of_write {i : Fin semMaxSets} {set : SemSet}
    (heq : st'.sets = Function.update st.sets i set) (hframe : (st.sets i).SameFrame set)
    (hvalues : set.values = (st.sets i).values) : st.KeepsValues st' := by
  have hframes := sameFrames_of_write heq hframe
  intro id j hf
  refine ⟨(hframes.findSet id).trans hf, (hframes j).nsems, ?_⟩
  rw [heq]
  by_cases hj : j = i
  · subst hj
    rw [Function.update_self, hvalues]
  · rw [Function.update_of_ne hj]

lemma keepsValues_getAs (key nsems flags : Int32) (identity : SemIdentity) (allocated : Bool)
    (now : Int64) : st.KeepsValues (st.getAs key nsems flags identity allocated now).2 := by
  rcases st.getAs_cases key nsems flags identity allocated now with ⟨-, heq⟩ | ⟨i, -, heq⟩ |
    ⟨i, hc, heq⟩
  · rw [heq]
    exact KeepsValues.refl st
  · rw [heq]
    exact KeepsValues.refl st
  · rw [heq]
    intro id j hf
    obtain ⟨hf', hne⟩ := findSet_create hc.free hf
    exact ⟨hf', by rw [writeSet_sets_of_ne _ hne], by rw [writeSet_sets_of_ne _ hne]⟩

lemma keepsValues_setMetadata (semid : Int32) (uid gid mode : UInt32) (identity : SemIdentity)
    (now : Int64) : st.KeepsValues (st.setMetadata semid uid gid mode identity now).2 := by
  rcases st.setMetadata_cases semid uid gid mode identity now with
    ⟨-, heq⟩ | ⟨i, -, -, -, -, heq⟩
  · rw [heq]
    exact KeepsValues.refl st
  · rw [heq]
    exact keepsValues_of_write rfl ⟨rfl, rfl, rfl, rfl⟩ rfl

lemma values_countedSet (set : SemSet) (semnum : ℕ) (waitForZero : Bool) (adjustment : Int32) :
    (countedSet set semnum waitForZero adjustment).values = set.values := by
  cases waitForZero with
  | false => rfl
  | true => rfl

lemma keepsValues_adjustWaitCount (semid : Int32) (semnum : ℕ) (waitForZero : Bool)
    (adjustment : Int32) :
    st.KeepsValues (st.adjustWaitCount semid semnum waitForZero adjustment).2 := by
  rcases st.adjustWaitCount_cases semid semnum waitForZero adjustment with
    ⟨-, heq⟩ | ⟨i, -, -, -, heq⟩
  · rw [heq]
    exact KeepsValues.refl st
  · rw [heq]
    exact keepsValues_of_write rfl (sameFrame_countedSet _ _ _ _) (values_countedSet _ _ _ _)

end SemStore

lemma changesState_of_isSemop (h : packet.opcode.any Opcode.isSemop = true) :
    packet.opcode.any Opcode.changesState = true := by
  rw [Option.any_eq_true] at h ⊢
  obtain ⟨opcode, hopcode, hsemop⟩ := h
  refine ⟨opcode, hopcode, ?_⟩
  cases opcode with
  | semop => rfl
  | semtimedop => rfl
  | _ => cases hsemop

/-- A handler that does not report a success to announce keeps the values of every set. -/
lemma dispatchOpcode_keepsValues (h : st.Inv)
    (hquiet : (dispatchOpcode st packet actor env response).1 = 0 →
      packet.opcode.any Opcode.changesState = false) :
    st.KeepsValues (dispatchOpcode st packet actor env response).2.2 := by
  rcases dispatchOpcode_cases st packet actor env response with heq | ⟨op, hop, hresult, heq⟩
  · rw [heq]
    exact SemStore.KeepsValues.refl st
  · rw [hresult] at hquiet
    rw [heq]
    -- an announced operation has not succeeded, so it has changed nothing
    have hkeep : packet.opcode.any Opcode.changesState = true →
        st.KeepsValues (st.perform op).2 := by
      intro hchanges
      have hne : (st.perform op).1 ≠ 0 := by
        intro hzero
        rw [hquiet hzero] at hchanges
        cases hchanges
      have hsemget : packet.opcode ≠ some .semget := by
        intro hsemget
        rw [hsemget] at hchanges
        cases hchanges
      rw [hop.unchanged h hsemget hne]
      exact SemStore.KeepsValues.refl st
    cases op with
    | getAs key nsems flags identity allocated now => exact SemStore.keepsValues_getAs _ _ _ _ _ _
    | setMetadata semid uid gid mode identity now =>
      exact SemStore.keepsValues_setMetadata _ _ _ _ _ _
    | remove semid => exact hkeep (by rw [hop]; rfl)
    | setval semid semnum value pid now => exact hkeep (by rw [hop.1]; rfl)
    | setall semid values pid now => exact hkeep (by rw [hop.1]; rfl)
    | tryopDetail semid operations pid now => exact hkeep (changesState_of_isSemop hop.1)
    | adjustWaitCount semid semnum waitForZero adjustment => exact hop.elim
    | processExit pid now => exact hop.elim

/-- A dispatch after which nobody is notified keeps the values of every set. -/
theorem brokerDispatch_keepsValues (h : st.Inv) (packet : ProtocolPacket) (actor : BrokerActor)
    (env : DispatchEnv) (response : ProtocolPacket)
    (hquiet : (brokerDispatch st packet actor env response).1 = 0 →
      operationChangedState packet (brokerDispatch st packet actor env response).2.1 = false) :
    st.KeepsValues (brokerDispatch st packet actor env response).2.2 := by
  rcases brokerDispatch_cases st packet actor env response with ⟨e, -, heq⟩ | heq
  · rw [heq]
    exact SemStore.KeepsValues.refl st
  · rw [heq] at hquiet ⊢
    apply dispatchOpcode_keepsValues h
    intro hzero
    have hchanged := hquiet rfl
    rw [operationChangedState, if_neg] at hchanged
    · exact hchanged
    · exact fun hne => hne hzero

end Tgcompat
