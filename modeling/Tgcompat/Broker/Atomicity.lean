import Tgcompat.Broker.Dispatch
import Tgcompat.Client.Requests
import Tgcompat.Store.Run

/-!
# Failed requests change nothing

A handler that changes the store reports success: its result is zero, or the id `semget` returns.
So a request that ends with an error, or that is told to wait, leaves the store as it was. For
`tryop` this rests on the capacity check: a commit that starts runs to its end.
-/

namespace Tgcompat

variable {st : SemStore} {request response : ProtocolPacket} {actor : BrokerActor}
  {env : DispatchEnv}

/-- The outcome of a handler: the store is unchanged, or the result reports a success. -/
def Atomic (st : SemStore) (outcome : Int32 × SemStore) : Prop :=
  outcome.2 = st ∨ outcome.1 = 0 ∨ 1 < outcome.1

/-- An atomic outcome that is an error or asks to wait leaves the store alone. -/
lemma Atomic.unchanged {outcome : Int32 × SemStore} (h : Atomic st outcome)
    (hresult : outcome.1 < 0 ∨ outcome.1 = semOpBlocked) : outcome.2 = st := by
  rcases h with h | h | h
  · exact h
  · rw [h] at hresult
    exact absurd hresult (by decide)
  · rcases hresult with hneg | hblocked
    · exact absurd (Int32.lt_trans h hneg) (by decide)
    · rw [hblocked] at h
      exact absurd h (by decide)

/-! ### What a request may do to the store -/

/-- The operations of the store that a request may perform. -/
def Requested (request : ProtocolPacket) (actor : BrokerActor) : StoreOp → Prop
  | .getAs _ _ _ identity _ _ => request.opcode = some .semget ∧ identity = actor.identity
  | .remove _ => request.opcode = some .remove
  | .setval _ _ _ pid _ => request.opcode = some .setval ∧ pid = actor.pid
  | .setall _ _ pid _ => request.opcode = some .setall ∧ pid = actor.pid
  | .setMetadata _ _ _ _ identity _ => request.opcode = some .setmeta ∧ identity = actor.identity
  | .tryopDetail semid operations pid _ =>
    request.opcode.any Opcode.isSemop = true ∧ pid = actor.pid ∧
      decodeSemop request = .ok (semid, operations)
  | .adjustWaitCount _ _ _ _ | .processExit _ _ => False

/-- `semop` performs nothing, or `tryop` on the operations of the request. -/
lemma dispatchSemop_cases (st : SemStore) (request : ProtocolPacket) (pid : Int32)
    (env : DispatchEnv) (response : ProtocolPacket) :
    (dispatchSemop st request pid env response).2.2 = st ∨
      ∃ semid operations, decodeSemop request = .ok (semid, operations) ∧
        (dispatchSemop st request pid env response).1 =
          (st.perform (.tryopDetail semid operations pid env.now)).1 ∧
        (dispatchSemop st request pid env response).2.2 =
          (st.perform (.tryopDetail semid operations pid env.now)).2 := by
  rw [dispatchSemop]
  cases decodeSemop request with
  | error result => exact Or.inl rfl
  | ok p =>
    refine Or.inr ⟨p.1, p.2, rfl, ?_⟩
    simp only
    split_ifs
    · exact ⟨rfl, rfl⟩
    · exact ⟨rfl, rfl⟩

/-- The operations that name a set or a semaphore take it from the payload. -/
def Addressed (request : ProtocolPacket) : StoreOp → Prop
  | .remove semid => semid = wireGetI32 request.payload 0
  | .setval semid semnum _ _ _ =>
    semid = wireGetI32 request.payload 0 ∧ semnum = (wireGetU32 request.payload 4).toNat
  | .setall semid _ _ _ => semid = wireGetI32 request.payload 0
  | _ => True

/-- The switch over the opcode performs nothing, or one operation whose result it reports. -/
theorem dispatchOpcode_performs (st : SemStore) (request : ProtocolPacket) (actor : BrokerActor)
    (env : DispatchEnv) (response : ProtocolPacket) :
    (dispatchOpcode st request actor env response).2.2 = st ∨
      ∃ op, Requested request actor op ∧ Addressed request op ∧
        (dispatchOpcode st request actor env response).1 = (st.perform op).1 ∧
        (dispatchOpcode st request actor env response).2.2 = (st.perform op).2 := by
  have hsemop : request.opcode.any Opcode.isSemop = true →
      (dispatchSemop st request actor.pid env response).2.2 = st ∨
      ∃ op, Requested request actor op ∧ Addressed request op ∧
        (dispatchSemop st request actor.pid env response).1 = (st.perform op).1 ∧
        (dispatchSemop st request actor.pid env response).2.2 = (st.perform op).2 := by
    intro hop
    rcases dispatchSemop_cases st request actor.pid env response with heq |
      ⟨semid, operations, hdecoded, hresult, heq⟩
    · exact Or.inl heq
    · exact Or.inr ⟨.tryopDetail semid operations actor.pid env.now, ⟨hop, rfl, hdecoded⟩, trivial,
        hresult, heq⟩
  rw [dispatchOpcode]
  cases hop : request.opcode with
  | none => exact Or.inl rfl
  | some opcode =>
    rw [hop] at hsemop
    cases opcode with
    | semget =>
      simp only [withResponse, dispatchSemget]
      split_ifs
      · exact Or.inl rfl
      · exact Or.inl rfl
      · exact Or.inr ⟨.getAs _ _ _ _ _ _, ⟨hop, rfl⟩, trivial, rfl, rfl⟩
    | remove =>
      simp only [withResponse, dispatchRemove]
      split_ifs
      · exact Or.inr ⟨.remove _, hop, rfl, rfl, rfl⟩
      · exact Or.inl rfl
    | setval =>
      simp only [withResponse, dispatchSetval]
      split_ifs
      · exact Or.inl rfl
      · exact Or.inr ⟨.setval _ _ _ _ _, ⟨hop, rfl⟩, ⟨rfl, rfl⟩, rfl, rfl⟩
    | setall =>
      simp only [withResponse, dispatchSetall]
      split_ifs
      · exact Or.inl rfl
      · exact Or.inl rfl
      · exact Or.inr ⟨.setall _ _ _ _, ⟨hop, rfl⟩, rfl, rfl, rfl⟩
    | setmeta =>
      simp only [withResponse, dispatchSetmeta]
      split_ifs
      · exact Or.inl rfl
      · exact Or.inr ⟨.setMetadata _ _ _ _ _ _, ⟨hop, rfl⟩, trivial, rfl, rfl⟩
    | semop => exact hsemop rfl
    | semtimedop => exact hsemop rfl
    -- the remaining opcodes read the store
    | ping | getval | getpid | getncnt | getzcnt | getall | stat | statIndex | info =>
      exact Or.inl rfl

theorem dispatchOpcode_cases (st : SemStore) (request : ProtocolPacket) (actor : BrokerActor)
    (env : DispatchEnv) (response : ProtocolPacket) :
    (dispatchOpcode st request actor env response).2.2 = st ∨
      ∃ op, Requested request actor op ∧
        (dispatchOpcode st request actor env response).1 = (st.perform op).1 ∧
        (dispatchOpcode st request actor env response).2.2 = (st.perform op).2 := by
  rcases dispatchOpcode_performs st request actor env response with heq | ⟨op, hop, -, hperform⟩
  · exact Or.inl heq
  · exact Or.inr ⟨op, hop, hperform⟩

/-- An operation other than `semget` changes the store only if it returns zero. -/
lemma Requested.unchanged {op : StoreOp} (hop : Requested request actor op) (h : st.Inv)
    (hsemget : request.opcode ≠ some .semget) (hresult : (st.perform op).1 ≠ 0) :
    (st.perform op).2 = st := by
  cases op with
  | getAs key nsems flags identity allocated now => exact absurd hop.1 hsemget
  | remove semid =>
    rcases st.remove_cases semid with ⟨-, heq⟩ | ⟨i, -, heq⟩
    · rw [SemStore.perform, heq]
    · exact absurd (by rw [SemStore.perform, heq]) hresult
  | setval semid semnum value pid now =>
    rcases st.setval_cases semid semnum value pid now with hr | ⟨i, -, -, -, heq⟩
    · exact hr.2
    · exact absurd (by rw [SemStore.perform, heq]) hresult
  | setall semid values pid now =>
    rcases st.setall_cases semid values pid now with hr | ⟨i, -, -, -, heq⟩
    · exact hr.2
    · exact absurd (by rw [SemStore.perform, heq]) hresult
  | setMetadata semid uid gid mode identity now =>
    rcases st.setMetadata_cases semid uid gid mode identity now with hr | ⟨i, -, -, -, -, heq⟩
    · exact hr.2
    · exact absurd (by rw [SemStore.perform, heq]) hresult
  | tryopDetail semid operations pid now =>
    rcases h.tryopDetail_cases semid operations pid now with ⟨r, -, heq⟩ | ⟨plan, t, -, -, -, heq⟩
    · rw [SemStore.perform, heq]
    · exact absurd (by rw [SemStore.perform, heq]) hresult
  | adjustWaitCount semid semnum waitForZero adjustment => exact hop.elim
  | processExit pid now => exact hop.elim

lemma atomic_getAs (h : st.Inv) (key nsems flags : Int32) (identity : SemIdentity)
    (allocated : Bool) (now : Int64) :
    Atomic st (st.getAs key nsems flags identity allocated now) := by
  rcases st.getAs_cases key nsems flags identity allocated now with ⟨-, heq⟩ | ⟨i, -, heq⟩ |
    ⟨i, -, heq⟩
  · exact Or.inl heq
  · exact Or.inl (by rw [heq])
  · refine Or.inr (Or.inr ?_)
    rw [heq]
    exact makeId_gt_one i.isLt (SemStore.generationOk_fresh h i key nsems flags identity now)

lemma Requested.atomic {op : StoreOp} (hop : Requested request actor op) (h : st.Inv) :
    Atomic st (st.perform op) := by
  by_cases hsemget : request.opcode = some .semget
  · cases op with
    | getAs key nsems flags identity allocated now => exact atomic_getAs h _ _ _ _ _ _
    | _ => simp [Requested, hsemget, Opcode.isSemop] at hop
  · by_cases hresult : (st.perform op).1 = 0
    · exact Or.inr (Or.inl hresult)
    · exact Or.inl (hop.unchanged h hsemget hresult)

/-- The switch over the opcode is atomic. -/
theorem atomic_dispatchOpcode (h : st.Inv) (request : ProtocolPacket) (actor : BrokerActor)
    (env : DispatchEnv) (response : ProtocolPacket) :
    Atomic st ((dispatchOpcode st request actor env response).1,
      (dispatchOpcode st request actor env response).2.2) := by
  rcases dispatchOpcode_cases st request actor env response with heq | ⟨op, hop, hresult, heq⟩
  · exact Or.inl heq
  · rw [hresult, heq]
    exact hop.atomic h

/-- A dispatch is rejected before it starts, or seals the answer of the switch. -/
lemma brokerDispatch_cases (st : SemStore) (request : ProtocolPacket) (actor : BrokerActor)
    (env : DispatchEnv) (response : ProtocolPacket) :
    (∃ e, e ≠ 0 ∧ brokerDispatch st request actor env response = (e, response, st)) ∨
      brokerDispatch st request actor env response =
        (0,
          sealResponse (dispatchOpcode st request actor env (prepareResponse request response)).2.1
            (dispatchOpcode st request actor env (prepareResponse request response)).1,
          (dispatchOpcode st request actor env (prepareResponse request response)).2.2) := by
  rw [brokerDispatch]
  split_ifs
  · exact Or.inl ⟨-EINVAL, by decide, rfl⟩
  · exact Or.inl ⟨-EPROTO, by decide, rfl⟩
  · exact Or.inr rfl

/-- A dispatch that returns an error, or answers with a negative result or with the request to wait,
leaves the store as it was; and whenever `tryop` reaches its commit, the loop over the undo table
runs to its end. -/
theorem dispatch_failed_unchanged (h : st.Inv) (request : ProtocolPacket) (actor : BrokerActor)
    (env : DispatchEnv) (response : ProtocolPacket) :
    ((brokerDispatch st request actor env response).1 ≠ 0 ∨
      (brokerDispatch st request actor env response).2.1.header.result < 0 ∨
      (brokerDispatch st request actor env response).2.1.header.result = semOpBlocked →
        (brokerDispatch st request actor env response).2.2 = st) ∧
    ∀ (semid : Int32) (operations : List SemOp) (pid : Int32) (plan : SemStore.TryopPlan),
      st.planTryop semid operations pid = .ok plan →
        ∃ t, (List.range (st.sets plan.index).nsems).foldlM
          (UndoTable.commitUndo pid semid plan.deltas) st.undoEntries = .ok t := by
  refine ⟨?_, ?_⟩
  · rcases brokerDispatch_cases st request actor env response with ⟨e, -, heq⟩ | heq
    · rw [heq]
      exact fun _ => rfl
    · rw [heq]
      simp only [ne_eq, not_true_eq_false, false_or]
      exact (atomic_dispatchOpcode h request actor env _).unchanged
  · intro semid operations pid plan hp
    obtain ⟨t, -, -, ht, -⟩ := h.commit (SemStore.planTryop_ok.mp hp) 0
    exact ⟨t, ht⟩

/-- A store with one set of two semaphores, both zero. -/
def twoZeroSemaphores : SemStore :=
  SemStore.create.run [.getAs ipcPrivate 2 0o600 ⟨1000, 1000⟩ true 5]

/-- Adding to the first semaphore and taking from the second: the request has to wait, although
its first operation could be applied. -/
def addThenTake : ProtocolPacket :=
  semopRequest (fun _ => 0) (makeId 0 1) [⟨0, 1, 0⟩, ⟨1, -1, 0⟩] none

theorem dispatch_failed_unchanged_addThenTake :
    (brokerDispatch twoZeroSemaphores addThenTake ⟨42, ⟨1000, 1000⟩⟩ ⟨true, 6⟩
      addThenTake).2.1.header.result = semOpBlocked ∧
    (brokerDispatch twoZeroSemaphores addThenTake ⟨42, ⟨1000, 1000⟩⟩ ⟨true, 6⟩
      addThenTake).2.2 = twoZeroSemaphores := by
  have hblocked : (brokerDispatch twoZeroSemaphores addThenTake ⟨42, ⟨1000, 1000⟩⟩ ⟨true, 6⟩
      addThenTake).2.1.header.result = semOpBlocked := by decide +kernel
  have hinv : twoZeroSemaphores.Inv := SemStore.inv_run _
  exact ⟨hblocked, (dispatch_failed_unchanged hinv addThenTake _ _ _).1 (Or.inr (Or.inr hblocked))⟩

end Tgcompat
