import Tgcompat.Broker.Identity
import Tgcompat.Broker.Watching

/-!
# The scan for undo and the dispatcher

`request_uses_undo` reads a packet a second time, before the dispatcher does, and decides from the
flags of its operations whether the process has to be watched. It misses no packet whose dispatch
writes an undo entry, on whatever store, and stays within the payload.
-/

namespace Tgcompat

variable {st : SemStore} {packet : ProtocolPacket} {actor : BrokerActor} {pid semid : Int32}
  {operations : List SemOp}

/-! ### Requests without a flag -/

/-- An entry is created, or its adjustment changes. An entry that is only retired keeps it. -/
def TouchesUndo (st st' : SemStore) : Prop :=
  ∃ k, ((st.undoEntries k).active = false ∧ (st'.undoEntries k).active = true) ∨
    (st'.undoEntries k).adjustment ≠ (st.undoEntries k).adjustment

lemma foldlM_commitUndo_of_zero {deltas : ℕ → ℤ} (hdeltas : ∀ s, deltas s = 0) (t : UndoTable)
    (l : List ℕ) : l.foldlM (UndoTable.commitUndo pid semid deltas) t = .ok t := by
  induction l with
  | nil => rfl
  | cons s l ih =>
    have hstep : UndoTable.commitUndo pid semid deltas t s = .ok t := if_pos (hdeltas s)
    rw [List.foldlM_cons, hstep]
    exact ih

/-- A request without a flagged operation leaves the undo table alone. -/
lemma SemStore.tryopDetail_undoEntries (st : SemStore)
    (hplain : ∀ op ∈ operations, op.hasFlag semUndo = false) (semid pid : Int32) (now : Int64) :
    (st.tryopDetail semid operations pid now).2.2.undoEntries = st.undoEntries := by
  rw [SemStore.tryopDetail]
  cases hplan : st.planTryop semid operations pid with
  | error r => rfl
  | ok plan =>
    have hdeltas : ∀ s, plan.deltas s = 0 := by
      intro s
      rw [accumulate_ok (SemStore.planTryop_ok.mp hplan).accumulated s, neg_eq_zero]
      by_contra hamount
      obtain ⟨op, hop, hflag, -⟩ := exists_flag_of_undoAmount hamount
      rw [hplain op hop] at hflag
      cases hflag
    simp only [SemStore.commitTryop, foldlM_commitUndo_of_zero hdeltas]

lemma EntryChange.not_touched {e e' : UndoEntry} (h : EntryChange packet actor e e')
    (hsemop : packet.opcode.any Opcode.isSemop = false) :
    ¬ (e.active = false ∧ e'.active = true) ∧ e'.adjustment = e.adjustment := by
  cases h with
  | same heq =>
    subst heq
    refine ⟨?_, rfl⟩
    rintro ⟨hoff, hon⟩
    rw [hoff] at hon
    cases hon
  | adjusted hop => simp [hsemop] at hop
  | retired hactive hclears heq =>
    subst heq
    refine ⟨?_, rfl⟩
    rintro ⟨-, hon⟩
    cases hon

lemma not_touchesUndo_of_eq {st' : SemStore} (h : st'.undoEntries = st.undoEntries) :
    ¬ TouchesUndo st st' := by
  rintro ⟨k, ⟨hoff, hon⟩ | hne⟩
  · rw [h, hoff] at hon
    cases hon
  · rw [h] at hne
    exact hne rfl

/-- An operation of a packet without a flag creates and adjusts no entry. -/
lemma Requested.not_touchesUndo {op : StoreOp} (hop : Requested packet actor op)
    (haddressed : Addressed packet op) (hscan : requestUsesUndo packet = false) :
    ¬ TouchesUndo st (st.perform op).2 := by
  cases hsemop : packet.opcode.any Opcode.isSemop with
  | false =>
    have hattributed : AttributedTo packet actor st (st.perform op).2 :=
      hop.attributedTo haddressed
    have hentries := hattributed.entries
    rintro ⟨k, hcreated | hadjusted⟩
    · exact ((hentries k).not_touched hsemop).1 hcreated
    · exact hadjusted ((hentries k).not_touched hsemop).2
  | true =>
    cases op with
    | tryopDetail semid operations pid now =>
      obtain ⟨-, -, hdecoded⟩ := hop
      refine not_touchesUndo_of_eq (st.tryopDetail_undoEntries ?_ semid pid now)
      intro op hmem
      by_contra hflag
      have huses := requestUsesUndo_of_decoded hsemop hdecoded hmem (eq_true_of_ne_false hflag)
      rw [hscan] at huses
      cases huses
    | getAs => simp [hop.1, Opcode.isSemop] at hsemop
    | remove => simp [show packet.opcode = _ from hop, Opcode.isSemop] at hsemop
    | setval => simp [hop.1, Opcode.isSemop] at hsemop
    | setall => simp [hop.1, Opcode.isSemop] at hsemop
    | setMetadata => simp [hop.1, Opcode.isSemop] at hsemop
    | adjustWaitCount => exact hop.elim
    | processExit => exact hop.elim

lemma touchesUndo_dispatch {env : DispatchEnv} {response : ProtocolPacket}
    (h : TouchesUndo st (brokerDispatch st packet actor env response).2.2) :
    requestUsesUndo packet = true := by
  by_contra hscan
  refine absurd h ?_
  rcases brokerDispatch_cases st packet actor env response with ⟨e, -, heq⟩ | heq
  · rw [heq]
    exact not_touchesUndo_of_eq rfl
  · rw [heq]
    rcases dispatchOpcode_performs st packet actor env (prepareResponse packet response) with
      hstore | ⟨op, hop, haddressed, -, hstore⟩
    · rw [hstore]
      exact not_touchesUndo_of_eq rfl
    · rw [hstore]
      exact hop.not_touchesUndo haddressed (eq_false_of_ne_true hscan)

/-! ### The bytes that are read -/

/-- The offsets of a field of `size` bytes. -/
def fieldOffsets (off size : ℕ) : List ℕ := List.range' off size

/-- The loop of the scan over the operations in `indices`, with the offsets it reads. It stops at
the first flag. -/
def scanOperations (payload : Buffer) (prefixSize : ℕ) : List ℕ → Bool × List ℕ
  | [] => (false, [])
  | i :: indices =>
    let off := prefixSize + i * 8 + 4
    if (wireGetU16 payload off).toUInt32 &&& semUndo ≠ 0 then (true, fieldOffsets off 2)
    else
      let rest := scanOperations payload prefixSize indices
      (rest.1, fieldOffsets off 2 ++ rest.2)

/-- The scan of the payload of a `semop`. -/
def scanPayload (request : ProtocolPacket) : Bool × List ℕ :=
  if request.length < opPrefixSize request then (false, [])
  else
    let count := (wireGetU32 request.payload 4).toNat
    if count = 0 ∨ count > semMaxPerSet ∨
        request.length ≠ opPrefixSize request + count * 8 then (false, fieldOffsets 4 4)
    else
      let scan := scanOperations request.payload (opPrefixSize request) (List.range count)
      (scan.1, fieldOffsets 4 4 ++ scan.2)

/-- `request_uses_undo` with the offsets of the payload that it reads. -/
def requestUsesUndoReads (request : ProtocolPacket) : Bool × List ℕ :=
  match request.opcode with
  | some .semop | some .semtimedop => scanPayload request
  | _ => (false, [])

lemma mem_fieldOffsets {off size n : ℕ} : n ∈ fieldOffsets off size ↔ off ≤ n ∧ n < off + size :=
  List.mem_range'_1

lemma scanOperations_fst (payload : Buffer) (prefixSize : ℕ) (indices : List ℕ) :
    (scanOperations payload prefixSize indices).1 = indices.any fun i =>
      decide ((wireGetU16 payload (prefixSize + i * 8 + 4)).toUInt32 &&& semUndo ≠ 0) := by
  induction indices with
  | nil => rfl
  | cons i indices ih =>
    rw [scanOperations, List.any_cons, ← ih]
    by_cases hflag : (wireGetU16 payload (prefixSize + i * 8 + 4)).toUInt32 &&& semUndo ≠ 0
    · rw [if_pos hflag, decide_eq_true hflag]
      rfl
    · rw [if_neg hflag, decide_eq_false hflag]
      rfl

/-- The loop reads the operations it is given. -/
lemma mem_scanOperations {payload : Buffer} {prefixSize n : ℕ} {indices : List ℕ}
    (h : n ∈ (scanOperations payload prefixSize indices).2) :
    ∃ i ∈ indices, prefixSize + i * 8 + 4 ≤ n ∧ n < prefixSize + i * 8 + 6 := by
  induction indices with
  | nil => cases h
  | cons i indices ih =>
    rw [scanOperations] at h
    split at h
    · exact ⟨i, by simp, mem_fieldOffsets.mp h⟩
    · rcases List.mem_append.mp h with hfirst | hrest
      · exact ⟨i, by simp, mem_fieldOffsets.mp hfirst⟩
      · obtain ⟨k, hk, hbounds⟩ := ih hrest
        exact ⟨k, by simp [hk], hbounds⟩

lemma requestUsesUndoReads_fst (packet : ProtocolPacket) :
    (requestUsesUndoReads packet).1 = requestUsesUndo packet := by
  have hscan : (scanPayload packet).1 = if packet.length < opPrefixSize packet then false
      else if (wireGetU32 packet.payload 4).toNat = 0 ∨
          (wireGetU32 packet.payload 4).toNat > semMaxPerSet ∨
          packet.length ≠ opPrefixSize packet + (wireGetU32 packet.payload 4).toNat * 8 then false
      else (List.range (wireGetU32 packet.payload 4).toNat).any fun i =>
        decide ((wireGetU16 packet.payload (opPrefixSize packet + i * 8 + 4)).toUInt32 &&&
          semUndo ≠ 0) := by
    simp only [scanPayload]
    split_ifs
    · rfl
    · rfl
    · exact scanOperations_fst _ _ _
  rw [requestUsesUndoReads, requestUsesUndo]
  cases packet.opcode with
  | none => rfl
  | some opcode =>
    cases opcode with
    | semop => exact hscan
    | semtimedop => exact hscan
    | _ => rfl

lemma eight_le_opPrefixSize (packet : ProtocolPacket) : 8 ≤ opPrefixSize packet := by
  rw [opPrefixSize]
  split
  · decide
  · decide

/-- Nothing is read before the length is known to cover it. -/
lemma lt_length_of_mem_scanPayload {packet : ProtocolPacket} {n : ℕ}
    (h : n ∈ (scanPayload packet).2) : n < packet.length := by
  have hprefix := eight_le_opPrefixSize packet
  simp only [scanPayload] at h
  split_ifs at h with hshort hcount
  · cases h
  · have hbounds := mem_fieldOffsets.mp h
    omega
  · rcases List.mem_append.mp h with hfirst | hrest
    · have hbounds := mem_fieldOffsets.mp hfirst
      omega
    · obtain ⟨i, hi, hbounds⟩ := mem_scanOperations hrest
      have hlt := List.mem_range.mp hi
      omega

lemma lt_length_of_read {packet : ProtocolPacket} {n : ℕ}
    (h : n ∈ (requestUsesUndoReads packet).2) : n < packet.length := by
  unfold requestUsesUndoReads at h
  split at h
  · exact lt_length_of_mem_scanPayload h
  · exact lt_length_of_mem_scanPayload h
  · cases h

/-- Whatever the packet: if a dispatch of it creates or adjusts an undo entry, the first one or a
retry on any later store, then the scan reports that it uses undo. The scan reads no byte of the
payload beyond its length. -/
theorem undo_scan_agrees (packet : ProtocolPacket) (actor : BrokerActor) :
    (∀ st env response, TouchesUndo st (brokerDispatch st packet actor env response).2.2 →
      requestUsesUndo packet = true) ∧
    (requestUsesUndoReads packet).1 = requestUsesUndo packet ∧
    ∀ n ∈ (requestUsesUndoReads packet).2, n < packet.length :=
  ⟨fun _ _ _ h => touchesUndo_dispatch h, requestUsesUndoReads_fst packet,
    fun _ h => lt_length_of_read h⟩

end Tgcompat
