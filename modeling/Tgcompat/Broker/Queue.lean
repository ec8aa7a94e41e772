import Tgcompat.Broker.Server

/-!
# The wait queue

Requests are numbered in order of arrival, so the list of the requests in the wait loop is sorted
by number and a new waiter belongs at its end. When the pointers hold this list, the traversals
of `broker_server.c` end and compute what they should: unlinking deletes a request from the list,
and a waiter is found to be first for its set exactly when no earlier waiter has the same `semid`.
-/

namespace Tgcompat

namespace Broker

variable {b : Broker} {r c : ℕ} {packet : ProtocolPacket} {actor : BrokerActor} {frame : Frame}

/-! ### Frames -/

lemma frame?_eq_some :
    b.frame? r = some frame ↔
      ∃ packet actor, b.requests r = some ⟨packet, actor, .waiting frame⟩ := by
  rw [frame?]
  cases h : b.requests r with
  | none => simp
  | some q =>
    obtain ⟨p, a, s⟩ := q
    cases s with
    | waiting f => simp
    | finished o => simp

lemma frame?_of_request (h : b.requests r = some ⟨packet, actor, .waiting frame⟩) :
    b.frame? r = some frame :=
  frame?_eq_some.mpr ⟨packet, actor, h⟩

@[simp] lemma frame?_setStatus_waiting :
    (b.setStatus r packet actor (.waiting frame)).frame? r = some frame := by
  simp [frame?, setStatus]

@[simp] lemma frame?_setStatus_finished (outcome : Outcome) :
    (b.setStatus r packet actor (.finished outcome)).frame? r = none := by
  simp [frame?, setStatus]

lemma requests_setStatus_self (status : Status) :
    (b.setStatus r packet actor status).requests r = some ⟨packet, actor, status⟩ := by
  simp [setStatus]

lemma requests_setStatus_of_ne (status : Status) (h : c ≠ r) :
    (b.setStatus r packet actor status).requests c = b.requests c := by
  simp [setStatus, h]

lemma frame?_setStatus_of_ne (status : Status) (h : c ≠ r) :
    (b.setStatus r packet actor status).frame? c = b.frame? c := by
  simp [frame?, requests_setStatus_of_ne status h]

@[simp] lemma frame?_broadcast (r : ℕ) :
    b.broadcast.frame? r = (b.frame? r).map fun f => { f with asleep := false } := by
  simp only [frame?, broadcast]
  cases b.requests r with
  | none => rfl
  | some q =>
    obtain ⟨p, a, s⟩ := q
    cases s with
    | waiting f => rfl
    | finished o => rfl

@[simp] lemma semid?_broadcast (r : ℕ) : b.broadcast.semid? r = b.semid? r := by
  simp only [semid?, frame?_broadcast, Option.map_map]
  rfl

lemma semid?_of_frame (h : b.frame? r = some frame) : b.semid? r = some frame.waiter.semid := by
  simp [semid?, h]

/-! ### The waiting requests -/

lemma mem_waiting : r ∈ b.waiting ↔ r < b.arrivals ∧ (b.frame? r).isSome = true := by
  simp [waiting]

lemma sorted_waiting (b : Broker) : b.waiting.Pairwise (· < ·) :=
  List.Pairwise.filter _ List.pairwise_lt_range

lemma nodup_waiting (b : Broker) : b.waiting.Nodup :=
  (sorted_waiting b).imp fun h => Nat.ne_of_lt h

lemma length_waiting_le (b : Broker) : b.waiting.length ≤ b.arrivals := by
  calc b.waiting.length ≤ (List.range b.arrivals).length := List.length_filter_le _ _
    _ = b.arrivals := List.length_range

lemma waiting_congr {b' : Broker} (harrivals : b'.arrivals = b.arrivals)
    (hframes : ∀ r, (b'.frame? r).isSome = (b.frame? r).isSome) : b'.waiting = b.waiting := by
  simp only [waiting, harrivals, hframes]

@[simp] lemma waiting_broadcast (b : Broker) : b.broadcast.waiting = b.waiting :=
  waiting_congr rfl fun r => by simp

lemma waiting_setStatus_waiting (hr : (b.frame? r).isSome = true) :
    (b.setStatus r packet actor (.waiting frame)).waiting = b.waiting := by
  refine waiting_congr rfl fun c => ?_
  by_cases hc : c = r
  · subst hc
    simp [hr]
  · rw [frame?_setStatus_of_ne _ hc]

/-- A request that returns from the wait loop is deleted from the list. -/
lemma waiting_setStatus_finished (outcome : Outcome) :
    (b.setStatus r packet actor (.finished outcome)).waiting = b.waiting.erase r := by
  rw [(nodup_waiting b).erase_eq_filter]
  simp only [waiting, List.filter_filter]
  refine List.filter_congr fun c _ => ?_
  by_cases hc : c = r
  · subst hc
    simp
  · rw [frame?_setStatus_of_ne _ hc]
    simp [hc]

/-- A request that was not waiting and returns leaves the list alone. -/
lemma waiting_setStatus_finished_of_none (hr : b.frame? r = none) (outcome : Outcome) :
    (b.setStatus r packet actor (.finished outcome)).waiting = b.waiting := by
  rw [waiting_setStatus_finished, List.erase_of_not_mem]
  rw [mem_waiting, hr]
  simp

/-- The latest request joins at the end. -/
lemma waiting_setStatus_last (hlast : b.arrivals = r + 1) (hr : b.frame? r = none) :
    (b.setStatus r packet actor (.waiting frame)).waiting = b.waiting ++ [r] := by
  have hrange : ∀ p : ℕ → Bool, (List.range (r + 1)).filter p =
      (List.range r).filter p ++ if p r then [r] else [] := by
    intro p
    rw [List.range_succ, List.filter_append, List.filter_cons, List.filter_nil]
  have harrivals : (b.setStatus r packet actor (.waiting frame)).arrivals = r + 1 := hlast
  rw [waiting, waiting, hlast, harrivals, hrange, hrange, hr]
  simp only [frame?_setStatus_waiting, Option.isSome_some, if_true, Option.isSome_none,
    Bool.false_eq_true, if_false, List.append_nil]
  congr 1
  refine List.filter_congr fun c hc => ?_
  rw [frame?_setStatus_of_ne _ (Nat.ne_of_lt (List.mem_range.mp hc))]

/-! ### First for its set -/

/-- No waiter that arrived earlier has the same `semid`. -/
def IsFirst (b : Broker) (r : ℕ) : Prop :=
  ∀ c < r, b.semid? c ≠ b.semid? r

instance (b : Broker) (r : ℕ) : Decidable (b.IsFirst r) :=
  inferInstanceAs (Decidable (∀ c < r, b.semid? c ≠ b.semid? r))

@[simp] lemma isFirst_broadcast (r : ℕ) : b.broadcast.IsFirst r ↔ b.IsFirst r := by
  simp [IsFirst]

/-- The traversal answers whether the waiter is first for its set. -/
theorem waiterIsFirstForSet_spec (hqueue : b.queue.Holds b.waiting) (hr : r < b.arrivals)
    (hframe : b.frame? r = some frame) :
    ∃ first, b.waiterIsFirstForSet r frame.waiter.semid = some first ∧
      (first = true ↔ b.IsFirst r) := by
  have hsemid := semid?_of_frame hframe
  have hmem : r ∈ b.waiting := mem_waiting.mpr ⟨hr, by simp [hframe]⟩
  obtain ⟨pre, post, hsplit⟩ := List.append_of_mem hmem
  have hsorted := sorted_waiting b
  rw [hsplit, List.pairwise_append] at hsorted
  have hbefore : ∀ c ∈ pre, c < r := fun c hc => hsorted.2.2 c hc r (by simp)
  -- the waiters before `r` are those in front of it in the list
  have hpre : ∀ c, c < r → (b.frame? c).isSome = true → c ∈ pre := by
    intro c hc hsome
    have hin : c ∈ b.waiting := mem_waiting.mpr ⟨hc.trans hr, hsome⟩
    rw [hsplit, List.mem_append, List.mem_cons] at hin
    rcases hin with hin | rfl | hin
    · exact hin
    · exact absurd hc (lt_irrefl c)
    · exact absurd (List.rel_of_pairwise_cons hsorted.2.1 hin) (Nat.lt_asymm hc)
  have hwalk := LinkedQueue.walk_eq
    (fun current => if current = r then some true
      else if b.semid? current = some frame.waiter.semid then some false else none)
    hqueue.chain (length_waiting_le b)
  refine ⟨_, by rw [waiterIsFirstForSet, hwalk]; rfl, ?_⟩
  rw [hsplit, List.findSome?_append, List.findSome?_cons]
  simp only [if_true]
  cases hfind : pre.findSome? fun current => if current = r then some true
      else if b.semid? current = some frame.waiter.semid then some false else none with
  | none =>
    rw [List.findSome?_eq_none_iff] at hfind
    simp only [Option.none_or, Option.getD_some, true_iff]
    intro c hc heq
    rw [hsemid] at heq
    have hin : c ∈ pre := hpre c hc (by
      cases hf : b.frame? c with
      | none => simp [semid?, hf] at heq
      | some f => rfl)
    have := hfind c hin
    rw [if_neg (Nat.ne_of_lt hc), if_pos heq] at this
    cases this
  | some answer =>
    obtain ⟨c, hc, hanswer⟩ := List.exists_of_findSome?_eq_some hfind
    rw [if_neg (Nat.ne_of_lt (hbefore c hc))] at hanswer
    split_ifs at hanswer with heq
    cases hanswer
    simp only [Option.some_or, Option.getD_some, Bool.false_eq_true, false_iff]
    intro hfirst
    exact hfirst c (hbefore c hc) (heq.trans hsemid.symm)

/-! ### Leaving the loop -/

/-- The store after `finish_waiter`. -/
def uncount (st : SemStore) (waiter : Waiter) : SemStore :=
  if waiter.counted then
    (st.adjustWaitCount waiter.semid waiter.semnum.toNat (waiter.waitForZero ≠ 0) (-1)).2
  else st

/-- The broker after an exit of the wait loop. -/
def left (b : Broker) (queue : LinkedQueue ℕ) (store : SemStore) (applied : ℕ → ℕ) (r : ℕ)
    (packet : ProtocolPacket) (actor : BrokerActor) (waiter : Waiter) (outcome : Outcome) :
    Broker :=
  (Broker.setStatus { b with queue := queue, store := uncount store waiter, applied := applied } r
    packet actor (.finished outcome)).broadcast

/-- An exit of the wait loop always succeeds. -/
theorem leave_spec (hqueue : b.queue.Holds b.waiting) (hr : r ∈ b.waiting)
    (packet : ProtocolPacket) (actor : BrokerActor) (waiter : Waiter) (outcome : Outcome) :
    ∃ queue, queue.Holds (b.waiting.erase r) ∧
      b.leave r packet actor waiter outcome =
        some (b.left queue b.store b.applied r packet actor waiter outcome) := by
  obtain ⟨queue, hremove, hholds⟩ := hqueue.remove hr (length_waiting_le b)
  refine ⟨queue, hholds, ?_⟩
  simp [leave, finishWaiter, hremove, left, uncount]

end Broker

end Tgcompat
