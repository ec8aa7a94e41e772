import Tgcompat.Broker.Completion

/-!
# The broker takes effect one request at a time

Requests arrive, wait, retry and leave in any order. The log of a run lists what took effect: the
dispatches that answered a request, the changes of the wait counts, and the exits of processes. A
broker that serves one request at a time and follows the log leaves the same store and gives every
request the same answer. An entry is written by the event in which its request leaves, between
the arrival and the return of `dispatch_request`, so the log respects the order of requests that do
not overlap.
-/

namespace Tgcompat

/-! ### Logs -/

/-- A step of a broker that serves one request at a time. -/
inductive LogEntry where
  /-- `tgc_broker_dispatch` answers request `r`; `response` is what its variable holds -/
  | answer (r : ℕ) (packet : ProtocolPacket) (actor : BrokerActor) (env : DispatchEnv)
      (response : ProtocolPacket)
  /-- a waiter joins or leaves a counter -/
  | count (semid : Int32) (semnum : ℕ) (waitForZero : Bool) (adjustment : Int32)
  /-- the undo entries of a process are applied -/
  | exit (pid : Int32) (now : Fin semMaxUndoEntries → Int64)

namespace LogEntry

def apply (st : SemStore) : LogEntry → SemStore
  | answer _ packet actor env response => (brokerDispatch st packet actor env response).2.2
  | count semid semnum waitForZero adjustment =>
    (st.adjustWaitCount semid semnum waitForZero adjustment).2
  | exit pid now => (st.processExit pid now).2

/-- The request that an entry answers. -/
def number : LogEntry → Option ℕ
  | answer r _ _ _ _ => some r
  | _ => none

end LogEntry

/-- The requests that a log answers. -/
def numbers (log : List LogEntry) : List ℕ := log.filterMap LogEntry.number

@[simp] lemma numbers_append (log more : List LogEntry) :
    numbers (log ++ more) = numbers log ++ numbers more :=
  List.filterMap_append

@[simp] lemma numbers_cons_answer (r : ℕ) (packet : ProtocolPacket) (actor : BrokerActor)
    (env : DispatchEnv) (response : ProtocolPacket) (log : List LogEntry) :
    numbers (.answer r packet actor env response :: log) = r :: numbers log := rfl

/-- The exits that return what `tgc_broker_dispatch` has returned. -/
def Exit.isDispatched : Exit → Bool
  | rejected | immediate | retried => true
  | _ => false

/-- On the store `st`, the entry gives its request the answer that the request has left `b` with. -/
def LogEntry.Answers (b : Broker) (st : SemStore) : LogEntry → Prop
  | answer r packet actor env scratch => ∃ response exit,
    b.requests r = some ⟨packet, actor, .finished ⟨0, response, exit⟩⟩ ∧
    exit.isDispatched = true ∧
    (brokerDispatch st packet actor env scratch).1 = 0 ∧
    (brokerDispatch st packet actor env scratch).2.1 = response
  | _ => True

/-- There is nothing to check of an entry that answers no request. -/
lemma LogEntry.answers_of_numbers {b : Broker} {st : SemStore} {log : List LogEntry}
    {entry : LogEntry} (hlog : numbers log = []) (hentry : entry ∈ log) : entry.Answers b st := by
  cases entry with
  | answer r packet actor env response =>
    have hr : r ∈ numbers log := List.mem_filterMap.mpr ⟨_, hentry, rfl⟩
    rw [hlog] at hr
    cases hr
  | count semid semnum waitForZero adjustment => trivial
  | exit pid now => trivial

namespace Broker

variable {b b₁ b' : Broker} {r : ℕ} {packet : ProtocolPacket} {actor : BrokerActor}
  {log more : List LogEntry}

/-- The log explains the part of a run from `b` to `b'` in which request `r` was run. -/
structure Recorded (b : Broker) (r : Option ℕ) (log : List LogEntry) (b' : Broker) : Prop where
  store : b'.store = log.foldl LogEntry.apply b.store
  answers : ∀ entry ∈ Transition.history LogEntry.apply b.store log, entry.2.Answers b' entry.1
  numbers : numbers log = [] ∨ ∃ c, r = some c ∧ numbers log = [c]
  complete : ∀ c packet actor outcome, r = some c →
    b'.requests c = some ⟨packet, actor, .finished outcome⟩ → outcome.ret = 0 →
    outcome.exit.isDispatched = true → c ∈ Tgcompat.numbers log

/-- The log explains the store and all the answers of a broker. -/
structure Linearizes (log : List LogEntry) (b : Broker) : Prop where
  store : b.store = log.foldl LogEntry.apply SemStore.create
  answers : ∀ entry ∈ Transition.history LogEntry.apply SemStore.create log,
    entry.2.Answers b entry.1
  once : (numbers log).Nodup
  complete : ∀ r packet actor outcome,
    b.requests r = some ⟨packet, actor, .finished outcome⟩ → outcome.ret = 0 →
    outcome.exit.isDispatched = true → r ∈ numbers log

lemma linearizes_create : Linearizes [] create where
  store := rfl
  answers := by
    intro entry hentry
    cases hentry
  once := List.nodup_nil
  complete := by
    intro r packet actor outcome hr
    cases hr

/-- Nothing was answered. -/
lemma Recorded.quiet {c : Option ℕ} (hstore : b'.store = log.foldl LogEntry.apply b.store)
    (hlog : Tgcompat.numbers log = [])
    (hnone : ∀ r packet actor outcome, c = some r →
      b'.requests r = some ⟨packet, actor, .finished outcome⟩ → outcome.ret = 0 →
      outcome.exit.isDispatched = false) : Recorded b c log b' where
  store := hstore
  answers := fun _ hentry => LogEntry.answers_of_numbers hlog (Transition.mem_of_mem_history hentry)
  numbers := Or.inl hlog
  complete := by
    intro r packet actor outcome hc hr hret hexit
    rw [hnone r packet actor outcome hc hr hret] at hexit
    cases hexit

/-- A dispatch answered the request, and the entries around it answer nothing. -/
lemma Recorded.answered (before after : List LogEntry) {env : DispatchEnv}
    {scratch response : ProtocolPacket} {store : SemStore} {exit : Exit}
    (hdispatch : brokerDispatch (before.foldl LogEntry.apply b.store) packet actor env scratch =
      (0, response, store))
    (hstore : b'.store = after.foldl LogEntry.apply store)
    (hbefore : Tgcompat.numbers before = []) (hafter : Tgcompat.numbers after = [])
    (hr : b'.requests r = some ⟨packet, actor, .finished ⟨0, response, exit⟩⟩)
    (hexit : exit.isDispatched = true) :
    Recorded b (some r) (before ++ .answer r packet actor env scratch :: after) b' where
  store := by
    simp [hstore, LogEntry.apply, hdispatch]
  answers := by
    intro entry hentry
    rw [Transition.history_append] at hentry
    rcases List.mem_append.mp hentry with hentry | hentry
    · exact LogEntry.answers_of_numbers hbefore (Transition.mem_of_mem_history hentry)
    · rcases List.mem_cons.mp hentry with rfl | hentry
      · exact ⟨response, exit, hr, hexit, by rw [hdispatch], by rw [hdispatch]⟩
      · exact LogEntry.answers_of_numbers hafter (Transition.mem_of_mem_history hentry)
  numbers := Or.inr ⟨r, rfl, by simp [hbefore, hafter]⟩
  complete := by
    rintro c packet' actor' outcome hc - - -
    cases hc
    simp

/-- A log that answers nothing comes before. -/
lemma Recorded.after {c : Option ℕ} (h : Recorded b₁ c more b')
    (hstore : b₁.store = log.foldl LogEntry.apply b.store) (hlog : Tgcompat.numbers log = []) :
    Recorded b c (log ++ more) b' where
  store := by
    rw [h.store, hstore, List.foldl_append]
  answers := by
    intro entry hentry
    rw [Transition.history_append] at hentry
    rcases List.mem_append.mp hentry with hentry | hentry
    · exact LogEntry.answers_of_numbers hlog (Transition.mem_of_mem_history hentry)
    · exact h.answers entry (by rwa [hstore])
  numbers := by
    rw [numbers_append, hlog, List.nil_append]
    exact h.numbers
  complete := by
    intro r packet actor outcome hc hr hret hexit
    rw [numbers_append, hlog, List.nil_append]
    exact h.complete r packet actor outcome hc hr hret hexit

/-! ### The wait loop -/

/-- The entries for `finish_waiter`. -/
def uncountLog (waiter : Waiter) : List LogEntry :=
  if waiter.counted then
    [.count waiter.semid waiter.semnum.toNat (waiter.waitForZero ≠ 0) (-1)]
  else []

lemma numbers_uncountLog (waiter : Waiter) : Tgcompat.numbers (uncountLog waiter) = [] := by
  rw [uncountLog]
  split_ifs
  · rfl
  · rfl

lemma foldl_uncountLog (st : SemStore) (waiter : Waiter) :
    (uncountLog waiter).foldl LogEntry.apply st = uncount st waiter := by
  rw [uncountLog, uncount]
  split_ifs
  · rfl
  · rfl

lemma requests_left (queue : LinkedQueue ℕ) (store : SemStore) (applied : ℕ → ℕ)
    (waiter : Waiter) (outcome : Outcome) :
    (b.left queue store applied r packet actor waiter outcome).requests r =
      some ⟨packet, actor, .finished outcome⟩ := by
  simp [left, broadcast, setStatus, Request.wakeUp]

lemma Turn.recorded {frame : Frame} {view : IterationView}
    (h : b.Turn r packet actor frame view b') : ∃ log, Recorded b (some r) log b' := by
  cases h with
  | @left queue store applied outcome hqueue hleave =>
    have hr : (b.left queue store applied r packet actor frame.waiter outcome).requests r =
        some ⟨packet, actor, .finished outcome⟩ := requests_left _ _ _ _ _
    have hquit : ∀ {waiter : Waiter} {outcome : Outcome} {b' : Broker},
        b'.store = uncount b.store waiter →
        b'.requests r = some ⟨packet, actor, .finished outcome⟩ →
        (outcome.ret = 0 → outcome.exit.isDispatched = false) →
        Recorded b (some r) (uncountLog waiter) b' := by
      intro waiter outcome b' hstore hr hexit
      refine .quiet (by rw [hstore, foldl_uncountLog]) (numbers_uncountLog _) ?_
      intro c packet' actor' outcome' hc hr'
      cases hc
      cases hr.symm.trans hr'
      exact hexit
    cases hleave with
    | closed hclosed => exact ⟨_, hquit rfl hr fun _ => rfl⟩
    | retried operations hopen hfirst hlive hblocks hdispatch hanswer =>
      exact ⟨_, .answered [] (uncountLog _) hdispatch (foldl_uncountLog _ _).symm rfl
        (numbers_uncountLog _) hr rfl⟩
    | waitFailed error hresponse => exact ⟨_, hquit rfl hr fun _ => rfl⟩
    | timedOut => exact ⟨_, hquit rfl hr fun _ => rfl⟩
  | slept hresponse hhead =>
    refine ⟨[], .quiet rfl rfl ?_⟩
    intro c packet' actor' outcome hc hr
    cases hc
    rw [requests_setStatus_self] at hr
    cases hr

/-! ### Every event -/

lemma requests_answered (store : SemStore) (ret : Int32) (response : ProtocolPacket)
    (exit : Exit) :
    (b.answered store r packet actor ret response exit).requests r =
      some ⟨packet, actor, .finished ⟨ret, response, exit⟩⟩ := by
  rw [answered]
  exact requests_setStatus_self _

/-- A request that was not answered by a dispatch leaves the store alone. -/
lemma recorded_setStatus (hstore : b₁.store = b.store) {outcome : Outcome}
    (hexit : outcome.ret = 0 → outcome.exit.isDispatched = false) :
    Recorded b (some r) [] (b₁.setStatus r packet actor (.finished outcome)) := by
  refine .quiet hstore rfl ?_
  intro c packet' actor' outcome' hc hr
  cases hc
  rw [requests_setStatus_self] at hr
  cases hr
  exact hexit

lemma Arrived.recorded (hinv : b.Inv) {view : ArrivalView} (h : b.Arrived packet actor view b') :
    ∃ log, Recorded b (some b.arrivals) log b' := by
  have hnumbered : b.numbered.store = b.store := rfl
  cases h with
  | unlocked error => exact ⟨[], recorded_setStatus hnumbered fun _ => rfl⟩
  | unwatched hundo hresult heq => exact ⟨[], recorded_setStatus hnumbered fun _ => rfl⟩
  | @answered b₁ ret response store exit hprepared hdispatch hquit hexit =>
    rw [(hinv.prepared hprepared).store] at hdispatch
    have hstore := b₁.store_answered store b.arrivals packet actor ret response exit
    by_cases hret : ret = 0
    · subst hret
      refine ⟨_, .answered [] [] hdispatch hstore rfl rfl
        (requests_answered _ _ _ _) ?_⟩
      rcases hexit with rfl | rfl
      · rfl
      · rfl
    · have hsame : store = b.store := by
        rcases brokerDispatch_cases b.store packet actor view.env view.response with
          ⟨e, -, heq⟩ | heq
        · cases hdispatch.symm.trans heq
          rfl
        · cases hdispatch.symm.trans heq
          exact absurd rfl hret
      refine ⟨[], .quiet (hstore.trans hsame) rfl ?_⟩
      intro c packet' actor' outcome hc hr hzero
      cases hc
      rw [requests_answered] at hr
      cases hr
      exact absurd hzero hret
  | unqueued hprepared hret hexit =>
    exact ⟨[], recorded_setStatus (hinv.prepared hprepared).store fun hzero => absurd hzero hret⟩
  | @queued b₁ b' store frame operations hprepared hlive hblocks hcount henters hturn =>
    obtain ⟨log, hlog⟩ := hturn.recorded
    refine ⟨[.count frame.waiter.semid frame.waiter.semnum.toNat (frame.waiter.waitForZero ≠ 0) 1]
      ++ log, hlog.after ?_ rfl⟩
    rw [(hinv.prepared hprepared).store] at hcount
    exact congrArg Prod.snd hcount

lemma Steps.recorded (hinv : b.Inv) {event : Event} (h : b.Steps event b') :
    ∃ log, Recorded b (event.runs b) log b' := by
  cases h with
  | arrived harrived => exact harrived.recorded hinv
  | woken hr hturn => exact hturn.recorded
  | scanned hscan =>
    -- the scan writes one entry for each watcher that it retires
    have hall : ∃ log, b'.store = log.foldl LogEntry.apply b.store ∧ numbers log = [] := by
      refine scan_invariant (I := fun b' => ∃ log : List LogEntry,
        b'.store = log.foldl LogEntry.apply b.store ∧ numbers log = []) ?_ ⟨[], rfl, rfl⟩ hscan
      rintro c i c' ⟨log, hstore, hlog⟩ hs
      have hretired : ∀ now, (c.store.processExit (c.watchers i).pid now).2 =
          (log ++ [LogEntry.exit (c.watchers i).pid now]).foldl LogEntry.apply b.store := by
        intro now
        rw [List.foldl_append, ← hstore]
        rfl
      have hquiet : ∀ now, numbers (log ++ [.exit (c.watchers i).pid now]) = [] := by
        intro now
        rw [numbers_append, hlog]
        rfl
      cases hs with
      | skipped => exact ⟨log, hstore, hlog⟩
      | announced now hactive => exact ⟨_, hretired now, hquiet now⟩
      | silent now hactive hsets => exact ⟨_, hretired now, hquiet now⟩
    obtain ⟨log, hstore, hlog⟩ := hall
    refine ⟨log, .quiet hstore hlog ?_⟩
    intro r packet actor outcome hr
    cases hr
  | moved processes hruns =>
    refine ⟨[], .quiet rfl rfl ?_⟩
    intro r packet actor outcome hr
    rw [hruns] at hr
    cases hr

/-! ### Whole runs -/

/-- The requests that a log answers have finished. -/
lemma Linearizes.finished (h : Linearizes log b) (hr : r ∈ numbers log) :
    ∃ packet actor outcome, b.requests r = some ⟨packet, actor, .finished outcome⟩ ∧
      outcome.ret = 0 ∧ outcome.exit.isDispatched = true := by
  obtain ⟨entry, hentry, hnumber⟩ := List.mem_filterMap.mp hr
  obtain ⟨st, hst⟩ := Transition.exists_mem_history SemStore.create hentry
  have hanswers := h.answers _ hst
  cases entry with
  | answer c packet actor env scratch =>
    cases hnumber
    obtain ⟨response, exit, hfinished, hexit, -⟩ := hanswers
    exact ⟨packet, actor, _, hfinished, rfl, hexit⟩
  | count semid semnum waitForZero adjustment => cases hnumber
  | exit pid now => cases hnumber

/-- An answer that was given stays. -/
lemma answers_extend {entry : LogEntry} {st : SemStore} (h : entry.Answers b st)
    (hb : ∀ r packet actor outcome, b.requests r = some ⟨packet, actor, .finished outcome⟩ →
      b'.requests r = some ⟨packet, actor, .finished outcome⟩) : entry.Answers b' st := by
  cases entry with
  | answer r packet actor env scratch =>
    obtain ⟨response, exit, hr, hrest⟩ := h
    exact ⟨response, exit, hb _ _ _ _ hr, hrest⟩
  | count semid semnum waitForZero adjustment => trivial
  | exit pid now => trivial

/-- A request that an event does not run has finished before. -/
lemma Steps.finished_of_ne (hinv : b.Inv) {event : Event} (h : b.Steps event b')
    (hne : some r ≠ event.runs b) {outcome : Outcome}
    (hr : b'.requests r = some ⟨packet, actor, .finished outcome⟩) :
    b.requests r = some ⟨packet, actor, .finished outcome⟩ := by
  cases h.bystanders hinv with
  | woken hwoken =>
    rw [hwoken r hne] at hr
    obtain ⟨⟨packet', actor', status⟩, hold, hwake⟩ := Option.map_eq_some_iff.mp hr
    cases status with
    | waiting frame => cases hwake
    | finished outcome' =>
      cases hwake
      exact hold
  | left hsame hvalues hstay => rwa [hsame r hne] at hr

/-- Each event extends the log. -/
lemma Linearizes.step (h : Linearizes log b) (hinv : b.Inv) {event : Event}
    (hsteps : b.Steps event b') : ∃ more, Linearizes (log ++ more) b' := by
  obtain ⟨more, hmore⟩ := hsteps.recorded hinv
  refine ⟨more, ?_, ?_, ?_, ?_⟩
  · rw [hmore.store, h.store, List.foldl_append]
  · intro entry hentry
    rw [Transition.history_append] at hentry
    rcases List.mem_append.mp hentry with hentry | hentry
    · exact answers_extend (h.answers entry hentry) fun _ _ _ _ hr => (hsteps.finished hinv hr).1
    · exact hmore.answers entry (by rwa [h.store])
  · rw [numbers_append]
    rcases hmore.numbers with hnone | ⟨c, hruns, hc⟩
    · rw [hnone, List.append_nil]
      exact h.once
    · -- a request that the log answers has finished, so no event runs it
      rw [hc]
      refine List.nodup_append.mpr ⟨h.once, List.nodup_singleton c, ?_⟩
      rintro r hr r' hr' rfl
      obtain ⟨packet, actor, outcome, hfinished, -⟩ := h.finished hr
      rw [List.mem_singleton.mp hr'] at hfinished
      exact hsteps.not_finished hinv hfinished hruns.symm
  · intro r packet actor outcome hr hret hexit
    rw [numbers_append]
    by_cases hruns : event.runs b = some r
    · exact List.mem_append_right _ (hmore.complete r packet actor outcome hruns hr hret hexit)
    · have hold := hsteps.finished_of_ne hinv (fun heq => hruns heq.symm) hr
      exact List.mem_append_left _ (h.complete r packet actor outcome hold hret hexit)

/-- A continued run continues the log. -/
lemma Linearizes.exec (h : Linearizes log b) (hinv : b.Inv) {events : List Event}
    (hexec : Transition.exec Broker.step b events = some b') :
    b'.Inv ∧ ∃ more, Linearizes (log ++ more) b' := by
  refine Transition.exec_invariant (I := fun b' => b'.Inv ∧ ∃ more, Linearizes (log ++ more) b')
    ?_ ⟨hinv, [], by rwa [List.append_nil]⟩ hexec
  rintro c event c' ⟨hc, more, hmore⟩ hstep
  obtain ⟨hsteps, hc'⟩ := hc.steps hstep
  obtain ⟨more', hmore'⟩ := hmore.step hc hsteps
  exact ⟨hc', more ++ more', by rwa [← List.append_assoc]⟩

/-- For every run of the broker there is a log, of one step after another, that leaves the same
store and gives the same answer to each request it lists. It lists every request that a dispatch has
answered, and it lists it once; a request that timed out, could not be watched or was abandoned by
its peer is not in it. When the run goes on, the log is continued, so a request that arrives after
another one has returned is listed behind it. No answer in the log tells a `semop` to wait. -/
theorem broker_linearizable {events continued : List Event}
    (h : Transition.exec step create events = some b)
    (h' : Transition.exec step b continued = some b') :
    ∃ log more, Linearizes log b ∧ Linearizes (log ++ more) b' ∧
      (∀ r, b.requests r = none → r ∉ numbers log) ∧
      ∀ r ∈ numbers (log ++ more), ∃ packet actor outcome,
        b'.requests r = some ⟨packet, actor, .finished outcome⟩ ∧
        (packet.opcode.any Opcode.isSemop = true →
          outcome.response.header.result ≠ semOpBlocked) := by
  obtain ⟨hinv, log, hlog⟩ := linearizes_create.exec inv_create h
  obtain ⟨hinv', more, hmore⟩ := hlog.exec hinv h'
  refine ⟨log, more, hlog, hmore, ?_, ?_⟩
  · intro r hnone hr
    obtain ⟨packet, actor, outcome, hfinished, -⟩ := hlog.finished hr
    rw [hnone] at hfinished
    cases hfinished
  · intro r hr
    obtain ⟨packet, actor, outcome, hfinished, hret, hexit⟩ := hmore.finished hr
    refine ⟨packet, actor, outcome, hfinished, fun hsemop hblocked => ?_⟩
    rw [(hinv'.core.outcomes _ _ _ _ hfinished).blocked hsemop hret hblocked] at hexit
    cases hexit

/-- A dispatch has answered the request. -/
def isAnswered (b : Broker) (r : ℕ) : Bool :=
  match b.requests r with
  | some ⟨_, _, .finished outcome⟩ => decide (outcome.ret = 0) && outcome.exit.isDispatched
  | _ => false

lemma Linearizes.isAnswered_iff (h : Linearizes log b) :
    r ∈ numbers log ↔ b.isAnswered r = true := by
  constructor
  · intro hr
    obtain ⟨packet, actor, outcome, hfinished, hret, hexit⟩ := h.finished hr
    simp [isAnswered, hfinished, hret, hexit]
  · intro hr
    rw [isAnswered] at hr
    split at hr
    · next packet actor outcome hfinished =>
      simp only [Bool.and_eq_true, decide_eq_true_eq] at hr
      exact h.complete r packet actor outcome hfinished hr.1 hr.2
    · cases hr

/-- The waiter of the hand-over arrives before the request that lets it go, and is listed behind
it. -/
theorem broker_linearizable_handOver :
    ∃ b b' log more, Transition.exec step create (handOver.take 3) = some b ∧
      Transition.exec step b (handOver.drop 3) = some b' ∧
      Linearizes log b ∧ Linearizes (log ++ more) b' ∧ 2 ∈ numbers log ∧ 1 ∈ numbers more := by
  have hrun : (Transition.exec step create (handOver.take 3)).any (fun b =>
      b.isAnswered 2 && !b.isAnswered 1 &&
        (Transition.exec step b (handOver.drop 3)).any (isAnswered · 1)) = true := by
    decide +kernel
  obtain ⟨b, hb, hall⟩ := (Option.any_eq_true _ _).mp hrun
  simp only [Bool.and_eq_true, Bool.not_eq_true'] at hall
  obtain ⟨⟨htwo, hone⟩, hcontinued⟩ := hall
  obtain ⟨b', hb', hone'⟩ := (Option.any_eq_true _ _).mp hcontinued
  obtain ⟨log, more, hlog, hmore, -⟩ := broker_linearizable hb hb'
  refine ⟨b, b', log, more, hb, hb', hlog, hmore, hlog.isAnswered_iff.mpr htwo, ?_⟩
  have hmem := hmore.isAnswered_iff.mpr hone'
  rw [numbers_append, List.mem_append, hlog.isAnswered_iff, hone] at hmem
  exact hmem.resolve_left (by decide)

end Broker

end Tgcompat
