import Tgcompat.Broker.Service

/-!
# One response for one request, in order

The invariant of the service ties each worker to the broker: the stream of a connection starts with
the frames of the requests that were answered, the bytes sent on it are the frames of their
responses, and each number a worker has drawn names a request of the broker with the worker's
packet and actor. So whatever the interleaving, a peer reads one response for each of its requests,
in the order of the requests, and nobody else's.
-/

namespace Tgcompat

namespace Broker

variable {b b' : Broker} {packet : ProtocolPacket} {actor : BrokerActor}

/-! ### What an event of the broker keeps -/

/-- Requests keep their packet and actor, and what they have left with. -/
structure Extends (b b' : Broker) : Prop where
  kept : ∀ r packet actor status, b.requests r = some ⟨packet, actor, status⟩ →
    ∃ status', b'.requests r = some ⟨packet, actor, status'⟩
  finished : ∀ r packet actor outcome, b.requests r = some ⟨packet, actor, .finished outcome⟩ →
    b'.requests r = some ⟨packet, actor, .finished outcome⟩

lemma Extends.refl (b : Broker) : b.Extends b :=
  ⟨fun _ _ _ status hr => ⟨status, hr⟩, fun _ _ _ _ hr => hr⟩

lemma Steps.extends (hinv : b.Inv) {event : Event} (h : b.Steps event b') : b.Extends b' where
  kept _ _ _ _ hr := Session.request_kept hinv h hr
  finished _ _ _ _ hr := (h.finished hinv hr).1

lemma Turn.arrivals {r : ℕ} {frame : Frame} {view : IterationView}
    (h : b.Turn r packet actor frame view b') : b'.arrivals = b.arrivals := by
  cases h with
  | left hqueue hleave => rfl
  | slept hresponse hhead => rfl

lemma arrivals_answered (b : Broker) (store : SemStore) (r : ℕ) (packet : ProtocolPacket)
    (actor : BrokerActor) (ret : Int32) (response : ProtocolPacket) (exit : Exit) :
    (b.answered store r packet actor ret response exit).arrivals = b.arrivals := by
  rw [answered]
  split_ifs
  · rfl
  · rfl

/-- An arrival draws one number. -/
lemma Arrived.arrivals (hinv : b.Inv) {view : ArrivalView} (h : b.Arrived packet actor view b') :
    b'.arrivals = b.arrivals + 1 := by
  cases h with
  | unlocked error => rfl
  | unwatched hundo hresult heq => rfl
  | answered hprepared hdispatch hquit hexit =>
    rw [arrivals_answered, (hinv.prepared hprepared).arrivals]
  | unqueued hprepared hret hexit => exact (hinv.prepared hprepared).arrivals
  | queued operations hprepared hlive hblocks hcount henters hturn =>
    rw [hturn.arrivals]
    exact (hinv.prepared hprepared).arrivals

/-- Only an arrival draws a number. -/
lemma Steps.arrivals_eq {event : Event} (h : b.Steps event b')
    (hevent : Service.isArrival event = false) : b'.arrivals = b.arrivals := by
  cases h with
  | arrived harrived => cases hevent
  | woken hr hturn => exact hturn.arrivals
  | scanned hscan =>
    refine scan_invariant (I := fun b' => b'.arrivals = b.arrivals) ?_ rfl hscan
    intro c i c' hc hs
    cases hs with
    | skipped => exact hc
    | announced now hactive => exact hc
    | silent now hactive hsets => exact hc
  | moved processes hruns => rfl

end Broker

/-! ### Sends that fail -/

/-- A send hands over the bytes from the front, however it ends. -/
lemma sendExact_front {input : Buffer} {length offset : ℕ} {bytes : List UInt8} {cuts : List Cut}
    {r : SendReceipt} (h : sendExact input length offset bytes cuts = some r)
    (hle : offset ≤ length) :
    ∃ n ≤ length - offset, r.bytes = bytes ++ readBytes input offset n := by
  have hstopped : ∀ offset (bytes : List UInt8), ∃ n ≤ length - offset,
      bytes = bytes ++ readBytes input offset n :=
    fun _ _ => ⟨0, Nat.zero_le _, by simp [readBytes]⟩
  induction cuts generalizing offset bytes with
  | nil =>
    rw [sendExact] at h
    split_ifs at h
    cases h
    exact hstopped offset bytes
  | cons cut cuts ih =>
    rw [sendExact] at h
    split_ifs at h with hlt
    · cases cut with
      | moved extra =>
        obtain ⟨sent, hsent⟩ : ∃ sent, min (extra + 1) (length - offset) = sent + 1 :=
          ⟨min (extra + 1) (length - offset) - 1, by omega⟩
        simp only [send, hsent] at h
        obtain ⟨n, hn, hbytes⟩ := ih h (by omega)
        refine ⟨sent + 1 + n, by omega, ?_⟩
        rw [hbytes, List.append_assoc, ← readBytes_add]
      | interrupted => exact ih h hle
      | nothing =>
        cases h
        exact hstopped offset bytes
      | failed errno positive =>
        simp only [send] at h
        split_ifs at h
        · cases h
          exact hstopped offset bytes
        · exact ih h hle
    · cases h
      exact hstopped offset bytes

/-- The bytes of a send are the front of the frame. -/
lemma transportSend_front {stack : Buffer} {p : ProtocolPacket} {cuts : List Cut}
    {r : SendReceipt} (h : transportSend stack p cuts = some r) : r.bytes <+: p.frame := by
  rw [transportSend] at h
  simp only at h
  split_ifs at h with hresult
  · cases h
    exact List.nil_prefix
  · rw [not_not, encodeHeader_fst] at hresult
    obtain ⟨n, hn, hbytes⟩ := sendExact_front h (Nat.zero_le _)
    rw [Nat.sub_zero] at hn
    obtain ⟨rest, hrest⟩ := Nat.exists_eq_add_of_le hn
    have hframe := readBytes_wire stack hresult
    rw [ProtocolPacket.length, hrest, readBytes_add] at hframe
    rw [hbytes, List.nil_append, ← hframe]
    exact List.prefix_append _ _

/-! ### What holds of a worker -/

/-- An exchange whose request has left the broker with this response. -/
structure Exchange.Settled (b : Broker) (actor : BrokerActor) (e : Exchange) : Prop where
  finished : ∃ exit, b.requests e.number = some ⟨e.request, actor, .finished ⟨0, e.response, exit⟩⟩
  received : headerIsValid e.request.header = 0
  responds : Responds e.request e.response
  valid : headerIsValid e.response.header = 0

variable {b b' : Broker} {actor : BrokerActor} {unread : List UInt8}

/-- What is behind the answered requests in the stream, in what was sent and in the numbers, while a
worker is in a phase. -/
inductive Phase.Fits (b : Broker) (actor : BrokerActor) (unread : List UInt8) :
    Phase → List UInt8 → List UInt8 → List ℕ → Prop
  | receiving : Fits b actor unread .receiving unread [] []
  | received {request : ProtocolPacket} (hvalid : headerIsValid request.header = 0) :
      Fits b actor unread (.received request) (request.frame ++ unread) [] []
  | dispatched {r : ℕ} {request : ProtocolPacket} {status : Status}
      (hvalid : headerIsValid request.header = 0)
      (hrequest : b.requests r = some ⟨request, actor, status⟩) :
      Fits b actor unread (.dispatched r request) (request.frame ++ unread) [] [r]
  | answering {e : Exchange} (hsettled : e.Settled b actor) :
      Fits b actor unread (.answering e) (e.request.frame ++ unread) [] [e.number]
  | returned {rest part : List UInt8} {last : List ℕ} (result : Int32) (hlast : last.length ≤ 1)
      (hpart : part = [] ∨
        ∃ e : Exchange, e.Settled b actor ∧ last = [e.number] ∧ part <+: e.response.frame) :
      Fits b actor unread (.returned result) rest part last

structure Worker.Ok (b : Broker) (w : Worker) : Prop where
  fits : ∃ rest part last, w.phase.Fits b w.actor w.unread rest part last ∧
    w.stream = (w.answered.flatMap fun e => e.request.frame) ++ rest ∧
    w.sent = (w.answered.flatMap fun e => e.response.frame) ++ part ∧
    w.numbers = w.answered.map Exchange.number ++ last
  answered : ∀ e ∈ w.answered, e.Settled b w.actor
  own : ∀ r ∈ w.numbers, ∃ request status, b.requests r = some ⟨request, w.actor, status⟩
  sorted : w.numbers.Pairwise (· < ·)

lemma Exchange.Settled.extend {e : Exchange} (h : e.Settled b actor) (hb : b.Extends b') :
    e.Settled b' actor where
  finished := by
    obtain ⟨exit, hr⟩ := h.finished
    exact ⟨exit, hb.finished _ _ _ _ hr⟩
  received := h.received
  responds := h.responds
  valid := h.valid

lemma Phase.Fits.extend {phase : Phase} {rest part : List UInt8} {last : List ℕ}
    (h : phase.Fits b actor unread rest part last) (hb : b.Extends b') :
    phase.Fits b' actor unread rest part last := by
  cases h with
  | receiving => exact .receiving
  | received hvalid => exact .received hvalid
  | dispatched hvalid hrequest =>
    obtain ⟨status, hr⟩ := hb.kept _ _ _ _ hrequest
    exact .dispatched hvalid hr
  | answering hsettled => exact .answering (hsettled.extend hb)
  | returned result hlast hpart =>
    refine .returned result hlast (hpart.imp_right ?_)
    rintro ⟨e, hsettled, hnumber⟩
    exact ⟨e, hsettled.extend hb, hnumber⟩

lemma Phase.Fits.last_le {phase : Phase} {rest part : List UInt8} {last : List ℕ}
    (h : phase.Fits b actor unread rest part last) : last.length ≤ 1 := by
  cases h with
  | receiving => exact Nat.zero_le 1
  | received hvalid => exact Nat.zero_le 1
  | dispatched hvalid hrequest => exact le_rfl
  | answering hsettled => exact le_rfl
  | returned result hlast hpart => exact hlast

lemma Phase.Fits.part {phase : Phase} {rest part : List UInt8} {last : List ℕ}
    (h : phase.Fits b actor unread rest part last) :
    part = [] ∨ ∃ e : Exchange, e.Settled b actor ∧ last = [e.number] ∧
      part <+: e.response.frame := by
  cases h with
  | receiving => exact Or.inl rfl
  | received hvalid => exact Or.inl rfl
  | dispatched hvalid hrequest => exact Or.inl rfl
  | answering hsettled => exact Or.inl rfl
  | returned result hlast hpart => exact hpart

lemma Worker.Ok.extend {w : Worker} (h : w.Ok b) (hb : b.Extends b') : w.Ok b' where
  fits := by
    obtain ⟨rest, part, last, hfits, hrest⟩ := h.fits
    exact ⟨rest, part, last, hfits.extend hb, hrest⟩
  answered e he := (h.answered e he).extend hb
  own := by
    intro r hr
    obtain ⟨request, status, hrequest⟩ := h.own r hr
    obtain ⟨status', hrequest'⟩ := hb.kept _ _ _ _ hrequest
    exact ⟨request, status', hrequest'⟩
  sorted := h.sorted

/-! ### The steps of a worker -/

namespace Worker

variable {w w' : Worker}

lemma ok_start (b : Broker) (actor : BrokerActor) (stream : List UInt8) :
    (start actor stream).Ok b where
  fits := ⟨stream, [], [], .receiving, rfl, rfl, rfl⟩
  answered := by
    intro e he
    cases he
  own := by
    intro r hr
    cases hr
  sorted := .nil

/-- A receive takes one request from the stream, or ends the loop. -/
lemma Ok.receive (h : w.Ok b) {wireHeader : Buffer} {request : ProtocolPacket} {recvs : List Cut}
    (heq : w.receive wireHeader request recvs = some w') :
    w'.Ok b ∧ w'.actor = w.actor ∧ w'.numbers = w.numbers := by
  rw [Worker.receive] at heq
  split at heq
  · next hphase =>
    obtain ⟨received, hreceived, rfl⟩ := Option.map_eq_some_iff.mp heq
    refine ⟨⟨?_, h.answered, h.own, h.sorted⟩, rfl, rfl⟩
    obtain ⟨rest, part, last, hfits, hstream, hsent, hnumbers⟩ := h.fits
    rw [hphase] at hfits
    cases hfits
    have hreturned : ∀ result, (Phase.returned result).Fits b w.actor received.stream w.unread []
        [] := fun result => .returned result (Nat.zero_le 1) (Or.inl rfl)
    simp only [afterReceive]
    split_ifs with heof hfailed hkind
    · exact ⟨w.unread, [], [], hreturned 0, hstream, hsent, hnumbers⟩
    · exact ⟨w.unread, [], [], hreturned _, hstream, hsent, hnumbers⟩
    · exact ⟨w.unread, [], [], hreturned _, hstream, hsent, hnumbers⟩
    · obtain ⟨hvalid, hunread⟩ := receivePacket_ok hreceived (not_not.mp hfailed)
      exact ⟨w.unread, [], [], hunread ▸ .received hvalid, hstream, hsent, hnumbers⟩
  · cases heq

/-- What `dispatch_request` returned for the request of the worker. -/
lemma Ok.finish (h : w.Ok b) (hb : b.Responsive) (heq : w.finish b = some w') :
    w'.Ok b ∧ w'.actor = w.actor ∧ w'.numbers = w.numbers := by
  rw [Worker.finish] at heq
  split at heq
  · next r request hphase =>
    obtain ⟨rest, part, last, hfits, hstream, hsent, hnumbers⟩ := h.fits
    rw [hphase] at hfits
    cases hfits with
    | dispatched hvalid hrequest =>
      split at heq
      · next packet actor outcome hr =>
        cases heq
        cases hrequest.symm.trans hr
        refine ⟨⟨?_, h.answered, h.own, h.sorted⟩, rfl, rfl⟩
        refine ⟨request.frame ++ w.unread, [], [r], ?_, hstream, hsent, hnumbers⟩
        by_cases hret : outcome.ret ≠ 0
        · simp only [if_pos hret]
          exact .returned _ le_rfl (Or.inl rfl)
        · simp only [if_neg hret]
          rw [not_not] at hret
          have hresponds : Responds request outcome.response := hb r _ _ _ hr hret
          obtain ⟨ret, response, exit⟩ := outcome
          cases hret
          exact .answering ⟨⟨exit, hr⟩, hvalid, hresponds, hresponds.headerIsValid hvalid⟩
      · cases heq
  · cases heq

/-- A send that fails has sent the front of the response. -/
lemma Ok.answer (h : w.Ok b) {wire : Buffer} {sends : List Cut}
    (heq : w.answer wire sends = some w') :
    w'.Ok b ∧ w'.actor = w.actor ∧ w'.numbers = w.numbers := by
  rw [Worker.answer] at heq
  split at heq
  · next e hphase =>
    obtain ⟨receipt, hsend, rfl⟩ := Option.map_eq_some_iff.mp heq
    obtain ⟨rest, part, last, hfits, hstream, hsent, hnumbers⟩ := h.fits
    rw [hphase] at hfits
    cases hfits with
    | answering hsettled =>
      rw [List.append_nil] at hsent
      by_cases hresult : receipt.result = 0
      · -- the whole frame was sent, and the exchange joins the answered ones
        have hbytes := (transportSend_ok hsend hresult).2
        refine ⟨⟨?_, ?_, h.own, h.sorted⟩, rfl, rfl⟩
        · refine ⟨w.unread, [], [], ?_, ?_, ?_, ?_⟩
          · simp only [ne_eq, hresult, not_true_eq_false, if_false]
            exact .receiving
          · simp [hresult, hstream]
          · simp [hresult, hsent, hbytes]
          · simp [hresult, hnumbers]
        · intro e' he'
          simp only [hresult, if_true, List.mem_append, List.mem_singleton] at he'
          rcases he' with he' | rfl
          · exact h.answered e' he'
          · exact hsettled
      · have hpart := transportSend_front hsend
        refine ⟨⟨?_, ?_, h.own, h.sorted⟩, rfl, rfl⟩
        · refine ⟨e.request.frame ++ w.unread, receipt.bytes, [e.number], ?_, ?_, ?_, ?_⟩
          · simp only [ne_eq, hresult, not_false_eq_true, if_true]
            exact .returned _ le_rfl (Or.inr ⟨e, hsettled, rfl, hpart⟩)
          · simpa [hresult] using hstream
          · simp [hresult, hsent]
          · simpa [hresult] using hnumbers
        · intro e' he'
          simp only [hresult, if_false] at he'
          exact h.answered e' he'
  · cases heq

/-- The request of the worker arrives in the broker and draws a number. -/
lemma Ok.dispatched (h : w.Ok b) (hb : b.Inv) {request : ProtocolPacket}
    (hphase : w.phase = .received request) {view : Broker.ArrivalView}
    (harrived : b.Arrived request w.actor view b') :
    Ok b' { w with
      numbers := w.numbers ++ [b.arrivals], phase := .dispatched b.arrivals request } := by
  have h' := h.extend (Broker.Steps.arrived harrived |>.extends hb)
  obtain ⟨status, hrequest, -⟩ := harrived.request
  refine ⟨?_, h'.answered, ?_, ?_⟩
  · obtain ⟨rest, part, last, hfits, hstream, hsent, hnumbers⟩ := h.fits
    rw [hphase] at hfits
    cases hfits with
    | received hvalid =>
      rw [List.append_nil] at hnumbers
      refine ⟨request.frame ++ w.unread, [], [b.arrivals], .dispatched hvalid hrequest, hstream,
        hsent, ?_⟩
      rw [hnumbers]
  · intro r hr
    rcases List.mem_append.mp hr with hr | hr
    · exact h'.own r hr
    · rw [List.mem_singleton.mp hr]
      exact ⟨request, status, hrequest⟩
  · refine List.pairwise_append.mpr ⟨h.sorted, List.pairwise_singleton _ _, ?_⟩
    intro r hr r' hr'
    rw [List.mem_singleton.mp hr']
    obtain ⟨request', status', hold⟩ := h.own r hr
    exact hb.core.lt_arrivals hold

end Worker

/-! ### The invariant of the service -/

namespace Service

variable {uid : UInt32} {s s' : Service} {c : ℕ} {w w' : Worker}

structure Ok (uid : UInt32) (s : Service) : Prop where
  broker : s.broker.Inv
  responsive : s.broker.Responsive
  workers : ∀ c w, s.workers c = some w → w.Ok s.broker
  authentic : ∀ c w, s.workers c = some w → 0 < w.actor.pid ∧ w.actor.identity.uid = uid
  fresh : ∀ c, s.accepted ≤ c → s.workers c = none
  owned : ∀ r < s.broker.arrivals, ∃ c w, s.workers c = some w ∧ r ∈ w.numbers
  apart : ∀ c d w v r, s.workers c = some w → s.workers d = some v → r ∈ w.numbers →
    r ∈ v.numbers → c = d

lemma ok_create (uid : UInt32) : create.Ok uid where
  broker := Broker.inv_create
  responsive := Broker.responsive_create
  workers := by
    intro c w hc
    cases hc
  authentic := by
    intro c w hc
    cases hc
  fresh := fun _ _ => rfl
  owned := by
    intro r hr
    cases hr
  apart := by
    intro c d w v r hc
    cases hc

@[simp] lemma workers_setWorker_self (s : Service) (c : ℕ) (w : Worker) :
    (s.setWorker c w).workers c = some w := by
  simp [setWorker]

lemma workers_setWorker_of_ne {d : ℕ} (h : d ≠ c) (s : Service) (w : Worker) :
    (s.setWorker c w).workers d = s.workers d := by
  simp [setWorker, h]

lemma workers_setWorker {d : ℕ} {v : Worker} (h : (s.setWorker c w).workers d = some v) :
    (d = c ∧ v = w) ∨ (d ≠ c ∧ s.workers d = some v) := by
  by_cases hdc : d = c
  · subst hdc
    rw [workers_setWorker_self, Option.some.injEq] at h
    exact Or.inl ⟨rfl, h.symm⟩
  · rw [workers_setWorker_of_ne hdc] at h
    exact Or.inr ⟨hdc, h⟩

/-- A worker moves on with the requests that it has. -/
lemma Ok.setWorker (h : s.Ok uid) (hc : s.workers c = some w) (hok : w'.Ok s.broker)
    (hactor : w'.actor = w.actor) (hnumbers : w'.numbers = w.numbers) :
    (s.setWorker c w').Ok uid where
  broker := h.broker
  responsive := h.responsive
  workers := by
    intro d v hd
    rcases workers_setWorker hd with ⟨rfl, rfl⟩ | ⟨-, hd⟩
    · exact hok
    · exact h.workers d v hd
  authentic := by
    intro d v hd
    rcases workers_setWorker hd with ⟨rfl, rfl⟩ | ⟨-, hd⟩
    · rw [hactor]
      exact h.authentic d w hc
    · exact h.authentic d v hd
  fresh := by
    intro d hd
    have hdc : d ≠ c := by
      rintro rfl
      rw [h.fresh d hd] at hc
      cases hc
    rw [workers_setWorker_of_ne hdc]
    exact h.fresh d hd
  owned := by
    intro r hr
    obtain ⟨d, v, hd, hv⟩ := h.owned r hr
    by_cases hdc : d = c
    · subst hdc
      cases hc.symm.trans hd
      exact ⟨d, w', workers_setWorker_self s d w', by rwa [hnumbers]⟩
    · exact ⟨d, v, by rwa [workers_setWorker_of_ne hdc], hv⟩
  apart := by
    intro d e v u r hd he hv hu
    rcases workers_setWorker hd with ⟨rfl, rfl⟩ | ⟨-, hd'⟩
    · rcases workers_setWorker he with ⟨rfl, rfl⟩ | ⟨-, he'⟩
      · rfl
      · exact h.apart d e w u r hc he' (hnumbers ▸ hv) hu
    · rcases workers_setWorker he with ⟨rfl, rfl⟩ | ⟨-, he'⟩
      · exact h.apart d e v w r hd' hc hv (hnumbers ▸ hu)
      · exact h.apart d e v u r hd' he' hv hu

lemma authentic_of_credentials {peer : Except Errno (ℕ × Ucred)} {credentials : Ucred}
    (h : transportGetCredentials peer uid = .ok credentials) :
    0 < credentials.actor.pid ∧ credentials.actor.identity.uid = uid := by
  unfold transportGetCredentials at h
  split at h
  · cases h
  · split_ifs at h with hrefused
    cases h
    simp only [not_or, not_not] at hrefused
    exact ⟨Int32.not_le.mp hrefused.2.1, hrefused.2.2⟩

lemma Ok.accept (h : s.Ok uid) (peer : Except Errno (ℕ × Ucred)) (stream : List UInt8) :
    (s.accept uid peer stream).Ok uid := by
  have hfresh : ∀ c, s.accepted + 1 ≤ c → s.workers c = none := fun c hc =>
    h.fresh c (Nat.le_of_succ_le hc)
  rw [Service.accept]
  split
  · exact { h with fresh := hfresh }
  · next credentials hcredentials =>
    have hnone := h.fresh s.accepted le_rfl
    have hnew : ∀ {d v}, (s.setWorker s.accepted (.start credentials.actor stream)).workers d =
        some v → v = .start credentials.actor stream ∨ s.workers d = some v := fun hd =>
      (workers_setWorker hd).imp And.right And.right
    refine ⟨h.broker, h.responsive, ?_, ?_, ?_, ?_, ?_⟩
    · intro d v hd
      rcases hnew hd with rfl | hd
      · exact Worker.ok_start _ _ _
      · exact h.workers d v hd
    · intro d v hd
      rcases hnew hd with rfl | hd
      · exact authentic_of_credentials hcredentials
      · exact h.authentic d v hd
    · intro d hd
      exact (workers_setWorker_of_ne (Nat.ne_of_gt hd) s _).trans (hfresh d hd)
    · intro r hr
      obtain ⟨d, v, hd, hv⟩ := h.owned r hr
      have hne : d ≠ s.accepted := by
        rintro rfl
        rw [hnone] at hd
        cases hd
      exact ⟨d, v, (workers_setWorker_of_ne hne s _).trans hd, hv⟩
    · intro d e v u r hd he hv hu
      rcases hnew hd with rfl | hd
      · cases hv
      · rcases hnew he with rfl | he
        · cases hu
        · exact h.apart d e v u r hd he hv hu

/-- A request arrives with the actor of its connection and a number that nobody has. -/
lemma Ok.dispatch (h : s.Ok uid) {view : Broker.ArrivalView}
    (heq : s.dispatch c view = some s') : s'.Ok uid := by
  obtain ⟨w, hc, heq⟩ := Option.bind_eq_some_iff.mp heq
  split at heq
  · next request hphase =>
    obtain ⟨b, harrive, rfl⟩ := Option.map_eq_some_iff.mp heq
    obtain ⟨harrived, hinv⟩ := h.broker.arrive harrive
    have hextends := (Broker.Steps.arrived harrived).extends h.broker
    have hw := (h.workers c w hc).dispatched h.broker hphase harrived
    have hunused : ∀ d v, s.workers d = some v → s.broker.arrivals ∉ v.numbers := by
      intro d v hd hv
      obtain ⟨request', status', hold⟩ := (h.workers d v hd).own _ hv
      rw [(h.broker.core.fresh _ le_rfl).1] at hold
      cases hold
    refine ⟨hinv, h.responsive.arrive harrive, ?_, ?_, ?_, ?_, ?_⟩
    · intro d v hd
      rcases workers_setWorker hd with ⟨rfl, rfl⟩ | ⟨-, hd⟩
      · exact hw
      · exact (h.workers d v hd).extend hextends
    · intro d v hd
      rcases workers_setWorker hd with ⟨rfl, rfl⟩ | ⟨-, hd⟩
      · exact h.authentic d w hc
      · exact h.authentic d v hd
    · intro d hd
      have hdc : d ≠ c := by
        rintro rfl
        rw [h.fresh d hd] at hc
        cases hc
      exact (workers_setWorker_of_ne hdc s _).trans (h.fresh d hd)
    · intro r hr
      rw [harrived.arrivals h.broker] at hr
      by_cases hlast : r = s.broker.arrivals
      · subst hlast
        exact ⟨c, _, workers_setWorker_self s c _, by simp⟩
      · obtain ⟨d, v, hd, hv⟩ := h.owned r (by omega)
        by_cases hdc : d = c
        · subst hdc
          cases hc.symm.trans hd
          exact ⟨d, _, workers_setWorker_self s d _, List.mem_append_left _ hv⟩
        · exact ⟨d, v, (workers_setWorker_of_ne hdc s _).trans hd, hv⟩
    · -- the new number is not among the old ones of any worker
      have hold : ∀ {v r}, r ∈ w.numbers ++ [s.broker.arrivals] → r ∈ v.numbers →
          (∃ d, s.workers d = some v) → r ∈ w.numbers := by
        rintro v r hr hv ⟨d, hd⟩
        rcases List.mem_append.mp hr with hr | hr
        · exact hr
        · rw [List.mem_singleton.mp hr] at hv
          exact absurd hv (hunused d v hd)
      intro d e v u r hd he hv hu
      rcases workers_setWorker hd with ⟨rfl, rfl⟩ | ⟨-, hd'⟩
      · rcases workers_setWorker he with ⟨rfl, rfl⟩ | ⟨-, he'⟩
        · rfl
        · exact h.apart d e w u r hc he' (hold hv hu ⟨e, he'⟩) hu
      · rcases workers_setWorker he with ⟨rfl, rfl⟩ | ⟨-, he'⟩
        · exact h.apart d e v w r hd' hc hv (hold hu hv ⟨d, hd'⟩)
        · exact h.apart d e v u r hd' he' hv hu
  · cases heq

lemma Ok.brokerEvent (h : s.Ok uid) {event : Broker.Event} (hevent : isArrival event = false)
    {b : Broker} (heq : s.broker.step event = some b) : Ok uid { s with broker := b } := by
  obtain ⟨hsteps, hinv⟩ := h.broker.steps heq
  exact {
    broker := hinv
    responsive := h.responsive.step heq
    workers := fun d v hd => (h.workers d v hd).extend (hsteps.extends h.broker)
    authentic := h.authentic
    fresh := h.fresh
    owned := fun r hr => h.owned r (hsteps.arrivals_eq hevent ▸ hr)
    apart := h.apart }

theorem Ok.step (h : s.Ok uid) {event : Event} (heq : s.step uid event = some s') :
    s'.Ok uid := by
  cases event with
  | accept peer stream =>
    cases heq
    exact h.accept peer stream
  | receive c wireHeader request recvs =>
    obtain ⟨w, hc, heq⟩ := Option.bind_eq_some_iff.mp heq
    obtain ⟨w', hw, rfl⟩ := Option.map_eq_some_iff.mp heq
    obtain ⟨hok, hactor, hnumbers⟩ := (h.workers c w hc).receive hw
    exact h.setWorker hc hok hactor hnumbers
  | dispatch c view => exact h.dispatch heq
  | finish c =>
    obtain ⟨w, hc, heq⟩ := Option.bind_eq_some_iff.mp heq
    obtain ⟨w', hw, rfl⟩ := Option.map_eq_some_iff.mp heq
    obtain ⟨hok, hactor, hnumbers⟩ := (h.workers c w hc).finish h.responsive hw
    exact h.setWorker hc hok hactor hnumbers
  | answer c wire sends =>
    obtain ⟨w, hc, heq⟩ := Option.bind_eq_some_iff.mp heq
    obtain ⟨w', hw, rfl⟩ := Option.map_eq_some_iff.mp heq
    obtain ⟨hok, hactor, hnumbers⟩ := (h.workers c w hc).answer hw
    exact h.setWorker hc hok hactor hnumbers
  | broker event =>
    simp only [Service.step] at heq
    split_ifs at heq with hevent
    obtain ⟨b, hb, rfl⟩ := Option.map_eq_some_iff.mp heq
    exact h.brokerEvent (Bool.not_eq_true _ ▸ hevent) hb

lemma Reachable.ok (h : s.Reachable uid) : s.Ok uid := by
  obtain ⟨events, hexec⟩ := h
  exact Transition.exec_invariant (fun _ _ _ hs hstep => hs.step hstep) (ok_create uid) hexec

/-! ### What a peer reads -/

/-- A valid frame is what a client takes for one response. -/
lemma isOneResponse_frame {packet : ProtocolPacket} (h : headerIsValid packet.header = 0) :
    isOneResponse packet.frame = true := by
  have htake : packet.frame.take protocolHeaderSize = headerBytes packet.header := by
    rw [ProtocolPacket.frame, List.take_left' (length_headerBytes _)]
  simp [isOneResponse, htake, decodeHeader_headerBytes h, ProtocolPacket.length]

/-- In any run of the service, the stream of a worker starts with the frames of the requests that it
has answered, and what it has sent are the frames of their responses in the same order and at most
the front of one more. At most one more request has gone to the broker. Each response is what
`dispatch_request` has left that very request with, the client takes it for the one response to its
request, and it is the internal answer to wait only if the peer was observed closed. -/
theorem responses_follow_requests (h : s.Reachable uid) (hc : s.workers c = some w) :
    ∃ rest part last,
      w.stream = (w.answered.flatMap fun e => e.request.frame) ++ rest ∧
      w.sent = (w.answered.flatMap fun e => e.response.frame) ++ part ∧
      w.numbers = w.answered.map Exchange.number ++ last ∧
      last.length ≤ 1 ∧ w.numbers.Pairwise (· < ·) ∧
      (part = [] ∨ ∃ e : Exchange, e.Settled s.broker w.actor ∧ last = [e.number] ∧
        part <+: e.response.frame) ∧
      ∀ e ∈ w.answered, ∃ exit,
        s.broker.requests e.number =
          some ⟨e.request, w.actor, .finished ⟨0, e.response, exit⟩⟩ ∧
        correlates e.request e.response = true ∧ isOneResponse e.response.frame = true ∧
        (e.request.opcode.any Opcode.isSemop = true →
          e.response.header.result = semOpBlocked → exit = .peerClosed) := by
  have hok := h.ok
  have hw := hok.workers c w hc
  obtain ⟨rest, part, last, hfits, hstream, hsent, hnumbers⟩ := hw.fits
  refine ⟨rest, part, last, hstream, hsent, hnumbers, hfits.last_le, hw.sorted, hfits.part, ?_⟩
  intro e he
  have hsettled := hw.answered e he
  obtain ⟨exit, hr⟩ := hsettled.finished
  exact ⟨exit, hr, hsettled.responds.correlates, isOneResponse_frame hsettled.valid,
    fun hsemop => (hok.broker.core.outcomes _ _ _ _ hr).blocked hsemop rfl⟩

/-- A peer of the user 1000, whose stream is the frame of one request. -/
def acceptPeer (pid : Int32) (request : ProtocolPacket) : Event :=
  .accept (.ok (sizeofUcred, ⟨pid, 1000, 1000⟩)) request.frame

def receiveFrom (c : ℕ) : Event :=
  .receive c (fun _ => 0) (pingRequest fun _ => 0) [.moved 99, .moved 99]

def dispatchOf (c : ℕ) : Event :=
  .dispatch c {
    lockError := none
    lookup := .pidfd
    env := ⟨true, 5⟩
    response := pingRequest fun _ => 0
    clock := .ok ⟨5, 0⟩
    iteration := ⟨false, ⟨true, 5⟩, none⟩ }

def answerTo (c : ℕ) : Event := .answer c (fun _ => 0) [.moved 9, .moved 99]

/-- A peer creates a set while another one pings. -/
def interleaved : List Event :=
  [acceptPeer 42 (semgetRequest (fun _ => 0) 1234 1 0o1600), acceptPeer 43 (pingRequest fun _ => 0),
    receiveFrom 1, receiveFrom 0, dispatchOf 1, dispatchOf 0, .finish 0, .finish 1, answerTo 1,
    answerTo 0]

theorem responses_follow_requests_interleaved :
    ∃ s w, Transition.exec (step 1000) create interleaved = some s ∧ s.workers 0 = some w ∧
      w.numbers = [1] ∧ ∃ e ∈ w.answered, ∃ part,
        w.sent = e.response.frame ++ part ∧ correlates e.request e.response = true := by
  have hrun : (Transition.exec (step 1000) create interleaved).any (fun s => (s.workers 0).any
      fun w => decide (w.numbers = [1] ∧ w.answered.length = 1)) = true := by
    decide +kernel
  obtain ⟨s, hs, hworker⟩ := (Option.any_eq_true _ _).mp hrun
  obtain ⟨w, hc, hw⟩ := (Option.any_eq_true _ _).mp hworker
  obtain ⟨hnumbers, hlength⟩ := of_decide_eq_true hw
  obtain ⟨rest, part, last, -, hsent, -, -, -, -, hall⟩ :=
    responses_follow_requests ⟨interleaved, hs⟩ hc
  obtain ⟨e, he⟩ := List.length_eq_one_iff.mp hlength
  rw [he] at hsent hall
  obtain ⟨exit, -, hcorrelates, -⟩ := hall e (List.mem_singleton_self e)
  refine ⟨s, w, hs, hc, hnumbers, e, by rw [he]; exact List.mem_singleton_self e, part, ?_,
    hcorrelates⟩
  rw [hsent, List.flatMap_singleton]

end Service

end Tgcompat
