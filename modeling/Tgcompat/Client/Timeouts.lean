import Tgcompat.Broker.State
import Tgcompat.Client.Agreement
import Tgcompat.Protocol.Framing

/-!
# Timeouts

The timeout of `semtimedop` on its way from the caller to the waiter: the glibc entry joins seconds
and nanoseconds to one signed number of nanoseconds, the client writes it into the request, and the
broker takes it apart again to set a deadline on the monotonic clock.
-/

namespace Tgcompat

def EOVERFLOW : Int32 := 75

/-! ### The glibc entry -/

/-- `struct sembuf`. -/
structure SemBuf where
  semNum : UInt16
  semOp : Int16
  semFlg : Int16
  deriving DecidableEq, Repr

def SemBuf.converted (operation : SemBuf) : SemOp :=
  ⟨operation.semNum, operation.semOp, operation.semFlg.toUInt16⟩

/-- `__tgcompat_glibc_semtimedop` as far as the call of the client it makes; a null pointer is
`none`, and an error is the value of `errno`. -/
def glibcSemtimedopCall (semid : Int32) (operations : Option (List SemBuf)) (hasTimeout : Int32)
    (timeoutSeconds timeoutNanoseconds : Int64) : Except Int32 ClientCall :=
  match operations with
  | none => .error EINVAL
  | some operations =>
    if operations.length = 0 ∨ operations.length > semMaxPerSet ∨
        (hasTimeout ≠ 0 ∧ (timeoutSeconds < 0 ∨ timeoutNanoseconds < 0 ∨
          timeoutNanoseconds ≥ 1000000000)) then .error EINVAL
    else if hasTimeout ≠ 0 ∧
        timeoutSeconds > (Int64.maxValue - timeoutNanoseconds) / 1000000000 then .error EOVERFLOW
    else if hasTimeout ≠ 0 then
      .ok (.semtimedop semid (operations.map SemBuf.converted)
        (timeoutSeconds * 1000000000 + timeoutNanoseconds))
    else .ok (.semop semid (operations.map SemBuf.converted))

def libcResult (result : Int32) : Except Int32 Int32 :=
  if result < 0 then .error (-result) else .ok result

/-- The whole entry; `client` is what `client_for_thread` returns. -/
def glibcSemtimedop (client : Except Int32 (ClientCall → Int32)) (semid : Int32)
    (operations : Option (List SemBuf)) (hasTimeout : Int32)
    (timeoutSeconds timeoutNanoseconds : Int64) : Except Int32 Int32 := do
  let call ← glibcSemtimedopCall semid operations hasTimeout timeoutSeconds timeoutNanoseconds
  let run ← client
  libcResult (run call)

/-- The timeouts that the entry does not take for malformed. -/
structure Timeout where
  sec : Int64
  nsec : Int64
  sec_nonneg : 0 ≤ sec
  nsec_nonneg : 0 ≤ nsec
  nsec_lt : nsec < 1000000000

namespace Timeout

variable {t t' : Timeout}

/-- The nanoseconds of a timeout, as a number. -/
def total (t : Timeout) : ℤ := t.sec.toInt * 1000000000 + t.nsec.toInt

lemma bounds (t : Timeout) : 0 ≤ t.sec.toInt ∧ t.sec.toInt < 2 ^ 63 ∧ 0 ≤ t.nsec.toInt ∧
    t.nsec.toInt < 1000000000 :=
  ⟨Int64.le_iff_toInt_le.mp t.sec_nonneg, t.sec.toInt_lt, Int64.le_iff_toInt_le.mp t.nsec_nonneg,
    Int64.lt_iff_toInt_lt.mp t.nsec_lt⟩

lemma total_div (t : Timeout) : t.total / 1000000000 = t.sec.toInt := by
  have h := t.bounds
  simp only [total]
  omega

lemma total_mod (t : Timeout) : t.total % 1000000000 = t.nsec.toInt := by
  have h := t.bounds
  simp only [total]
  omega

/-! ### The overflow check -/

lemma toInt_room (t : Timeout) :
    (Int64.maxValue - t.nsec).toInt = 2 ^ 63 - 1 - t.nsec.toInt := by
  have h := t.bounds
  have hmax : Int64.maxValue.toInt = 2 ^ 63 - 1 := rfl
  rw [Int64.toInt_sub, hmax]
  exact Int.bmod_eq_of_le_mul_two (by omega) (by omega)

lemma toInt_quotient (t : Timeout) : ((Int64.maxValue - t.nsec) / 1000000000).toInt =
    (2 ^ 63 - 1 - t.nsec.toInt) / 1000000000 := by
  have h := t.bounds
  have hne : Int64.maxValue - t.nsec ≠ Int64.minValue := by
    intro heq
    have hmin : Int64.minValue.toInt = -2 ^ 63 := rfl
    have hroom := t.toInt_room
    rw [heq, hmin] at hroom
    omega
  rw [Int64.toInt_div_of_ne_left _ _ hne, toInt_room]
  exact Int.tdiv_eq_ediv_of_nonneg (by omega)

/-- The quotient of the check is the largest number of seconds that fits. -/
lemma quotient_lt_iff (t : Timeout) :
    (Int64.maxValue - t.nsec) / 1000000000 < t.sec ↔ 2 ^ 63 - 1 < t.total := by
  rw [Int64.lt_iff_toInt_lt, toInt_quotient, total]
  omega

lemma toInt_product (h : t.total ≤ 2 ^ 63 - 1) :
    (t.sec * 1000000000).toInt = t.sec.toInt * 1000000000 := by
  have hbounds := t.bounds
  have hbillion : (1000000000 : Int64).toInt = 1000000000 := rfl
  rw [total] at h
  rw [Int64.toInt_mul, hbillion]
  exact Int.bmod_eq_of_le_mul_two (by omega) (by omega)

lemma toInt_sum (h : t.total ≤ 2 ^ 63 - 1) : (t.sec * 1000000000 + t.nsec).toInt = t.total := by
  have hbounds := t.bounds
  rw [Int64.toInt_add, toInt_product h]
  rw [total] at h ⊢
  exact Int.bmod_eq_of_le_mul_two (by omega) (by omega)

lemma sum_nonneg (h : t.total ≤ 2 ^ 63 - 1) : 0 ≤ t.sec * 1000000000 + t.nsec := by
  have hbounds := t.bounds
  rw [Int64.le_iff_toInt_le, toInt_sum h, Int64.toInt_zero, total]
  omega

section Entry

variable {semid hasTimeout : Int32} {operations : List SemBuf}

/-- A well-formed call is refused for the size of its timeout only. -/
lemma glibcSemtimedopCall_eq (t : Timeout) (htimed : hasTimeout ≠ 0)
    (hpos : 1 ≤ operations.length) (hle : operations.length ≤ semMaxPerSet) :
    glibcSemtimedopCall semid (some operations) hasTimeout t.sec t.nsec =
      if 2 ^ 63 - 1 < t.total then .error EOVERFLOW
      else .ok (.semtimedop semid (operations.map SemBuf.converted)
        (t.sec * 1000000000 + t.nsec)) := by
  have hformed : ¬ (operations.length = 0 ∨ operations.length > semMaxPerSet ∨
      (hasTimeout ≠ 0 ∧ (t.sec < 0 ∨ t.nsec < 0 ∨ t.nsec ≥ 1000000000))) := by
    rintro (hzero | hlarge | ⟨-, hsec | hnsec | hnsec⟩)
    · omega
    · omega
    · exact Int64.not_lt.mpr t.sec_nonneg hsec
    · exact Int64.not_lt.mpr t.nsec_nonneg hnsec
    · exact Int64.not_lt.mpr hnsec t.nsec_lt
  simp only [glibcSemtimedopCall, if_neg hformed, gt_iff_lt, t.quotient_lt_iff]
  simp [htimed]

end Entry

end Timeout

/-! ### On the wire -/

/-- The broker has received a request that carries the timeout: the entry accepted it, the client
built the request on some stack and numbered it, and the transport delivered it. -/
def Timeout.Arrives (t : Timeout) (semid : Int32) (operations : List SemBuf) (hasTimeout : Int32)
    (received : ProtocolPacket) : Prop :=
  ∃ call stack request id,
    glibcSemtimedopCall semid (some operations) hasTimeout t.sec t.nsec = .ok call ∧
    call.request stack = .ok request ∧ Delivers (0, received) (request.withId id)

/-- The wire carries the timeout unchanged, as one number of nanoseconds. -/
lemma Timeout.Arrives.carried {t : Timeout} {semid hasTimeout : Int32} {operations : List SemBuf}
    {received : ProtocolPacket} (h : t.Arrives semid operations hasTimeout received)
    (htimed : hasTimeout ≠ 0) (hpos : 1 ≤ operations.length)
    (hle : operations.length ≤ semMaxPerSet) :
    received.opcode = some .semtimedop ∧ t.total ≤ 2 ^ 63 - 1 ∧
      (wireGetI64 received.payload 8).toInt = t.total := by
  obtain ⟨call, stack, request, id, hcall, hrequest, -, hheader, hpayload⟩ := h
  rw [t.glibcSemtimedopCall_eq htimed hpos hle] at hcall
  split_ifs at hcall with hlarge
  cases hcall
  have hlength : (operations.map SemBuf.converted).length ≤ semMaxPerSet := by simpa using hle
  have hsent : request = semopRequest stack semid (operations.map SemBuf.converted)
      (some (t.sec * 1000000000 + t.nsec)) := by
    simp only [ClientCall.request, semopCall] at hrequest
    split_ifs at hrequest
    exact (Except.ok.inj hrequest).symm
  subst hsent
  have hcarries := carries_semopRequest stack id semid (some (t.sec * 1000000000 + t.nsec)) hlength
  refine ⟨?_, not_lt.mp hlarge, ?_⟩
  · rw [ProtocolPacket.opcode, show received.header = _ from hheader]
    exact hcarries.opcode
  · have hread : wireGetI64 received.payload 8 = t.sec * 1000000000 + t.nsec := by
      refine (Wire.i64.get_congr fun n _ hn => hpayload n ?_).trans
        (wireGetI64_semopRequest stack id semid (operations.map SemBuf.converted) _)
      rw [hcarries.length]
      simp only [Wire.i64_width] at hn
      simp only [semopPrefix, Option.isSome_some, if_true]
      omega
    rw [hread, Timeout.toInt_sum (not_lt.mp hlarge)]

/-- Every timeout that fits arrives. -/
lemma Timeout.exists_arrives {t : Timeout} {semid hasTimeout : Int32} {operations : List SemBuf}
    (htimed : hasTimeout ≠ 0) (hpos : 1 ≤ operations.length)
    (hle : operations.length ≤ semMaxPerSet) (h : t.total ≤ 2 ^ 63 - 1) :
    ∃ received, t.Arrives semid operations hasTimeout received := by
  have hcall : glibcSemtimedopCall semid (some operations) hasTimeout t.sec t.nsec = _ :=
    t.glibcSemtimedopCall_eq htimed hpos hle
  rw [if_neg (not_lt.mpr h)] at hcall
  have hnonneg : ∀ ns ∈ some (t.sec * 1000000000 + t.nsec), 0 ≤ ns := by
    intro ns hns
    rw [← Option.some.inj (Option.mem_def.mp hns)]
    exact Timeout.sum_nonneg h
  have hrequest : (ClientCall.semtimedop semid (operations.map SemBuf.converted)
      (t.sec * 1000000000 + t.nsec)).request (fun _ => 0) = _ := semopCall_eq_ok (fun _ => 0) semid
    (show 1 ≤ (operations.map SemBuf.converted).length by simpa using hpos)
    (show (operations.map SemBuf.converted).length ≤ semMaxPerSet by simpa using hle) hnonneg
  exact ⟨_, _, _, _, 0, hcall, hrequest, rfl, rfl, fun n _ => rfl⟩

/-! ### Deadlines -/

namespace Timespec

def Normalised (time : Timespec) : Prop := 0 ≤ time.nsec ∧ time.nsec < 1000000000

instance (time : Timespec) : Decidable time.Normalised :=
  inferInstanceAs (Decidable (0 ≤ time.nsec ∧ time.nsec < 1000000000))

/-- The time `now + (s, ns)`. -/
def after (now : Timespec) (t : Timeout) : Timespec :=
  ⟨now.sec + t.sec.toInt + (now.nsec + t.nsec.toInt) / 1000000000,
    (now.nsec + t.nsec.toInt) % 1000000000⟩

/-- The smaller of two times. -/
def earlier (a b : Timespec) : Timespec := if b.reached a then a else b

lemma reached_iff {now deadline : Timespec} : now.reached deadline = true ↔
    deadline.sec < now.sec ∨ (deadline.sec = now.sec ∧ deadline.nsec ≤ now.nsec) := by
  rw [reached]
  split_ifs with h
  · simp only [decide_eq_true_eq]
    omega
  · simp only [decide_eq_true_eq]
    omega

end Timespec

/-- The sums and differences that `initialize_deadline` computes. -/
def deadlineSums (now : Timespec) (seconds nanoseconds : ℤ) : List ℤ :=
  (addTimeout now seconds nanoseconds).2

def IsInt64 (n : ℤ) : Prop := -2 ^ 63 ≤ n ∧ n ≤ 2 ^ 63 - 1

lemma initializeDeadline_eq {request : ProtocolPacket} (now : Timespec)
    (hopcode : request.opcode = some .semtimedop)
    (hnonneg : 0 ≤ (wireGetI64 request.payload 8).toInt) :
    initializeDeadline request (.ok now) =
      .ok (some (addTimeout now ((wireGetI64 request.payload 8).toInt / 1000000000)
        ((wireGetI64 request.payload 8).toInt % 1000000000)).1) := by
  simp only [initializeDeadline, hopcode, ne_eq, not_true_eq_false, if_false,
    if_neg (not_lt.mpr hnonneg)]

namespace Timeout

variable {t t' : Timeout} {now : Timespec}

/-- The deadline of a waiter with this timeout. -/
def deadline (t : Timeout) (now : Timespec) : Timespec :=
  (addTimeout now t.sec.toInt t.nsec.toInt).1

/-- The carry takes a deadline that was not saturated over the last second. -/
def CarriesPast (t : Timeout) (now : Timespec) : Prop :=
  t.sec.toInt ≤ 2147483647 ∧ now.sec + t.sec.toInt = 2147483647 ∧
    1000000000 ≤ now.nsec + t.nsec.toInt

/-- A long timeout saturates although it ends before the last deadline, as the clock is negative. -/
def CutsLate (t : Timeout) (now : Timespec) : Prop :=
  2147483647 < t.sec.toInt ∧ (now.after t).reached lastDeadline = false

instance (t : Timeout) (now : Timespec) : Decidable (t.CarriesPast now) :=
  inferInstanceAs (Decidable (_ ∧ _ ∧ _))

instance (t : Timeout) (now : Timespec) : Decidable (t.CutsLate now) :=
  inferInstanceAs (Decidable (_ ∧ _))

/-- The cases of `initialize_deadline`. -/
lemma deadline_cases (t : Timeout) (now : Timespec) :
    ((2147483647 < t.sec.toInt ∨ 2147483647 < now.sec + t.sec.toInt) ∧
      t.deadline now = ⟨2147483647, 999999999⟩) ∨
    (t.sec.toInt ≤ 2147483647 ∧ now.sec + t.sec.toInt ≤ 2147483647 ∧
      1000000000 ≤ now.nsec + t.nsec.toInt ∧ t.deadline now =
        ⟨now.sec + t.sec.toInt + 1, now.nsec + t.nsec.toInt - 1000000000⟩) ∨
    (t.sec.toInt ≤ 2147483647 ∧ now.sec + t.sec.toInt ≤ 2147483647 ∧
      now.nsec + t.nsec.toInt < 1000000000 ∧
      t.deadline now = ⟨now.sec + t.sec.toInt, now.nsec + t.nsec.toInt⟩) := by
  simp only [deadline, addTimeout]
  split_ifs with hlong hlate hcarry
  · exact .inl ⟨.inl hlong, rfl⟩
  · exact .inl ⟨by omega, rfl⟩
  · exact .inr (.inl ⟨by omega, by omega, hcarry, rfl⟩)
  · exact .inr (.inr ⟨by omega, by omega, by omega, rfl⟩)

lemma normalised_deadline (t : Timeout) (hnow : now.Normalised) : (t.deadline now).Normalised := by
  have hbounds := t.bounds
  obtain ⟨hlo, hhi⟩ := hnow
  rcases t.deadline_cases now with ⟨-, h⟩ | ⟨-, -, hcarry, h⟩ | ⟨-, -, hcarry, h⟩ <;>
    simp only [h, Timespec.Normalised] <;> omega

lemma deadline_sec_le_iff (t : Timeout) (now : Timespec) :
    (t.deadline now).sec ≤ 2147483647 ↔ ¬ t.CarriesPast now := by
  rcases t.deadline_cases now with ⟨hlate, h⟩ | ⟨hfits, hsec, hcarry, h⟩ | ⟨hfits, hsec, hcarry, h⟩
    <;> simp only [h, CarriesPast] <;> omega

/-- The saturating sum is right except at the two boundaries. -/
lemma deadline_eq_iff (t : Timeout) (hnow : now.Normalised) :
    t.deadline now = (now.after t).earlier lastDeadline ↔
      ¬ t.CarriesPast now ∧ ¬ t.CutsLate now := by
  have hbounds := t.bounds
  obtain ⟨hlo, hhi⟩ := hnow
  simp only [Timespec.earlier, CarriesPast, CutsLate, Bool.eq_false_iff, ne_eq,
    Timespec.reached_iff, lastDeadline, Timespec.after]
  rcases t.deadline_cases now with ⟨hlate, h⟩ | ⟨hfits, hsec, hcarry, h⟩ | ⟨hfits, hsec, hcarry, h⟩
    <;> rw [h] <;> split_ifs <;> simp only [Timespec.mk.injEq, true_iff] <;> omega

/-- A longer timeout has no earlier deadline, unless the shorter one was carried past the last
second and the longer one is saturated. -/
lemma deadline_reached_iff (hnow : now.Normalised) (hle : t.total ≤ t'.total) :
    (t'.deadline now).reached (t.deadline now) = true ↔
      ¬ (t.CarriesPast now ∧ t.sec < t'.sec) := by
  have hbounds := t.bounds
  have hbounds' := t'.bounds
  obtain ⟨hlo, hhi⟩ := hnow
  rw [Timespec.reached_iff, Int64.lt_iff_toInt_lt]
  simp only [total, CarriesPast] at hle ⊢
  rcases t.deadline_cases now with ⟨hlate, h⟩ | ⟨hfits, hsec, hcarry, h⟩ | ⟨hfits, hsec, hcarry, h⟩
    <;> rcases t'.deadline_cases now with
      ⟨hlate', h'⟩ | ⟨hfits', hsec', hcarry', h'⟩ | ⟨hfits', hsec', hcarry', h'⟩
    <;> rw [h, h'] <;> dsimp only <;> omega

/-- The sums of the broker stay within `time_t` and `long`. -/
lemma isInt64_of_mem_deadlineSums (t : Timeout) (hnow : now.Normalised) (hsec : IsInt64 now.sec)
    {sum : ℤ} (h : sum ∈ deadlineSums now t.sec.toInt t.nsec.toInt) : IsInt64 sum := by
  have hbounds := t.bounds
  obtain ⟨hlo, hhi⟩ := hnow
  simp only [deadlineSums, addTimeout, IsInt64] at h hsec ⊢
  split_ifs at h <;> simp only [List.mem_cons, List.not_mem_nil, or_false] at h <;> omega

end Timeout

/-! ### The whole path -/

section Path

variable {semid hasTimeout : Int32} {operations : List SemBuf}

lemma Timeout.Arrives.initializeDeadline_eq {t : Timeout} {received : ProtocolPacket}
    (h : t.Arrives semid operations hasTimeout received) (htimed : hasTimeout ≠ 0)
    (hpos : 1 ≤ operations.length) (hle : operations.length ≤ semMaxPerSet) (now : Timespec) :
    initializeDeadline received (.ok now) = .ok (some (t.deadline now)) := by
  obtain ⟨hopcode, -, hread⟩ := h.carried htimed hpos hle
  have hnonneg : 0 ≤ t.total := by
    have hbounds := t.bounds
    rw [Timeout.total]
    omega
  rw [Tgcompat.initializeDeadline_eq now hopcode (hread ▸ hnonneg), hread, t.total_div, t.total_mod]
  rfl

/-- The timeout of a well-formed call is refused if it does not fit, and otherwise becomes the
broker's deadline without a wrapped sum. The deadline is the sum, saturated, and grows with the
timeout, except where the carry takes it over the last second (or the clock is negative). -/
theorem timeout_becomes_deadline (htimed : hasTimeout ≠ 0) (hpos : 1 ≤ operations.length)
    (hle : operations.length ≤ semMaxPerSet) :
    (∀ t : Timeout,
      (glibcSemtimedopCall semid (some operations) hasTimeout t.sec t.nsec = .error EOVERFLOW ↔
        2 ^ 63 - 1 < t.total) ∧
      (2 ^ 63 - 1 < t.total → ∀ client,
        glibcSemtimedop client semid (some operations) hasTimeout t.sec t.nsec =
          .error EOVERFLOW) ∧
      (Int64.maxValue - t.nsec).toInt = 2 ^ 63 - 1 - t.nsec.toInt ∧
      (t.total ≤ 2 ^ 63 - 1 →
        (t.sec * 1000000000).toInt = t.sec.toInt * 1000000000 ∧
        (t.sec * 1000000000 + t.nsec).toInt = t.total ∧
        ∃ received, t.Arrives semid operations hasTimeout received)) ∧
    (∀ (t : Timeout) received, t.Arrives semid operations hasTimeout received →
      (wireGetI64 received.payload 8).toInt = t.total ∧
      ∀ now : Timespec, now.Normalised →
        ∃ deadline, initializeDeadline received (.ok now) = .ok (some deadline) ∧
          deadline.Normalised ∧
          (IsInt64 now.sec →
            ∀ sum ∈ deadlineSums now t.sec.toInt t.nsec.toInt, IsInt64 sum) ∧
          (deadline = (now.after t).earlier lastDeadline ↔
            ¬ t.CarriesPast now ∧ ¬ t.CutsLate now) ∧
          (deadline.sec ≤ 2147483647 ↔ ¬ t.CarriesPast now)) ∧
    ∀ (t t' : Timeout) received received', t.Arrives semid operations hasTimeout received →
      t'.Arrives semid operations hasTimeout received' → t.total ≤ t'.total →
      ∀ now : Timespec, now.Normalised →
        ∃ deadline deadline', initializeDeadline received (.ok now) = .ok (some deadline) ∧
          initializeDeadline received' (.ok now) = .ok (some deadline') ∧
          (deadline'.reached deadline = true ↔ ¬ (t.CarriesPast now ∧ t.sec < t'.sec)) := by
  refine ⟨?_, ?_, ?_⟩
  · intro t
    have hcall : glibcSemtimedopCall semid (some operations) hasTimeout t.sec t.nsec = _ :=
      t.glibcSemtimedopCall_eq htimed hpos hle
    refine ⟨?_, ?_, t.toInt_room, ?_⟩
    · rw [hcall]
      split_ifs with hlarge
      · exact iff_of_true rfl hlarge
      · exact iff_of_false (fun heq => by cases heq) hlarge
    · intro hlarge client
      rw [glibcSemtimedop, hcall, if_pos hlarge]
      rfl
    · intro hfits
      exact ⟨Timeout.toInt_product hfits, Timeout.toInt_sum hfits,
        Timeout.exists_arrives htimed hpos hle hfits⟩
  · intro t received harrives
    refine ⟨(harrives.carried htimed hpos hle).2.2, ?_⟩
    intro now hnow
    exact ⟨_, harrives.initializeDeadline_eq htimed hpos hle now, t.normalised_deadline hnow,
      fun hsec sum hsum => t.isInt64_of_mem_deadlineSums hnow hsec hsum, t.deadline_eq_iff hnow,
      t.deadline_sec_le_iff now⟩
  · intro t t' received received' harrives harrives' htotal now hnow
    exact ⟨_, _, harrives.initializeDeadline_eq htimed hpos hle now,
      harrives'.initializeDeadline_eq htimed hpos hle now,
      Timeout.deadline_reached_iff hnow htotal⟩

theorem timeout_becomes_deadline_short :
    let t : Timeout := ⟨1, 500000000, by decide, by decide, by decide⟩
    let now : Timespec := ⟨10, 600000000⟩
    ∃ received, t.Arrives 7 [⟨0, -1, 0⟩] 1 received ∧
      ∃ deadline, initializeDeadline received (.ok now) = .ok (some deadline) ∧
        deadline = (now.after t).earlier lastDeadline ∧ deadline.sec ≤ 2147483647 := by
  intro t now
  have h := @timeout_becomes_deadline 7 1 [⟨0, -1, 0⟩] (by decide) (by decide) (by decide)
  obtain ⟨-, -, received, harrives⟩ := (h.1 t).2.2.2 (by decide)
  obtain ⟨deadline, heq, -, -, hexact, hlast⟩ := (h.2.1 t received harrives).2 now (by decide)
  have hcarry : ¬ t.CarriesPast now := by decide
  have hlate : ¬ t.CutsLate now := by decide
  exact ⟨received, harrives, deadline, heq, hexact.mpr ⟨hcarry, hlate⟩, hlast.mpr hcarry⟩

/-- The carry takes the shorter of two timeouts to a second that the clock is not meant to reach,
and to a later deadline than the longer one. -/
theorem timeout_carried_past_last_second :
    let t : Timeout := ⟨2147482647, 1, by decide, by decide, by decide⟩
    let t' : Timeout := ⟨2147482648, 0, by decide, by decide, by decide⟩
    let now : Timespec := ⟨1000, 999999999⟩
    ∃ received received', t.Arrives 7 [⟨0, -1, 0⟩] 1 received ∧
      t'.Arrives 7 [⟨0, -1, 0⟩] 1 received' ∧ t.total < t'.total ∧ now.Normalised ∧
      initializeDeadline received (.ok now) = .ok (some ⟨2147483648, 0⟩) ∧
      (now.after t).earlier lastDeadline = lastDeadline ∧
      initializeDeadline received' (.ok now) = .ok (some lastDeadline) ∧
      lastDeadline.reached ⟨2147483648, 0⟩ = false := by
  intro t t' now
  have hops : 1 ≤ [(⟨0, -1, 0⟩ : SemBuf)].length ∧
      [(⟨0, -1, 0⟩ : SemBuf)].length ≤ semMaxPerSet := by decide
  have htimed : (1 : Int32) ≠ 0 := by decide
  obtain ⟨received, h⟩ : ∃ received, t.Arrives 7 [⟨0, -1, 0⟩] 1 received :=
    Timeout.exists_arrives htimed hops.1 hops.2 (by decide)
  obtain ⟨received', h'⟩ : ∃ received, t'.Arrives 7 [⟨0, -1, 0⟩] 1 received :=
    Timeout.exists_arrives htimed hops.1 hops.2 (by decide)
  refine ⟨received, received', h, h', by decide, by decide, ?_, by decide, ?_, by decide⟩
  · rw [h.initializeDeadline_eq htimed hops.1 hops.2]
    exact congrArg (fun d => Except.ok (some d)) (by decide)
  · rw [h'.initializeDeadline_eq htimed hops.1 hops.2]
    exact congrArg (fun d => Except.ok (some d)) (by decide)

end Path

end Tgcompat
