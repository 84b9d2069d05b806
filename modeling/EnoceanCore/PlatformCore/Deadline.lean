import EnoceanCore.PlatformCore.MessageQueue

/-!
# Deadlines

`ms_to_timespec` for any width of `time_t` and `long` (`TimeTypes`), with every intermediate
result checked. No result is out of range, the deadline is normalised and never earlier than now.

It is to be the earlier of the current time plus the timeout and the last time there is
(`exactDeadline`). Near that last time it is not: the function clips the seconds and leaves the
nanoseconds alone, or returns the last time for a deadline that can still be represented. The
deadline is exact if and only if neither happens (`deadline_iff`).
-/

namespace EnoceanCore.PlatformCore

/-! ## Arithmetic with limits -/

/-- The greatest `time_t` and the greatest `long`, of at least 32 bits. -/
structure TimeTypes where
  maxSec : Int
  maxLong : Int
  maxSec_ge : 2147483647 ≤ maxSec
  maxLong_ge : 2147483647 ≤ maxLong

namespace TimeTypes

/-- `time_t` and `long` of 64 bits. -/
def lp64 : TimeTypes := ⟨9223372036854775807, 9223372036854775807, by omega, by omega⟩

/-- `time_t` and `long` of 32 bits. -/
def ilp32 : TimeTypes := ⟨2147483647, 2147483647, by omega, by omega⟩

variable (types : TimeTypes)

/-- A result of type `time_t`, unless it overflows. -/
def sec (x : Int) : Option Int :=
  if -types.maxSec - 1 ≤ x ∧ x ≤ types.maxSec then some x else none

/-- A result of type `long`, unless it overflows. -/
def long (x : Int) : Option Int :=
  if -types.maxLong - 1 ≤ x ∧ x ≤ types.maxLong then some x else none

theorem sec_eq {x : Int} (hlo : 0 ≤ x) (hhi : x ≤ types.maxSec) : types.sec x = some x := by
  have hmax := types.maxSec_ge
  exact if_pos ⟨by omega, hhi⟩

theorem long_eq {x : Int} (hlo : 0 ≤ x) (hhi : x ≤ 2147483647) : types.long x = some x := by
  have hmax := types.maxLong_ge
  exact if_pos ⟨by omega, by omega⟩

end TimeTypes

/-- The whole seconds of a timeout. -/
def addSec (timeoutMs : UInt32) : Int := (timeoutMs / 1000).toNat

/-- The rest of a timeout, in nanoseconds. -/
def addNsec (timeoutMs : UInt32) : Int := (timeoutMs % 1000 * 1000000).toNat

/-- `ms_to_timespec`; there is no result if an intermediate one overflows. -/
def msToTimespecChecked (types : TimeTypes) (now : Timespec) (timeoutMs : UInt32) :
    Option Timespec := do
  let addSec ← types.sec (addSec timeoutMs)
  let addNsec ← types.long (addNsec timeoutMs)
  let room ← types.sec (types.maxSec - now.tvSec)
  if room ≤ 0 then return { tvSec := types.maxSec, tvNsec := 999999999 }
  let safeSec := if addSec > room then room else addSec
  let sec ← types.sec (now.tvSec + safeSec)
  let nsec ← types.long (now.tvNsec + addNsec)
  if nsec ≥ 1000000000 then
    if sec < types.maxSec then
      let sec ← types.sec (sec + 1)
      let nsec ← types.long (nsec - 1000000000)
      return { tvSec := sec, tvNsec := nsec }
    else return { tvSec := sec, tvNsec := 999999999 }
  else return { tvSec := sec, tvNsec := nsec }

/-! ## What is expected -/

/-- A time of the clock, in nanoseconds. -/
def Timespec.nanos (t : Timespec) : Int := t.tvSec * 1000000000 + t.tvNsec

/-- The normalised time of so many nanoseconds. -/
def Timespec.ofNanos (n : Int) : Timespec := ⟨n / 1000000000, n % 1000000000⟩

/-- A time that the clock can show. -/
structure Timespec.Valid (types : TimeTypes) (t : Timespec) : Prop where
  sec_nonneg : 0 ≤ t.tvSec
  sec_le : t.tvSec ≤ types.maxSec
  nsec_nonneg : 0 ≤ t.tvNsec
  nsec_le : t.tvNsec ≤ 999999999

/-- The last time there is. -/
def lastTime (types : TimeTypes) : Timespec := ⟨types.maxSec, 999999999⟩

/-- The earlier of now plus the timeout and the last time. -/
def exactDeadline (types : TimeTypes) (now : Timespec) (timeoutMs : UInt32) : Timespec :=
  .ofNanos (min (now.nanos + timeoutMs.toNat * 1000000) (lastTime types).nanos)

/-- The nanoseconds reach the last time, or the seconds do not have to be clipped. -/
def Unclipped (types : TimeTypes) (now : Timespec) (timeoutMs : UInt32) : Prop :=
  999999999 ≤ now.tvNsec + addNsec timeoutMs ∨
    if now.tvSec = types.maxSec then 0 < addSec timeoutMs
    else now.tvSec + addSec timeoutMs ≤ types.maxSec

instance (types : TimeTypes) (now : Timespec) (timeoutMs : UInt32) :
    Decidable (Unclipped types now timeoutMs) :=
  inferInstanceAs (Decidable (_ ∨ ite _ _ _))

/-! ## The deadline -/

section Deadline

variable {types : TimeTypes} {now : Timespec} {timeoutMs : UInt32}

/-- The timeout is its seconds and its nanoseconds, and both are small. -/
theorem timeout_parts (timeoutMs : UInt32) :
    (timeoutMs.toNat : Int) * 1000000 = addSec timeoutMs * 1000000000 + addNsec timeoutMs ∧
      0 ≤ addSec timeoutMs ∧ addSec timeoutMs ≤ 4294967 ∧ 0 ≤ addNsec timeoutMs ∧
      addNsec timeoutMs ≤ 999000000 := by
  have hlt := timeoutMs.toNat_lt
  have hsec : (timeoutMs / 1000).toNat = timeoutMs.toNat / 1000 := by
    rw [UInt32.toNat_div]
    rfl
  have hnsec : (timeoutMs % 1000 * 1000000).toNat = timeoutMs.toNat % 1000 * 1000000 := by
    rw [UInt32.toNat_mul, UInt32.toNat_mod]
    show timeoutMs.toNat % 1000 * 1000000 % 2 ^ 32 = _
    omega
  rw [addSec, addNsec, hsec, hnsec]
  omega

/-- What `ms_to_timespec` returns. -/
inductive DeadlineCase (types : TimeTypes) (now : Timespec) (timeoutMs : UInt32) :
    Timespec → Prop
  /-- The clock shows the last second already. -/
  | last (hsec : now.tvSec = types.maxSec) :
      DeadlineCase types now timeoutMs ⟨types.maxSec, 999999999⟩
  /-- The timeout ends before the last second is over. -/
  | sum (hsec : now.tvSec < types.maxSec) (hroom : now.tvSec + addSec timeoutMs ≤ types.maxSec)
      (hnsec : now.tvNsec + addNsec timeoutMs < 1000000000) :
      DeadlineCase types now timeoutMs
        ⟨now.tvSec + addSec timeoutMs, now.tvNsec + addNsec timeoutMs⟩
  /-- The same, with a carry. -/
  | carry (hroom : now.tvSec + addSec timeoutMs < types.maxSec)
      (hnsec : 1000000000 ≤ now.tvNsec + addNsec timeoutMs) :
      DeadlineCase types now timeoutMs
        ⟨now.tvSec + addSec timeoutMs + 1, now.tvNsec + addNsec timeoutMs - 1000000000⟩
  /-- The seconds are clipped and the nanoseconds are not. -/
  | clipped (hsec : now.tvSec < types.maxSec)
      (hroom : types.maxSec < now.tvSec + addSec timeoutMs)
      (hnsec : now.tvNsec + addNsec timeoutMs < 1000000000) :
      DeadlineCase types now timeoutMs ⟨types.maxSec, now.tvNsec + addNsec timeoutMs⟩
  /-- The carry would be past the last second. -/
  | saturated (hsec : now.tvSec < types.maxSec)
      (hroom : types.maxSec ≤ now.tvSec + addSec timeoutMs)
      (hnsec : 1000000000 ≤ now.tvNsec + addNsec timeoutMs) :
      DeadlineCase types now timeoutMs ⟨types.maxSec, 999999999⟩

/-- Nothing overflows on the way. -/
theorem deadline_cases (h : now.Valid types) (timeoutMs : UInt32) :
    ∃ r, msToTimespecChecked types now timeoutMs = some r ∧
      DeadlineCase types now timeoutMs r := by
  obtain ⟨hsec0, hsec1, hnsec0, hnsec1⟩ := h
  obtain ⟨-, hs0, hs1, hn0, hn1⟩ := timeout_parts timeoutMs
  have hmax := types.maxSec_ge
  rw [msToTimespecChecked, types.sec_eq hs0 (by omega), types.long_eq hn0 (by omega),
    types.sec_eq (x := types.maxSec - now.tvSec) (by omega) (by omega)]
  simp only [Option.bind_eq_bind, Option.bind_some]
  by_cases hlast : types.maxSec - now.tvSec ≤ 0
  · rw [if_pos hlast]
    exact ⟨_, rfl, .last (by omega)⟩
  rw [if_neg hlast, types.long_eq (x := now.tvNsec + addNsec timeoutMs) (by omega) (by omega)]
  by_cases hroom : addSec timeoutMs > types.maxSec - now.tvSec
  · -- the seconds are clipped
    have hsum : now.tvSec + (types.maxSec - now.tvSec) = types.maxSec := by
      omega
    rw [if_pos hroom, hsum, types.sec_eq (x := types.maxSec) (by omega) (by omega)]
    simp only [Option.bind_some]
    by_cases hcarry : now.tvNsec + addNsec timeoutMs ≥ 1000000000
    · rw [if_pos hcarry, if_neg (by omega)]
      exact ⟨_, rfl, .saturated (by omega) (by omega) hcarry⟩
    · rw [if_neg hcarry]
      exact ⟨_, rfl, .clipped (by omega) (by omega) (by omega)⟩
  · rw [if_neg hroom, types.sec_eq (x := now.tvSec + addSec timeoutMs) (by omega) (by omega)]
    simp only [Option.bind_some]
    by_cases hcarry : now.tvNsec + addNsec timeoutMs ≥ 1000000000
    · rw [if_pos hcarry]
      by_cases hend : now.tvSec + addSec timeoutMs < types.maxSec
      · rw [if_pos hend, types.sec_eq (by omega) (by omega), types.long_eq (by omega) (by omega)]
        exact ⟨_, rfl, .carry hend hcarry⟩
      · have hsum : now.tvSec + addSec timeoutMs = types.maxSec := by
          omega
        rw [if_neg hend, hsum]
        exact ⟨_, rfl, .saturated (by omega) (by omega) hcarry⟩
    · rw [if_neg hcarry]
      exact ⟨_, rfl, .sum (by omega) (by omega) (by omega)⟩

/-- What every deadline is: normalised, a time of the clock, and not earlier than now. -/
structure Sane (types : TimeTypes) (now r : Timespec) : Prop where
  valid : r.Valid types
  later : now.nanos ≤ r.nanos

theorem sane_mk {sec nsec : Int}
    (hvalid : 0 ≤ sec ∧ sec ≤ types.maxSec ∧ 0 ≤ nsec ∧ nsec ≤ 999999999)
    (hlater : now.tvSec * 1000000000 + now.tvNsec ≤ sec * 1000000000 + nsec) :
    Sane types now ⟨sec, nsec⟩ := by
  obtain ⟨hsec0, hsec1, hnsec0, hnsec1⟩ := hvalid
  exact ⟨⟨hsec0, hsec1, hnsec0, hnsec1⟩, hlater⟩

theorem DeadlineCase.sane (h : now.Valid types) {r : Timespec}
    (hr : DeadlineCase types now timeoutMs r) : Sane types now r := by
  obtain ⟨hsec0, hsec1, hnsec0, hnsec1⟩ := h
  obtain ⟨-, hs0, hs1, hn0, hn1⟩ := timeout_parts timeoutMs
  have hmax := types.maxSec_ge
  cases hr with
  | last hsec => exact sane_mk (by omega) (by omega)
  | sum hsec hroom hnsec => exact sane_mk (by omega) (by omega)
  | carry hroom hnsec => exact sane_mk (by omega) (by omega)
  | clipped hsec hroom hnsec => exact sane_mk (by omega) (by omega)
  | saturated hsec hroom hnsec => exact sane_mk (by omega) (by omega)

/-- A normalised time is known by its nanoseconds. -/
theorem mk_eq_ofNanos_iff {sec nsec : Int} (hlo : 0 ≤ nsec) (hhi : nsec ≤ 999999999) (n : Int) :
    (⟨sec, nsec⟩ : Timespec) = .ofNanos n ↔ sec * 1000000000 + nsec = n := by
  rw [Timespec.ofNanos, Timespec.mk.injEq]
  omega

/-- The exact deadline in the parts of the timeout. -/
theorem mk_eq_exactDeadline_iff {sec nsec : Int} (hlo : 0 ≤ nsec) (hhi : nsec ≤ 999999999) :
    ⟨sec, nsec⟩ = exactDeadline types now timeoutMs ↔
      sec * 1000000000 + nsec =
        min (now.tvSec * 1000000000 + now.tvNsec +
          (addSec timeoutMs * 1000000000 + addNsec timeoutMs))
          (types.maxSec * 1000000000 + 999999999) := by
  rw [exactDeadline, mk_eq_ofNanos_iff hlo hhi, (timeout_parts timeoutMs).1]
  rfl

/-- A deadline is exact if and only if nothing is clipped. -/
theorem DeadlineCase.exact_iff (h : now.Valid types) {r : Timespec}
    (hr : DeadlineCase types now timeoutMs r) :
    r = exactDeadline types now timeoutMs ↔ Unclipped types now timeoutMs := by
  obtain ⟨hsec0, hsec1, hnsec0, hnsec1⟩ := h
  obtain ⟨-, hs0, hs1, hn0, hn1⟩ := timeout_parts timeoutMs
  unfold Unclipped
  cases hr with
  | last hsec =>
    rw [mk_eq_exactDeadline_iff (by omega) (by omega), if_pos hsec]
    omega
  | sum hsec hroom hnsec =>
    rw [mk_eq_exactDeadline_iff (by omega) (by omega), if_neg (by omega)]
    omega
  | carry hroom hnsec =>
    rw [mk_eq_exactDeadline_iff (by omega) (by omega), if_neg (by omega)]
    omega
  | clipped hsec hroom hnsec =>
    rw [mk_eq_exactDeadline_iff (by omega) (by omega), if_neg (by omega)]
    omega
  | saturated hsec hroom hnsec =>
    rw [mk_eq_exactDeadline_iff (by omega) (by omega), if_neg (by omega)]
    omega

/-- Exact deadlines are monotone in the timeout. -/
theorem exactDeadline_mono {timeoutMs timeoutMs' : UInt32} (h : timeoutMs ≤ timeoutMs') :
    (exactDeadline types now timeoutMs).nanos ≤ (exactDeadline types now timeoutMs').nanos := by
  have hle : timeoutMs.toNat ≤ timeoutMs'.toNat := UInt32.le_iff_toNat_le.mp h
  simp only [exactDeadline, Timespec.ofNanos, Timespec.nanos, lastTime]
  omega

/-- The deadline of the queues, for a `time_t` of 64 bits. -/
theorem DeadlineCase.eq_msToTimespec (h : now.Valid .lp64) {r : Timespec}
    (hr : DeadlineCase .lp64 now timeoutMs r) :
    r = Posix.MessageQueue.msToTimespec now timeoutMs := by
  obtain ⟨hsec0, hsec1, hnsec0, hnsec1⟩ := h
  have hmax : TimeTypes.lp64.maxSec = 9223372036854775807 := rfl
  have hs : ((timeoutMs / 1000).toNat : Int) = addSec timeoutMs := rfl
  have hn : ((timeoutMs % 1000 * 1000000).toNat : Int) = addNsec timeoutMs := rfl
  unfold Posix.MessageQueue.msToTimespec
  rw [hmax] at hsec1
  simp only [hs, hn, Posix.MessageQueue.maxSec]
  have hkept : now.tvSec + addSec timeoutMs ≤ 9223372036854775807 →
      (if addSec timeoutMs > 9223372036854775807 - now.tvSec
        then 9223372036854775807 - now.tvSec else addSec timeoutMs) = addSec timeoutMs :=
    fun hroom => if_neg (by omega)
  have hclipped : 9223372036854775807 ≤ now.tvSec + addSec timeoutMs →
      now.tvSec + (if addSec timeoutMs > 9223372036854775807 - now.tvSec
        then 9223372036854775807 - now.tvSec else addSec timeoutMs) = 9223372036854775807 := by
    intro hroom
    split
    all_goals omega
  cases hr with
  | last hsec =>
    rw [if_pos (by omega)]
    rfl
  | sum hsec hroom hnsec =>
    rw [hkept hroom, if_neg (by omega), if_neg (by omega)]
  | carry hroom hnsec =>
    rw [hkept (by omega), if_neg (by omega), if_pos (by omega), if_pos (by omega)]
  | clipped hsec hroom hnsec =>
    rw [hclipped (by omega), if_neg (by omega), if_neg (by omega), hmax]
  | saturated hsec hroom hnsec =>
    rw [hclipped (by omega), if_neg (by omega), if_pos (by omega), if_neg (by omega), hmax]

/-- **Deadlines.** From every time of the clock and for every timeout, no intermediate result of
`ms_to_timespec` overflows, the deadline is normalised, can be represented and is not earlier
than now. It is the earlier of now plus the timeout and the last time there is if and only if
nothing is clipped, and deadlines where nothing is clipped are monotone in the timeout. The
queues compute the deadline in this way with a `time_t` of 64 bits. -/
theorem deadline_iff (types : TimeTypes) {now : Timespec} (h : now.Valid types)
    (timeoutMs : UInt32) :
    ∃ r, msToTimespecChecked types now timeoutMs = some r ∧ Sane types now r ∧
      (r = exactDeadline types now timeoutMs ↔ Unclipped types now timeoutMs) ∧
      (∀ timeoutMs' r', timeoutMs ≤ timeoutMs' →
        msToTimespecChecked types now timeoutMs' = some r' → Unclipped types now timeoutMs →
        Unclipped types now timeoutMs' → r.nanos ≤ r'.nanos) ∧
      (types = .lp64 → r = Posix.MessageQueue.msToTimespec now timeoutMs) := by
  obtain ⟨r, hr, hcase⟩ := deadline_cases h timeoutMs
  refine ⟨r, hr, hcase.sane h, hcase.exact_iff h, ?_, ?_⟩
  · intro timeoutMs' r' hle hr' hkept hkept'
    obtain ⟨r'', hr'', hcase'⟩ := deadline_cases h timeoutMs'
    obtain rfl : r' = r'' := Option.some.inj (hr'.symm.trans hr'')
    rw [(hcase.exact_iff h).mpr hkept, (hcase'.exact_iff h).mpr hkept']
    exact exactDeadline_mono hle
  · intro htypes
    subst htypes
    exact hcase.eq_msToTimespec h

end Deadline

/-- A second and a half from a time far from the last one. -/
theorem deadline_iff_far :
    ∃ r, msToTimespecChecked .lp64 ⟨1700000000, 600000000⟩ 1500 = some r ∧
      r = ⟨1700000002, 100000000⟩ ∧ r = exactDeadline .lp64 ⟨1700000000, 600000000⟩ 1500 := by
  have hvalid : Timespec.Valid .lp64 ⟨1700000000, 600000000⟩ := by
    refine ⟨?_, ?_, ?_, ?_⟩
    all_goals decide
  obtain ⟨r, hr, -, hiff, -, -⟩ := deadline_iff .lp64 hvalid 1500
  have hexact : r = exactDeadline .lp64 ⟨1700000000, 600000000⟩ 1500 := hiff.mpr (by decide)
  have heval : exactDeadline .lp64 ⟨1700000000, 600000000⟩ 1500 = ⟨1700000002, 100000000⟩ := rfl
  exact ⟨r, hr, hexact.trans heval, hexact⟩

/-- A second before the last second of 32 bits, two seconds of timeout end a whole second before
the last time, and before the deadline of a second and a half. -/
theorem not_deadline_last_date :
    Timespec.Valid .ilp32 ⟨2147483646, 0⟩ ∧
      msToTimespecChecked .ilp32 ⟨2147483646, 0⟩ 2000 = some ⟨2147483647, 0⟩ ∧
      ⟨2147483647, 0⟩ ≠ exactDeadline .ilp32 ⟨2147483646, 0⟩ 2000 ∧
      msToTimespecChecked .ilp32 ⟨2147483646, 0⟩ 1500 = some ⟨2147483647, 500000000⟩ := by
  refine ⟨⟨?_, ?_, ?_, ?_⟩, ?_, ?_, ?_⟩
  all_goals decide

end EnoceanCore.PlatformCore
