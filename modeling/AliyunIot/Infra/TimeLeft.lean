import AliyunIot.Infra.Timer

/-!
# The time that is left of a countdown

`iotx_time_left` on a clock that goes on between any two calls of `HAL_UptimeMs`. It answers no
more than what remains exactly if the clock does not pass the deadline between its two readings,
and is not half of its range past the deadline at the first one (`reports_iff`).
-/

namespace AliyunIot.Timer

/-- The milliseconds since the start, at each call of `HAL_UptimeMs`. -/
structure Clock where
  time : Nat → Nat
  mono : ∀ {i j}, i ≤ j → time i ≤ time j

/-- What the call returns, as the timers take it. -/
def Clock.halUptimeMs (clock : Clock) (call : Nat) : UInt32 := UInt32.ofNat (clock.time call)

/-- A countdown that was set at the call `armed`, and that `iotx_time_left` is asked for at the
call `asked`. -/
structure Countdown where
  clock : Clock
  armed : Nat
  asked : Nat
  millisecond : UInt32
  later : armed < asked
  short : millisecond.toNat ≤ 2 ^ 31

namespace Countdown

variable (c : Countdown)

/-- The timer that `utils_time_countdown_ms` has set. -/
def timer : Option IotxTime :=
  utilsTimeCountdownMs (c.clock.halUptimeMs c.armed) (some ⟨0⟩) c.millisecond

/-- What `iotx_time_left` returns; its second reading is the next call. -/
def left : UInt32 :=
  iotxTimeLeft (c.clock.halUptimeMs c.asked) (c.clock.halUptimeMs (c.asked + 1)) c.timer

/-- How long the countdown has run at the first reading. -/
def elapsed : Nat := c.clock.time c.asked - c.clock.time c.armed

/-- How far the clock goes between the readings. -/
def gap : Nat := c.clock.time (c.asked + 1) - c.clock.time c.asked

def remaining : Nat := c.millisecond.toNat - c.elapsed

/-- No more is reported than remains, and nothing once the deadline has passed. -/
structure Reports : Prop where
  bounded : c.left.toNat ≤ c.remaining
  ended : c.millisecond.toNat ≤ c.elapsed → c.left = 0

variable {c}

theorem uptime_asked : c.clock.halUptimeMs c.asked =
    uptimeAfter (c.clock.halUptimeMs c.armed) c.elapsed := by
  have hmono := c.clock.mono (Nat.le_of_lt c.later)
  apply UInt32.toNat_inj.mp
  rw [uptimeAfter_toNat, Clock.halUptimeMs, Clock.halUptimeMs, UInt32.toNat_ofNat',
    UInt32.toNat_ofNat', elapsed]
  omega

theorem uptime_second : c.clock.halUptimeMs (c.asked + 1) =
    uptimeAfter (c.clock.halUptimeMs c.armed) (c.elapsed + c.gap) := by
  have hmono := c.clock.mono (Nat.le_of_lt c.later)
  have hgap : c.clock.time c.asked ≤ c.clock.time (c.asked + 1) := c.clock.mono (Nat.le_succ _)
  apply UInt32.toNat_inj.mp
  rw [uptimeAfter_toNat, Clock.halUptimeMs, Clock.halUptimeMs, UInt32.toNat_ofNat',
    UInt32.toNat_ofNat', elapsed, gap]
  omega

theorem expired_iff : utilsTimeIsExpired (c.clock.halUptimeMs c.asked) c.timer = 1 ↔
    c.millisecond.toNat ≤ c.elapsed ∧ (c.elapsed - c.millisecond.toNat) % 2 ^ 32 < 2 ^ 31 - 1 := by
  have hdist := uptimeAfter_sub (c.clock.halUptimeMs c.armed) c.millisecond c.elapsed
  have hshort := c.short
  rw [uptime_asked]
  apply (utilsTimeIsExpired_iff _ ⟨c.clock.halUptimeMs c.armed + c.millisecond⟩).trans
  show (uptimeAfter (c.clock.halUptimeMs c.armed) c.elapsed -
    (c.clock.halUptimeMs c.armed + c.millisecond)).toNat < 2147483647 ↔ _
  omega

theorem left_of_not_expired (h : utilsTimeIsExpired (c.clock.halUptimeMs c.asked) c.timer ≠ 1) :
    (c.left.toNat : Int) = ((c.millisecond.toNat : Int) - (c.elapsed + c.gap)) % 2 ^ 32 := by
  have hdist := uptimeAfter_sub (c.clock.halUptimeMs c.armed) c.millisecond (c.elapsed + c.gap)
  have hzero : utilsTimeIsExpired (c.clock.halUptimeMs c.asked) c.timer = 0 := by
    unfold timer utilsTimeCountdownMs utilsTimeIsExpired at h ⊢
    simp only [Option.map_some] at h ⊢
    split at h
    · exact absurd rfl h
    · next hlate => exact if_neg hlate
  have hleft : c.left = c.clock.halUptimeMs c.armed + c.millisecond -
      c.clock.halUptimeMs (c.asked + 1) := if_neg (not_not.mpr hzero)
  rw [hleft, uptime_second]
  rw [UInt32.toNat_sub] at hdist ⊢
  have hlt := (uptimeAfter (c.clock.halUptimeMs c.armed) (c.elapsed + c.gap)).toNat_lt
  have hlt' := (c.clock.halUptimeMs c.armed + c.millisecond).toNat_lt
  omega

theorem left_of_expired
    (h : utilsTimeIsExpired (c.clock.halUptimeMs c.asked) c.timer = 1) : c.left = 0 := by
  refine if_pos ?_
  have hone : utilsTimeIsExpired (c.clock.halUptimeMs c.asked) c.timer ≠ 0 := by
    rw [h]
    decide
  exact hone

/-- What is reported of a countdown is right as long as its readings lie on one side of the
deadline, less than half of the range behind it. -/
theorem reports_iff (c : Countdown) : c.Reports ↔
    (c.elapsed < c.millisecond.toNat ∧ c.gap % 2 ^ 32 ≤ c.remaining) ∨
      (c.millisecond.toNat ≤ c.elapsed ∧
        ((c.elapsed - c.millisecond.toNat) % 2 ^ 32 < 2 ^ 31 - 1 ∨
          (c.elapsed + c.gap) % 2 ^ 32 = c.millisecond.toNat)) := by
  have hshort := c.short
  have hexpired := c.expired_iff
  by_cases h : utilsTimeIsExpired (c.clock.halUptimeMs c.asked) c.timer = 1
  · have hpassed := hexpired.mp h
    refine iff_of_true ⟨?_, fun _ => left_of_expired h⟩ (.inr ⟨hpassed.1, .inl hpassed.2⟩)
    rw [left_of_expired h]
    exact Nat.zero_le _
  · have hleft := left_of_not_expired h
    have hnot := mt hexpired.mpr h
    have hzero : c.left = 0 ↔ c.left.toNat = 0 := UInt32.toNat_inj.symm
    have hreports : c.Reports ↔ c.left.toNat ≤ c.remaining ∧
        (c.millisecond.toNat ≤ c.elapsed → c.left.toNat = 0) := by
      rw [← hzero]
      exact ⟨fun h => ⟨h.bounded, h.ended⟩, fun h => ⟨h.1, h.2⟩⟩
    rw [hreports, remaining]
    omega

/-- A countdown of one millisecond, over which the clock goes between the readings. -/
def passedOver : Countdown where
  clock := ⟨fun call => if call < 2 then 0 else 2, fun {i j} h => by split <;> split <;> omega⟩
  armed := 0
  asked := 1
  millisecond := 1
  later := by decide
  short := by decide

/-- More than 49 days are left of it. -/
theorem passedOver_reported : passedOver.remaining = 1 ∧ passedOver.left = 0xFFFFFFFF ∧
    ¬ passedOver.Reports := by
  refine ⟨by decide, by decide, fun h => ?_⟩
  exact absurd h.bounded (by decide)

end Countdown

end AliyunIot.Timer
