import Mathlib.Data.UInt

/-!
# Timers over the wrapping uptime

`infra_timer.c`. `HAL_UptimeMs` counts milliseconds in 32 bits and wraps, so a
timer is compared by the modular distance to it. Each function takes what
`HAL_UptimeMs` answers as a parameter.
-/

namespace AliyunIot.Timer

structure IotxTime where
  time : UInt32

abbrev uint32Max : UInt32 := 0xFFFFFFFF

/-- The uptime counter `d` milliseconds after it read `t`. -/
def uptimeAfter (t : UInt32) (d : Nat) : UInt32 := t + UInt32.ofNat d

def iotxTimeStart (uptime : UInt32) (timer : Option IotxTime) : Option IotxTime :=
  timer.map fun _ => ⟨uptime⟩

def utilsTimeCountdownMs (uptime : UInt32) (timer : Option IotxTime) (millisecond : UInt32) :
    Option IotxTime :=
  timer.map fun _ => ⟨uptime + millisecond⟩

def utilsTimeSpend (uptime : UInt32) : Option IotxTime → UInt32
  | none => 0
  | some start => uptime - start.time

def utilsTimeIsExpired (uptime : UInt32) : Option IotxTime → UInt32
  | none => 1
  | some timer => if uptime - timer.time < uint32Max / 2 then 1 else 0

/-- `iotx_time_left` reads the uptime twice: `curTime` is what
`utils_time_is_expired` sees, `now` the second reading. -/
def iotxTimeLeft (curTime now : UInt32) : Option IotxTime → UInt32
  | none => 0
  | some timer =>
    if utilsTimeIsExpired curTime (some timer) ≠ 0 then 0 else timer.time - now

/-! ## Distances -/

theorem uptimeAfter_toNat (t : UInt32) (d : Nat) :
    (uptimeAfter t d).toNat = (t.toNat + d) % 4294967296 := by
  rw [uptimeAfter, UInt32.toNat_add, UInt32.toNat_ofNat']
  omega

theorem uptimeAfter_sub (t ms : UInt32) (d : Nat) :
    ((uptimeAfter t d - (t + ms)).toNat : Int) = ((d : Int) - ms.toNat) % 4294967296 := by
  rw [UInt32.toNat_sub, uptimeAfter_toNat, UInt32.toNat_add]
  have ht := t.toNat_lt
  have hm := ms.toNat_lt
  omega

theorem spend_started (t : UInt32) (timer : IotxTime) (d : Nat) :
    (utilsTimeSpend (uptimeAfter t d) (iotxTimeStart t (some timer))).toNat = d % 4294967296 := by
  have h := uptimeAfter_sub t 0 d
  rw [UInt32.add_zero, UInt32.toNat_zero] at h
  have : (uptimeAfter t d - t).toNat = d % 4294967296 := by omega
  exact this

theorem spend_countdown (t ms : UInt32) (timer : IotxTime) (d : Nat) :
    ((utilsTimeSpend (uptimeAfter t d) (utilsTimeCountdownMs t (some timer) ms)).toNat : Int)
      = ((d : Int) - ms.toNat) % 4294967296 :=
  uptimeAfter_sub t ms d

theorem utilsTimeIsExpired_iff (uptime : UInt32) (timer : IotxTime) :
    utilsTimeIsExpired uptime (some timer) = 1 ↔ (uptime - timer.time).toNat < 2147483647 := by
  have hlt : uptime - timer.time < uint32Max / 2 ↔ (uptime - timer.time).toNat < 2147483647 :=
    UInt32.lt_iff_toNat_lt
  rw [utilsTimeIsExpired]
  split
  · rename_i h; simp only [hlt.mp h]
  · rename_i h; simp only [hlt.not.mp h]; decide

theorem expired_countdown (t ms : UInt32) (timer : IotxTime) (d : Nat) (hms : ms.toNat ≤ 2 ^ 31)
    (hd : d < ms.toNat + (2 ^ 31 - 1)) :
    utilsTimeIsExpired (uptimeAfter t d) (utilsTimeCountdownMs t (some timer) ms) = 1 ↔
      ms.toNat ≤ d := by
  have hdist := uptimeAfter_sub t ms d
  apply (utilsTimeIsExpired_iff (uptimeAfter t d) ⟨t + ms⟩).trans
  show (uptimeAfter t d - (t + ms)).toNat < 2147483647 ↔ _
  omega

/-! ## Countdown -/

/-- Across the wrap of the uptime, a countdown expires when its interval has
passed. `utils_time_spend` measures from the time stored in the timer: from the
deadline for a countdown, from the start for a started timer. -/
theorem countdown_survives_wrap (t ms : UInt32) (timer : IotxTime) (d : Nat)
    (hms : ms.toNat ≤ 2 ^ 31) (hd : d < ms.toNat + (2 ^ 31 - 1)) :
    (utilsTimeIsExpired (uptimeAfter t d) (utilsTimeCountdownMs t (some timer) ms) = 1 ↔
      ms.toNat ≤ d) ∧
    ((utilsTimeSpend (uptimeAfter t d) (utilsTimeCountdownMs t (some timer) ms)).toNat : Int)
      = ((d : Int) - ms.toNat) % 2 ^ 32 ∧
    (utilsTimeSpend (uptimeAfter t d) (iotxTimeStart t (some timer))).toNat = d % 2 ^ 32 := by
  refine ⟨expired_countdown t ms timer d hms hd, ?_, spend_started t timer d⟩
  exact spend_countdown t ms timer d

theorem countdown_survives_wrap_late :
    utilsTimeIsExpired (uptimeAfter 0xFFFFFFF0 40)
      (utilsTimeCountdownMs 0xFFFFFFF0 (some ⟨0⟩) 32) = 1 := by
  have h := countdown_survives_wrap 0xFFFFFFF0 32 ⟨0⟩ 40 (by decide) (by decide)
  apply h.1.mpr
  decide

/-- Seven milliseconds into a countdown of five, `utils_time_spend` answers two;
and half the range past its deadline a countdown no longer counts as expired. -/
theorem countdown_spend_counts_from_deadline :
    utilsTimeSpend (uptimeAfter 0xFFFFFFFE 7) (utilsTimeCountdownMs 0xFFFFFFFE (some ⟨0⟩) 5) = 2 ∧
    utilsTimeIsExpired (uptimeAfter 0 2147483648)
      (utilsTimeCountdownMs 0 (some ⟨0⟩) 1) = 0 := by
  decide

end AliyunIot.Timer
