import Mathlib.Algebra.Order.Floor.Div
import Perfacet.Backend.HttpMcpBackend

/-!
# The timeout of a post

`HttpMcpBackend::callBlocking` reads the clock once to see whether the deadline has passed and once
more to compute how many seconds remain. What remains is a difference of unsigned numbers, and the
seconds are narrowed to an `int`.

## Main definitions

* `HttpMcpBackend.timeoutSec` — the timeout that the post is given
* `HttpMcpBackend.FollowsDeadline` — the whole seconds that remain, and at least one
* `HttpMcpBackend.TimeoutFits` — neither the difference nor the narrowing goes wrong

## Main results

* `HttpMcpBackend.followsDeadline_iff` — the timeout follows the deadline exactly then
-/

namespace Perfacet.HttpMcpBackend

/-- The timeout of the post in `callBlocking`, whose second reading of the clock is `clk 2`. -/
def timeoutSec (bc : BackendCall) (clk : Clock) : Int32 :=
  if 0 < bc.deadlineMs then
    let rem := bc.deadlineMs - clk 2
    let timeoutSec := ((rem + 999) / 1000).toUInt32.toInt32
    if timeoutSec < 1 then 1 else timeoutSec
  else 30

/-- The whole seconds until the deadline, and at least one; never less than what remains. -/
structure FollowsDeadline (deadlineMs now : UInt64) (sec : Int32) : Prop where
  value : sec.toInt =
    if now < deadlineMs then max 1 (((deadlineMs.toNat - now.toNat) ⌈/⌉ 1000 : ℕ) : ℤ) else 1
  positive : 1 ≤ sec.toInt
  covers : now < deadlineMs → ((deadlineMs.toNat - now.toNat : ℕ) : ℤ) ≤ 1000 * sec.toInt

/-- Ahead of the deadline, the seconds that remain are an `int`. Behind it, less than a second has
passed, or the difference, which has wrapped, leaves no `int` above one. -/
def TimeoutFits (deadlineMs now : UInt64) : Prop :=
  if now < deadlineMs then deadlineMs.toNat - now.toNat ≤ 2147483647000
  else
    let late := now.toNat - deadlineMs.toNat
    let low := (2 ^ 64 + 999 - late) / 1000 % 2 ^ 32
    late < 1000 ∨ low ≤ 1 ∨ 2 ^ 31 ≤ low

instance (deadlineMs now : UInt64) : Decidable (TimeoutFits deadlineMs now) := by
  unfold TimeoutFits
  infer_instance

/-! ## The narrowing -/

/-- What the `int` is made of: its 32 low bits, unless they are zero or negative. -/
theorem narrowed_toInt (q : UInt64) :
    (if q.toUInt32.toInt32 < 1 then 1 else q.toUInt32.toInt32).toInt =
      if 1 ≤ q.toNat % 2 ^ 32 ∧ q.toNat % 2 ^ 32 < 2 ^ 31 then ((q.toNat % 2 ^ 32 : ℕ) : ℤ)
      else 1 := by
  have bits : q.toUInt32.toInt32.toInt =
      if 2 * q.toUInt32.toNat < 2 ^ 32 then (q.toUInt32.toNat : ℤ)
      else q.toUInt32.toNat - (2 ^ 32 : ℕ) :=
    BitVec.toInt_eq_toNat_cond q.toUInt32.toBitVec
  rw [UInt64.toNat_toUInt32] at bits
  have one : (1 : Int32).toInt = 1 := rfl
  rw [apply_ite Int32.toInt, bits, one]
  simp only [Int32.lt_iff_toInt_lt, bits, one]
  have low : q.toNat % 2 ^ 32 < 2 ^ 32 := Nat.mod_lt _ (by decide)
  split_ifs <;> omega

variable {bc : BackendCall} {clk : Clock}

/-- The timeout, in terms of the difference of the deadline and the clock. -/
theorem timeoutSec_toInt (posted : 0 < bc.deadlineMs) :
    (timeoutSec bc clk).toInt =
      let low : ℕ := ((bc.deadlineMs - clk 2).toNat + 999) % 2 ^ 64 / 1000 % 2 ^ 32
      if 1 ≤ low ∧ low < 2 ^ 31 then (low : ℤ) else 1 := by
  have whole : ((bc.deadlineMs - clk 2 + 999) / 1000).toNat =
      ((bc.deadlineMs - clk 2).toNat + 999) % 2 ^ 64 / 1000 := by
    rw [UInt64.toNat_div, UInt64.toNat_add]
    rfl
  rw [timeoutSec, if_pos posted]
  dsimp only
  rw [narrowed_toInt, whole]

/-- Ahead of the deadline, the seconds are right as long as they are an `int`. -/
theorem timeoutSec_ahead (ahead : clk 2 < bc.deadlineMs)
    (fits : bc.deadlineMs.toNat - (clk 2).toNat ≤ 2147483647000) :
    (timeoutSec bc clk).toInt =
      max 1 (((bc.deadlineMs.toNat - (clk 2).toNat) ⌈/⌉ 1000 : ℕ) : ℤ) := by
  have posted : 0 < bc.deadlineMs := UInt64.pos_iff_ne_zero.mpr fun zero => by simp [zero] at ahead
  have rem := UInt64.toNat_sub_of_le _ _ (UInt64.le_of_lt ahead)
  have positive := UInt64.lt_iff_toNat_lt.mp ahead
  rw [timeoutSec_toInt posted, Nat.ceilDiv_eq_add_pred_div, rem]
  generalize bc.deadlineMs.toNat - (clk 2).toNat = ms at fits ⊢
  dsimp only
  split <;> omega

/-- Behind it, the timeout is one second unless the wrapped difference leaves an `int` above it. -/
theorem timeoutSec_behind (posted : 0 < bc.deadlineMs) (behind : ¬ clk 2 < bc.deadlineMs) :
    (timeoutSec bc clk).toInt = 1 ↔ TimeoutFits bc.deadlineMs (clk 2) := by
  have order : bc.deadlineMs.toNat ≤ (clk 2).toNat :=
    UInt64.le_iff_toNat_le.mp (UInt64.not_lt.mp behind)
  have before := (clk 2).toNat_lt
  -- the difference wraps around
  have rem : (bc.deadlineMs - clk 2).toNat =
      (2 ^ 64 - ((clk 2).toNat - bc.deadlineMs.toNat)) % 2 ^ 64 := by
    rw [UInt64.toNat_sub]
    omega
  rw [timeoutSec_toInt posted, TimeoutFits, if_neg behind, rem]
  have small : (clk 2).toNat - bc.deadlineMs.toNat < 2 ^ 64 := by omega
  generalize (clk 2).toNat - bc.deadlineMs.toNat = late at small ⊢
  dsimp only
  by_cases recent : late < 1000
  -- The rounding carries the difference over zero again.
  · have zero : ((2 ^ 64 - late) % 2 ^ 64 + 999) % 2 ^ 64 / 1000 % 2 ^ 32 = 0 := by omega
    rw [zero]
    exact iff_of_true rfl (.inl recent)
  · have same : ((2 ^ 64 - late) % 2 ^ 64 + 999) % 2 ^ 64 = 2 ^ 64 + 999 - late := by omega
    rw [same]
    generalize (2 ^ 64 + 999 - late) / 1000 % 2 ^ 32 = low
    split <;> omega

/-! ## The timeout and the deadline -/

/-- The value is all that has to be known. -/
theorem FollowsDeadline.of_value {deadlineMs now : UInt64} {sec : Int32} (value : sec.toInt =
      if now < deadlineMs then max 1 (((deadlineMs.toNat - now.toNat) ⌈/⌉ 1000 : ℕ) : ℤ) else 1) :
    FollowsDeadline deadlineMs now sec := by
  refine ⟨value, ?_, fun ahead => ?_⟩
  · rw [value]
    split <;> omega
  · rw [value, if_pos ahead, Nat.ceilDiv_eq_add_pred_div]
    omega

/-- When the first reading is ahead of the deadline, the timeout is the whole seconds that the
second one leaves, and at least one, exactly when what the code computes with fits. -/
theorem followsDeadline_iff (bc : BackendCall) (clk : Clock) (early : clk 1 < bc.deadlineMs) :
    FollowsDeadline bc.deadlineMs (clk 2) (timeoutSec bc clk) ↔
      TimeoutFits bc.deadlineMs (clk 2) := by
  have posted : 0 < bc.deadlineMs := UInt64.pos_iff_ne_zero.mpr fun zero => by simp [zero] at early
  by_cases ahead : clk 2 < bc.deadlineMs
  · rw [TimeoutFits, if_pos ahead]
    constructor
    -- No `int` is as large as what remains.
    · intro follows
      have covers := follows.covers ahead
      have small := (timeoutSec bc clk).toInt_lt
      omega
    · intro fits
      exact .of_value (by rw [if_pos ahead, timeoutSec_ahead ahead fits])
  · rw [← timeoutSec_behind posted ahead]
    constructor
    · intro follows
      rw [follows.value, if_neg ahead]
    · intro one
      exact .of_value (by rw [if_neg ahead, one])

/-- A call whose client has sent `timeoutMs` at the time `now`. -/
def callAt (now : UInt64) (timeoutMs : ℤ) : BackendCall :=
  let metaJson := Json.ofMembers [(kMetaTimeoutMs, .int timeoutMs)]
  { method := "tools/call", name := "search", params := .object, metaJson := metaJson
    deadlineMs := now + HttpMcp.timeoutOf metaJson, trace := ⟨"", "", ""⟩ }

/-- The clock until the deadline has been checked, and then. -/
def readings (first second : UInt64) : Clock := fun i => if i ≤ 1 then first else second

/-- Of 2500 ms, 300 have gone by: the timeout is three seconds. -/
theorem followsDeadline_iff_near :
    FollowsDeadline 1767225602500 1767225600300
      (timeoutSec (callAt 1767225600000 2500) (readings 1767225600000 1767225600300)) := by
  have early : (1767225600000 : UInt64) < (callAt 1767225600000 2500).deadlineMs := by decide
  have fits : TimeoutFits (callAt 1767225600000 2500).deadlineMs 1767225600300 := by decide
  exact (followsDeadline_iff (callAt 1767225600000 2500)
    (readings 1767225600000 1767225600300) early).mpr fits

/-- A client that asks for 2³² + 1 seconds gets a timeout of one, at once. -/
theorem long_timeout_is_cut :
    (timeoutSec (callAt 1767225600000 4294967297000) (readings 1767225600000 1767225600000)).toInt =
        1 ∧
      ¬ ∀ (bc : BackendCall) (clk : Clock), clk 1 ≤ clk 2 → clk 1 < bc.deadlineMs →
        FollowsDeadline bc.deadlineMs (clk 2) (timeoutSec bc clk) := by
  have cut : (timeoutSec (callAt 1767225600000 4294967297000)
      (readings 1767225600000 1767225600000)).toInt = 1 := by
    decide
  refine ⟨cut, fun follows => ?_⟩
  have covers := (follows (callAt 1767225600000 4294967297000)
    (readings 1767225600000 1767225600000) (by decide) (by decide)).covers (by decide)
  rw [cut] at covers
  revert covers
  decide

/-- Between the two readings the deadline has passed by a second: the timeout is forty years. -/
theorem late_timeout_is_long :
    (timeoutSec (callAt 1767225600000 1) (readings 1767225600000 1767225601001)).toInt =
      1271310319 := by
  decide

end Perfacet.HttpMcpBackend
