import LatencyArb.Fix.Executor
import LatencyArb.Library.GeneralFormat

/-!
# The quantity of an executor's order (`fmt_qty`)

OrderQty is written with `%g`, which keeps six significant digits and switches to the exponent form for
small and large numbers.
-/

namespace LatencyArb

open LatencyArb.Fix Numeral

namespace Fix

/-- The number has at most five digits after the point. -/
def FiveDecimals (x : ℚ) : Prop := ∃ n : ℤ, x * 10 ^ 5 = n

/-- OrderQty is a plain decimal numeral of this value. -/
def Message.QtyIs (m : Message) (x : ℚ) : Prop := ∃ d : Decimal, m.value 38 = some d.text ∧ d.value = x

lemma buildOrder_qty (cfg : Config) (job : OrderJob) (transactTime : String) (seq : Nat)
    (sendingTime : String) :
    (buildOrder cfg job transactTime seq sendingTime).value 38 = some (bytesOf (generalFormat job.volume)) := rfl

end Fix

namespace FixExecutor

variable {e : FixExecutor} {call : OrderCall}

/-- A call that enqueues an order has a positive volume, which is that of the order. -/
lemma execute_enqueues {job : OrderJob} (h : (e.execute call).orders = e.orders ++ [job]) :
    0 < call.volume ∧ job.volume = call.volume := by
  unfold execute at h
  split at h
  · simp at h
  · rename_i hvalid
    split at h
    · simp at h
    · have hjob : e.newJob call = job := by simpa using h
      rw [← hjob]
      exact ⟨not_le.mp (fun hle => hvalid (.inr (.inr hle))), rfl⟩

/-- OrderQty of an order that `execute` has enqueued is a plain numeral of exactly its volume just where the
volume has at most six significant digits and is at least 0.0001 and less than a million. -/
theorem order_qty_exact_iff (cfg : Config) (e : FixExecutor) (call : OrderCall) (job : OrderJob)
    (transactTime : String) (seq : Nat) (sendingTime : String)
    (henqueued : (e.execute call).orders = e.orders ++ [job]) :
    (buildOrder cfg job transactTime seq sendingTime).QtyIs call.volume ↔
      HasDigits 6 call.volume ∧ 1 / 10 ^ 4 ≤ call.volume ∧ call.volume < 10 ^ 6 := by
  obtain ⟨hpos, hvolume⟩ := execute_enqueues henqueued
  rw [← generalFormat_exact_iff hpos]
  unfold Message.QtyIs
  rw [buildOrder_qty, hvolume]
  simp only [Option.some.injEq, eq_comm]

/-- A call for so many lots of gold, and its order. -/
def goldCall (volume : ℚ) : OrderCall := ⟨"XAUUSD", "buy", volume, 0, 0⟩

def goldJob (volume : ℚ) : OrderJob := newJob { running := true } (goldCall volume)

/-- An order of 1.25 lots. -/
theorem quarter_lot_exact : (buildOrder {} (goldJob 1.25) "" 2 "").QtyIs 1.25 ↔
    HasDigits 6 1.25 ∧ 1 / 10 ^ 4 ≤ (1.25 : ℚ) ∧ (1.25 : ℚ) < 10 ^ 6 :=
  order_qty_exact_iff {} { running := true } (goldCall 1.25) (goldJob 1.25) "" 2 "" (by decide +kernel)

/-- The seventh digit of 12.34567 lots is lost. -/
theorem seventh_digit_lost :
    (execute { running := true } (goldCall 12.34567)).orders = [goldJob 12.34567] ∧
    FiveDecimals 12.34567 ∧
    (buildOrder {} (goldJob 12.34567) "" 2 "").value 38 = some (ascii "12.3457") ∧
    ¬(buildOrder {} (goldJob 12.34567) "" 2 "").QtyIs 12.34567 := by
  have htext : (buildOrder {} (goldJob 12.34567) "" 2 "").value 38 = some (ascii "12.3457") := by
    decide +kernel
  refine ⟨by decide +kernel, ⟨1234567, by norm_num⟩, htext, ?_⟩
  rintro ⟨d, hd, hvalue⟩
  rw [htext, Option.some.injEq] at hd
  let written : Decimal := ⟨.none, ascii "12", some (ascii "3457"), by decide, by decide⟩
  have hwritten : d.value = written.value := Decimal.value_of_text (hd.symm.trans (by decide))
  rw [hvalue] at hwritten
  revert hwritten
  decide +kernel

end FixExecutor

end LatencyArb
