import Mathlib.Data.Rat.Floor
import MessagePipe.Settings
import MessagePipe.Watermark

/-!
# Where the low watermark lies

Each side's low watermark derives from its own inbound high watermark (`compute_lwm`, §4.4 of the
specification: `hwm > 2·max_wm_delta ? hwm − max_wm_delta : ⌈hwm / 2⌉`). The watermarks are words,
and the double of the greatest distance may not be one; the program doubles with saturation. As
numbers they follow the rule without exceptions, and both cases of it are one formula: the low
watermark is half the high one, rounded up, or what the greatest distance leaves of it, whichever is
more.

* `toNat_lowWatermark`: the low watermark as a number, and `toNat_lowWatermark_eq_max`: the one
  formula.
* `lowWatermark_le`: progress is reported at the latest when the high watermark is reached, and
  `lowWatermark_pos`: in a direction that is bounded it is reported at all.
* `lowWatermark_mono`, `lowWatermark_anti`: how it grows with the high watermark, and falls with the
  distance.
* `lowWatermark?_eq`: with sums and differences that are there only if they are words (`sub?`,
  `add?`), no step of the computation leaves the words.
* `Config.validate_eq_ok_iff`: settings are refused exactly if they put both watermarks in one
  place.
* `watermark_law`: all of this over all numbers, with what follows from it, and
  `watermark_law_at_the_end_of_words`: the greatest word, with a distance whose double is one more.

The two facts that other modules need are `lowWatermark_le` and `lowWatermark_pos`, which
`Proofs/Tally` has as fields of its invariant.

Out of scope: the counters that are compared with watermarks, which are numbers in the model.
-/

namespace MessagePipe

/-! ## Words that stand for exact results -/

namespace Word

/-- The difference of two words, where it is a word. -/
def sub? (m n : UInt64) : Option UInt64 :=
  if n ≤ m then some (m - n) else none

/-- The sum of two words, where it is a word. -/
def add? (m n : UInt64) : Option UInt64 :=
  if m.toNat + n.toNat < UInt64.size then some (m + n) else none

theorem sub?_eq_some_iff {m n d : UInt64} :
    sub? m n = some d ↔ d.toNat + n.toNat = m.toNat := by
  unfold sub?
  rw [Option.ite_none_right_eq_some, Option.some.injEq, ← UInt64.toNat_inj, UInt64.le_iff_toNat_le]
  constructor
  · rintro ⟨hle, hd⟩
    rw [UInt64.toNat_sub_of_le _ _ (UInt64.le_iff_toNat_le.2 hle)] at hd
    omega
  · intro h
    have hle : n.toNat ≤ m.toNat := by omega
    refine ⟨hle, ?_⟩
    rw [UInt64.toNat_sub_of_le _ _ (UInt64.le_iff_toNat_le.2 hle)]
    omega

theorem add?_eq_some_iff {m n s : UInt64} :
    add? m n = some s ↔ s.toNat = m.toNat + n.toNat := by
  unfold add?
  rw [Option.ite_none_right_eq_some, Option.some.injEq, ← UInt64.toNat_inj, UInt64.toNat_add]
  have hs := s.toNat_lt
  have hsize : UInt64.size = 18446744073709551616 := rfl
  omega

end Word

/-- A double that is no word is as great as a word can be. -/
theorem toNat_saturatingDouble (n : UInt64) :
    (saturatingDouble n).toNat = min (2 * n.toNat) (UInt64.size - 1) := by
  unfold saturatingDouble
  split
  · next h =>
    have hd : (n * 2).toNat = n.toNat * 2 := by
      rw [UInt64.toNat_mul]
      exact Nat.mod_eq_of_lt h
    rw [hd]
    omega
  · next h =>
    have hm : (0xFFFFFFFFFFFFFFFF : UInt64).toNat = UInt64.size - 1 := rfl
    rw [hm]
    omega

/-- No watermark is beyond the greatest word, so it makes no difference what is cut off there. -/
theorem saturatingDouble_lt_iff {hwm delta : UInt64} :
    saturatingDouble delta < hwm ↔ 2 * delta.toNat < hwm.toNat := by
  have hlt := hwm.toNat_lt_size
  rw [UInt64.lt_iff_toNat_lt, toNat_saturatingDouble]
  omega

/-! ## The low watermark -/

/-- The low watermark as a number. -/
theorem toNat_lowWatermark (hwm delta : UInt64) :
    (lowWatermark hwm delta).toNat =
      if 2 * delta.toNat < hwm.toNat then hwm.toNat - delta.toNat else (hwm.toNat + 1) / 2 := by
  unfold lowWatermark
  have hlt := hwm.toNat_lt
  by_cases h : saturatingDouble delta < hwm
  · have h' := saturatingDouble_lt_iff.1 h
    rw [if_pos h, if_pos h', UInt64.toNat_sub_of_le _ _ (UInt64.le_iff_toNat_le.2 (by omega))]
  · rw [if_neg h, if_neg (mt saturatingDouble_lt_iff.2 h), UInt64.toNat_add, UInt64.toNat_div,
      UInt64.toNat_mod]
    have h2 : (2 : UInt64).toNat = 2 := rfl
    rw [h2]
    omega

/-- Progress is reported at the latest when as many messages were read as may be in flight. -/
theorem lowWatermark_le (hwm delta : UInt64) : (lowWatermark hwm delta).toNat ≤ hwm.toNat := by
  rw [toNat_lowWatermark]
  split <;> omega

/-- Progress is reported wherever the messages in flight are bounded. -/
theorem lowWatermark_pos {hwm : UInt64} (h : 0 < hwm.toNat) (delta : UInt64) :
    0 < (lowWatermark hwm delta).toNat := by
  rw [toNat_lowWatermark]
  split <;> omega

/-- The two cases meet where the high watermark is the double of the greatest distance. -/
theorem toNat_lowWatermark_eq_max (hwm delta : UInt64) :
    (lowWatermark hwm delta).toNat = max ((hwm.toNat + 1) / 2) (hwm.toNat - delta.toNat) := by
  rw [toNat_lowWatermark]
  split <;> omega

example : lowWatermark 1000 1024 = 500 ∧ lowWatermark 5000 1024 = 3976 := by decide

/-- The low watermark of a direction, computed with sums and differences that are there only if they
are words. -/
def lowWatermark? (hwm maxDelta : UInt64) : Option UInt64 :=
  if saturatingDouble maxDelta < hwm then Word.sub? hwm maxDelta
  else Word.add? (hwm / 2) (hwm % 2)

/-- **Computing the low watermark never leaves the words.** -/
theorem lowWatermark?_eq (hwm delta : UInt64) :
    lowWatermark? hwm delta = some (lowWatermark hwm delta) := by
  unfold lowWatermark?
  by_cases h : saturatingDouble delta < hwm
  · have h' := saturatingDouble_lt_iff.1 h
    rw [if_pos h, Word.sub?_eq_some_iff, toNat_lowWatermark, if_pos h']
    omega
  · rw [if_neg h, Word.add?_eq_some_iff, toNat_lowWatermark,
      if_neg (mt saturatingDouble_lt_iff.2 h), UInt64.toNat_div, UInt64.toNat_mod]
    have h2 : (2 : UInt64).toNat = 2 := rfl
    rw [h2]
    omega

/-- Whoever lets more messages be in flight does not hear of progress more often. -/
theorem lowWatermark_mono {hwm hwm' : UInt64} (h : hwm ≤ hwm') (delta : UInt64) :
    lowWatermark hwm delta ≤ lowWatermark hwm' delta := by
  rw [UInt64.le_iff_toNat_le] at h ⊢
  rw [toNat_lowWatermark_eq_max, toNat_lowWatermark_eq_max]
  omega

/-- Whoever lets the watermarks lie further apart does not hear of progress less often. -/
theorem lowWatermark_anti (hwm : UInt64) {delta delta' : UInt64} (h : delta ≤ delta') :
    lowWatermark hwm delta' ≤ lowWatermark hwm delta := by
  rw [UInt64.le_iff_toNat_le] at h ⊢
  rw [toNat_lowWatermark_eq_max, toNat_lowWatermark_eq_max]
  omega

/-- Settings are refused exactly if they put both watermarks in one place. -/
theorem Config.validate_eq_ok_iff {config : Config} :
    config.validate = .ok () ↔ 1 ≤ config.maxDelta.toNat := by
  have hzero : config.maxDelta = 0 ↔ config.maxDelta.toNat = 0 := by
    rw [← UInt64.toNat_inj]
    rfl
  unfold validate isValid
  by_cases h : config.maxDelta = 0
  · simp [h]
  · have := mt hzero.2 h
    simp [h]
    omega

/-- Half of a number, rounded up. -/
theorem ceil_half (n : ℤ) : ⌈(n : ℚ) / 2⌉ = (n + 1) / 2 := by
  have h := Rat.ceil_intCast_div_natCast n 2
  rw [Nat.cast_ofNat, Nat.cast_ofNat] at h
  rw [h]
  omega

/-- **The law of the watermarks.** Computing the low watermark never leaves the words. Over all
numbers it is half the high watermark, rounded up, or what the greatest distance leaves of the high
watermark (nothing, where the distance is no less), whichever is more. That is the distinction by
the double of the distance, although a double that is no word is cut off. So the low watermark lies
between half the high one and the high one, and is zero only with it; it does not fall as the high
watermark grows, nor grow with the distance. Settings are valid from a distance of one on; then the
low watermark is below every high one from two on, and no further away from it than the distance. -/
theorem watermark_law (hwm delta : UInt64) :
    lowWatermark? hwm delta = some (lowWatermark hwm delta) ∧
    let h : ℤ := hwm.toNat
    let d : ℤ := delta.toNat
    let half : ℤ := ⌈(h : ℚ) / 2⌉
    let lwm : ℤ := (lowWatermark hwm delta).toNat
    lwm = max half (if 0 < h - d then h - d else 0) ∧
    (saturatingDouble delta < hwm ↔ 2 * d < h) ∧
    lwm = (if 2 * d < h then h - d else half) ∧
    half ≤ lwm ∧ lwm ≤ h ∧ (lwm = 0 ↔ h = 0) ∧
    (∀ hwm', hwm ≤ hwm' → lowWatermark hwm delta ≤ lowWatermark hwm' delta) ∧
    (∀ delta', delta ≤ delta' → lowWatermark hwm delta' ≤ lowWatermark hwm delta) ∧
    (1 ≤ d → (2 ≤ h → lwm < h) ∧ h - lwm ≤ d) ∧
    ∀ config : Config, config.maxDelta = delta → (config.validate = .ok () ↔ 1 ≤ d) := by
  refine ⟨lowWatermark?_eq hwm delta, ?_⟩
  intro h d half lwm
  have hhalf : half = (h + 1) / 2 := ceil_half h
  have hmax : lwm = max ((h + 1) / 2) (h - d) := by
    have := toNat_lowWatermark_eq_max hwm delta
    omega
  have hsplit : saturatingDouble delta < hwm ↔ 2 * d < h := by
    rw [saturatingDouble_lt_iff]
    omega
  refine ⟨?_, hsplit, ?_, ?_, ?_, ?_,
    fun _ hle => lowWatermark_mono hle delta, fun _ hle => lowWatermark_anti hwm hle, ?_, ?_⟩
  · split <;> omega
  · split <;> omega
  · omega
  · omega
  · omega
  · intro hd
    constructor <;> omega
  · rintro config rfl
    rw [Config.validate_eq_ok_iff]
    omega

/-- At the greatest word there is, and with a distance whose double is one more. -/
theorem watermark_law_at_the_end_of_words :
    let hwm : UInt64 := 0xFFFFFFFFFFFFFFFF
    let delta : UInt64 := 0x8000000000000000
    lowWatermark? hwm delta = some 0x8000000000000000 ∧
    ¬saturatingDouble delta < hwm ∧
    lowWatermark (hwm - 1) delta ≤ lowWatermark hwm delta ∧
    lowWatermark hwm delta ≤ lowWatermark hwm (delta - 1) ∧
    ((lowWatermark hwm delta).toNat : ℤ) < hwm.toNat ∧
    (hwm.toNat : ℤ) - (lowWatermark hwm delta).toNat ≤ delta.toNat ∧
    ({ maxDelta := delta } : Config).validate = .ok () := by
  intro hwm delta
  obtain ⟨hwords, -, hsplit, -, -, -, -, -, -, hdistance, hvalid⟩ := watermark_law hwm delta
  have hmono := (watermark_law (hwm - 1) delta).2.2.2.2.2.2.2.1 hwm (by decide)
  have hanti := (watermark_law hwm (delta - 1)).2.2.2.2.2.2.2.2.1 delta (by decide)
  obtain ⟨hlt, hle⟩ := hdistance (by decide)
  exact ⟨hwords.trans (by decide), mt hsplit.1 (by decide), hmono, hanti, hlt (by decide), hle,
    (hvalid _ rfl).2 (by decide)⟩

end MessagePipe
