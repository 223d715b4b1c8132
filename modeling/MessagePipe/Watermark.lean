/-!
# Watermarks

A pipe stops accepting messages once as many are in flight as its high watermark says. The reader
reports its progress every low watermark messages, so that the writer can go on. The low watermark
follows from the high one (`compute_lwm`, §4.4 of the specification):

* a high watermark of more than twice `maxDelta` is lowered by `maxDelta`, so that the two are kept
  at most that far apart;
* any other one is halved, rounded up, so zero stays zero and one stays one.

The computation is one of 64-bit words, and written as such: `saturatingDouble` is the doubling that
stops at the largest word (`saturating_mul`), without which a large `maxDelta` would come out small,
and the half is taken as `hwm / 2 + hwm % 2`, which cannot overflow where `(hwm + 1) / 2` would.

What it amounts to for every high watermark and every distance is proved in `Proofs/Watermark`: the
low watermark is positive unless the high one is zero, at most the high one, below it from two on,
and never further away than `maxDelta` or half the high one.
-/

namespace MessagePipe

/-- The double of a number, or the largest number there is. -/
def saturatingDouble (n : UInt64) : UInt64 :=
  if n.toNat * 2 < UInt64.size then n * 2 else 0xFFFFFFFFFFFFFFFF

/-- The low watermark of a direction with the high watermark `hwm`. The two are kept at most
`maxDelta` apart, so that progress is reported regularly; small watermarks report half-way, rounded
up. -/
def lowWatermark (hwm maxDelta : UInt64) : UInt64 :=
  if saturatingDouble maxDelta < hwm then hwm - maxDelta else hwm / 2 + hwm % 2

end MessagePipe
