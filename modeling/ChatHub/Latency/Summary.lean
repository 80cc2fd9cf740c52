import ChatHub.Latency.Histogram
/-!
What a report says about latencies, in microseconds.
-/

set_option autoImplicit false

namespace ChatHub

structure LatencySummary where
  count : Nat
  least : Nat
  mean : Float
  median : Nat
  p90 : Nat
  p99 : Nat
  p999 : Nat
  greatest : Nat
  deriving Repr

namespace LatencySummary

/-- The reported quantiles in steps of `2 ^ -53`, each the nearest double to its decimal. -/
def medianQuantile : Nat := Nat.pow 2 52

@[inherit_doc medianQuantile] def p90Quantile : Nat := 8106479329266893

@[inherit_doc medianQuantile] def p99Quantile : Nat := 8917127262193582

@[inherit_doc medianQuantile] def p999Quantile : Nat := 8998192055486251

/-- Whole microseconds, rounded down. -/
def micros (nanoseconds : Nat) : Nat :=
  nanoseconds / 1000

/-- Summarizes a histogram, absent if it counts nothing. -/
def ofHistogram? (histogram : Histogram) : Option LatencySummary :=
  if histogram.total = 0 then none
  else
    some
      { count := histogram.total
        least := micros histogram.minimum
        mean := histogram.mean / 1000.0
        median := micros (histogram.quantile medianQuantile)
        p90 := micros (histogram.quantile p90Quantile)
        p99 := micros (histogram.quantile p99Quantile)
        p999 := micros (histogram.quantile p999Quantile)
        greatest := micros histogram.maximum }

end LatencySummary

end ChatHub
