import ChatHub.Latency.Bucket
import ChatHub.Latency.Tally
import ChatHub.Number.Binary64
/-!
Histograms of latencies in nanoseconds. What is kept is how often each bucket was hit, and the
extreme values as they were recorded. Counts are read out in 64 bits and stay at the greatest one
when there are more. Only the sums that a quantile is looked up with are taken modulo `2 ^ 64`.
-/

set_option autoImplicit false

namespace ChatHub

/-- `least` is the least value above zero that was recorded, also with a count of zero. -/
structure Histogram where
  tally : Tally := ∅
  least : Option Nat := none
  greatest : Nat := 0

namespace Histogram

instance : Inhabited Histogram := ⟨{}⟩

def lesser : Option Nat → Option Nat → Option Nat
  | none, other => other
  | first, none => first
  | some first, some second => some (min first second)

/-- Counts a value a number of times, absent if there is no bucket for it. -/
def record? (histogram : Histogram) (value times : Nat) : Option Histogram :=
  if value < Bucket.limit then
    some
      { tally := histogram.tally.add (Bucket.lowest value) times
        least := lesser histogram.least (if value = 0 then none else some value)
        greatest := max histogram.greatest value }
  else none

def record (histogram : Histogram) (value : Nat) : Histogram :=
  (histogram.record? value 1).getD histogram

def merge (histogram other : Histogram) : Histogram :=
  { tally := histogram.tally.merge other.tally
    least := lesser histogram.least other.least
    greatest := max histogram.greatest other.greatest }

def countLimit : Nat :=
  Nat.pow 2 64 - 1

def total (histogram : Histogram) : Nat :=
  min histogram.tally.total countLimit

/-- The least value of the least bucket that was hit. -/
def minimum (histogram : Histogram) : Nat :=
  if histogram.tally.count 0 = 0 then Bucket.lowest (histogram.least.getD 0) else 0

def maximum (histogram : Histogram) : Nat :=
  Bucket.highest histogram.greatest

/-- The rank at which a quantile lies among `count` values: the product of the two, computed and
rounded as doubles are, then rounded up, and at least one. The quantile is
`numerator / 2 ^ 53`. -/
def rank (numerator count : Nat) : Nat :=
  max 1 ((Binary64.round (numerator * Binary64.round count) + (Nat.pow 2 53 - 1)) / Nat.pow 2 53)

def wrap (sum : Nat) : Nat :=
  sum % Nat.pow 2 64

/-- The count of a bucket, in 64 bits. -/
def countOf (entry : Nat × Nat) : Nat :=
  min entry.2 countLimit

/-- Buckets are looked through in blocks of eight. -/
def blockOf (bucket : Nat) : Nat :=
  Bucket.index bucket / 8

/-- The buckets that were hit, block by block. -/
def blocks (histogram : Histogram) : List (List (Nat × Nat)) :=
  histogram.tally.entries.splitBy fun left right => blockOf left.1 == blockOf right.1

/-- How many values there are up to the end of a block, with `passed` values before it. -/
def behindBlock (passed : Nat) (block : List (Nat × Nat)) : Nat :=
  block.foldl (fun sum entry => wrap (sum + countOf entry)) passed

/-- The greatest value of the first bucket in a block at which a rank is reached. -/
def inBlock (rank passed : Nat) : List (Nat × Nat) → Nat
  | [] => 0
  | entry :: rest =>
    let passed := wrap (passed + countOf entry)
    if rank ≤ passed then Bucket.highest entry.1 else inBlock rank passed rest

/-- The greatest value of the first bucket at which a rank is reached, in the first block at whose
end it is, with the buckets in ascending order and `passed` values before them. -/
def atRank (rank passed : Nat) : List (List (Nat × Nat)) → Nat
  | [] => 0
  | block :: rest =>
    let behind := behindBlock passed block
    if rank ≤ behind then inBlock rank passed block else atRank rank behind rest

def quantile (histogram : Histogram) (numerator : Nat) : Nat :=
  atRank (rank numerator histogram.total) 0 histogram.blocks

/-- The mean in doubles: each bucket adds its middle times its share of the total. -/
def mean (histogram : Histogram) : Float :=
  histogram.tally.entries.foldl
    (fun sum entry =>
      sum + (Bucket.middle entry.1).toUInt64.toFloat * (countOf entry).toUInt64.toFloat
        / histogram.total.toUInt64.toFloat)
    0.0

end Histogram

end ChatHub
