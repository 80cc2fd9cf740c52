/-!
The buckets in which latencies are counted. Below 2048 every value has a bucket of its own; from
there on each doubling of the value doubles the width, so a bucket is at most a 1024th of its
values wide.
-/

set_option autoImplicit false

namespace ChatHub.Bucket

/-- The width of a value's bucket is two to this power. -/
def exponent (value : Nat) : Nat :=
  (value ||| 2047).log2 - 10

/-- How many values fall into the same bucket. -/
def width (value : Nat) : Nat :=
  Nat.pow 2 (exponent value)

/-- The least value of the bucket, which serves as its name. -/
def lowest (value : Nat) : Nat :=
  value / width value * width value

def highest (value : Nat) : Nat :=
  lowest value + width value - 1

/-- The value in the middle, which stands for the bucket in a mean. -/
def middle (value : Nat) : Nat :=
  lowest value + width value / 2

def index (value : Nat) : Nat :=
  1024 * exponent value + value / width value

/-- The first value for which there is no bucket. -/
def limit : Nat :=
  Nat.pow 2 36

end ChatHub.Bucket
