import ChatHub.Latency.Recorder
import Mathlib.Algebra.BigOperators.Group.List.Basic
import Mathlib.Algebra.GroupWithZero.Nat
/-!
Counting is addition. Tallies and histograms are commutative monoids under merging, a tally is
known by its counts, and recording adds the histogram of a single value. What a number of handles
and a recorder hold together is therefore a sum.
-/

set_option autoImplicit false

namespace ChatHub

/-! ## Tallies -/

namespace Tally

/-- What the entries of a tally add up to under a weight that adds up over counts. -/
theorem sum_insert (weight : Nat × Nat → Nat)
    (additive : ∀ key first second,
      weight (key, first + second) = weight (key, first) + weight (key, second))
    (key amount : Nat) (entries : List (Nat × Nat)) :
    ((insert key amount entries).map weight).sum =
      (entries.map weight).sum + weight (key, amount) := by
  induction entries with
  | nil => simp [insert]
  | cons first rest ih =>
    obtain ⟨other, count⟩ := first
    simp only [insert]
    split
    · simp only [List.map_cons, List.sum_cons]
      omega
    · split
      · rename_i same
        subst same
        simp only [List.map_cons, List.sum_cons, additive]
        omega
      · simp only [List.map_cons, List.sum_cons, ih]
        omega

private theorem sum_foldl_add (weight : Nat × Nat → Nat)
    (additive : ∀ key first second,
      weight (key, first + second) = weight (key, first) + weight (key, second))
    (nothing : ∀ key, weight (key, 0) = 0) (entries : List (Nat × Nat)) (tally : Tally) :
    (((entries.foldl (fun merged entry => merged.add entry.1 entry.2) tally).entries).map
        weight).sum =
      (tally.entries.map weight).sum + (entries.map weight).sum := by
  induction entries generalizing tally with
  | nil => simp
  | cons entry rest ih =>
    obtain ⟨key, amount⟩ := entry
    rw [List.foldl_cons, ih, List.map_cons, List.sum_cons]
    simp only [add]
    split
    · rw [sum_insert weight additive]
      omega
    · rename_i nothingCounted
      have none : amount = 0 := by omega
      rw [none, nothing]
      omega

/-- The count of a key as the sum over all entries with that key, of which there is at most one. -/
theorem count_eq_sum (tally : Tally) (key : Nat) :
    tally.count key =
      (tally.entries.map fun entry => if entry.1 = key then entry.2 else 0).sum := by
  obtain ⟨entries, ascending, positive⟩ := tally
  simp only [count]
  clear positive
  induction entries with
  | nil => rfl
  | cons first rest ih =>
    obtain ⟨other, amount⟩ := first
    rw [List.pairwise_cons] at ascending
    by_cases same : other = key
    · subst same
      have later : (rest.map fun entry => if entry.1 = other then entry.2 else 0).sum = 0 := by
        refine List.sum_eq_zero fun weighed member => ?_
        obtain ⟨entry, inRest, rfl⟩ := List.mem_map.mp member
        have above := ascending.1 entry inRest
        exact if_neg (by omega)
      simp [later]
    · simp [same, ← ih ascending.2]

private theorem total_eq_sum (tally : Tally) : tally.total = (tally.entries.map Prod.snd).sum := by
  rw [total, List.sum_eq_foldr, List.foldr_map]

private theorem count_merge (tally other : Tally) (key : Nat) :
    (tally.merge other).count key = tally.count key + other.count key := by
  rw [count_eq_sum, count_eq_sum, count_eq_sum]
  refine sum_foldl_add _ (fun _ _ _ => ?_) (fun _ => ?_) other.entries tally
  · split <;> simp
  · split <;> rfl

private theorem total_merge (tally other : Tally) :
    (tally.merge other).total = tally.total + other.total := by
  rw [total_eq_sum, total_eq_sum, total_eq_sum]
  exact sum_foldl_add Prod.snd (fun _ _ _ => rfl) (fun _ => rfl) other.entries tally

private theorem count_eq_iff_mem {tally : Tally} {key amount : Nat} (counted : 0 < amount) :
    tally.count key = amount ↔ (key, amount) ∈ tally.entries := by
  obtain ⟨entries, ascending, positive⟩ := tally
  simp only [count]
  induction entries with
  | nil =>
    simp only [List.find?_nil, Option.map_none, Option.getD_none, List.not_mem_nil, iff_false]
    omega
  | cons first rest ih =>
    obtain ⟨other, count⟩ := first
    rw [List.pairwise_cons] at ascending
    by_cases same : other = key
    · subst same
      have notLater : (other, amount) ∉ rest := by
        intro member
        exact Nat.lt_irrefl other (ascending.1 (other, amount) member)
      simp [notLater, eq_comm]
    · have positiveRest : ∀ entry ∈ rest, 0 < entry.2 :=
        fun entry member => positive entry (List.mem_cons_of_mem _ member)
      have later := ih ascending.2 positiveRest
      simp [same, Ne.symm same, later]

/-- A tally is known by its counts. -/
theorem ext_count {left right : Tally} (same : ∀ key, left.count key = right.count key) :
    left = right := by
  have nodup : ∀ tally : Tally, tally.entries.Nodup := fun tally =>
    tally.ascending.imp fun below equal => Nat.ne_of_lt below (congrArg Prod.fst equal)
  have perm : left.entries.Perm right.entries := by
    refine (List.perm_ext_iff_of_nodup (nodup left) (nodup right)).mpr fun entry => ?_
    by_cases counted : 0 < entry.2
    · rw [← count_eq_iff_mem counted, ← count_eq_iff_mem counted, same]
    · exact ⟨fun member => absurd (left.positive _ member) counted,
        fun member => absurd (right.positive _ member) counted⟩
  have entries : left.entries = right.entries :=
    perm.eq_of_pairwise (fun _ _ _ _ below above => absurd below (Nat.lt_asymm above))
      left.ascending right.ascending
  cases left
  cases right
  simp only at entries
  subst entries
  rfl

instance : Add Tally := ⟨merge⟩

instance : Zero Tally := ⟨∅⟩

@[simp] theorem count_add (left right : Tally) (key : Nat) :
    (left + right).count key = left.count key + right.count key :=
  count_merge left right key

@[simp] theorem count_zero (key : Nat) : (0 : Tally).count key = 0 :=
  rfl

@[simp] theorem total_add (left right : Tally) :
    (left + right).total = left.total + right.total :=
  total_merge left right

instance : AddCommMonoid Tally where
  add_assoc first second third := ext_count fun key => by simp [Nat.add_assoc]
  zero_add tally := ext_count fun key => by simp
  add_zero tally := ext_count fun key => by simp
  add_comm left right := ext_count fun key => by simp [Nat.add_comm]
  nsmul := nsmulRec

end Tally

/-! ## Histograms -/

namespace Histogram

instance : Add Histogram := ⟨merge⟩

instance : Zero Histogram := ⟨{}⟩

@[simp] theorem tally_add (left right : Histogram) :
    (left + right).tally = left.tally + right.tally :=
  rfl

theorem ext_parts {left right : Histogram} (tally : left.tally = right.tally)
    (least : left.least = right.least) (greatest : left.greatest = right.greatest) :
    left = right := by
  cases left
  cases right
  simp_all

private theorem lesser_comm (left right : Option Nat) : lesser left right = lesser right left := by
  cases left <;> cases right <;> simp [lesser, Nat.min_comm]

private theorem lesser_assoc (first second third : Option Nat) :
    lesser (lesser first second) third = lesser first (lesser second third) := by
  cases first <;> cases second <;> cases third <;> simp [lesser, Nat.min_assoc]

instance : AddCommMonoid Histogram where
  add_assoc first second third :=
    ext_parts (add_assoc first.tally second.tally third.tally) (lesser_assoc _ _ _)
      (Nat.max_assoc _ _ _)
  zero_add histogram := ext_parts (zero_add histogram.tally) rfl (Nat.zero_max _)
  add_zero histogram :=
    ext_parts (add_zero histogram.tally) (lesser_comm _ _) (Nat.max_zero _)
  add_comm left right :=
    ext_parts (add_comm left.tally right.tally) (lesser_comm _ _) (Nat.max_comm _ _)
  nsmul := nsmulRec

/-- The histogram of one value. -/
def single (value : Nat) : Histogram :=
  record 0 value

/-- A value for which there is a bucket is counted. -/
theorem record?_eq_some {value : Nat} (inside : value < Bucket.limit) (histogram : Histogram) :
    histogram.record? value 1 = some (histogram + single value) := by
  simp only [single, record, record?, inside, if_true, Option.getD_some, Option.some.injEq]
  exact ext_parts rfl rfl (congrArg (max histogram.greatest) (Nat.zero_max value).symm)

theorem record_eq_add {value : Nat} (inside : value < Bucket.limit) (histogram : Histogram) :
    histogram.record value = histogram + single value := by
  rw [record, record?_eq_some inside, Option.getD_some]

private theorem tally_single {value : Nat} (inside : value < Bucket.limit) (bucket : Nat) :
    (single value).tally.count bucket = if Bucket.lowest value = bucket then 1 else 0 := by
  simp only [single, record, record?, inside, if_true, Option.getD_some]
  rw [Tally.count_eq_sum]
  change (([(Bucket.lowest value, 1)] : List (Nat × Nat)).map _).sum = _
  simp

private theorem total_single {value : Nat} (inside : value < Bucket.limit) :
    (single value).tally.total = 1 := by
  simp only [single, record, record?, inside, if_true, Option.getD_some]
  rfl

end Histogram

/-! ## Latencies -/

theorem sampleOf_lt_limit (latency : Nat) : sampleOf latency < Bucket.limit := by
  have atLeast : 1 ≤ longestLatency := by decide
  have below : longestLatency < Bucket.limit := by decide
  unfold sampleOf
  omega

/-- What one recorder would have counted if every latency had been recorded in it directly. -/
def Histogram.ofLatencies (latencies : List Nat) : Histogram :=
  latencies.foldl (fun histogram latency => histogram.record (sampleOf latency)) {}

namespace Histogram

theorem ofLatencies_eq_sum (latencies : List Nat) :
    ofLatencies latencies = (latencies.map fun latency => single (sampleOf latency)).sum := by
  have folded : ∀ histogram : Histogram,
      latencies.foldl (fun histogram latency => histogram.record (sampleOf latency)) histogram =
        histogram + (latencies.map fun latency => single (sampleOf latency)).sum := by
    induction latencies with
    | nil => intro histogram; exact (add_zero histogram).symm
    | cons latency rest ih =>
      intro histogram
      rw [List.foldl_cons, ih, record_eq_add (sampleOf_lt_limit latency), List.map_cons,
        List.sum_cons, add_assoc]
  exact (folded 0).trans (zero_add _)

theorem ofLatencies_append (earlier later : List Nat) :
    ofLatencies (earlier ++ later) = ofLatencies earlier + ofLatencies later := by
  simp only [ofLatencies_eq_sum, List.map_append, List.sum_append]

theorem ofLatencies_singleton (latency : Nat) :
    ofLatencies [latency] = single (sampleOf latency) :=
  rfl

/-- Every latency is counted once, in its bucket. -/
theorem count_ofLatencies (latencies : List Nat) (bucket : Nat) :
    (ofLatencies latencies).tally.count bucket =
      latencies.countP fun latency => Bucket.lowest (sampleOf latency) = bucket := by
  rw [ofLatencies_eq_sum]
  induction latencies with
  | nil => rfl
  | cons latency rest ih =>
    simp only [List.map_cons, List.sum_cons, tally_add, Tally.count_add, ih,
      tally_single (sampleOf_lt_limit latency), List.countP_cons, decide_eq_true_eq]
    omega

theorem total_ofLatencies (latencies : List Nat) :
    (ofLatencies latencies).tally.total = latencies.length := by
  rw [ofLatencies_eq_sum]
  induction latencies with
  | nil => rfl
  | cons latency rest ih =>
    simp only [List.map_cons, List.sum_cons, tally_add, Tally.total_add, ih,
      total_single (sampleOf_lt_limit latency), List.length_cons]
    omega

end Histogram

end ChatHub
