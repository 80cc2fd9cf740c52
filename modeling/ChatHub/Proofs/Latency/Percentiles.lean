import ChatHub.Proofs.Latency.Agreement
import ChatHub.Proofs.Latency.Bucket
import Mathlib.Data.List.SplitBy
/-!
What the numbers of a summary have to do with the samples: the value at a quantile is the upper end
of the bucket of the sample at the quantile's rank, so it is at most a 1024th above that sample.
Main statement: `percentiles_accurate`.
-/

set_option autoImplicit false

namespace ChatHub

/-! ## Rounding -/

namespace Binary64

private theorem roundDiv_near (numerator : Nat) {denominator : Nat} (positive : 0 < denominator) :
    2 * (roundDiv numerator denominator * denominator) ≤ 2 * numerator + denominator ∧
      2 * numerator ≤ 2 * (roundDiv numerator denominator * denominator) + denominator := by
  have parts := Nat.div_add_mod numerator denominator
  have rest := Nat.mod_lt numerator positive
  rw [Nat.mul_comm] at parts
  have next : (numerator / denominator + 1) * denominator =
      numerator / denominator * denominator + denominator := Nat.succ_mul _ _
  unfold roundDiv
  dsimp only
  split
  · omega
  · split
    · omega
    · split <;> omega

/-- Rounding moves a number by at most one part in two to the 53. -/
theorem round_near (value : Nat) :
    2 ^ 53 * round value ≤ (2 ^ 53 + 1) * value ∧
      2 ^ 53 * value ≤ 2 ^ 53 * round value + value := by
  have near := roundDiv_near value (Nat.two_pow_pos (value.log2 - 52))
  change 2 * round value ≤ _ ∧ _ ≤ 2 * round value + _ at near
  -- Up to 53 bits there is nothing to round off.
  by_cases exact : value.log2 ≤ 52
  · have whole : round value = value := by
      have scale : Nat.pow 2 (value.log2 - 52) = 1 := by
        rw [Nat.sub_eq_zero_of_le exact]
      rw [round, scale, roundDiv]
      simp [Nat.mod_one]
    rw [whole]
    omega
  · have nonzero : value ≠ 0 := by
      rintro rfl
      simp at exact
    have large : 2 ^ 52 * 2 ^ (value.log2 - 52) ≤ value := by
      rw [← Nat.pow_add, Nat.add_sub_cancel' (by omega)]
      exact Nat.log2_self_le nonzero
    omega

end Binary64

/-! ## Ranks -/

namespace Histogram

variable {lesser greater count : Nat}

theorem rank_pos (numerator count : Nat) : 1 ≤ rank numerator count :=
  Nat.le_max_left _ _

/-- A quantile that stays clear of one is reached within the values. -/
theorem rank_le (clear : (2 ^ 53 + 1) ^ 2 * lesser ≤ 2 ^ 159) (counted : 1 ≤ count) :
    rank lesser count ≤ count := by
  have inner := (Binary64.round_near count).1
  have outer := (Binary64.round_near (lesser * Binary64.round count)).1
  have bounded : 2 ^ 106 * Binary64.round (lesser * Binary64.round count) ≤
      2 ^ 106 * (2 ^ 53 * count) := by
    calc 2 ^ 106 * Binary64.round (lesser * Binary64.round count)
        = 2 ^ 53 * (2 ^ 53 * Binary64.round (lesser * Binary64.round count)) := by
          rw [← Nat.mul_assoc, ← Nat.pow_add]
      _ ≤ 2 ^ 53 * ((2 ^ 53 + 1) * (lesser * Binary64.round count)) :=
          Nat.mul_le_mul_left _ outer
      _ = (2 ^ 53 + 1) * lesser * (2 ^ 53 * Binary64.round count) := by ac_rfl
      _ ≤ (2 ^ 53 + 1) * lesser * ((2 ^ 53 + 1) * count) := Nat.mul_le_mul_left _ inner
      _ = (2 ^ 53 + 1) ^ 2 * lesser * count := by rw [Nat.pow_two]; ac_rfl
      _ ≤ 2 ^ 159 * count := Nat.mul_le_mul_right _ clear
      _ = 2 ^ 106 * (2 ^ 53 * count) := by rw [← Nat.mul_assoc, ← Nat.pow_add]
  have product := Nat.le_of_mul_le_mul_left bounded (Nat.two_pow_pos 106)
  unfold rank
  change max 1 ((_ + (2 ^ 53 - 1)) / 2 ^ 53) ≤ count
  omega

/-- Quantiles that are apart by more than rounding have their ranks in order. -/
theorem rank_le_rank (apart : (2 ^ 53 + 1) * lesser + greater ≤ 2 ^ 53 * greater) (count : Nat) :
    rank lesser count ≤ rank greater count := by
  have below := (Binary64.round_near (lesser * Binary64.round count)).1
  have above := (Binary64.round_near (greater * Binary64.round count)).2
  have products : (2 ^ 53 + 1) * (lesser * Binary64.round count) + greater * Binary64.round count ≤
      2 ^ 53 * (greater * Binary64.round count) := by
    have scaled := Nat.mul_le_mul_right (Binary64.round count) apart
    rwa [Nat.add_mul, Nat.mul_assoc, Nat.mul_assoc] at scaled
  have ordered : Binary64.round (lesser * Binary64.round count) ≤
      Binary64.round (greater * Binary64.round count) := by
    omega
  unfold rank
  have quotients := Nat.div_le_div_right (c := Nat.pow 2 53)
    (Nat.add_le_add_right ordered (Nat.pow 2 53 - 1))
  omega

end Histogram

/-! ## Looking up a rank -/

/-- Keys as often as they were counted. -/
def expand (entries : List (Nat × Nat)) : List Nat :=
  entries.flatMap fun entry => List.replicate entry.2 entry.1

section Expand

variable {entries : List (Nat × Nat)}

private theorem expand_cons (entry : Nat × Nat) (rest : List (Nat × Nat)) :
    expand (entry :: rest) = List.replicate entry.2 entry.1 ++ expand rest :=
  List.flatMap_cons

private theorem expand_append (first second : List (Nat × Nat)) :
    expand (first ++ second) = expand first ++ expand second :=
  List.flatMap_append

private theorem count_expand (tally : Tally) (key : Nat) :
    (expand tally.entries).count key = tally.count key := by
  rw [Tally.count_eq_sum, expand, List.count_flatMap]
  congr 2
  funext entry
  simp [List.count_replicate]

private theorem expand_ascending (tally : Tally) : (expand tally.entries).Pairwise (· ≤ ·) := by
  apply List.pairwise_flatMap.mpr
  constructor
  · intro entry _
    simp
  · apply tally.ascending.imp
    intro earlier later below first inEarlier second inLater
    rw [List.eq_of_mem_replicate inEarlier, List.eq_of_mem_replicate inLater]
    exact Nat.le_of_lt below

end Expand

namespace Histogram

variable {rank passed : Nat}

/-- As long as the counts stay within 64 bits, none of them is cut and no sum wraps around. -/
theorem wrap_add_countOf {entry : Nat × Nat} {later : Nat}
    (room : passed + (entry.2 + later) ≤ countLimit) :
    wrap (passed + countOf entry) = passed + entry.2 := by
  have limit : countLimit = 2 ^ 64 - 1 := rfl
  rw [countOf, Nat.min_eq_left (by omega), wrap]
  change (passed + entry.2) % 2 ^ 64 = passed + entry.2
  exact Nat.mod_eq_of_lt (by omega)

private theorem behindBlock_eq {block : List (Nat × Nat)}
    (room : passed + (expand block).length ≤ countLimit) :
    behindBlock passed block = passed + (expand block).length := by
  induction block generalizing passed with
  | nil => rfl
  | cons entry rest ih =>
    rw [expand_cons, List.length_append, List.length_replicate] at room ⊢
    rw [behindBlock, List.foldl_cons, wrap_add_countOf room]
    have later : behindBlock (passed + entry.2) rest = _ := ih (by omega)
    rw [behindBlock] at later
    rw [later]
    omega

private theorem inBlock_eq {block : List (Nat × Nat)} (before : passed < rank)
    (reached : rank ≤ passed + (expand block).length)
    (room : passed + (expand block).length ≤ countLimit) :
    (expand block)[rank - passed - 1]?.map Bucket.highest = some (inBlock rank passed block) := by
  induction block generalizing passed with
  | nil =>
    simp only [expand, List.flatMap_nil, List.length_nil] at reached
    omega
  | cons entry rest ih =>
    rw [expand_cons] at reached room ⊢
    rw [List.length_append, List.length_replicate] at reached room
    rw [inBlock, wrap_add_countOf room]
    split
    · rename_i here
      have inside : rank - passed - 1 < entry.2 := by omega
      simp [List.getElem?_append, inside]
    · rename_i further
      rw [List.getElem?_append_right (by rw [List.length_replicate]; omega), List.length_replicate,
        show rank - passed - 1 - entry.2 = rank - (passed + entry.2) - 1 by omega]
      apply ih <;> omega

private theorem atRank_eq {blocks : List (List (Nat × Nat))} (before : passed < rank)
    (reached : rank ≤ passed + (expand blocks.flatten).length)
    (room : passed + (expand blocks.flatten).length ≤ countLimit) :
    (expand blocks.flatten)[rank - passed - 1]?.map Bucket.highest =
      some (atRank rank passed blocks) := by
  -- The induction is on the blocks, with the samples of those passed over taken off the rank.
  induction blocks generalizing passed with
  | nil =>
    simp only [expand, List.flatten_nil, List.flatMap_nil, List.length_nil] at reached
    omega
  | cons block rest ih =>
    rw [List.flatten_cons, expand_append] at reached room ⊢
    rw [List.length_append] at reached room
    rw [atRank, behindBlock_eq (by omega)]
    split
    · rename_i here
      rw [List.getElem?_append_left (by omega)]
      exact inBlock_eq before here (by omega)
    · rename_i further
      rw [List.getElem?_append_right (by omega),
        show rank - passed - 1 - (expand block).length =
          rank - (passed + (expand block).length) - 1 by omega]
      apply ih <;> omega

private theorem flatten_blocks (histogram : Histogram) :
    histogram.blocks.flatten = histogram.tally.entries :=
  List.flatten_splitBy _ _

end Histogram

/-! ## The samples in order -/

/-- The samples of latencies in ascending order. -/
def sortedSamples (latencies : List Nat) : List Nat :=
  (latencies.map sampleOf).mergeSort (· ≤ ·)

section Sorted

variable {latencies : List Nat}

theorem sortedSamples_perm (latencies : List Nat) :
    (sortedSamples latencies).Perm (latencies.map sampleOf) :=
  List.mergeSort_perm _ _

private theorem sortedSamples_ascending (latencies : List Nat) :
    (sortedSamples latencies).Pairwise (· ≤ ·) := by
  have sorted : (sortedSamples latencies).Pairwise fun left right => decide (left ≤ right) :=
    List.pairwise_mergeSort (by simpa using fun _ _ _ => Nat.le_trans)
      (by simpa using Nat.le_total) (latencies.map sampleOf)
  exact sorted.imp of_decide_eq_true

theorem length_sortedSamples (latencies : List Nat) :
    (sortedSamples latencies).length = latencies.length := by
  rw [(sortedSamples_perm latencies).length_eq, List.length_map]

theorem sortedSamples_le {first second : Nat} (ordered : first ≤ second)
    (inside : second < (sortedSamples latencies).length) :
    (sortedSamples latencies)[first] ≤ (sortedSamples latencies)[second] := by
  rcases Nat.lt_or_eq_of_le ordered with below | same
  · exact List.pairwise_iff_getElem.mp (sortedSamples_ascending latencies) _ _ _ _ below
  · subst same
    exact Nat.le_refl _

namespace Histogram

/-- The buckets that latencies are counted in are those of the samples, in the same order. -/
theorem expand_ofLatencies (latencies : List Nat) :
    expand (ofLatencies latencies).tally.entries = (sortedSamples latencies).map Bucket.lowest := by
  have ascending : ((sortedSamples latencies).map Bucket.lowest).Pairwise (· ≤ ·) :=
    List.pairwise_map.mpr ((sortedSamples_ascending latencies).imp Bucket.lowest_mono)
  refine List.Perm.eq_of_pairwise ?_ (expand_ascending _) ascending ?_
  · intro left right _ _ below above
    exact Nat.le_antisymm below above
  · apply List.perm_iff_count.mpr
    intro bucket
    have same := ((sortedSamples_perm latencies).map Bucket.lowest).count_eq bucket
    rw [count_expand, count_ofLatencies, same, List.map_map, List.count, List.countP_map]
    congr 1

private theorem ofLatencies_cons (latency : Nat) (rest : List Nat) :
    ofLatencies (latency :: rest) = single (sampleOf latency) + ofLatencies rest :=
  ofLatencies_append [latency] rest

private theorem least_single (latency : Nat) :
    (single (sampleOf latency)).least = some (sampleOf latency) := by
  have positive : sampleOf latency ≠ 0 := Nat.ne_of_gt (Nat.le_max_left _ _)
  simp only [single, record, record?, sampleOf_lt_limit latency, if_true, positive, if_false]
  rfl

private theorem greatest_single (latency : Nat) :
    (single (sampleOf latency)).greatest = sampleOf latency := by
  simp only [single, record, record?, sampleOf_lt_limit latency, if_true]
  exact Nat.zero_max _

private theorem least_ofLatencies (recorded : latencies ≠ []) :
    ∃ least ∈ latencies.map sampleOf, (ofLatencies latencies).least = some least ∧
      ∀ sample ∈ latencies.map sampleOf, least ≤ sample := by
  induction latencies with
  | nil => contradiction
  | cons latency rest ih =>
    have whole : (ofLatencies (latency :: rest)).least =
        lesser (some (sampleOf latency)) (ofLatencies rest).least := by
      rw [ofLatencies_cons]
      exact congrArg (lesser · (ofLatencies rest).least) (least_single latency)
    rw [whole]
    by_cases alone : rest = []
    · subst alone
      exact ⟨sampleOf latency, by simp, rfl, by simp⟩
    · obtain ⟨least, member, found, below⟩ := ih alone
      refine ⟨min (sampleOf latency) least, ?_, by rw [found]; rfl, ?_⟩
      · rw [List.map_cons, List.mem_cons]
        rcases Nat.le_total (sampleOf latency) least with first | other
        · exact .inl (Nat.min_eq_left first)
        · rw [Nat.min_eq_right other]
          exact .inr member
      · intro sample inside
        rw [List.map_cons, List.mem_cons] at inside
        rcases inside with rfl | inside
        · exact Nat.min_le_left _ _
        · exact Nat.le_trans (Nat.min_le_right _ _) (below sample inside)

private theorem greatest_ofLatencies (recorded : latencies ≠ []) :
    (ofLatencies latencies).greatest ∈ latencies.map sampleOf ∧
      ∀ sample ∈ latencies.map sampleOf, sample ≤ (ofLatencies latencies).greatest := by
  induction latencies with
  | nil => contradiction
  | cons latency rest ih =>
    have whole : (ofLatencies (latency :: rest)).greatest =
        max (sampleOf latency) (ofLatencies rest).greatest := by
      rw [ofLatencies_cons]
      exact congrArg (max · (ofLatencies rest).greatest) (greatest_single latency)
    rw [whole]
    by_cases alone : rest = []
    · subst alone
      have nothing : (ofLatencies []).greatest = 0 := rfl
      simp [nothing]
    · obtain ⟨member, above⟩ := ih alone
      constructor
      · rw [List.map_cons, List.mem_cons]
        rcases Nat.le_total (ofLatencies rest).greatest (sampleOf latency) with first | other
        · exact .inl (Nat.max_eq_left first)
        · rw [Nat.max_eq_right other]
          exact .inr member
      · intro sample inside
        rw [List.map_cons, List.mem_cons] at inside
        rcases inside with rfl | inside
        · exact Nat.le_max_left _ _
        · exact Nat.le_trans (above sample inside) (Nat.le_max_right _ _)

/-- The least value that is shown is that of the bucket of the first sample. -/
theorem minimum_ofLatencies (recorded : latencies ≠ [])
    (inside : 0 < (sortedSamples latencies).length) :
    (ofLatencies latencies).minimum = Bucket.lowest (sortedSamples latencies)[0] := by
  obtain ⟨least, member, found, below⟩ := least_ofLatencies recorded
  have perm := sortedSamples_perm latencies
  have same : (sortedSamples latencies)[0] = least := by
    apply Nat.le_antisymm
    · obtain ⟨place, there, rfl⟩ := List.getElem_of_mem (perm.mem_iff.mpr member)
      exact sortedSamples_le (Nat.zero_le _) there
    · exact below _ (perm.mem_iff.mp (List.getElem_mem inside))
  have noZero : (ofLatencies latencies).tally.count 0 = 0 := by
    rw [count_ofLatencies, List.countP_eq_zero]
    intro latency _ zero
    have positive : 0 < Bucket.lowest (sampleOf latency) :=
      Bucket.lowest_pos (Nat.le_max_left _ _)
    rw [of_decide_eq_true zero] at positive
    exact Nat.lt_irrefl 0 positive
  rw [minimum, if_pos noZero, found, same, Option.getD_some]

/-- The greatest value that is shown is that of the bucket of the last sample. -/
theorem maximum_ofLatencies (recorded : latencies ≠ [])
    (inside : latencies.length - 1 < (sortedSamples latencies).length) :
    (ofLatencies latencies).maximum =
      Bucket.highest (sortedSamples latencies)[latencies.length - 1] := by
  have length := length_sortedSamples latencies
  obtain ⟨member, above⟩ := greatest_ofLatencies recorded
  have perm := sortedSamples_perm latencies
  have same :
      (sortedSamples latencies)[latencies.length - 1] = (ofLatencies latencies).greatest := by
    apply Nat.le_antisymm
    · exact above _ (perm.mem_iff.mp (List.getElem_mem inside))
    · obtain ⟨place, there, found⟩ := List.getElem_of_mem (perm.mem_iff.mpr member)
      rw [← found]
      exact sortedSamples_le (by omega) inside
  rw [maximum, same]

/-- A quantile shows the upper end of the bucket of the sample at its rank. -/
theorem quantile_ofLatencies {numerator : Nat} (counted : latencies.length ≤ countLimit)
    (within : rank numerator latencies.length ≤ latencies.length)
    (inside : rank numerator latencies.length - 1 < (sortedSamples latencies).length) :
    (ofLatencies latencies).quantile numerator =
      Bucket.highest (sortedSamples latencies)[rank numerator latencies.length - 1] := by
  have total : (ofLatencies latencies).total = latencies.length := by
    rw [Histogram.total, total_ofLatencies, Nat.min_eq_left counted]
  have expanded : expand (ofLatencies latencies).blocks.flatten =
      (sortedSamples latencies).map Bucket.lowest := by
    rw [flatten_blocks, expand_ofLatencies]
  have all : (expand (ofLatencies latencies).blocks.flatten).length = latencies.length := by
    rw [expanded, List.length_map, length_sortedSamples]
  apply Option.some.inj
  rw [quantile, total, ← atRank_eq (rank_pos numerator latencies.length) ?_ ?_, expanded,
    Nat.sub_zero, List.getElem?_map, List.getElem?_eq_getElem inside, Option.map_some,
    Option.map_some, Bucket.highest_lowest]
  · omega
  · omega

end Histogram

end Sorted

/-! ## Summaries -/

/-- The quantiles that a summary reports, with what it reports for them. -/
def LatencySummary.quantiles (summary : LatencySummary) : List (Nat × Nat) :=
  [(medianQuantile, summary.median), (p90Quantile, summary.p90), (p99Quantile, summary.p99),
    (p999Quantile, summary.p999)]

/-- The reported quantiles stay clear of one and of each other. -/
theorem LatencySummary.quantiles_apart :
    [medianQuantile, p90Quantile, p99Quantile, p999Quantile].Pairwise
        (fun lesser greater => (2 ^ 53 + 1) * lesser + greater ≤ 2 ^ 53 * greater) ∧
      ∀ numerator ∈ [medianQuantile, p90Quantile, p99Quantile, p999Quantile],
        (2 ^ 53 + 1) ^ 2 * numerator ≤ 2 ^ 159 := by
  decide

namespace Histogram

variable {latencies : List Nat}

/-- The sample that a quantile stands for, with the bounds on what is shown for it. -/
theorem quantile_near {numerator : Nat} (clear : (2 ^ 53 + 1) ^ 2 * numerator ≤ 2 ^ 159)
    (recorded : latencies ≠ []) (counted : latencies.length ≤ countLimit) :
    let rank := rank numerator latencies.length
    let shown := LatencySummary.micros ((ofLatencies latencies).quantile numerator)
    1 ≤ rank ∧ rank ≤ latencies.length ∧
      ∃ sample, (sortedSamples latencies)[rank - 1]? = some sample ∧
        sample / 1000 ≤ shown ∧ shown ≤ (sample + sample / 1024) / 1000 := by
  intro rank shown
  have positive := List.length_pos_iff.mpr recorded
  have first : 1 ≤ rank := rank_pos numerator latencies.length
  have within : rank ≤ latencies.length := rank_le clear positive
  have length := length_sortedSamples latencies
  have inside : rank - 1 < (sortedSamples latencies).length := by omega
  have value := quantile_ofLatencies counted within inside
  refine ⟨first, within, _, List.getElem?_eq_getElem inside, ?_, ?_⟩
  · simp only [shown, LatencySummary.micros, value]
    exact Nat.div_le_div_right (Bucket.le_highest _)
  · simp only [shown, LatencySummary.micros, value]
    exact Nat.div_le_div_right (Bucket.highest_le _)

private theorem quantile_le_quantile {lesser greater : Nat}
    (apart : (2 ^ 53 + 1) * lesser + greater ≤ 2 ^ 53 * greater)
    (clear : (2 ^ 53 + 1) ^ 2 * lesser ≤ 2 ^ 159) (clear' : (2 ^ 53 + 1) ^ 2 * greater ≤ 2 ^ 159)
    (recorded : latencies ≠ []) (counted : latencies.length ≤ countLimit) :
    (ofLatencies latencies).quantile lesser ≤ (ofLatencies latencies).quantile greater := by
  have positive := List.length_pos_iff.mpr recorded
  have length := length_sortedSamples latencies
  have within := rank_le clear positive
  have within' := rank_le clear' positive
  have first := rank_pos lesser latencies.length
  have first' := rank_pos greater latencies.length
  have ordered := rank_le_rank apart latencies.length
  rw [quantile_ofLatencies counted within (by omega),
    quantile_ofLatencies counted within' (by omega)]
  apply Bucket.highest_mono
  exact sortedSamples_le (by omega) _

private theorem minimum_le_quantile {numerator : Nat}
    (clear : (2 ^ 53 + 1) ^ 2 * numerator ≤ 2 ^ 159)
    (recorded : latencies ≠ []) (counted : latencies.length ≤ countLimit) :
    (ofLatencies latencies).minimum ≤ (ofLatencies latencies).quantile numerator := by
  have positive := List.length_pos_iff.mpr recorded
  have length := length_sortedSamples latencies
  have within := rank_le clear positive
  have first := rank_pos numerator latencies.length
  rw [minimum_ofLatencies recorded (by omega), quantile_ofLatencies counted within (by omega)]
  calc Bucket.lowest (sortedSamples latencies)[0]
      ≤ (sortedSamples latencies)[0] := Bucket.lowest_le _
    _ ≤ (sortedSamples latencies)[rank numerator latencies.length - 1] :=
        sortedSamples_le (Nat.zero_le _) _
    _ ≤ _ := Bucket.le_highest _

private theorem quantile_le_maximum {numerator : Nat}
    (clear : (2 ^ 53 + 1) ^ 2 * numerator ≤ 2 ^ 159)
    (recorded : latencies ≠ []) (counted : latencies.length ≤ countLimit) :
    (ofLatencies latencies).quantile numerator ≤ (ofLatencies latencies).maximum := by
  have positive := List.length_pos_iff.mpr recorded
  have length := length_sortedSamples latencies
  have within := rank_le clear positive
  have first := rank_pos numerator latencies.length
  rw [maximum_ofLatencies recorded (by omega), quantile_ofLatencies counted within (by omega)]
  apply Bucket.highest_mono
  exact sortedSamples_le (by omega) _

end Histogram

namespace LatencySession

/-- A summary of all that was recorded counts it, and its least and greatest value are at most a
1024th beside the first and the last sample. As long as a 64-bit count holds them all, the values
are in order and each quantile is at most a 1024th above the sample at its rank. -/
theorem percentiles_accurate {moves : List Move}
    (noHandle : (after {} moves).handles.entries = [])
    (unfinished : (after {} moves).finished = false) (recorded : recordedAlong {} moves ≠ [])
    {step : Step} (summarizing : step = .summarize ∨ step = .finish) :
    let latencies := recordedAlong {} moves
    let samples := sortedSamples latencies
    ∃ summary, ((after {} moves).step step).1 = .summary (some summary) ∧
      summary.count = min latencies.length Histogram.countLimit ∧
      (∃ smallest, samples[0]? = some smallest ∧
        (smallest - smallest / 1024) / 1000 ≤ summary.least ∧ summary.least ≤ smallest / 1000) ∧
      (∃ largest, samples[latencies.length - 1]? = some largest ∧
        largest / 1000 ≤ summary.greatest ∧
          summary.greatest ≤ (largest + largest / 1024) / 1000) ∧
      (latencies.length ≤ Histogram.countLimit →
        summary.least ≤ summary.median ∧ summary.median ≤ summary.p90 ∧
          summary.p90 ≤ summary.p99 ∧ summary.p99 ≤ summary.p999 ∧
          summary.p999 ≤ summary.greatest ∧
        ∀ reported ∈ summary.quantiles,
          let rank := Histogram.rank reported.1 latencies.length
          1 ≤ rank ∧ rank ≤ latencies.length ∧
            ∃ sample, samples[rank - 1]? = some sample ∧
              sample / 1000 ≤ reported.2 ∧ reported.2 ≤ (sample + sample / 1024) / 1000) := by
  intro latencies samples
  have answer := summary_after noHandle unfinished summarizing
  have positive : 0 < latencies.length := List.length_pos_iff.mpr recorded
  have length : samples.length = latencies.length := length_sortedSamples latencies
  have total : (Histogram.ofLatencies latencies).total =
      min latencies.length Histogram.countLimit := by
    rw [Histogram.total, Histogram.total_ofLatencies]
  have counted : (Histogram.ofLatencies latencies).total ≠ 0 := by
    have room : 0 < Histogram.countLimit := by decide
    omega
  rw [LatencySummary.ofHistogram?, if_neg counted] at answer
  refine ⟨_, answer, total, ?_, ?_, ?_⟩
  · have inside : 0 < samples.length := by omega
    refine ⟨_, List.getElem?_eq_getElem inside, ?_⟩
    simp only [LatencySummary.micros, Histogram.minimum_ofLatencies recorded inside]
    exact ⟨Nat.div_le_div_right (Bucket.sub_le_lowest _), Nat.div_le_div_right (Bucket.lowest_le _)⟩
  · have inside : latencies.length - 1 < samples.length := by omega
    refine ⟨_, List.getElem?_eq_getElem inside, ?_⟩
    simp only [LatencySummary.micros, Histogram.maximum_ofLatencies recorded inside]
    exact ⟨Nat.div_le_div_right (Bucket.le_highest _), Nat.div_le_div_right (Bucket.highest_le _)⟩
  · intro fits
    obtain ⟨apart, clear⟩ := LatencySummary.quantiles_apart
    simp only [List.mem_cons, List.not_mem_nil, or_false, forall_eq_or_imp, forall_eq] at clear
    obtain ⟨clear50, clear90, clear99, clear999⟩ := clear
    simp only [List.pairwise_cons, List.mem_cons, List.not_mem_nil, or_false, forall_eq_or_imp,
      forall_eq] at apart
    obtain ⟨⟨apart50, _⟩, ⟨apart90, _⟩, apart99, _⟩ := apart
    refine ⟨?_, ?_, ?_, ?_, ?_, ?_⟩
    · exact Nat.div_le_div_right (Histogram.minimum_le_quantile clear50 recorded fits)
    · exact Nat.div_le_div_right
        (Histogram.quantile_le_quantile apart50 clear50 clear90 recorded fits)
    · exact Nat.div_le_div_right
        (Histogram.quantile_le_quantile apart90 clear90 clear99 recorded fits)
    · exact Nat.div_le_div_right
        (Histogram.quantile_le_quantile apart99 clear99 clear999 recorded fits)
    · exact Nat.div_le_div_right (Histogram.quantile_le_maximum clear999 recorded fits)
    · intro reported member
      simp only [LatencySummary.quantiles, List.mem_cons, List.not_mem_nil, or_false] at member
      rcases member with rfl | rfl | rfl | rfl
      · exact Histogram.quantile_near clear50 recorded fits
      · exact Histogram.quantile_near clear90 recorded fits
      · exact Histogram.quantile_near clear99 recorded fits
      · exact Histogram.quantile_near clear999 recorded fits

/-- A clamped sample, one at a power of two and one above the longest latency. -/
theorem percentiles_accurate_three :
    let moves : List Move := [.step (.handle 0), .step (.record 0 [0, 2 ^ 20]), .beginSummary,
      .step (.record 0 [10 ^ 11]), .gather, .step (.drop 0)]
    (after {} moves).handles.entries = [] ∧ (after {} moves).finished = false ∧
      recordedAlong {} moves ≠ [] ∧
      ∃ summary, ((after {} moves).step .finish).1 = .summary (some summary) ∧
        summary.count = 3 ∧ summary.least = 0 ∧ 1048 ≤ summary.median ∧
        summary.median ≤ 1049 ∧ summary.p999 ≤ summary.greatest ∧
        60000000 ≤ summary.greatest := by
  intro moves
  have recorded : recordedAlong {} moves ≠ [] := by decide
  have sorted : sortedSamples (recordedAlong {} moves) = [1, 2 ^ 20, longestLatency] := by
    exact List.mergeSort_of_pairwise (by decide)
  obtain ⟨summary, answer, count, ⟨smallest, first, _, least⟩,
      ⟨largest, last, greatest, _⟩, fine⟩ :=
    @percentiles_accurate moves rfl rfl recorded .finish (.inr rfl)
  obtain ⟨_, _, _, _, ordered, near⟩ := fine (by decide)
  obtain ⟨_, _, sample, place, lower, upper⟩ := near (_, summary.median) (.head _)
  have middle :
      Histogram.rank LatencySummary.medianQuantile (recordedAlong {} moves).length = 2 := by
    decide
  rw [sorted] at first last place
  rw [middle] at place
  cases first
  cases last
  cases place
  exact ⟨rfl, rfl, recorded, summary, answer, count, Nat.le_zero.mp least, lower, upper, ordered,
    greatest⟩

end LatencySession

end ChatHub
