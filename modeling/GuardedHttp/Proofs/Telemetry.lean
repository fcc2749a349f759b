import Mathlib.Data.String.Basic
import GuardedHttp.Telemetry

/-!
# What a summary reads

A summary is built sample by sample, each put in the place of its sort key. Since the keys stay in order
(`Summary.sorted_summarize`), a sample changes the reading of its own series and of no other
(`Summary.lookup_record`), so that the reading of a series can be followed through what is reported
(`reading_sample`).
-/

namespace GuardedHttp

namespace Summary

/-- The series of a summary stand in the order of their sort keys. -/
def Sorted (sum : Summary) : Prop := sum.Pairwise fun a b => a.1.sortKey ≤ b.1.sortKey

variable {sample : Sample} {sum : Summary} {series : Series}

/-- A sample adds at most its own series. -/
theorem mem_record {entry : Series × Reading} (h : entry ∈ sum.record sample) :
    entry.1 = sample.series ∨ ∃ other ∈ sum, other.1 = entry.1 := by
  induction sum with
  | nil =>
    rw [record, List.mem_singleton] at h
    exact .inl (by rw [h])
  | cons first rest ih =>
    obtain ⟨s, r⟩ := first
    rw [record] at h
    split at h
    · rcases List.mem_cons.mp h with rfl | h
      · exact .inr ⟨_, List.mem_cons_self, rfl⟩
      · exact .inr ⟨_, List.mem_cons_of_mem _ h, rfl⟩
    · split at h
      · rcases List.mem_cons.mp h with rfl | h
        · exact .inl rfl
        · exact .inr ⟨_, h, rfl⟩
      · rcases List.mem_cons.mp h with rfl | h
        · exact .inr ⟨_, List.mem_cons_self, rfl⟩
        · exact (ih h).imp_right fun ⟨other, hm, he⟩ => ⟨other, List.mem_cons_of_mem _ hm, he⟩

/-- A sample is put in the place of its key. -/
theorem Sorted.record (h : sum.Sorted) (sample : Sample) : (sum.record sample).Sorted := by
  induction sum with
  | nil => exact List.pairwise_singleton ..
  | cons first rest ih =>
    obtain ⟨s, r⟩ := first
    obtain ⟨hfirst, hrest⟩ := List.pairwise_cons.mp h
    rw [Summary.record]
    split
    · exact List.pairwise_cons.mpr ⟨hfirst, hrest⟩
    · split
      · rename_i hlt
        refine List.pairwise_cons.mpr ⟨fun entry he => ?_, h⟩
        -- It goes before the first that is larger, and so before all that follow.
        rcases List.mem_cons.mp he with rfl | he
        · exact hlt.le
        · exact hlt.le.trans (hfirst entry he)
      · rename_i hle
        refine List.pairwise_cons.mpr ⟨fun entry he => ?_, ih hrest⟩
        -- What is in the rest after it was there before, or is the series itself.
        rcases mem_record he with he | ⟨other, hm, he⟩
        · rw [he]
          exact not_lt.mp hle
        · rw [← he]
          exact hfirst other hm

/-- A summary is in order. -/
theorem sorted_summarize (samples : List Sample) : (summarize samples).Sorted :=
  List.foldlRecOn samples _ List.Pairwise.nil fun _ h sample _ => h.record sample

/-- A series whose key is smaller than all keys has no reading. -/
theorem lookup_eq_none_of_lt (h : ∀ entry ∈ sum, series.sortKey < entry.1.sortKey) :
    sum.lookup series = none := by
  refine List.lookup_eq_none_iff.mpr fun entry he => ?_
  rw [bne_iff_ne]
  rintro rfl
  exact lt_irrefl _ (h entry he)

/-- A series is looked up in the first entry or, if that is another's, in the rest. -/
theorem lookup_cons (s : Series) (r : Reading) :
    List.lookup series ((s, r) :: sum) = if series = s then some r else sum.lookup series := by
  by_cases h : series = s
  · rw [if_pos h, h, List.lookup_cons_self]
  · rw [if_neg h, List.lookup_cons, beq_eq_false_iff_ne.mpr h]

/-- A sample adds to the reading of its own series, and leaves those of all others. -/
theorem lookup_record (h : sum.Sorted) : (sum.record sample).lookup series =
    if series = sample.series then some (sample.addTo (sum.lookup series)) else sum.lookup series := by
  induction sum with
  | nil => exact lookup_cons ..
  | cons first rest ih =>
    obtain ⟨s, r⟩ := first
    obtain ⟨hfirst, hrest⟩ := List.pairwise_cons.mp h
    rw [record]
    split
    · rename_i hs
      subst hs
      rw [lookup_cons, lookup_cons]
      split <;> rfl
    · rename_i hne
      split
      · rename_i hlt
        rw [lookup_cons]
        split
        · -- Whatever follows has a greater key, so that the series is new.
          rename_i he
          rw [he, lookup_eq_none_of_lt]
          intro entry hm
          rcases List.mem_cons.mp hm with rfl | hm
          · exact hlt
          · exact hlt.trans_le (hfirst entry hm)
        · rfl
      · rw [lookup_cons, lookup_cons, ih hrest]
        by_cases he : series = s
        · rw [if_pos he, if_pos he, if_neg (he ▸ hne)]
        · rw [if_neg he, if_neg he]

end Summary

/-! ## What is reported -/

/-- The reading of a series after what has been reported, if it has one. -/
def reading (series : Series) (emitted : List Emission) : Option Reading :=
  (summarize (samples emitted)).lookup series

/-- Samples are those of one part and then those of the other. -/
theorem samples_append (a b : List Emission) : samples (a ++ b) = samples a ++ samples b :=
  List.filterMap_append

variable {series : Series} {emitted : List Emission}

/-- Readings are made of samples. -/
theorem reading_congr {other : List Emission} (h : samples emitted = samples other) :
    reading series emitted = reading series other := by
  unfold reading
  rw [h]

/-- The sample is one more of what a series counts. -/
def Sample.counts (series : Series) : Sample → Bool
  | count s => s = series
  | level .. | observe .. => false

/-- Counts are counts of samples. -/
theorem countOf_eq_countP (series : Series) (emitted : List Emission) :
    countOf series emitted = (samples emitted).countP (Sample.counts series) := by
  unfold countOf samples
  rw [List.countP_filterMap]
  refine List.countP_congr fun e _ => ?_
  cases e with
  | line l => simp
  | sample s => cases s <;> simp [Sample.counts]

/-- Series count samples and nothing else. -/
theorem countOf_congr {other : List Emission} (h : samples emitted = samples other) :
    countOf series emitted = countOf series other := by
  rw [countOf_eq_countP, countOf_eq_countP, h]

/-- A sample changes the reading of its own series and of no other. -/
theorem reading_sample (sample : Sample) : reading series (emitted ++ [.sample sample]) =
    if series = sample.series then some (sample.addTo (reading series emitted))
    else reading series emitted := by
  have hlast : summarize (samples (emitted ++ [.sample sample])) =
      (summarize (samples emitted)).record sample := by
    rw [samples_append, summarize, List.foldl_append]
    rfl
  unfold reading
  rw [hlast, Summary.lookup_record (Summary.sorted_summarize _)]

end GuardedHttp
