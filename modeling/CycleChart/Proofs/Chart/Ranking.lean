import CycleChart.Chart.Breakdown
import CycleChart.Proofs.Text.ByteOrder

namespace CycleChart

/-- The bar for a label and its count. -/
def Bar.ofEntry (entry : String × UInt64) : Bar := ⟨entry.1, entry.2⟩

/-- The order of bars: the greater count first, and of equal counts the label with the lesser bytes. -/
def Bar.Outranks (a b : Bar) : Prop :=
  b.count < a.count ∨ a.count = b.count ∧ Text.bytes a.label < Text.bytes b.label

theorem Bar.Outranks.asymm {a b : Bar} (h : a.Outranks b) : ¬b.Outranks a := by
  rintro (more | ⟨same, after⟩)
  · rcases h with less | ⟨same, -⟩
    · exact UInt64.lt_asymm less more
    · exact UInt64.ne_of_lt more same
  · rcases h with less | ⟨-, before⟩
    · exact UInt64.ne_of_lt less same
    · exact Std.lt_irrefl (Std.lt_trans before after)

namespace Breakdown

theorem falls_trans (a b c : Bar) (ab : decide (b.count ≤ a.count)) (bc : decide (c.count ≤ b.count)) :
    decide (c.count ≤ a.count) :=
  decide_eq_true (UInt64.le_trans (of_decide_eq_true bc) (of_decide_eq_true ab))

theorem falls_total (a b : Bar) : decide (b.count ≤ a.count) || decide (a.count ≤ b.count) := by
  simpa using UInt64.le_total b.count a.count

variable (counts : LabelCounts)

theorem perm_bars : (ofCounts counts).bars.Perm (counts.entries.map Bar.ofEntry) := List.mergeSort_perm _ _

/-- The bars of a breakdown descend. -/
theorem pairwise_bars : (ofCounts counts).bars.Pairwise fun a b => b.count ≤ a.count := by
  have sorted := List.pairwise_mergeSort falls_trans falls_total (counts.entries.map Bar.ofEntry)
  exact sorted.imp of_decide_eq_true

/-- Bars of one count stay in the order of the labels. -/
theorem filter_bars (n : UInt64) :
    (ofCounts counts).bars.filter (·.count = n) = (counts.entries.map Bar.ofEntry).filter (·.count = n) := by
  have level : ((counts.entries.map Bar.ofEntry).filter (·.count = n)).Pairwise fun a b =>
      decide (b.count ≤ a.count) = true := by
    apply List.pairwise_of_forall_mem_list
    intro a ha b hb
    have count := of_decide_eq_true (List.mem_filter.1 ha).2
    have count' := of_decide_eq_true (List.mem_filter.1 hb).2
    rw [count, count']
    exact decide_eq_true (UInt64.le_refl n)
  -- the bars of one count are sorted as they stand, and a stable sort keeps what is sorted
  have kept : ((counts.entries.map Bar.ofEntry).filter (·.count = n)).Sublist (ofCounts counts).bars :=
    List.sublist_mergeSort falls_trans falls_total level List.filter_sublist
  have within := kept.filter (·.count = n)
  rw [List.filter_filter] at within
  simp only [Bool.and_self] at within
  exact (within.eq_of_length ((perm_bars counts).filter _).length_eq.symm).symm

/-- Each bar outranks those below it. -/
theorem pairwise_outranks : (ofCounts counts).bars.Pairwise Bar.Outranks := by
  rw [List.pairwise_iff_forall_sublist]
  intro a b sub
  have le := List.pairwise_iff_forall_sublist.1 (pairwise_bars counts) sub
  rcases UInt64.lt_or_eq_of_le le with less | same
  · exact .inl less
  · have ascending : (counts.entries.map Bar.ofEntry).Pairwise fun a b => a.label < b.label :=
      List.pairwise_map.2 counts.ascending
    have tied := sub.filter (·.count = a.count)
    have both : [a, b].filter (·.count = a.count) = [a, b] := by simp [same]
    rw [both, filter_bars] at tied
    have before := List.pairwise_iff_forall_sublist.1 ascending (tied.trans List.filter_sublist)
    exact .inr ⟨same.symm, Text.bytes_lt_iff.2 before⟩

/-- No bar is longer than the first one. -/
theorem count_le_maxCount {b : Breakdown} (sorted : b.bars.Pairwise fun a b => b.count ≤ a.count) {bar : Bar}
    (mem : bar ∈ b.bars) : bar.count ≤ b.maxCount := by
  obtain ⟨bars⟩ := b
  cases bars with
  | nil => cases mem
  | cons first bars =>
    rcases List.mem_cons.1 mem with rfl | later
    · exact UInt64.le_refl _
    · exact List.rel_of_pairwise_cons sorted later

/-- The count of the first bar is the greatest one, and zero if there is no bar. -/
theorem maxCount_eq_iff {b : Breakdown} (sorted : b.bars.Pairwise fun a b => b.count ≤ a.count) (n : UInt64) :
    b.maxCount = n ↔
      (∀ m ∈ b.bars.map (·.count), m ≤ n) ∧ (n ∈ b.bars.map (·.count) ∨ b.bars = [] ∧ n = 0) := by
  rw [List.forall_mem_map]
  constructor
  · rintro rfl
    refine ⟨fun bar mem => count_le_maxCount sorted mem, ?_⟩
    obtain ⟨bars⟩ := b
    cases bars with
    | nil => exact .inr ⟨rfl, rfl⟩
    | cons first bars => exact .inl List.mem_cons_self
  · rintro ⟨most, listed | ⟨none, rfl⟩⟩
    · obtain ⟨bar, mem, rfl⟩ := List.mem_map.1 listed
      apply UInt64.le_antisymm _ (count_le_maxCount sorted mem)
      obtain ⟨bars⟩ := b
      cases bars with
      | nil => cases mem
      | cons first bars => exact most first List.mem_cons_self
    · rw [maxCount, none]
      rfl

/-- A breakdown holds one bar for each label, and there is one order only in which each bar outranks those below it. -/
theorem ofCounts_spec (counts : LabelCounts) :
    (∀ bars : List Bar, bars = (ofCounts counts).bars ↔
      bars.Perm (counts.entries.map Bar.ofEntry) ∧ bars.Pairwise Bar.Outranks) ∧
    (∀ n, (ofCounts counts).maxCount = n ↔
      (∀ m ∈ counts.entries.map (·.2), m ≤ n) ∧ (n ∈ counts.entries.map (·.2) ∨ counts.entries = [] ∧ n = 0)) ∧
    (ofCounts counts).bars.length = counts.entries.length := by
  have perm := perm_bars counts
  refine ⟨fun bars => ?_, fun n => ?_, ?_⟩
  · constructor
    · rintro rfl
      exact ⟨perm, pairwise_outranks counts⟩
    · rintro ⟨same, ranked⟩
      apply List.Perm.eq_of_pairwise _ ranked (pairwise_outranks counts) (same.trans perm.symm)
      intro a b _ _ above below
      exact absurd below above.asymm
  · have listed : ((ofCounts counts).bars.map (·.count)).Perm (counts.entries.map (·.2)) := by
      have counted := perm.map (·.count)
      rwa [List.map_map] at counted
    have none : (ofCounts counts).bars = [] ↔ counts.entries = [] := by
      rw [← List.perm_nil, perm.congr_left, List.perm_nil, List.map_eq_nil_iff]
    simp only [maxCount_eq_iff (pairwise_bars counts), listed.mem_iff, none]
  · rw [perm.length_eq, List.length_map]

end Breakdown
end CycleChart
