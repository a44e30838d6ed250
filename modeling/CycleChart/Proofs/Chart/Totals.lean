import CycleChart.Chart.Summary
import CycleChart.Proofs.Text.Grouping
import Mathlib.Data.List.Nodup

namespace CycleChart

/-- The lines of a text. -/
def Text.linesOf (text : String) : List String := (text.toList.splitOn '\n').map String.ofList

/-- A text that is put together from lines falls apart into them. -/
theorem Text.linesOf_intercalate {lines : List String} (filled : lines ≠ [])
    (whole : ∀ line ∈ lines, '\n' ∉ line.toList) : linesOf ("\n".intercalate lines) = lines := by
  have split := List.splitOn_intercalate '\n' (List.forall_mem_map.2 whole) (mt List.map_eq_nil_iff.1 filled)
  rw [linesOf, String.toList_intercalate]
  change (List.splitOn '\n' (['\n'].intercalate (lines.map String.toList))).map String.ofList = lines
  rw [split, List.map_map]
  exact List.map_id'' (fun _ => String.ofList_toList) lines

namespace Total

theorem mem_all (t : Total) : t ∈ all := by cases t <;> decide

/-- No two totals are called the same. -/
theorem caption_injective : Function.Injective caption := by
  have nodup : (all.map caption).Nodup := by decide
  intro t u same
  exact List.inj_on_of_nodup_map nodup (mem_all t) (mem_all u) same

/-- What a total is called has no colon and keeps to its line. -/
theorem caption_plain (t : Total) : ':' ∉ t.caption.toList ∧ '\n' ∉ t.caption.toList := by cases t <;> decide

end Total

namespace Line

theorem toList_text (l : Line) :
    l.text.toList = l.total.caption.toList ++ ':' :: ' ' :: (Text.grouped l.value.toNat).toList := by
  simp [text]

/-- So does the value. -/
theorem value_plain (n : Nat) : ':' ∉ (Text.grouped n).toList ∧ '\n' ∉ (Text.grouped n).toList := by
  constructor
  · intro mem
    exact absurd (Text.mem_grouped mem) (by decide)
  · intro mem
    exact absurd (Text.mem_grouped mem) (by decide)

theorem newline_not_mem_text (l : Line) : '\n' ∉ l.text.toList := by
  simp [toList_text, l.total.caption_plain.2, (value_plain l.value.toNat).2]

/-- A line tells which total it states, and its value. -/
theorem text_injective : Function.Injective text := by
  rintro ⟨t, n⟩ ⟨u, m⟩ same
  have characters := congrArg String.toList same
  rw [toList_text, toList_text] at characters
  -- the only colon ends the caption, so two captions cannot be taken for each other
  have rest : ':' ∉ ' ' :: (Text.grouped n.toNat).toList := by simp [(value_plain n.toNat).1]
  obtain ⟨caption, -, number⟩ := (List.append_cons_inj_of_notMem t.caption_plain.1 rest).1 characters
  have total : t = u := Total.caption_injective (String.toList_inj.1 caption)
  have value : n.toNat = m.toNat := Text.grouped_injective (String.toList_inj.1 (List.cons.inj number).2)
  rw [total, UInt64.toNat_inj.1 value]

end Line

namespace Summary

variable {r : Report}

/-- A summary states just the totals that the report states. -/
theorem mem_lines_iff {l : Line} : l ∈ (ofReport r).lines ↔ r.total? l.total = some l.value := by
  obtain ⟨t, n⟩ := l
  simp only [ofReport, List.mem_filterMap, Option.map_eq_some_iff, Line.mk.injEq]
  constructor
  · rintro ⟨t, -, n, stated, rfl, rfl⟩
    exact stated
  · intro stated
    exact ⟨t, t.mem_all, n, stated, rfl, rfl⟩

theorem totals_lines (r : Report) :
    (ofReport r).lines.map (·.total) = Total.all.filter fun t => (r.total? t).isSome := by
  rw [ofReport, List.map_filterMap, ← List.filterMap_eq_filter]
  congr 1
  funext t
  cases stated : r.total? t <;> simp [Option.guard, stated]

/-- The totals that every report states come last. -/
theorem required_suffix (r : Report) :
    [⟨.gas, r.gas⟩, ⟨.instructions, r.instructions⟩, ⟨.syscalls, r.syscalls⟩] <:+ (ofReport r).lines := by
  have parts : Total.all = [.blobs, .blockExecutions, .transactions, .evmGas, .proofs] ++ Total.required := rfl
  rw [ofReport, parts, List.filterMap_append]
  exact List.suffix_append _ _

theorem linesOf_text (r : Report) : Text.linesOf (ofReport r).text = (ofReport r).lines.map Line.text := by
  apply Text.linesOf_intercalate
  · have some := (required_suffix r).ne_nil (List.cons_ne_nil _ _)
    exact mt List.map_eq_nil_iff.1 some
  · exact List.forall_mem_map.2 fun l _ => l.newline_not_mem_text

theorem text_eq_iff {r r' : Report} : (ofReport r').text = (ofReport r).text ↔ ∀ t, r'.total? t = r.total? t := by
  constructor
  · intro same t
    have lines := congrArg Text.linesOf same
    rw [linesOf_text, linesOf_text] at lines
    have stated := List.map_injective_iff.2 Line.text_injective lines
    apply Option.ext
    intro n
    rw [← mem_lines_iff (l := ⟨t, n⟩), stated, mem_lines_iff]
  · intro same
    rw [ofReport, ofReport, funext same]

/-- The summary tells the totals of a report and nothing else: one line for each total that the report states, in a
fixed order that ends with those that every report states. -/
theorem text_spec (r : Report) :
    (∀ r' : Report, (ofReport r').text = (ofReport r).text ↔ ∀ t, r'.total? t = r.total? t) ∧
      Text.linesOf (ofReport r).text = (ofReport r).lines.map Line.text ∧
      (∀ l : Line, l ∈ (ofReport r).lines ↔ r.total? l.total = some l.value) ∧
      ((ofReport r).lines.map (·.total)).Sublist
        [.blobs, .blockExecutions, .transactions, .evmGas, .proofs, .gas, .instructions, .syscalls] ∧
      [⟨.gas, r.gas⟩, ⟨.instructions, r.instructions⟩, ⟨.syscalls, r.syscalls⟩] <:+ (ofReport r).lines := by
  refine ⟨fun _ => text_eq_iff, linesOf_text r, fun _ => mem_lines_iff, ?_, required_suffix r⟩
  rw [totals_lines]
  exact List.filter_sublist

end Summary
end CycleChart
