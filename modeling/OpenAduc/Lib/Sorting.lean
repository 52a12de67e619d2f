import Mathlib.Data.List.Nodup

namespace Sorting
universe u v
variable {α : Type u} {κ : Type v} [LE κ] [DecidableLE κ] [Std.IsLinearOrder κ]

theorem pairwise_sort (key : α → κ) (l : List α) :
    (l.mergeSort fun a b => decide (key a ≤ key b)).Pairwise fun a b => key a ≤ key b := by
  have sorted : (l.mergeSort fun a b => decide (key a ≤ key b)).Pairwise fun a b =>
    decide (key a ≤ key b) = true := by
    refine List.pairwise_mergeSort (fun a b c ab bc => ?_) (fun a b => ?_) l
    · exact decide_eq_true (Std.le_trans (of_decide_eq_true ab) (of_decide_eq_true bc))
    · simpa using Std.le_total
  exact sorted.imp of_decide_eq_true

/-- A list in order, its keys apart, is what any list of the same items is sorted to. -/
theorem sort_eq (key : α → κ) {l sorted : List α} (perm : l.Perm sorted)
    (inOrder : sorted.Pairwise fun a b => key a ≤ key b) (apart : (sorted.map key).Nodup) :
    (l.mergeSort fun a b => decide (key a ≤ key b)) = sorted := by
  have same : (l.mergeSort fun a b => decide (key a ≤ key b)).Perm sorted :=
    (List.mergeSort_perm l _).trans perm
  refine List.Perm.eq_of_pairwise (fun a b inA inB le ge => ?_) (pairwise_sort key l) inOrder same
  exact List.inj_on_of_nodup_map apart (same.mem_iff.mp inA) inB (Std.le_antisymm le ge)

/-- Lists of the same keys are sorted alike. -/
theorem sort_perm {l l' : List κ} (perm : l.Perm l') :
    (l.mergeSort fun a b => decide (a ≤ b)) = l'.mergeSort fun a b => decide (a ≤ b) :=
  List.Perm.eq_of_pairwise (fun _ _ _ _ => Std.le_antisymm) (pairwise_sort id l) (pairwise_sort id l')
    ((List.mergeSort_perm l _).trans (perm.trans (List.mergeSort_perm l' _).symm))

end Sorting
