import RouteServer.Enrich.Sets
import RouteServer.Proofs.Dictionary

/-!
# Enrich — names and numbers in order

What is gathered from many clients is kept in order, each thing once: names (`pairwise_distinct`)
and the numbers of networks (`pairwise_ascending`).  A set is added for a name unless its symbol is
taken (`get?_addSet`).
-/

namespace RouteServer.Enrich

open RouteServer.Lookup RouteServer.Net RouteServer.Policy

theorem mem_distinct {names : List String} {name : String} :
    name ∈ distinct names ↔ name ∈ names := by
  unfold distinct
  rw [Dictionary.mem_keys_ofList, List.map_map]
  simp

theorem nodup_distinct (names : List String) : (distinct names).Nodup := Dictionary.keys_nodup _

theorem pairwise_distinct (names : List String) : (distinct names).Pairwise (· < ·) :=
  Dictionary.keys_pairwise _

theorem nodup_eraseDups {α : Type} [DecidableEq α] : ∀ xs : List α, xs.eraseDups.Nodup
  | [] => List.nodup_nil
  | x :: xs => by
      rw [List.eraseDups_cons, List.nodup_cons]
      exact ⟨by simp [List.mem_eraseDups], nodup_eraseDups _⟩
termination_by xs => xs.length
decreasing_by exact Nat.lt_succ_of_le (List.length_filter_le ..)

theorem eraseDups_sublist {α : Type} [DecidableEq α] : ∀ xs : List α, xs.eraseDups.Sublist xs
  | [] => .slnil
  | x :: xs => by
      rw [List.eraseDups_cons]
      exact ((eraseDups_sublist _).trans List.filter_sublist).cons_cons x
termination_by xs => xs.length
decreasing_by exact Nat.lt_succ_of_le (List.length_filter_le ..)

/-- Names that are repeated do not matter for which comes first. -/
theorem find?_eraseDups {α : Type} [DecidableEq α] (p : α → Bool) :
    ∀ xs : List α, xs.eraseDups.find? p = xs.find? p
  | [] => rfl
  | x :: xs => by
      rw [List.eraseDups_cons, List.find?_cons, List.find?_cons]
      cases hx : p x with
      | true => rfl
      | false =>
          rw [find?_eraseDups p, List.find?_filter]
          refine congrArg (List.find? · xs) (funext fun y => ?_)
          by_cases hy : y = x <;> simp [hy, hx]
termination_by xs => xs.length
decreasing_by exact Nat.lt_succ_of_le (List.length_filter_le ..)

theorem mem_ascending {ns : List Asn} {n : Asn} : n ∈ ascending ns ↔ n ∈ ns := by
  unfold ascending
  rw [List.mem_eraseDups, List.mem_mergeSort]

/-- Numbers in order, each once, increase. -/
theorem pairwise_ascending (ns : List Asn) : (ascending ns).Pairwise (· < ·) := by
  have htrans : ∀ a b c : Asn, decide (a ≤ b) = true → decide (b ≤ c) = true →
      decide (a ≤ c) = true := fun a b c hab hbc =>
    decide_eq_true (UInt32.le_trans (of_decide_eq_true hab) (of_decide_eq_true hbc))
  have htotal : ∀ a b : Asn, (decide (a ≤ b) || decide (b ≤ a)) = true := by
    simp [UInt32.le_total]
  have hsorted := List.pairwise_mergeSort htrans htotal ns
  refine ((hsorted.sublist (eraseDups_sublist _)).and (nodup_eraseDups _)).imp ?_
  rintro a b ⟨hle, hne⟩
  exact UInt32.lt_of_le_of_ne (of_decide_eq_true hle) hne

theorem get?_addSet (sets : Dictionary ResolvedSet) (name key : String) :
    (addSet sets name).get? key =
      if key = AsSet.symbol name ∧ sets.get? key = none then some { name } else sets.get? key := by
  unfold addSet Dictionary.contains
  by_cases hk : key = AsSet.symbol name
  · subst hk
    cases hs : sets.get? (AsSet.symbol name) <;> simp [Dictionary.get?_insert, hs]
  · split <;> simp [Dictionary.get?_insert, hk]

end RouteServer.Enrich
