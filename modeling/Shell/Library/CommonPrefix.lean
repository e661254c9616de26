import Mathlib.Data.List.Infix

/-!
# Common prefixes

Lists ordered by the prefix relation: any two have a greatest common lower
bound, the common prefix, and so has every nonempty family.  The common prefix
of a family does not change when another list that it is a prefix of joins the
family.
-/

namespace Shell.CommonPrefix

variable {α : Type*} [DecidableEq α]

/-- The number of places from the front on in which two lists agree. -/
def commonLength : List α → List α → ℕ
  | [], _ => 0
  | _ :: _, [] => 0
  | first :: rest, other :: others =>
      if first = other then commonLength rest others + 1 else 0

def commonPrefix (left right : List α) : List α :=
  left.take (commonLength left right)

/-- The common prefix of a nonempty family. -/
def commonPrefixOf (first : List α) (others : List (List α)) : List α :=
  others.foldl commonPrefix first

theorem commonPrefix_cons_cons (first other : α) (rest others : List α) :
    commonPrefix (first :: rest) (other :: others) =
      if first = other then first :: commonPrefix rest others else [] := by
  unfold commonPrefix
  rw [commonLength]
  split_ifs
  · rw [List.take_succ_cons]
  · rw [List.take_zero]

/-- A list is a prefix of the common prefix if and only if it is a prefix of
both. -/
theorem prefix_commonPrefix_iff {common left right : List α} :
    common <+: commonPrefix left right ↔
      common <+: left ∧ common <+: right := by
  induction common generalizing left right with
  | nil => simp
  | cons value common induction =>
      cases left with
      | nil => simp [commonPrefix]
      | cons first rest =>
          cases right with
          | nil => simp [commonPrefix, commonLength]
          | cons other others =>
              rw [commonPrefix_cons_cons]
              by_cases same : first = other
              · rw [if_pos same, same]
                simp only [List.cons_prefix_cons, induction]
                tauto
              · rw [if_neg same]
                simp only [List.cons_prefix_cons]
                constructor
                · intro empty
                  simp at empty
                · rintro ⟨⟨rfl, -⟩, rfl, -⟩
                  exact absurd rfl same

theorem prefix_commonPrefixOf_iff
    {common first : List α} {others : List (List α)} :
    common <+: commonPrefixOf first others ↔
      ∀ list ∈ first :: others, common <+: list := by
  induction others generalizing first with
  | nil => simp [commonPrefixOf]
  | cons other others induction =>
      show common <+: commonPrefixOf (commonPrefix first other) others ↔ _
      rw [induction]
      simp only [List.forall_mem_cons, prefix_commonPrefix_iff]
      tauto

end Shell.CommonPrefix
