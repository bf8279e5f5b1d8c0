import Mathlib.Data.List.Infix

/-! The first occurrence of a pattern in a list, and the last of an element. -/
namespace Wire

variable {α : Type} [DecidableEq α]

/-- What stands before the first occurrence of the pattern, and what stands after it. -/
def splitFirst (pat : List α) : List α → Option (List α × List α)
  | [] => if pat = [] then some ([], []) else none
  | a :: l =>
    if pat <+: a :: l then some ([], (a :: l).drop pat.length)
    else (splitFirst pat l).map fun p => (a :: p.1, p.2)

variable {pat l before after : List α}

theorem eq_of_splitFirst (h : splitFirst pat l = some (before, after)) :
    l = before ++ pat ++ after := by
  fun_induction splitFirst pat l generalizing before with
  | case1 hpat =>
    cases h
    simp [hpat]
  | case2 => cases h
  | case3 a l hprefix =>
    cases h
    exact (List.prefix_iff_eq_append.mp hprefix).symm
  | case4 a l _ ih =>
    obtain ⟨⟨before', after'⟩, hsplit, hp⟩ := Option.map_eq_some_iff.mp h
    cases hp
    simp [ih hsplit]

/-- No occurrence starts earlier. -/
theorem length_le_of_splitFirst (h : splitFirst pat l = some (before, after)) {a b : List α}
    (hl : l = a ++ pat ++ b) : before.length ≤ a.length := by
  fun_induction splitFirst pat l generalizing before a with
  | case1 =>
    cases h
    exact Nat.zero_le _
  | case2 => cases h
  | case3 =>
    cases h
    exact Nat.zero_le _
  | case4 c l hprefix ih =>
    obtain ⟨⟨before', after'⟩, hsplit, hp⟩ := Option.map_eq_some_iff.mp h
    cases hp
    cases a with
    | nil => exact absurd ⟨b, hl.symm⟩ hprefix
    | cons d a =>
      have := ih hsplit (List.cons.inj hl).2
      simpa using this

theorem splitFirst_eq_none_iff : splitFirst pat l = none ↔ ¬ pat <:+: l := by
  fun_induction splitFirst pat l with
  | case1 hpat => simp [hpat]
  | case2 hpat => simpa using hpat
  | case3 a l hprefix => simpa using hprefix.isInfix
  | case4 a l hprefix ih => simp [ih, List.infix_cons_iff, hprefix]

theorem splitFirst_eq_some_iff :
    splitFirst pat l = some (before, after) ↔ l = before ++ pat ++ after ∧
      ∀ a b, l = a ++ pat ++ b → before.length ≤ a.length := by
  constructor
  · exact fun h => ⟨eq_of_splitFirst h, fun _ _ => length_le_of_splitFirst h⟩
  · rintro ⟨hl, hfirst⟩
    cases h : splitFirst pat l with
    | none => exact absurd ⟨before, after, hl.symm⟩ (splitFirst_eq_none_iff.mp h)
    | some p =>
      -- both occurrences start no later than the other
      have hp := eq_of_splitFirst h
      have hlength := (length_le_of_splitFirst h hl).antisymm (hfirst _ _ hp)
      rw [List.append_assoc] at hp hl
      obtain ⟨hbefore, hrest⟩ := List.append_inj (hp.symm.trans hl) hlength
      rw [← hbefore, ← List.append_cancel_left hrest]

theorem splitFirst_singleton_iff {a : α} :
    splitFirst [a] l = some (before, after) ↔ l = before ++ a :: after ∧ a ∉ before := by
  rw [splitFirst_eq_some_iff, List.append_assoc, List.singleton_append]
  refine and_congr_right fun hl => ⟨fun hfirst hmem => ?_, fun hfree c d hcd => ?_⟩
  · obtain ⟨c, d, rfl⟩ := List.append_of_mem hmem
    have hle := hfirst c (d ++ a :: after) (by simp [hl])
    rw [List.length_append, List.length_cons] at hle
    omega
  · by_contra hlt
    apply hfree
    have hprefix : c ++ [a] <+: before :=
      List.prefix_of_prefix_length_le ⟨d, hcd.symm⟩ ⟨a :: after, hl.symm⟩ (by simp; omega)
    exact hprefix.subset (by simp)

theorem splitFirst_singleton_eq_none_iff {a : α} : splitFirst [a] l = none ↔ a ∉ l := by
  rw [splitFirst_eq_none_iff, List.singleton_infix_iff]

/-! ## The last occurrence -/

/-- What stands before the last occurrence of an element, and what stands after it. -/
def splitLast (a : α) (l : List α) : Option (List α × List α) :=
  (splitFirst [a] l.reverse).map fun p => (p.2.reverse, p.1.reverse)

theorem splitLast_iff {a : α} :
    splitLast a l = some (before, after) ↔ l = before ++ a :: after ∧ a ∉ after := by
  simp only [splitLast, Option.map_eq_some_iff, Prod.mk.injEq, Prod.exists]
  constructor
  · rintro ⟨x, y, hsplit, rfl, rfl⟩
    obtain ⟨hl, hfree⟩ := splitFirst_singleton_iff.mp hsplit
    refine ⟨?_, by simpa using hfree⟩
    rw [← l.reverse_reverse, hl]
    simp
  · rintro ⟨rfl, hfree⟩
    refine ⟨after.reverse, before.reverse, splitFirst_singleton_iff.mpr ⟨?_, ?_⟩, ?_, ?_⟩
    · simp
    · simpa using hfree
    · rw [List.reverse_reverse]
    · rw [List.reverse_reverse]

theorem splitLast_eq_none_iff {a : α} : splitLast a l = none ↔ a ∉ l := by
  rw [splitLast, Option.map_eq_none_iff, splitFirst_singleton_eq_none_iff, List.mem_reverse]

end Wire
