/-! Machines driven by a schedule of moves. -/
namespace Effect.Schedule

variable {S A : Type} {step : S → A → S} {guard : S → A → Prop} {s : S} {moves : List A}

/-- The state a schedule leads to. -/
def run (step : S → A → S) (s : S) (moves : List A) : S := moves.foldl step s

theorem run_append {first rest : List A} :
    run step s (first ++ rest) = run step (run step s first) rest := List.foldl_append

/-- Each move meets the guard in the state it is made in. -/
def Guarded (step : S → A → S) (guard : S → A → Prop) : S → List A → Prop
  | _, [] => True
  | s, a :: moves => guard s a ∧ Guarded step guard (step s a) moves

/-- The states of an unending sequence of moves. -/
def execution (step : S → A → S) (s : S) (moves : Nat → A) : Nat → S
  | 0 => s
  | n + 1 => step (execution step s moves n) (moves n)

/-- What every guarded move keeps, a guarded schedule keeps. -/
theorem run_invariant {I : S → Prop} (hstep : ∀ s a, guard s a → I s → I (step s a))
    (hguard : Guarded step guard s moves) (hs : I s) : I (run step s moves) := by
  induction moves generalizing s with
  | nil => exact hs
  | cons a moves ih => exact ih hguard.2 (hstep s a hguard.1 hs)

/-- What every move keeps, a schedule keeps. -/
theorem run_keeps {I : S → Prop} (hstep : ∀ s a, I s → I (step s a)) (hs : I s) :
    I (run step s moves) := by
  induction moves generalizing s with
  | nil => exact hs
  | cons a moves ih => exact ih (hstep s a hs)

/-- Where some moves always bring the machine nearer to a goal, a schedule reaches the goal. -/
theorem exists_run {I G : S → Prop} (distance : S → Nat)
    (hnear : ∀ s, I s → ¬ G s → ∃ moves, I (run step s moves) ∧
      distance (run step s moves) < distance s) (hs : I s) : ∃ moves, G (run step s moves) := by
  induction hn : distance s using Nat.strongRecOn generalizing s with
  | ind n ih =>
    by_cases hgoal : G s
    · exact ⟨[], hgoal⟩
    · obtain ⟨first, hfirst, hlt⟩ := hnear s hs hgoal
      obtain ⟨rest, hrest⟩ := ih _ (hn ▸ hlt) hfirst rfl
      exact ⟨first ++ rest, by simpa [run] using hrest⟩

/-- Guards that say the same of each move say the same of a schedule. -/
theorem guarded_congr {guard' : S → A → Prop} (h : ∀ s a, guard s a ↔ guard' s a) :
    Guarded step guard s moves ↔ Guarded step guard' s moves := by
  induction moves generalizing s with
  | nil => exact Iff.rfl
  | cons a moves ih => exact and_congr (h s a) ih

/-- A guard that each of the moves meets in any state. -/
theorem guarded_of_forall (h : ∀ a ∈ moves, ∀ s, guard s a) : Guarded step guard s moves := by
  induction moves generalizing s with
  | nil => trivial
  | cons a moves ih =>
    exact ⟨h a List.mem_cons_self s, ih fun b hb => h b (List.mem_cons_of_mem a hb)⟩

/-- Each of several machines moves once, in order. When a move leaves its own machine with `Q`, if all
have `R`, and the others as they are, then all have `Q` in the end. -/
theorem run_range_all {M : Type} (machines : S → List M) (R Q : M → Prop) {I : S → Prop}
    {f : Nat → A} (hQR : ∀ m, Q m → R m) (hstep : ∀ s i, I s → I (step s (f i)))
    (hlength : ∀ s i, I s → (machines (step s (f i))).length = (machines s).length)
    (hmove : ∀ s i, I s → (∀ m ∈ machines s, R m) → ∀ j m,
      (machines (step s (f i)))[j]? = some m → Q m ∨ j ≠ i ∧ (machines s)[j]? = some m)
    (hs : I s) (hR : ∀ m ∈ machines s, R m) :
    let t := run step s ((List.range (machines s).length).map f)
    I t ∧ (machines t).length = (machines s).length ∧ ∀ m ∈ machines t, Q m := by
  have hfirst : ∀ k, I (run step s ((List.range k).map f)) ∧
      (machines (run step s ((List.range k).map f))).length = (machines s).length ∧
      (∀ m ∈ machines (run step s ((List.range k).map f)), R m) ∧
      ∀ j < k, ∀ m, (machines (run step s ((List.range k).map f)))[j]? = some m → Q m := by
    intro k
    induction k with
    | zero => exact ⟨hs, rfl, hR, fun j hj => absurd hj (Nat.not_lt_zero j)⟩
    | succ k ih =>
      obtain ⟨hI, hlen, hR, hall⟩ := ih
      have hlast : run step s ((List.range (k + 1)).map f) =
          step (run step s ((List.range k).map f)) (f k) := by
        rw [List.range_succ, List.map_append, run, List.foldl_append]
        rfl
      rw [hlast]
      refine ⟨hstep _ k hI, (hlength _ k hI).trans hlen, fun m hm => ?_, fun j hj m hm => ?_⟩
      · obtain ⟨j, hj, rfl⟩ := List.getElem_of_mem hm
        rcases hmove _ k hI hR j _ (List.getElem?_eq_getElem hj) with hQ | ⟨-, hm⟩
        · exact hQR _ hQ
        · exact hR _ (List.mem_of_getElem? hm)
      · rcases hmove _ k hI hR j m hm with hQ | ⟨hne, hm⟩
        · exact hQ
        · exact hall j (by omega) m hm
  obtain ⟨hI, hlen, -, hall⟩ := hfirst (machines s).length
  refine ⟨hI, hlen, fun m hm => ?_⟩
  obtain ⟨j, hj, rfl⟩ := List.getElem_of_mem hm
  exact hall j (hlen ▸ hj) _ (List.getElem?_eq_getElem hj)

/-- When one of several machines moves, what its move keeps holds of all of them. -/
theorem forall_mem_modify {I : S → Prop} {machines : List S} {i : Nat} {f : S → S}
    (hf : ∀ s ∈ machines, I s → I (f s)) (h : ∀ s ∈ machines, I s) :
    ∀ s ∈ machines.modify i f, I s := by
  intro s hs
  obtain ⟨j, hj, rfl⟩ := List.getElem_of_mem hs
  rw [List.getElem_modify]
  split
  · exact hf _ (List.getElem_mem _) (h _ (List.getElem_mem _))
  · exact h _ (List.getElem_mem _)

/-- What the move of one machine does not change is unchanged over all of them. -/
theorem map_modify_of_eq {β : Type} {g : S → β} {machines : List S} {i : Nat} {f : S → S}
    (h : ∀ s, g (f s) = g s) : (machines.modify i f).map g = machines.map g := by
  apply List.ext_getElem?
  intro j
  rw [List.getElem?_map, List.getElem?_modify, List.getElem?_map]
  split
  · simp [Option.map_map, Function.comp_def, h]
  · simp

theorem map_set_of_eq {β : Type} {g : S → β} {machines : List S} {i : Nat} {s t : S}
    (hs : machines[i]? = some s) (h : g t = g s) : (machines.set i t).map g = machines.map g := by
  obtain ⟨hi, rfl⟩ := List.getElem?_eq_some_iff.mp hs
  have hi' : i < (machines.map g).length := by rwa [List.length_map]
  rw [List.map_set, h, ← List.getElem_map g (h := hi'), List.set_getElem_self]

end Effect.Schedule
