import Shroudb.Wire.Substring

/-! The expansion of environment variables in the text of a configuration. -/
namespace Shroudb
open Wire

/-- The first `${` and the first `}` after it, as the text before them, the name between them and
the text after them. -/
def firstPlaceholder (text : List Char) : Option (List Char × List Char × List Char) :=
  match splitFirst ['$', '{'] text with
  | none => none
  | some (before, after) =>
    match splitFirst ['}'] after with
    | none => none
    | some (name, rest) => some (before, name, rest)

/-- The loop of `expand_env_vars`, with the names it has looked up. An unset variable has the empty
value. -/
def expandEnvVars (env : String → String) : Nat → List Char → Option (List String × List Char)
  | 0, _ => none
  | fuel + 1, result =>
    match firstPlaceholder result with
    | none => some ([], result)
    | some (before, name, rest) =>
      (expandEnvVars env fuel (before ++ (env (.ofList name)).toList ++ rest)).map
        fun p => (.ofList name :: p.1, p.2)

section
variable {text before name rest : List Char}

theorem firstPlaceholder_eq_some_iff :
    firstPlaceholder text = some (before, name, rest) ↔
      text = before ++ ['$', '{'] ++ (name ++ '}' :: rest) ∧ '}' ∉ name ∧
        ∀ a b, text = a ++ ['$', '{'] ++ b → before.length ≤ a.length := by
  unfold firstPlaceholder
  constructor
  · intro h
    split at h
    · cases h
    · rename_i before' after hopen
      split at h
      · cases h
      · rename_i name' rest' hclose
        cases h
        obtain ⟨rfl, hname⟩ := splitFirst_singleton_iff.mp hclose
        obtain ⟨htext, hfirst⟩ := splitFirst_eq_some_iff.mp hopen
        exact ⟨htext, hname, hfirst⟩
  · rintro ⟨htext, hname, hfirst⟩
    rw [splitFirst_eq_some_iff.mpr ⟨htext, hfirst⟩]
    dsimp only
    rw [splitFirst_singleton_iff.mpr ⟨rfl, hname⟩]

theorem firstPlaceholder_eq_none_iff :
    firstPlaceholder text = none ↔ ∀ a b, text = a ++ ['$', '{'] ++ b → '}' ∉ b := by
  unfold firstPlaceholder
  split
  case h_1 hopen =>
    refine iff_of_true rfl fun a b htext => ?_
    exact absurd ⟨a, b, htext.symm⟩ (splitFirst_eq_none_iff.mp hopen)
  case h_2 before after hopen =>
    obtain ⟨htext, hfirst⟩ := splitFirst_eq_some_iff.mp hopen
    have hclose : splitFirst ['}'] after = none ↔
        ∀ a b, text = a ++ ['$', '{'] ++ b → '}' ∉ b := by
      rw [splitFirst_singleton_eq_none_iff]
      constructor
      · intro hafter a b hab hmem
        have hlength := congrArg List.length (htext.symm.trans hab)
        have hle := hfirst a b hab
        simp only [List.length_append] at hlength
        have hsuffix : b <:+ after :=
          List.suffix_of_suffix_length_le ⟨_, hab.symm⟩ ⟨_, htext.symm⟩ (by omega)
        exact hafter (hsuffix.subset hmem)
      · exact fun h => h before after htext
    rw [← hclose]
    split
    case h_1 hnone => simp [hnone]
    case h_2 hsome => simp [hsome]

theorem length_lt_of_firstPlaceholder (h : firstPlaceholder text = some (before, name, rest)) :
    rest.length < text.length := by
  have hlength := congrArg List.length (firstPlaceholder_eq_some_iff.mp h).1
  simp only [List.length_append, List.length_cons] at hlength
  omega

end

/-! ## One pass over the input -/

/-- One pass over the text from left to right: the names it replaces, and what it writes. -/
def singlePass (env : String → String) (text : List Char) : List String × List Char :=
  match h : firstPlaceholder text with
  | none => ([], text)
  | some (before, name, rest) =>
    have : rest.length < text.length := length_lt_of_firstPlaceholder h
    let p := singlePass env rest
    (.ofList name :: p.1, before ++ (env (.ofList name)).toList ++ p.2)
termination_by text.length

/-- The pass goes from a written text and the rest of the input to a later such pair. -/
inductive ExpansionStage (env : String → String) :
    List Char → List Char → List Char → List Char → Prop
  | refl {done rest : List Char} : ExpansionStage env done rest done rest
  | head {done rest before name after done' rest' : List Char} :
      firstPlaceholder rest = some (before, name, after) →
      ExpansionStage env (done ++ before ++ (env (.ofList name)).toList) after done' rest' →
      ExpansionStage env done rest done' rest'

/-- A `${` that starts in the written text meets a `}` later on. -/
def Reopens (done rest : List Char) : Prop :=
  ∃ a b, done ++ rest = a ++ ['$', '{'] ++ b ∧ a.length < done.length ∧ '}' ∈ b

section
variable {env : String → String} {done rest before name after : List Char}

theorem singlePass_of_none (h : firstPlaceholder rest = none) :
    singlePass env rest = ([], rest) := by
  rw [singlePass]
  split <;> simp_all

theorem singlePass_of_some (h : firstPlaceholder rest = some (before, name, after)) :
    singlePass env rest = (.ofList name :: (singlePass env after).1,
      before ++ (env (.ofList name)).toList ++ (singlePass env after).2) := by
  rw [singlePass]
  split <;> simp_all

/-- Unless the written text reopens, its end is where the scan of the loop finds its match. -/
theorem firstPlaceholder_append (h : ¬ Reopens done rest) :
    firstPlaceholder (done ++ rest) =
      (firstPlaceholder rest).map fun p => (done ++ p.1, p.2) := by
  have hlater : ∀ a b, done ++ rest = a ++ ['$', '{'] ++ b → '}' ∈ b →
      ∃ a', a = done ++ a' ∧ rest = a' ++ ['$', '{'] ++ b := by
    intro a b hab hmem
    have hle : done.length ≤ a.length := by
      by_contra hlt
      exact h ⟨a, b, hab, by omega, hmem⟩
    obtain ⟨a', rfl⟩ : done <+: a :=
      List.prefix_of_prefix_length_le ⟨rest, rfl⟩ ⟨_, by rw [hab, List.append_assoc]⟩ hle
    exact ⟨a', rfl, by simpa using hab⟩
  cases hrest : firstPlaceholder rest with
  | none =>
    refine firstPlaceholder_eq_none_iff.mpr fun a b hab hmem => ?_
    obtain ⟨a', -, hrest'⟩ := hlater a b hab hmem
    exact firstPlaceholder_eq_none_iff.mp hrest a' b hrest' hmem
  | some p =>
    obtain ⟨before, name, after⟩ := p
    obtain ⟨htext, hname, hfirst⟩ := firstPlaceholder_eq_some_iff.mp hrest
    refine firstPlaceholder_eq_some_iff.mpr ⟨by simp [htext], hname, fun a b hab => ?_⟩
    by_contra hlt
    -- an earlier `${` has the same `}` after it
    have hlength := congrArg List.length hab
    simp only [htext, List.length_append, List.length_cons] at hlength hlt
    have hclose : '}' :: after <:+ done ++ rest :=
      ⟨done ++ before ++ ['$', '{'] ++ name, by simp [htext]⟩
    have hsuffix : '}' :: after <:+ b := by
      apply List.suffix_of_suffix_length_le hclose ⟨_, hab.symm⟩
      rw [List.length_cons]
      omega
    obtain ⟨a', rfl, hrest'⟩ := hlater a b hab (hsuffix.subset (by simp))
    have hle := hfirst a' b hrest'
    simp only [List.length_append] at hlt
    omega

/-- The loop ends on what the pass has written and will write, after looking up the names that the
pass still replaces. -/
def EndsInOnePass (env : String → String) (done rest : List Char) : Prop :=
  ∃ fuel, expandEnvVars env fuel (done ++ rest) =
    some ((singlePass env rest).1, done ++ (singlePass env rest).2)

theorem endsInOnePass_of_none (h : ¬ Reopens done rest) (hrest : firstPlaceholder rest = none) :
    EndsInOnePass env done rest := by
  refine ⟨1, ?_⟩
  simp [expandEnvVars, firstPlaceholder_append h, hrest, singlePass_of_none hrest]

theorem endsInOnePass_iff_of_some (h : ¬ Reopens done rest)
    (hrest : firstPlaceholder rest = some (before, name, after)) :
    EndsInOnePass env done rest ↔
      EndsInOnePass env (done ++ before ++ (env (.ofList name)).toList) after := by
  have hstep : ∀ fuel, expandEnvVars env (fuel + 1) (done ++ rest) =
      (expandEnvVars env fuel (done ++ before ++ (env (.ofList name)).toList ++ after)).map
        fun p => (.ofList name :: p.1, p.2) := by
    intro fuel
    simp [expandEnvVars, firstPlaceholder_append h, hrest]
  unfold EndsInOnePass
  rw [singlePass_of_some hrest]
  constructor
  · rintro ⟨fuel, hfuel⟩
    cases fuel with
    | zero => cases hfuel
    | succ fuel =>
      refine ⟨fuel, ?_⟩
      rw [hstep] at hfuel
      obtain ⟨⟨names, out⟩, hout, hp⟩ := Option.map_eq_some_iff.mp hfuel
      rw [hout]
      simpa using hp
  · rintro ⟨fuel, hfuel⟩
    refine ⟨fuel + 1, ?_⟩
    rw [hstep, hfuel]
    simp

/-- Where the loop ends, no placeholder is left. -/
theorem firstPlaceholder_of_expandEnvVars {fuel : Nat} {text out : List Char}
    {names : List String} (h : expandEnvVars env fuel text = some (names, out)) :
    firstPlaceholder out = none := by
  induction fuel generalizing text names with
  | zero => cases h
  | succ fuel ih =>
    rw [expandEnvVars] at h
    split at h
    · rename_i hnone
      cases h
      exact hnone
    · obtain ⟨⟨names', out'⟩, hrun, hp⟩ := Option.map_eq_some_iff.mp h
      cases hp
      exact ih hrun

/-- A `${` that starts in the written text ends before the next `${` of the input. -/
theorem opening_prefix {a b : List Char} (hab : done ++ rest = a ++ ['$', '{'] ++ b)
    (hlt : a.length < done.length) (hrest : rest = before ++ ['$', '{'] ++ after) :
    a ++ ['$', '{'] <+: done ++ before := by
  have hle : a.length + 2 ≤ done.length + before.length := by
    by_contra hshort
    have hend : done.length = a.length + 1 := by omega
    have hbefore : before = [] := List.length_eq_zero_iff.mp (by omega)
    have hbrace : (done ++ rest)[a.length + 1]? = some '{' := by
      rw [hab]
      simp
    have hdollar : (done ++ rest)[done.length]? = some '$' := by simp [hrest, hbefore]
    rw [← hend, hdollar] at hbrace
    exact absurd hbrace (by decide)
  have hdone : done ++ before <+: done ++ rest :=
    ⟨['$', '{'] ++ after, by simp [hrest]⟩
  apply List.prefix_of_prefix_length_le ⟨b, hab.symm⟩ hdone
  simpa using hle

theorem EndsInOnePass.not_reopens (h : EndsInOnePass env done rest) : ¬ Reopens done rest := by
  rintro ⟨a₀, b₀, hab₀, hlt₀, hmem₀⟩
  obtain ⟨fuel, hfuel⟩ := h
  have hout := firstPlaceholder_of_expandEnvVars hfuel
  cases fuel with
  | zero => cases hfuel
  | succ fuel =>
    rw [expandEnvVars] at hfuel
    split at hfuel
    case h_1 hnone => exact firstPlaceholder_eq_none_iff.mp hnone a₀ b₀ hab₀ hmem₀
    case h_2 a name' rest' hfound =>
      obtain ⟨htext, hname', hfirst⟩ := firstPlaceholder_eq_some_iff.mp hfound
      have hlt : a.length < done.length := (hfirst a₀ b₀ hab₀).trans_lt hlt₀
      obtain ⟨⟨names, out⟩, -, hp⟩ := Option.map_eq_some_iff.mp hfuel
      cases hrest : firstPlaceholder rest with
      | none =>
        rw [singlePass_of_none hrest] at hp
        cases hp
      | some q =>
        obtain ⟨before, name, after⟩ := q
        rw [singlePass_of_some hrest] at hp hout
        obtain ⟨hinput, hname, -⟩ := firstPlaceholder_eq_some_iff.mp hrest
        obtain ⟨u, hu⟩ := opening_prefix htext hlt hinput
        by_cases hclose : '}' ∈ u
        · -- the pass leaves this placeholder in its output, where the loop does not stop
          refine firstPlaceholder_eq_none_iff.mp hout a
            (u ++ (env (.ofList name)).toList ++ (singlePass env after).2) ?_ (by simp [hclose])
          simp [← hu, ← List.append_assoc]
        · -- the loop looks up a longer name than the pass
          have hsame : name' ++ '}' :: rest' = u ++ ['$', '{'] ++ name ++ '}' :: after := by
            have hboth : a ++ ['$', '{'] ++ (name' ++ '}' :: rest') =
                a ++ ['$', '{'] ++ (u ++ ['$', '{'] ++ name ++ '}' :: after) := by
              rw [← htext, hinput]
              simp [← hu, ← List.append_assoc]
            exact List.append_cancel_left hboth
          have hlonger : name' = u ++ ['$', '{'] ++ name := by
            have hfree : '}' ∉ u ++ ['$', '{'] ++ name := by simp [hclose, hname]
            have hloop := splitFirst_singleton_iff.mpr ⟨hsame, hfree⟩
            rw [splitFirst_singleton_iff.mpr ⟨Eq.refl (name' ++ '}' :: rest'), hname'⟩] at hloop
            exact (Prod.mk.inj (Option.some.inj hloop)).1
          have hequal : name' = name := String.ofList_injective (List.cons.inj (Prod.mk.inj hp).1).1
          have hlength := congrArg List.length (hequal.symm.trans hlonger)
          simp only [List.length_append, List.length_cons] at hlength
          omega

theorem endsInOnePass_iff (env : String → String) (done rest : List Char) :
    EndsInOnePass env done rest ↔
      ∀ done' rest', ExpansionStage env done rest done' rest' → ¬ Reopens done' rest' := by
  constructor
  · intro h done' rest' hstage
    induction hstage with
    | refl => exact h.not_reopens
    | head hfound _ ih => exact ih ((endsInOnePass_iff_of_some h.not_reopens hfound).mp h)
  · intro h
    induction hn : rest.length using Nat.strongRecOn generalizing done rest with
    | ind n ih =>
      have hhere := h done rest .refl
      cases hrest : firstPlaceholder rest with
      | none => exact endsInOnePass_of_none hhere hrest
      | some p =>
        obtain ⟨before, name, after⟩ := p
        rw [endsInOnePass_iff_of_some hhere hrest]
        refine ih after.length (hn ▸ length_lt_of_firstPlaceholder hrest) _ _ ?_ rfl
        exact fun done' rest' hstage => h done' rest' (.head hrest hstage)

end

/-- The expansion ends after one pass over the input exactly when at no stage of the pass a `${` in
the text written so far meets a `}`. -/
theorem expands_once_iff (env : String → String) (input : List Char) :
    (∃ fuel, expandEnvVars env fuel input = some (singlePass env input)) ↔
      ∀ done rest, ExpansionStage env [] input done rest → ¬ Reopens done rest :=
  endsInOnePass_iff env [] input

/-- A variable whose value is a reference to the variable itself is looked up without end. -/
theorem expansion_of_itself_never_ends :
    let env : String → String := fun name => if name = "A" then "${A}" else ""
    let input := "${A}".toList
    (∀ fuel, expandEnvVars env fuel input = none) ∧
      ¬ ∃ fuel, expandEnvVars env fuel input = some (singlePass env input) := by
  intro env input
  have hfound : firstPlaceholder input = some ([], ['A'], []) := by decide
  have hvalue : [] ++ (env (.ofList ['A'])).toList ++ [] = input := by decide
  have hnever : ∀ fuel, expandEnvVars env fuel input = none := by
    intro fuel
    induction fuel with
    | zero => rfl
    | succ fuel ih => simp only [expandEnvVars, hfound, hvalue, ih, Option.map_none]
  refine ⟨hnever, ?_⟩
  rintro ⟨fuel, hfuel⟩
  rw [hnever] at hfuel
  cases hfuel

end Shroudb
