import Shroudb.Server.AuthGate
import Shroudb.Server.Lifecycle

/-! Where the contexts that commands run with come from, through reloads of the configuration. -/
namespace Shroudb
open Wire Effect

/-! ## One step of a connection -/

section
variable {C : Crates} {σ : Type} {B : Backend C σ} {m : Moment C} {conn : Connection C}
  {d : Dispatcher C σ} {deeds : List (Deed C)}

/-- What AUTH is recorded to have been answered is what the validator answered. -/
def Vouched (m : Moment C) (deeds : List (Deed C)) : Prop :=
  ∀ raw answer, .validated raw answer ∈ deeds → answer = m.validate raw

theorem vouched_nil : Vouched m [] := fun _ _ h => by cases h

theorem Vouched.concat {deed : Deed C} (h : Vouched m deeds)
    (hdeed : ∀ raw answer, deed ≠ .validated raw answer) : Vouched m (deeds ++ [deed]) := by
  intro raw answer hmem
  rcases List.mem_append.mp hmem with hmem | hmem
  · exact h raw answer hmem
  · exact absurd (List.mem_singleton.mp hmem).symm (hdeed raw answer)

theorem vouched_openSubscription {ns : String}
    {answer : Except (StoreError C.ValidationError) Unit} (h : Vouched m deeds) :
    Vouched m (openSubscription m conn d deeds ns answer).deeds := by
  cases answer with
  | error e => exact h
  | ok u => exact h.concat fun _ _ h => nomatch h

theorem vouched_handleAdmitted {command : Command} (h : Vouched m deeds) :
    Vouched m (handleAdmitted B true m conn d deeds command).deeds := by
  unfold handleAdmitted
  split
  · unfold handleSubscribe
    dsimp only
    split
    · split
      · exact h
      · exact vouched_openSubscription h
    · exact h
  · exact h.concat fun _ _ h => nomatch h

theorem vouched_handleUnexpired {command : Command} :
    Vouched m (handleUnexpired B true m conn d command).deeds := by
  have hchecked : ∀ ctx now expired, Vouched m [Deed.checkedExpiry (C := C) ctx now expired] :=
    fun ctx now expired => vouched_nil.concat fun _ _ h => nomatch h
  unfold handleUnexpired
  split
  · exact vouched_handleAdmitted vouched_nil
  · split
    · exact vouched_nil
    · dsimp only
      split_ifs
      · exact hchecked _ _ _
      · exact vouched_handleAdmitted (hchecked _ _ _)

theorem vouched_handleAuth {raw : String} : Vouched m (handleAuth m conn d raw).deeds := by
  have hown : ∀ answer, m.validate raw = answer → Vouched m [.validated raw answer] := by
    intro answer hanswer raw' answer' hmem
    cases List.mem_singleton.mp hmem
    exact hanswer.symm
  unfold handleAuth
  split
  case h_1 hanswer => exact hown _ hanswer
  case h_2 hanswer => exact hown _ hanswer

theorem vouched_handleLimited (conn : Connection C) {command : Command} :
    Vouched m (handleLimited B true m conn d command).deeds := by
  unfold handleLimited
  split
  · exact vouched_handleAuth
  · exact vouched_handleUnexpired
  · split_ifs
    · exact vouched_nil
    · exact vouched_handleUnexpired

theorem vouched_step {input : Input} : Vouched m (step B true m conn d input).deeds := by
  unfold step
  split
  case h_5 =>
    unfold handleFrame
    split
    · exact vouched_nil
    · unfold handleCommand
      split
      · exact vouched_handleLimited conn
      · dsimp only
        split_ifs
        · exact vouched_handleLimited _
        · exact vouched_nil
  case h_8 =>
    unfold handleSubscribedFrame
    split <;> exact vouched_nil
  case h_10 =>
    unfold handleEvent
    split <;> exact vouched_nil
  all_goals exact vouched_nil

/-- A context that is held was held before, or an AUTH was answered with it. -/
theorem heldAuth_origin {held : Option C.AuthContext} {ctx : C.AuthContext}
    (h : heldAuth held deeds = some ctx) :
    held = some ctx ∨ ∃ raw, .validated raw (.ok ctx) ∈ deeds := by
  induction deeds generalizing held with
  | nil => exact Or.inl h
  | cons deed deeds ih =>
    have hlater : ∀ {held'}, heldAuth held' deeds = some ctx →
        held' = some ctx ∨ ∃ raw, .validated raw (.ok ctx) ∈ deed :: deeds := by
      intro held' h'
      rcases ih h' with hheld | ⟨raw, hraw⟩
      · exact Or.inl hheld
      · exact Or.inr ⟨raw, List.mem_cons_of_mem deed hraw⟩
    match deed, h with
    | .validated raw (.ok ctx'), h =>
      rcases hlater h with hheld | hraw
      · cases hheld
        exact Or.inr ⟨raw, List.mem_cons_self⟩
      · exact Or.inr hraw
    | .checkedExpiry _ _ true, h =>
      rcases hlater h with hheld | hraw
      · cases hheld
      · exact Or.inr hraw
    | .validated _ (.error _), h => exact hlater h
    | .checkedExpiry _ _ false, h => exact hlater h
    | .executed .., h => exact hlater h
    | .entered .., h => exact hlater h

end

/-! ## Whole runs of the server -/

section
variable {C : Crates} {σ : Type} {A : AclCrates C} {B : Backend C σ} {known : Settings → Prop}

/-- The context of a token of a known configuration. -/
def Configured (A : AclCrates C) (known : Settings → Prop) (ctx : C.AuthContext) : Prop :=
  ∃ config raw token, known config ∧ config.Grants raw token ∧ ctx = A.intoContext token

theorem configured_of_validate (hA : A.Registers) {v : A.Validator} {raw : String}
    {ctx : C.AuthContext}
    (hv : ∃ config, known config ∧ v = buildTokenValidator A.toTokenCrate config)
    (h : A.context v raw = .ok ctx) : Configured A known ctx := by
  obtain ⟨config, hknown, rfl⟩ := hv
  unfold AclCrates.context at h
  cases hvalidate : A.validate (buildTokenValidator A.toTokenCrate config) raw with
  | error e =>
    rw [hvalidate] at h
    cases h
  | ok token =>
    rw [hvalidate] at h
    cases h
    exact ⟨config, raw, token, hknown, grants_of_validate hA hvalidate, rfl⟩

/-- The connection holds a configured context, if any. -/
def Connection.Vetted (A : AclCrates C) (known : Settings → Prop) (conn : Connection C) : Prop :=
  ∀ ctx, conn.auth = some ctx → Configured A known ctx

/-- What was guarded was done with a configured context. -/
def DeedsVetted (A : AclCrates C) (known : Settings → Prop) (deeds : List (Deed C)) : Prop :=
  ∀ deed ∈ deeds, ∀ used, deed.guarded = some used →
    ∃ ctx, used = some ctx ∧ Configured A known ctx

def TaskPhase.Vetted (A : AclCrates C) (known : Settings → Prop) : TaskPhase C → Prop
  | .serving conn _ => conn.Vetted A known
  | .handling rest _ => rest.Ends fun r => r.1.Vetted A known ∧ DeedsVetted A known r.2
  | _ => True

/-- A task holds configured contexts only, and has done guarded deeds with such only. -/
structure Task.Vetted (A : AclCrates C) (known : Settings → Prop) (t : Task C) : Prop where
  phase : t.phase.Vetted A known
  done : DeedsVetted A known t.deeds

theorem DeedsVetted.append {first rest : List (Deed C)} (h : DeedsVetted A known first)
    (h' : DeedsVetted A known rest) : DeedsVetted A known (first ++ rest) := by
  intro deed hdeed
  rcases List.mem_append.mp hdeed with hdeed | hdeed
  · exact h deed hdeed
  · exact h' deed hdeed

theorem vetted_new {rateLimit : Option UInt32} {instant : Instant} :
    (Connection.new C true rateLimit instant).Vetted A known := by
  intro ctx hauth
  cases hauth

theorem vetted_spawn {handshakes : Bool} {rateLimit : Option UInt32} {seen : Nat}
    {instant : Instant} :
    (Task.spawn true handshakes rateLimit seen instant : Task C).Vetted A known := by
  refine ⟨?_, fun deed hdeed => by cases hdeed⟩
  unfold Task.spawn
  dsimp only
  split_ifs
  · trivial
  · exact vetted_new

theorem vetted_handshake {ok : Bool} {instant : Instant} {t : Task C} (h : t.Vetted A known) :
    (t.handshake true ok instant).Vetted A known := by
  unfold Task.handshake
  split
  · refine ⟨?_, h.done⟩
    dsimp only
    split_ifs
    · exact vetted_new
    · trivial
  · exact h

/-- A step is done with the context that the connection holds, and leaves it with that or with one
that its validator has given. -/
theorem vetted_step {m : Moment C} {conn : Connection C} {d : Dispatcher C σ} {input : Input}
    (hvalidate : ∀ raw ctx, m.validate raw = .ok ctx → Configured A known ctx)
    (h : conn.Vetted A known) :
    (step B true m conn d input).connection.Vetted A known ∧
      DeedsVetted A known (step B true m conn d input).deeds := by
  have hgated : Gated m conn.auth (step B true m conn d input) := gated_step
  constructor
  · intro ctx hauth
    rw [hgated.held] at hauth
    rcases heldAuth_origin hauth with hheld | ⟨raw, hraw⟩
    · exact h ctx hheld
    · exact hvalidate raw ctx (vouched_step raw _ hraw).symm
  · intro deed hdeed used hused
    obtain ⟨rfl, ctx, now, hctx, -⟩ := hgated.guarded deed hdeed used hused
    exact ⟨ctx, hctx, h ctx hctx⟩

theorem vetted_turn {m : Moment C} {conn : Connection C} {d : Dispatcher C σ} {input : Input}
    (hvalidate : ∀ raw ctx, m.validate raw = .ok ctx → Configured A known ctx)
    (h : conn.Vetted A known) :
    DeedsVetted A known (turn B true m conn d input).begun ∧
      (turn B true m conn d input).rest.Ends
        fun r => r.1.Vetted A known ∧ DeedsVetted A known r.2 := by
  have hstep : (step B true m conn d input).connection.Vetted A known ∧
      DeedsVetted A known (step B true m conn d input).deeds := vetted_step hvalidate h
  obtain ⟨hconn, hdeeds⟩ := hstep
  constructor
  · -- what is begun is done in the step too
    have hcomes : ComesTo B d (turn B true m conn d input).begun
        (turn B true m conn d input).rest (step B true m conn d input) := comesTo_turn
    obtain ⟨-, hbegun, -⟩ := hcomes
    intro deed hdeed
    exact hdeeds deed (hbegun ▸ List.mem_append_left _ hdeed)
  · unfold turn
    cases hadmission : admission true m conn input with
    | none => exact ⟨hconn, fun deed hdeed => by cases hdeed⟩
    | some a =>
      have hauth := admission_auth hadmission
      refine Admitted.rest_ends.mono fun r hr =>
        ⟨fun ctx hctx => ?_, fun deed hdeed used hused => ?_⟩
      · rw [hr.auth, hauth] at hctx
        exact h ctx hctx
      · obtain ⟨ns, rfl, hsome⟩ := hr.entered deed hdeed
        cases hused
        obtain ⟨ctx, hctx⟩ := Option.isSome_iff_exists.mp (hsome rfl)
        exact ⟨ctx, hctx, h ctx (hauth ▸ hctx)⟩

theorem vetted_take (hA : A.Registers) {shared : Reloading A.toTokenCrate} {r : Readings}
    {input : Input} {t : Task C} {d : Dispatcher C σ} (hforced : shared.Forced known)
    (h : t.Vetted A known) : (t.take B true shared r input d).Vetted A known := by
  unfold Task.take
  split
  case h_2 => exact h
  case h_1 conn seen hserving =>
    have hconn : conn.Vetted A known := by
      have hphase := h.phase
      rw [hserving] at hphase
      exact hphase
    split
    · exact h
    · exact ⟨trivial, h.done⟩
    · exact ⟨hconn, h.done⟩
    · have hvalidate : ∀ raw ctx, A.context shared.validator raw = .ok ctx →
          Configured A known ctx := fun raw ctx => configured_of_validate hA hforced.tokens
      obtain ⟨hbegun, hrest⟩ := vetted_turn (B := B) (d := d)
        (m := ⟨r.instant, r.wall, A.context shared.validator, r.writeOk⟩) hvalidate hconn
      exact ⟨hrest, h.done.append hbegun⟩

theorem vetted_resume {t : Task C} {d : Dispatcher C σ} (h : t.Vetted A known) :
    (t.resume B d).1.Vetted A known := by
  have hphase := h.phase
  rcases t.resume_cases B d with ⟨op, next, seen, hrest, hresume⟩ |
    ⟨conn, deeds, seen, hrest, hresume⟩ | ⟨-, hresume⟩
  · rw [hrest] at hphase
    rw [hresume]
    exact ⟨hphase _, h.done⟩
  · rw [hrest] at hphase
    rw [hresume]
    refine ⟨?_, h.done.append hphase.2⟩
    dsimp only
    split_ifs
    · trivial
    · exact hphase.1
  · rw [hresume]
    exact h

theorem vetted_cancel {t : Task C} (h : t.Vetted A known) : t.cancel.Vetted A known := by
  unfold Task.cancel
  split_ifs
  · exact ⟨trivial, h.done⟩
  · exact h

theorem vetted_join {t : Task C} (h : t.Vetted A known) : t.join.Vetted A known := by
  unfold Task.join
  split_ifs
  · exact ⟨h.phase, h.done⟩
  · exact h

end

namespace Server
variable {C : Crates} {σ : Type} {A : AclCrates C} {B : Backend C σ} {known : Settings → Prop}

/-- The moves of the reloader and the file within those of the server. -/
def reloadMoves (moves : List ServerMove) : List ReloadMove :=
  moves.filterMap fun
    | .reload mv => some mv
    | _ => none

structure Vetted (A : AclCrates C) (known : Settings → Prop) (s : Server A σ) : Prop where
  required : s.authRequired = true
  forced : s.reloading.Forced known
  tasks : ∀ t ∈ s.tasks, t.Vetted A known

theorem Vetted.settle {s : Server A σ} (h : s.Vetted A known) : s.settle.Vetted A known := by
  rcases s.settle_cases with ⟨-, hsettle⟩ | ⟨-, hsettle⟩
  · rw [hsettle]
    exact h
  · rw [hsettle]
    exact ⟨h.required, h.forced, h.tasks⟩

theorem Vetted.observe {s : Server A σ} (h : s.Vetted A known) : s.observe.Vetted A known := by
  unfold Server.observe
  split_ifs
  · exact Vetted.settle ⟨h.required, h.forced, h.tasks⟩
  · exact ⟨h.required, h.forced, h.tasks⟩

/-- What is written to the file is known. -/
def Knows (known : Settings → Prop) (_ : Server A σ) (mv : ServerMove) : Prop :=
  ∀ file config, mv = .reload (.write file) → file.content = .ok config → known config

theorem vetted_move (hA : A.Registers) (s : Server A σ) (mv : ServerMove)
    (hknows : Knows known s mv)
    (h : s.Vetted A known) : (s.move B mv).Vetted A known := by
  rcases s.move_cases B mv with ⟨rm, rfl, hmove⟩ | ⟨-, hmove⟩ |
    ⟨-, -, handshakes, instant, hmove⟩ | ⟨i, ok, instant, hmove⟩ | ⟨i, r, input, hmove⟩ |
    ⟨i, t, ht, hmove⟩ | ⟨i, hmove⟩ | ⟨i, deadline, -, hmove⟩ | ⟨time, hmove⟩ |
    ⟨deadline, -, hmove⟩ | hmove
  · rw [hmove]
    refine ⟨h.required, Reloading.forced_step _ rm ?_ h.forced, h.tasks⟩
    exact fun file config hrm hcontent => hknows file config (by rw [hrm]) hcontent
  · rw [hmove]
    exact h.observe
  · rw [hmove, h.required]
    refine ⟨rfl, h.forced, fun t ht => ?_⟩
    rcases List.mem_append.mp ht with ht | ht
    · exact h.tasks t ht
    · rw [List.mem_singleton.mp ht]
      exact vetted_spawn
  · rw [hmove, h.required]
    exact ⟨rfl, h.forced, Schedule.forall_mem_modify (fun t _ => vetted_handshake) h.tasks⟩
  · rw [hmove, h.required]
    exact ⟨rfl, h.forced, Schedule.forall_mem_modify (fun t _ => vetted_take hA h.forced) h.tasks⟩
  · rw [hmove]
    refine ⟨h.required, h.forced, fun t' ht' => ?_⟩
    rcases List.mem_or_eq_of_mem_set ht' with ht' | rfl
    · exact h.tasks t' ht'
    · exact vetted_resume (h.tasks t (List.mem_of_getElem? ht))
  · rw [hmove]
    exact ⟨h.required, h.forced, Schedule.forall_mem_modify (fun t _ => vetted_cancel) h.tasks⟩
  · rw [hmove]
    exact Vetted.settle
      ⟨h.required, h.forced, Schedule.forall_mem_modify (fun t _ => vetted_join) h.tasks⟩
  · rw [hmove]
    exact ⟨h.required, h.forced, h.tasks⟩
  · rw [hmove]
    refine ⟨h.required, h.forced, fun t ht => ?_⟩
    obtain ⟨t, hmem, rfl⟩ := List.mem_map.mp ht
    exact ⟨(h.tasks t hmem).phase, (h.tasks t hmem).done⟩
  · rw [hmove]
    exact h

end Server

/-- When authentication is required, every command other than PING that any connection executes, and
every subscription that it enters, has the context of a token that is in a configuration the server
was started with or that was in the file at some time: over all connections, in any order of their
requests, of reloads and of changes to the file. -/
theorem contexts_configured {C : Crates} {σ : Type} (A : AclCrates C) (hA : A.Registers)
    (B : Backend C σ) (config : Settings) (file : ConfigFile) (tls : Bool) (now : Instant)
    (d : Dispatcher C σ) (moves : List ServerMove) (hrequired : authRequired config = true) :
    let s := Schedule.run (Server.move B) (.new A config file tls now d) moves
    let known := Reloading.Known config file (Server.reloadMoves moves)
    ∀ t ∈ s.tasks, ∀ deed ∈ t.deeds, ∀ used, deed.guarded = some used →
      ∃ c raw token, known c ∧ c.Grants raw token ∧ used = some (A.intoContext token) := by
  intro s known t ht deed hdeed used hused
  have hvetted : s.Vetted A known := by
    refine Schedule.run_invariant (Server.vetted_move hA) (Schedule.guarded_of_forall ?_) ?_
    · intro mv hmv s' f c hwrite hcontent
      refine Or.inr (Or.inr ⟨f, ?_, hcontent⟩)
      exact List.mem_filterMap.mpr ⟨mv, hmv, by rw [hwrite]⟩
    · refine ⟨hrequired, ?_, by simp [Server.new]⟩
      exact ⟨fun c hc => Or.inr (Or.inl hc), ⟨config, Or.inl rfl, rfl⟩, ⟨config, Or.inl rfl, rfl⟩,
        config, Or.inl rfl, rfl, rfl⟩
  obtain ⟨ctx, hctx, c, raw, token, hknown, hgrants, rfl⟩ :=
    (hvetted.tasks t ht).done deed hdeed used hused
  exact ⟨c, raw, token, hknown, hgrants, hctx⟩

namespace Memory

/-- A file with one token. -/
def tokenFile : Settings :=
  ⟨some ⟨some "token", [("t", ⟨"acme", "alice", false, []⟩)], by simp⟩, none⟩

/-- HEALTH runs with the context of the one token that is configured. -/
theorem health_runs_as_configured :
    let s : Server acl State := Schedule.run (Server.move backend)
      (.new acl tokenFile ⟨none, .ok tokenFile⟩ false 0
        (.new [] (Stream'.const 0) (Stream'.const (some 10))))
      [.accept true 0, words ["AUTH", "t"], .resume 0, words ["HEALTH"]]
    ∃ t ∈ s.tasks, ∃ used, .executed .health used ∈ t.deeds ∧
      ∃ (c : Settings) (raw : String) (token : Token),
        c.Grants raw token ∧ used = some (acl.intoContext token) := by
  intro s
  have hmem : .executed .health (some ⟨"acme", "alice", false, [], none⟩) ∈
      (s.tasks.head (by exact List.cons_ne_nil _ _)).deeds := by
    exact List.mem_cons_of_mem _ (List.mem_cons_of_mem _ (List.mem_singleton.mpr rfl))
  obtain ⟨c, raw, token, -, hgrants, hused⟩ := contexts_configured acl tokenCrate_registers backend
    tokenFile ⟨none, .ok tokenFile⟩ false 0 (.new [] (Stream'.const 0) (Stream'.const (some 10)))
    [.accept true 0, words ["AUTH", "t"], .resume 0, words ["HEALTH"]] rfl _ (List.head_mem _) _
    hmem _ rfl
  exact ⟨_, List.head_mem _, _, hmem, c, raw, token, hgrants, hused⟩

end Memory

end Shroudb
