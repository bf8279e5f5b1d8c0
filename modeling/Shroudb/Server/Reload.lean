import Shroudb.Effect.Channels
import Shroudb.Effect.Schedule
import Shroudb.Server.TokenConfig

/-! `run_reloader`: which configuration is in force while the file changes. -/
namespace Shroudb
open Effect

/-- What `file_mtime` and `load_config` find at the path. -/
structure ConfigFile where
  mtime : Option Nat
  content : Except String Settings

/-- Where the reloader is: in its `select!`, or after one of the statements that others can come
between. -/
inductive ReloadPhase where
  | selecting
  | changed
  | loaded (config : Settings)
  | replaced (config : Settings)
  | stopped

/-- The file, the two values that the reloader and the connections share, and the reloader. -/
structure Reloading (K : TokenCrate) where
  file : ConfigFile
  validator : K.Validator
  rateLimit : Watch (Option UInt32)
  shutdown : Watch Bool
  lastMtime : Option Nat
  seen : Nat
  phase : ReloadPhase

inductive ReloadMove where
  | write (file : ConfigFile)
  | notify (shutdown : Bool)
  | poll
  | load
  | replace
  | send

namespace Reloading
variable {K : TokenCrate}

/-- As `run_server` starts the reloader, with the configuration that was loaded before. -/
def new (K : TokenCrate) (config : Settings) (file : ConfigFile) : Reloading K where
  file := file
  validator := buildTokenValidator K config
  rateLimit := .new config.rateLimitPerSecond
  shutdown := .new false
  lastMtime := file.mtime
  seen := 0
  phase := .selecting

/-- The shutdown signal comes before the tick. The new modification time is kept whatever comes of
the load. -/
def poll (s : Reloading K) : Reloading K :=
  if s.shutdown.changed s.seen then
    { s with
      seen := s.shutdown.version, phase := if s.shutdown.value then .stopped else .selecting }
  else if s.file.mtime = s.lastMtime then s
  else { s with lastMtime := s.file.mtime, phase := .changed }

/-- A configuration that does not load leaves everything as it is. -/
def load (s : Reloading K) : Reloading K :=
  match s.file.content with
  | .error _ => { s with phase := .selecting }
  | .ok config => { s with phase := .loaded config }

/-- Moves that do not apply change nothing. -/
def move (s : Reloading K) : ReloadMove → Reloading K
  | .write file => { s with file }
  | .notify shutdown => { s with shutdown := s.shutdown.send shutdown }
  | .poll =>
    match s.phase with
    | .selecting => s.poll
    | _ => s
  | .load =>
    match s.phase with
    | .changed => s.load
    | _ => s
  | .replace =>
    match s.phase with
    | .loaded config =>
      { s with validator := buildTokenValidator K config, phase := .replaced config }
    | _ => s
  | .send =>
    match s.phase with
    | .replaced config =>
      { s with rateLimit := s.rateLimit.send config.rateLimitPerSecond, phase := .selecting }
    | _ => s

/-- What a move can do. -/
theorem move_cases (s : Reloading K) (mv : ReloadMove) :
    (∃ file, mv = .write file ∧ s.move mv = { s with file }) ∨
    (∃ b, mv = .notify b ∧ s.move mv = { s with shutdown := s.shutdown.send b }) ∨
    (s.phase = .selecting ∧ ∃ phase seen, (phase = .selecting ∨ phase = .stopped) ∧
      s.move mv = { s with seen, phase }) ∨
    (s.phase = .selecting ∧ s.file.mtime ≠ s.lastMtime ∧
      s.move mv = { s with lastMtime := s.file.mtime, phase := .changed }) ∨
    (∃ e, s.phase = .changed ∧ s.file.content = .error e ∧
      s.move mv = { s with phase := .selecting }) ∨
    (∃ config, s.phase = .changed ∧ s.file.content = .ok config ∧
      s.move mv = { s with phase := .loaded config }) ∨
    (∃ config, s.phase = .loaded config ∧ s.move mv =
      { s with validator := buildTokenValidator K config, phase := .replaced config }) ∨
    (∃ config, s.phase = .replaced config ∧ s.move mv =
      { s with rateLimit := s.rateLimit.send config.rateLimitPerSecond, phase := .selecting }) ∨
    s.move mv = s := by
  obtain ⟨file, validator, rateLimit, shutdown, lastMtime, seen, phase⟩ := s
  cases mv with
  | write file' => exact Or.inl ⟨file', rfl, rfl⟩
  | notify b => exact Or.inr (Or.inl ⟨b, rfl, rfl⟩)
  | poll =>
    cases phase with
    | selecting =>
      dsimp only [move, poll]
      split_ifs with hchanged hstop hsame
      · exact Or.inr (Or.inr (Or.inl ⟨rfl, .stopped, shutdown.version, Or.inr rfl, rfl⟩))
      · exact Or.inr (Or.inr (Or.inl ⟨rfl, .selecting, shutdown.version, Or.inl rfl, rfl⟩))
      · exact Or.inr (Or.inr (Or.inl ⟨rfl, .selecting, seen, Or.inl rfl, rfl⟩))
      · exact Or.inr (Or.inr (Or.inr (Or.inl ⟨rfl, hsame, rfl⟩)))
    | _ => simp [move]
  | load =>
    cases phase with
    | changed =>
      cases hcontent : file.content with
      | error e => simp [move, load, hcontent]
      | ok config => simp [move, load, hcontent]
    | _ => simp [move]
  | replace => cases phase <;> simp [move]
  | send => cases phase <;> simp [move]

theorem move_shutdown {s : Reloading K} {mv : ReloadMove} (h : ∀ b, mv ≠ .notify b) :
    (s.move mv).shutdown = s.shutdown := by
  rcases s.move_cases mv with ⟨_, -, hmove⟩ | ⟨b, hb, -⟩ | ⟨-, _, _, -, hmove⟩ | ⟨-, -, hmove⟩ |
    ⟨_, -, -, hmove⟩ | ⟨_, -, -, hmove⟩ | ⟨_, -, hmove⟩ | ⟨_, -, hmove⟩ | hmove
  case inr.inl => exact absurd hb (h b)
  all_goals rw [hmove]

/-! ## What is in force -/

/-- Tokens and rate limit are those of the configuration. -/
def InForce (s : Reloading K) (config : Settings) : Prop :=
  s.validator = buildTokenValidator K config ∧ s.rateLimit.value = config.rateLimitPerSecond

/-- Between two statements of the reloader, the tokens are of one known configuration and the rate
limit of another. -/
structure Forced (known : Settings → Prop) (s : Reloading K) : Prop where
  content : ∀ config, s.file.content = .ok config → known config
  tokens : ∃ config, known config ∧ s.validator = buildTokenValidator K config
  limit : ∃ config, known config ∧ s.rateLimit.value = config.rateLimitPerSecond
  phase : match s.phase with
    | .replaced config => known config ∧ s.validator = buildTokenValidator K config
    | .loaded config => known config ∧ ∃ config, known config ∧ s.InForce config
    | _ => ∃ config, known config ∧ s.InForce config

/-- What is written to the file is known. -/
def Knows (known : Settings → Prop) (_ : Reloading K) (mv : ReloadMove) : Prop :=
  ∀ file config, mv = .write file → file.content = .ok config → known config

theorem forced_step {known : Settings → Prop} (s : Reloading K) (mv : ReloadMove)
    (hknows : Knows known s mv) (h : Forced known s) : Forced known (s.move mv) := by
  have hphase := h.phase
  rcases s.move_cases mv with ⟨file, hmv, hmove⟩ | ⟨b, -, hmove⟩ |
    ⟨hselecting, phase, seen, hnext, hmove⟩ | ⟨hselecting, -, hmove⟩ | ⟨e, hchanged, -, hmove⟩ |
    ⟨config, hchanged, hcontent, hmove⟩ | ⟨config, hloaded, hmove⟩ | ⟨config, hreplaced, hmove⟩ |
    hmove
  · rw [hmove]
    exact ⟨fun config hconfig => hknows file config hmv hconfig, h.tokens, h.limit, h.phase⟩
  · rw [hmove]
    exact ⟨h.content, h.tokens, h.limit, h.phase⟩
  · rw [hselecting] at hphase
    rw [hmove]
    refine ⟨h.content, h.tokens, h.limit, ?_⟩
    rcases hnext with rfl | rfl
    · exact hphase
    · exact hphase
  · rw [hselecting] at hphase
    rw [hmove]
    exact ⟨h.content, h.tokens, h.limit, hphase⟩
  · rw [hchanged] at hphase
    rw [hmove]
    exact ⟨h.content, h.tokens, h.limit, hphase⟩
  · rw [hchanged] at hphase
    rw [hmove]
    exact ⟨h.content, h.tokens, h.limit, h.content config hcontent, hphase⟩
  · rw [hloaded] at hphase
    rw [hmove]
    exact ⟨h.content, ⟨config, hphase.1, rfl⟩, h.limit, hphase.1, rfl⟩
  · rw [hreplaced] at hphase
    rw [hmove]
    exact ⟨h.content, h.tokens, ⟨config, hphase.1, rfl⟩, config, hphase.1, hphase.2, rfl⟩
  · rw [hmove]
    exact h

/-- The configuration the server was started with, or one that was in the file at some time. -/
def Known (config : Settings) (file : ConfigFile) (moves : List ReloadMove) (c : Settings) : Prop :=
  c = config ∨ file.content = .ok c ∨ ∃ f, .write f ∈ moves ∧ f.content = .ok c

theorem forced_run (K : TokenCrate) (config : Settings) (file : ConfigFile)
    (moves : List ReloadMove) :
    Forced (Known config file moves) (Schedule.run move (new K config file) moves) := by
  refine Schedule.run_invariant forced_step (Schedule.guarded_of_forall ?_) ?_
  · intro mv hmv s f c hwrite hcontent
    exact Or.inr (Or.inr ⟨f, hwrite ▸ hmv, hcontent⟩)
  · exact ⟨fun c hc => Or.inr (Or.inl hc), ⟨config, Or.inl rfl, rfl⟩, ⟨config, Or.inl rfl, rfl⟩,
      config, Or.inl rfl, rfl, rfl⟩

end Reloading

/-- However the file changes while the reloader runs, the tokens in force are all those of one
configuration that the server was started with or that was in the file, and so is the rate limit.
They are of the same configuration whenever the reloader is not just between the two. -/
theorem one_configuration_in_force (K : TokenCrate) (config : Settings) (file : ConfigFile)
    (moves : List ReloadMove) :
    let s := Schedule.run Reloading.move (.new K config file) moves
    (∃ c, Reloading.Known config file moves c ∧ s.validator = buildTokenValidator K c) ∧
    (∃ c, Reloading.Known config file moves c ∧ s.rateLimit.value = c.rateLimitPerSecond) ∧
    ((∀ c, s.phase ≠ .replaced c) → ∃ c, Reloading.Known config file moves c ∧ s.InForce c) := by
  intro s
  have hforced := Reloading.forced_run K config file moves
  refine ⟨hforced.tokens, hforced.limit, fun hphase => ?_⟩
  have h := hforced.phase
  cases hs : s.phase with
  | replaced c => exact absurd hs (hphase c)
  | loaded c =>
    rw [hs] at h
    exact h.2
  | selecting =>
    rw [hs] at h
    exact h
  | changed =>
    rw [hs] at h
    exact h
  | stopped =>
    rw [hs] at h
    exact h

/-! ## Convergence -/

namespace Reloading
variable {K : TokenCrate}

/-- A write gives the file another modification time than the last one the reloader has seen. -/
def Fresh (s : Reloading K) (mv : ReloadMove) : Prop :=
  ∀ file, mv = .write file → file.mtime ≠ s.lastMtime

/-- When the reloader has seen the file as it is, the configuration in it is in force or on its
way. -/
def Seen (s : Reloading K) : Prop :=
  s.file.mtime = s.lastMtime → ∀ config, s.file.content = .ok config →
    match s.phase with
    | .changed => True
    | .loaded c => c = config
    | .replaced c => c = config ∧ s.validator = buildTokenValidator K config
    | _ => s.InForce config

theorem seen_step (s : Reloading K) (mv : ReloadMove) (hfresh : Fresh s mv) (h : Seen s) :
    Seen (s.move mv) := by
  rcases s.move_cases mv with ⟨file, hmv, hmove⟩ | ⟨b, -, hmove⟩ |
    ⟨hselecting, phase, seen, hnext, hmove⟩ | ⟨hselecting, -, hmove⟩ |
    ⟨e, hchanged, herror, hmove⟩ | ⟨config, hchanged, hcontent, hmove⟩ |
    ⟨config, hloaded, hmove⟩ | ⟨config, hreplaced, hmove⟩ | hmove
  · rw [hmove]
    exact fun hsame => absurd hsame (hfresh file hmv)
  · rw [hmove]
    exact h
  · rw [hmove]
    intro hsame config hconfig
    have hbefore := h hsame config hconfig
    rw [hselecting] at hbefore
    rcases hnext with rfl | rfl
    · exact hbefore
    · exact hbefore
  · rw [hmove]
    exact fun _ _ _ => trivial
  · rw [hmove]
    intro _ config hconfig
    cases herror.symm.trans hconfig
  · rw [hmove]
    intro _ config' hconfig
    exact Except.ok.inj (hcontent.symm.trans hconfig)
  · rw [hmove]
    intro hsame config' hconfig
    have hbefore := h hsame config' hconfig
    rw [hloaded] at hbefore
    have hown : config = config' := hbefore
    exact ⟨hown, congrArg (buildTokenValidator K) hown⟩
  · rw [hmove]
    intro hsame config' hconfig
    have hbefore := h hsame config' hconfig
    rw [hreplaced] at hbefore
    exact ⟨hbefore.2, congrArg Settings.rateLimitPerSecond hbefore.1⟩
  · rw [hmove]
    exact h

/-- A reload from the load on. -/
def finishing : List ReloadMove := [.load, .replace, .send]

/-- A reload that was begun comes to its end, and leaves the file and the signal alone. -/
theorem run_finishing (s : Reloading K) (h : s.phase ≠ .stopped) :
    (Schedule.run move s finishing).phase = .selecting ∧
      (Schedule.run move s finishing).file = s.file ∧
      (Schedule.run move s finishing).lastMtime = s.lastMtime ∧
      (Schedule.run move s finishing).shutdown = s.shutdown ∧
      (Schedule.run move s finishing).seen = s.seen := by
  obtain ⟨file, validator, rateLimit, shutdown, lastMtime, seen, phase⟩ := s
  cases phase with
  | selecting => exact ⟨rfl, rfl, rfl, rfl, rfl⟩
  | changed =>
    obtain ⟨mtime, content⟩ := file
    cases content with
    | error e => exact ⟨rfl, rfl, rfl, rfl, rfl⟩
    | ok config => exact ⟨rfl, rfl, rfl, rfl, rfl⟩
  | loaded config => exact ⟨rfl, rfl, rfl, rfl, rfl⟩
  | replaced config => exact ⟨rfl, rfl, rfl, rfl, rfl⟩
  | stopped => exact absurd rfl h

/-- A reload of a file that loads puts its configuration in force. -/
theorem run_finishing_changed {s : Reloading K} {config : Settings} (hphase : s.phase = .changed)
    (hcontent : s.file.content = .ok config) :
    (Schedule.run move s finishing).InForce config := by
  obtain ⟨⟨mtime, content⟩, validator, rateLimit, shutdown, lastMtime, seen, phase⟩ := s
  cases hphase
  cases hcontent
  exact ⟨rfl, rfl⟩

theorem guarded_finishing {s : Reloading K} : Schedule.Guarded move Fresh s finishing := by
  apply Schedule.guarded_of_forall
  intro mv hmv s file hwrite
  rw [hwrite] at hmv
  simp [finishing] at hmv

end Reloading

/-- The reloader starts on the file that the configuration was loaded from, unchanged since, and
every write gives the file a new modification time. Then, when the reloader waits and has seen the
file as it is, the configuration in the file is in force, if it loads. From any other state, one
round of the reloader with no further write puts it in force, unless the server is shut down. -/
theorem reload_converges (K : TokenCrate) (config : Settings) (file : ConfigFile)
    (moves : List ReloadMove) (hstart : file.content = .ok config)
    (hfresh : Schedule.Guarded Reloading.move Reloading.Fresh (.new K config file) moves) :
    let s := Schedule.run Reloading.move (.new K config file) moves
    let round := Reloading.finishing ++ .poll :: Reloading.finishing
    ∀ c, s.file.content = .ok c →
      (s.phase = .selecting → s.file.mtime = s.lastMtime → s.InForce c) ∧
      (s.phase ≠ .stopped → s.shutdown.changed s.seen = false →
        (Schedule.run Reloading.move s round).InForce c) := by
  intro s round c hc
  have hinit : (Reloading.new K config file).Seen := by
    intro _ config' hconfig
    cases hstart.symm.trans hconfig
    exact ⟨rfl, rfl⟩
  have hseen : s.Seen := Schedule.run_invariant Reloading.seen_step hfresh hinit
  refine ⟨fun hphase hsame => ?_, fun hrunning hquiet => ?_⟩
  · have hforce := hseen hsame c hc
    rw [hphase] at hforce
    exact hforce
  obtain ⟨hphase, hfile, hlast, hshutdown, hversion⟩ := Reloading.run_finishing s hrunning
  have hseen' : (Schedule.run Reloading.move s Reloading.finishing).Seen :=
    Schedule.run_invariant Reloading.seen_step Reloading.guarded_finishing hseen
  have hround : Schedule.run Reloading.move s round = Schedule.run Reloading.move
      ((Schedule.run Reloading.move s Reloading.finishing).move .poll) Reloading.finishing := by
    rw [Schedule.run, List.foldl_append]
    rfl
  rw [hround]
  generalize Schedule.run Reloading.move s Reloading.finishing = t at *
  have hquiet' : t.shutdown.changed t.seen = false := by rw [hshutdown, hversion, hquiet]
  have hc' : t.file.content = .ok c := by rw [hfile, hc]
  have hpoll : t.move .poll = t.poll := by rw [Reloading.move, hphase]
  rw [hpoll, Reloading.poll, if_neg (by simp [hquiet'])]
  by_cases hsame : t.file.mtime = t.lastMtime
  · rw [if_pos hsame]
    -- nothing to reload: the moves that finish a reload do not apply
    have hforce := hseen' hsame c hc'
    rw [hphase] at hforce
    obtain ⟨file', validator, rateLimit, shutdown, lastMtime, seen, phase⟩ := t
    cases hphase
    exact hforce
  · rw [if_neg hsame]
    exact Reloading.run_finishing_changed rfl hc'

/-- A new rate limit is written to the file, and one round later it is in force. -/
theorem written_limit_in_force :
    let s := Schedule.run Reloading.move
      (.new Memory.tokenCrate ⟨none, none⟩ ⟨some 1, .ok ⟨none, none⟩⟩)
      [.write ⟨some 2, .ok ⟨none, some 5⟩⟩]
    (Schedule.run Reloading.move s
      (Reloading.finishing ++ .poll :: Reloading.finishing)).rateLimit.value = some 5 := by
  intro s
  have hfresh : Schedule.Guarded Reloading.move Reloading.Fresh
      (.new Memory.tokenCrate ⟨none, none⟩ ⟨some 1, .ok ⟨none, none⟩⟩)
      [.write ⟨some 2, .ok ⟨none, some 5⟩⟩] := by
    refine ⟨?_, trivial⟩
    intro file hwrite
    cases hwrite
    exact fun hsame => absurd hsame (by decide)
  have hrunning : s.phase ≠ .stopped := ReloadPhase.noConfusion
  exact ((reload_converges Memory.tokenCrate ⟨none, none⟩ ⟨some 1, .ok ⟨none, none⟩⟩ _ rfl hfresh _
    rfl).2 hrunning rfl).2

end Shroudb
