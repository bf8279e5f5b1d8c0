import Shroudb.Wire.AsciiCase
import Shroudb.Protocol.ParseCommand

/-! What `parse_command` yields. -/
namespace Shroudb
open Wire

variable {C : Crates}

/-- Bytes that are some string's UTF-8. -/
def Textual (b : Bytes) : Prop := ∃ s, b = utf8 s

/-- Values that the JSON parser has yielded. -/
def JsonParsed (C : Crates) (json : Json) : Prop := ∃ text, C.jsonFromStr text = .ok json

/-- What every parsed command other than a pipeline has. -/
def Command.WellFormed (C : Crates) : Command → Prop
  | .put _ key value metadata _ | .putIf _ key value metadata _ =>
    Textual key ∧ Textual value ∧ ∀ json ∈ metadata, JsonParsed C json
  | .get _ key .. | .delete _ key | .delIf _ key _ | .versions _ key .. => Textual key
  | .delPrefix _ keyPrefix => Textual keyPrefix ∧ keyPrefix ≠ []
  | .list _ keyPrefix .. => ∀ b ∈ keyPrefix, Textual b
  | .namespaceCreate _ schema .. | .namespaceAlter _ schema .. => ∀ json ∈ schema, JsonParsed C json
  | .subscribe _ key events =>
    (∀ b ∈ key, Textual b) ∧ ∀ e ∈ events, toAsciiUppercase e = e ∧ e ≠ "KEY"
  | .rekey hex =>
    eqIgnoreAsciiCase hex "STATUS" = false ∧ (utf8 hex).length = 64 ∧
      hex.toList.all isAsciiHexdigit = true
  | .pipeline .. => False
  | _ => True

/-- What every parsed command is. -/
inductive Command.Parsable (C : Crates) : Command → Prop
  | leaf {c : Command} : c.WellFormed C → Parsable C c
  | pipeline {cs : List Command} {id : Option String} :
    cs ≠ [] → (∀ c ∈ cs, Parsable C c) → Parsable C (.pipeline cs id)

theorem textual_utf8 (s : String) : Textual (utf8 s) := ⟨s, rfl⟩

/-- A keyword whose value, if it is accepted, keeps `P`. -/
def OptionSpec.Keeps {α : Type} (P : α → Prop) : OptionSpec C α → Prop
  | .flag _ set => ∀ o, P o → P (set o)
  | .value _ _ set => ∀ v o o', set v o = .ok o' → P o → P o'

theorem parseOptions_keeps {α : Type} {P : α → Prop} {specs : List (OptionSpec C α)}
    (hspecs : ∀ spec ∈ specs, spec.Keeps P) {args : List String} {o o' : α}
    (h : parseOptions specs args o = .ok o') (ho : P o) : P o' := by
  fun_induction parseOptions specs args o with
  | case1 o =>
    cases h
    exact ho
  | case2 arg rest o hfind => cases h
  | case3 arg rest o word set hfind ih =>
    exact ih h (hspecs _ (List.mem_of_find?_eq_some hfind) o ho)
  | case4 arg o word missing set hfind => cases h
  | case5 arg o word missing set hfind v rest next hset ih =>
    exact ih h (hspecs _ (List.mem_of_find?_eq_some hfind) v o next hset ho)
  | case6 arg o word missing set hfind v rest e hset => cases h

theorem keeps_number {P : Options → Prop} {word missing bad : String}
    {set : UInt64 → Options → Options} (h : ∀ n o, P o → P (set n o)) :
    (numberOption word missing bad set : OptionSpec C Options).Keeps P := by
  intro v o o' hset ho
  cases hn : parseNumber (C := C) bad v with
  | error e => simp [hn, Except.map] at hset
  | ok n =>
    simp only [hn, Except.map, Except.ok.injEq] at hset
    subst hset
    exact h n o ho

theorem keeps_json {P : Options → Prop} {word missing bad : String}
    {set : Json → Options → Options} (h : ∀ json o, JsonParsed C json → P o → P (set json o)) :
    (jsonOption word missing bad set : OptionSpec C Options).Keeps P := by
  intro v o o' hset ho
  cases hn : C.jsonFromStr v with
  | error e => simp [parseJson, hn, Except.map] at hset
  | ok json =>
    simp only [parseJson, hn, Except.map, Except.ok.injEq] at hset
    subst hset
    exact h json o ⟨v, hn⟩ ho

theorem keeps_text {P : Options → Prop} {word missing : String}
    {set : String → Options → Options} (h : ∀ s o, P o → P (set s o)) :
    (textOption word missing set : OptionSpec C Options).Keeps P := by
  intro v o o' hset ho
  cases hset
  exact h v o ho

theorem mem_of_lookup_eq_some {α : Type} {specs : List (String × α)} {word : String} {set : α}
    (h : specs.lookup word = some set) : (word, set) ∈ specs := by
  obtain ⟨before, after, rfl, _⟩ := List.lookup_eq_some_iff.mp h
  exact List.mem_append_right _ List.mem_cons_self

theorem scanOptions_keeps {α : Type} {P : α → Prop}
    {specs : List (String × (Option String → α → α))}
    (hspecs : ∀ spec ∈ specs, ∀ s o, P o → P (spec.2 s o)) {args : List String} {o : α} (ho : P o) :
    P (scanOptions specs args o) := by
  fun_induction scanOptions specs args o with
  | case1 o => exact ho
  | case2 arg rest o hfind ih => exact ih ho
  | case3 arg o set hfind => exact hspecs _ (mem_of_lookup_eq_some hfind) none o ho
  | case4 arg o set hfind v rest ih =>
    exact ih (hspecs _ (mem_of_lookup_eq_some hfind) (some v) o ho)

/-- What the option loops keep. -/
structure Options.Sound (C : Crates) (o : Options) : Prop where
  value : Textual o.value
  keyPrefix : ∀ b ∈ o.keyPrefix, Textual b
  metadata : ∀ json ∈ o.metadata, JsonParsed C json
  schema : ∀ json ∈ o.schema, JsonParsed C json

theorem sound_default : ({} : Options).Sound C :=
  ⟨⟨"", by decide⟩, by simp, by simp, by simp⟩

theorem keeps_value : (valueOption : OptionSpec C Options).Keeps (Options.Sound C) :=
  keeps_text fun s _ ho => { ho with value := textual_utf8 s }

theorem keeps_prefixOption : (prefixOption : OptionSpec C Options).Keeps (Options.Sound C) :=
  keeps_text fun s _ ho => { ho with keyPrefix := by simpa using textual_utf8 s }

theorem keeps_meta : (metaOption : OptionSpec C Options).Keeps (Options.Sound C) :=
  keeps_json fun _ _ hjson ho => { ho with metadata := by simpa using hjson }

theorem keeps_schema : (schemaOption : OptionSpec C Options).Keeps (Options.Sound C) :=
  keeps_json fun _ _ hjson ho => { ho with schema := by simpa using hjson }

theorem exists_of_map_ok {ε α β : Type} {x : Except ε α} {f : α → β} {b : β}
    (h : x.map f = .ok b) : ∃ a, x = .ok a ∧ f a = b := by
  cases x with
  | error e => cases h
  | ok a =>
    cases h
    exact ⟨a, rfl, rfl⟩

section
variable {args : List String} {c : Command}

theorem parsePut_wellFormed (h : parsePut (C := C) args = .ok c) : c.WellFormed C := by
  unfold parsePut at h
  split at h
  · cases h
    exact ⟨textual_utf8 _, textual_utf8 _, by simp⟩
  · obtain ⟨o, ho, rfl⟩ := exists_of_map_ok h
    have hsound : o.Sound C := by
      refine parseOptions_keeps ?_ ho sound_default
      simp only [List.forall_mem_cons, List.not_mem_nil, false_implies, implies_true, and_true]
      exact ⟨keeps_value, keeps_meta, keeps_number fun _ _ ho => { ho with }⟩
    exact ⟨textual_utf8 _, hsound.value, hsound.metadata⟩
  · cases h

theorem parseGet_wellFormed (h : parseGet (C := C) args = .ok c) : c.WellFormed C := by
  unfold parseGet at h
  split at h
  · obtain ⟨o, ho, rfl⟩ := exists_of_map_ok h
    exact textual_utf8 _
  · cases h

theorem parsePutIf_wellFormed (h : parsePutIf (C := C) args = .ok c) : c.WellFormed C := by
  unfold parsePutIf at h
  split at h
  · split at h
    · cases h
    · rename_i o ho
      split at h
      · cases h
        have hsound : o.Sound C := by
          refine parseOptions_keeps ?_ ho sound_default
          simp only [List.forall_mem_cons, List.not_mem_nil, false_implies, implies_true, and_true]
          exact ⟨keeps_number fun _ _ ho => { ho with }, keeps_meta⟩
        exact ⟨textual_utf8 _, textual_utf8 _, hsound.metadata⟩
      · cases h
  · cases h

theorem parseDelPrefix_wellFormed (h : parseDelPrefix (C := C) args = .ok c) : c.WellFormed C := by
  unfold parseDelPrefix at h
  split at h
  · split_ifs at h with hne
    split at h
    · cases h
      exact ⟨textual_utf8 _, hne⟩
    · cases h
  · cases h

theorem parseDelIf_wellFormed (h : parseDelIf (C := C) args = .ok c) : c.WellFormed C := by
  unfold parseDelIf at h
  split at h
  · split_ifs at h
    split at h
    · cases h
    · split at h
      · cases h
        exact textual_utf8 _
      · cases h
  · cases h

theorem parseList_wellFormed (h : parseList (C := C) args = .ok c) : c.WellFormed C := by
  unfold parseList at h
  split at h
  · obtain ⟨o, ho, rfl⟩ := exists_of_map_ok h
    refine Options.Sound.keyPrefix (C := C) (parseOptions_keeps ?_ ho sound_default)
    simp only [List.forall_mem_cons, List.not_mem_nil, false_implies, implies_true, and_true]
    exact ⟨keeps_prefixOption, keeps_text fun _ _ ho => { ho with },
      keeps_number fun _ _ ho => { ho with }⟩
  · cases h

theorem parseVersions_wellFormed (h : parseVersions (C := C) args = .ok c) : c.WellFormed C := by
  unfold parseVersions at h
  split at h
  · obtain ⟨o, ho, rfl⟩ := exists_of_map_ok h
    exact textual_utf8 _
  · cases h

theorem parseNamespace_wellFormed (h : parseNamespace (C := C) args = .ok c) : c.WellFormed C := by
  unfold parseNamespace at h
  split at h
  · cases h
  · split at h
    · unfold parseNamespaceCreate at h
      split at h
      · obtain ⟨o, ho, rfl⟩ := exists_of_map_ok h
        refine Options.Sound.schema (parseOptions_keeps ?_ ho sound_default)
        simp only [List.forall_mem_cons, List.not_mem_nil, false_implies, implies_true, and_true]
        exact ⟨keeps_schema, keeps_number fun _ _ ho => { ho with },
          keeps_number fun _ _ ho => { ho with }⟩
      · cases h
    · unfold parseNamespaceDrop at h
      split at h <;> cases h
      trivial
    · cases h
      trivial
    · unfold parseNamespaceInfo at h
      split at h <;> cases h
      trivial
    · unfold parseNamespaceAlter at h
      split at h <;> cases h
      refine Options.Sound.schema (scanOptions_keeps ?_ sound_default)
      simp only [alterSpecs, List.forall_mem_cons, List.not_mem_nil, false_implies, implies_true,
        and_true]
      refine ⟨fun s o ho => { ho with schema := ?_ }, fun _ _ ho => { ho with },
        fun _ _ ho => { ho with }⟩
      intro json hjson
      obtain ⟨text, _, htext⟩ := Option.bind_eq_some_iff.mp hjson
      cases hparse : C.jsonFromStr text with
      | error e => simp [hparse, Except.toOption] at htext
      | ok json' =>
        simp only [hparse, Except.toOption, Option.some.injEq] at htext
        exact ⟨text, hparse.trans (congrArg _ htext)⟩
    · unfold parseNamespaceValidate at h
      split at h <;> cases h
      trivial
    · cases h

theorem parseRekey_wellFormed (h : parseRekey (C := C) args = .ok c) : c.WellFormed C := by
  unfold parseRekey at h
  split at h
  · cases h
  · split_ifs at h with hstatus hlen hhex <;> cases h
    · trivial
    · exact ⟨by simpa using hstatus, by simpa using hlen, hhex⟩

theorem toAsciiUppercase_idem (s : String) :
    toAsciiUppercase (toAsciiUppercase s) = toAsciiUppercase s := by
  simp only [toAsciiUppercase, String.toList_ofList, List.map_map, Function.comp_def,
    toUpper_toUpper]

/-- What `parse_subscribe` has found is fit to be sent again. -/
def SubscribeFound (found : Option Bytes × List String) : Prop :=
  (∀ b ∈ found.1, Textual b) ∧ ∀ e ∈ found.2, toAsciiUppercase e = e ∧ e ≠ "KEY"

theorem scanSubscribe_found {collecting : Bool} {found : Option Bytes × List String}
    (h : SubscribeFound found) : SubscribeFound (scanSubscribe collecting args found) := by
  fun_induction scanSubscribe collecting args found with
  | case1 => exact h
  | case2 => exact h
  | case3 collecting arg key events hkey v rest ih => exact ih ⟨by simpa using textual_utf8 v, h.2⟩
  | case4 arg rest key events hkey ih =>
    refine ih ⟨h.1, fun e he => ?_⟩
    rcases List.mem_append.mp he with he | he
    · exact h.2 e he
    · obtain rfl := List.mem_singleton.mp he
      exact ⟨toAsciiUppercase_idem arg, hkey⟩
  | case5 collecting arg rest key events hkey hcollecting ih => exact ih h

theorem parseStrings_wellFormed {word : String} (h : parseStrings (C := C) word args = .ok c) :
    c.WellFormed C := by
  unfold parseStrings at h
  split at h
  · unfold parseAuth at h
    split at h <;> cases h
    trivial
  · cases h
    trivial
  · exact parsePut_wellFormed h
  · exact parseGet_wellFormed h
  · unfold parseDelete at h
    split at h <;> cases h
    exact textual_utf8 _
  · exact parsePutIf_wellFormed h
  · exact parseDelIf_wellFormed h
  · exact parseDelPrefix_wellFormed h
  · exact parseList_wellFormed h
  · exact parseVersions_wellFormed h
  · exact parseNamespace_wellFormed h
  · unfold parseSubscribe at h
    split at h <;> cases h
    exact scanSubscribe_found ⟨by simp, by simp⟩
  · cases h
    trivial
  · cases h
    trivial
  · unfold parseConfig at h
    split at h
    · cases h
    · split at h
      · split at h <;> cases h
        trivial
      · split at h <;> cases h
        trivial
      · cases h
  · unfold parseCommandSub at h
    split at h
    · cases h
      trivial
    · split_ifs at h
      cases h
      trivial
  · exact parseRekey_wellFormed h
  · cases h

end

theorem mem_parseCommands {fs : List Resp3Frame} {r : Except (CommandError C) Command}
    (h : r ∈ parseCommands fs) : ∃ f ∈ fs, parseCommand f = r := by
  induction fs with
  | nil => simp [parseCommands] at h
  | cons f fs ih =>
    rw [parseCommands] at h
    rcases List.mem_cons.mp h with rfl | h
    · exact ⟨f, by simp, rfl⟩
    · obtain ⟨f', hf', hr⟩ := ih h
      exact ⟨f', by simp [hf'], hr⟩

theorem collectCommands_ok {i : Nat} {parsed : List (Except (CommandError C) Command)}
    {cs : List Command} (h : collectCommands i parsed = .ok cs) : parsed = cs.map .ok := by
  induction parsed generalizing i cs with
  | nil =>
    cases h
    rfl
  | cons r parsed ih =>
    cases r with
    | error e => cases h
    | ok c =>
      obtain ⟨cs', hcs', rfl⟩ := exists_of_map_ok h
      rw [ih hcs', List.map_cons]

theorem parseCommand_parsable {f : Resp3Frame} {c : Command}
    (h : parseCommand (C := C) f = .ok c) : c.Parsable C := by
  induction f generalizing c with
  | array fs ih =>
    cases fs with
    | nil => cases h
    | cons first rest =>
      rw [parseCommand] at h
      split at h
      · cases h
      · split_ifs at h with hpipeline
        · unfold parsePipelineFrame at h
          split at h
          · cases h
          · split at h
            · cases h
            · cases h
            · rename_i start _ _ cs hne hcollect
              cases h
              refine .pipeline hne fun c hc => ?_
              have hmem : (Except.ok c : Except (CommandError C) Command) ∈
                  (parseCommands rest).drop start := by
                rw [collectCommands_ok hcollect]
                exact List.mem_map_of_mem hc
              obtain ⟨f, hf, hparse⟩ := mem_parseCommands (List.mem_of_mem_drop hmem)
              exact ih f (List.mem_cons_of_mem _ hf) hparse
        · split at h
          · cases h
          · exact .leaf (parseStrings_wellFormed h)
  | _ => cases h

end Shroudb
