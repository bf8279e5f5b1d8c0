import Mathlib.Data.List.Induction
import Mathlib.Data.List.Sigma
import Shroudb.Protocol.Parsable

/-! The options of the commands as a grammar, and the parsers that accept exactly it. -/
namespace Shroudb
open Wire

variable {C : Crates}

/-! ## Keywords and settings -/

theorem eqIgnoreAsciiCase_iff {s t : String} :
    eqIgnoreAsciiCase s t = true ↔ toAsciiUppercase s = toAsciiUppercase t := by
  simp only [eqIgnoreAsciiCase, toAsciiLowercase, toAsciiUppercase, beq_iff_eq,
    String.ofList_inj, map_toLower_eq_iff]

/-- What follows a keyword. -/
inductive ArgKind where
  | flag
  | number
  | json
  | text
deriving DecidableEq, Repr

def ArgKind.Value : ArgKind → Type
  | .flag => Unit
  | .number => UInt64
  | .json => Json
  | .text => String

/-- The documented options. META is a flag of GET, and takes JSON elsewhere. -/
inductive Keyword where
  | value
  | metadata
  | ttl
  | version
  | withMeta
  | expect
  | keyPrefix
  | cursor
  | limit
  | fromVersion
  | schema
  | maxVersions
  | retention
deriving DecidableEq, Repr

namespace Keyword

def word : Keyword → String
  | .value => "VALUE"
  | .metadata => "META"
  | .ttl => "TTL"
  | .version => "VERSION"
  | .withMeta => "META"
  | .expect => "EXPECT"
  | .keyPrefix => "PREFIX"
  | .cursor => "CURSOR"
  | .limit => "LIMIT"
  | .fromVersion => "FROM"
  | .schema => "SCHEMA"
  | .maxVersions => "MAX_VERSIONS"
  | .retention => "TOMBSTONE_RETENTION"

def kind : Keyword → ArgKind
  | .withMeta => .flag
  | .ttl | .version | .expect | .limit | .fromVersion | .maxVersions | .retention => .number
  | .metadata | .schema => .json
  | .value | .keyPrefix | .cursor => .text

end Keyword

/-- A keyword with the value it is given. -/
abbrev Setting := (k : Keyword) × k.kind.Value

/-- What stands after a keyword: nothing, or one argument of its type. -/
def ArgKind.Reads (C : Crates) : (kind : ArgKind) → kind.Value → List String → Prop
  | .flag, (), args => args = []
  | .number, n, args => ∃ v, args = [v] ∧ parseUInt64 v = .ok n
  | .json, x, args => ∃ v, args = [v] ∧ C.jsonFromStr v = .ok x
  | .text, s, args => args = [s]

/-- How a setting is written: its keyword in any case, and a value of its type. -/
def Setting.Spelled (C : Crates) (s : Setting) (args : List String) : Prop :=
  ∃ w rest, args = w :: rest ∧ eqIgnoreAsciiCase w s.1.word ∧ s.1.kind.Reads C s.2 rest

/-- A sequence of settings, written one after the other, in any order and with repetition. -/
inductive Spells (C : Crates) (keywords : List Keyword) : List String → List Setting → Prop
  | nil : Spells C keywords [] []
  | cons {s : Setting} {words args : List String} {given : List Setting} :
    s.1 ∈ keywords → s.Spelled C words → Spells C keywords args given →
      Spells C keywords (words ++ args) (s :: given)

/-- The value of the last setting of a keyword. -/
def lastOf (k : Keyword) (given : List Setting) : Option k.kind.Value := given.reverse.dlookup k

/-! ## What the option loops accept -/

namespace Keyword

/-- The row of the option loops for a keyword. -/
def spec : Keyword → OptionSpec C Options
  | .value => valueOption
  | .metadata => metaOption
  | .ttl => ttlOption
  | .version => versionOption
  | .withMeta => .flag "META" fun o => { o with withMeta := true }
  | .expect => expectOption
  | .keyPrefix => prefixOption
  | .cursor => cursorOption
  | .limit => limitOption
  | .fromVersion => fromOption
  | .schema => schemaOption
  | .maxVersions => maxVersionsOption
  | .retention => retentionOption

theorem spec_word (k : Keyword) : (k.spec (C := C)).word = k.word := by
  cases k <;> rfl

theorem toAsciiUppercase_word (k : Keyword) : toAsciiUppercase k.word = k.word := by
  cases k <;> decide

theorem matches_iff {w : String} (k : Keyword) :
    eqIgnoreAsciiCase w k.word = true ↔ toAsciiUppercase w = k.word := by
  rw [eqIgnoreAsciiCase_iff, toAsciiUppercase_word]

end Keyword

/-- The options with one more setting. -/
def Options.give (o : Options) : Setting → Options
  | ⟨.value, s⟩ => { o with value := utf8 s }
  | ⟨.metadata, json⟩ => { o with metadata := some json }
  | ⟨.ttl, n⟩ => { o with ttlMs := some n }
  | ⟨.version, n⟩ => { o with version := some n }
  | ⟨.withMeta, ()⟩ => { o with withMeta := true }
  | ⟨.expect, n⟩ => { o with expectedVersion := some n }
  | ⟨.keyPrefix, s⟩ => { o with keyPrefix := some (utf8 s) }
  | ⟨.cursor, s⟩ => { o with cursor := some s }
  | ⟨.limit, n⟩ => { o with limit := some n }
  | ⟨.fromVersion, n⟩ => { o with fromVersion := some n }
  | ⟨.schema, json⟩ => { o with schema := some json }
  | ⟨.maxVersions, n⟩ => { o with maxVersions := some n }
  | ⟨.retention, n⟩ => { o with tombstoneRetentionSecs := some n }

/-- A row takes the arguments `rest` after its keyword. -/
def OptionSpec.Takes {α : Type} (rest : List String) (o o' : α) : OptionSpec C α → Prop
  | .flag _ set => rest = [] ∧ set o = o'
  | .value _ _ set => ∃ v, rest = [v] ∧ set v o = .ok o'

theorem parseNumber_ok_iff {bad v : String} {n : UInt64} :
    parseNumber (C := C) bad v = .ok n ↔ parseUInt64 v = .ok n := by
  cases h : parseUInt64 v <;> simp [parseNumber, h]

theorem parseJson_ok_iff {bad v : String} {json : Json} :
    parseJson (C := C) bad v = .ok json ↔ C.jsonFromStr v = .ok json := by
  cases h : C.jsonFromStr v <;> simp [parseJson, h]

section
variable {rest : List String} {o o' : Options} {word missing bad : String}

theorem takes_number {set : UInt64 → Options → Options} :
    (numberOption word missing bad set : OptionSpec C Options).Takes rest o o' ↔
      ∃ n, (∃ v, rest = [v] ∧ parseUInt64 v = .ok n) ∧ set n o = o' := by
  constructor
  · rintro ⟨v, rfl, hset⟩
    obtain ⟨n, hn, rfl⟩ := exists_of_map_ok hset
    exact ⟨n, ⟨v, rfl, parseNumber_ok_iff.mp hn⟩, rfl⟩
  · rintro ⟨n, ⟨v, rfl, hn⟩, rfl⟩
    exact ⟨v, rfl, congrArg (Except.map (set · o)) (parseNumber_ok_iff.mpr hn)⟩

theorem takes_json {set : Json → Options → Options} :
    (jsonOption word missing bad set : OptionSpec C Options).Takes rest o o' ↔
      ∃ json, (∃ v, rest = [v] ∧ C.jsonFromStr v = .ok json) ∧ set json o = o' := by
  constructor
  · rintro ⟨v, rfl, hset⟩
    obtain ⟨json, hjson, rfl⟩ := exists_of_map_ok hset
    exact ⟨json, ⟨v, rfl, parseJson_ok_iff.mp hjson⟩, rfl⟩
  · rintro ⟨json, ⟨v, rfl, hjson⟩, rfl⟩
    exact ⟨v, rfl, congrArg (Except.map (set · o)) (parseJson_ok_iff.mpr hjson)⟩

theorem takes_text {set : String → Options → Options} :
    (textOption word missing set : OptionSpec C Options).Takes rest o o' ↔
      ∃ s, rest = [s] ∧ set s o = o' := by
  constructor
  · rintro ⟨v, rfl, hset⟩
    exact ⟨v, rfl, Except.ok.inj hset⟩
  · rintro ⟨s, rfl, rfl⟩
    exact ⟨s, rfl, rfl⟩

/-- The row of a keyword takes exactly its values. -/
theorem Keyword.takes_iff (k : Keyword) :
    (k.spec (C := C)).Takes rest o o' ↔ ∃ x, k.kind.Reads C x rest ∧ o.give ⟨k, x⟩ = o' := by
  cases k with
  | withMeta =>
    constructor
    · rintro ⟨rfl, rfl⟩
      exact ⟨(), rfl, rfl⟩
    · rintro ⟨x, rfl, rfl⟩
      exact ⟨rfl, rfl⟩
  | ttl | version | expect | limit | fromVersion | maxVersions | retention => exact takes_number
  | metadata | schema => exact takes_json
  | value | keyPrefix | cursor => exact takes_text

end

section
variable {α : Type} {specs : List (OptionSpec C α)} {w : String} {args rest : List String}
  {o o' o'' : α}

theorem parseOptions_of_takes {spec : OptionSpec C α}
    (hfind : specs.find? (fun spec => spec.word == toAsciiUppercase w) = some spec)
    (h : spec.Takes rest o o') :
    parseOptions specs (w :: (rest ++ args)) o = parseOptions specs args o' := by
  cases spec with
  | flag word set =>
    obtain ⟨rfl, rfl⟩ := h
    simp only [List.nil_append, parseOptions, hfind]
  | value word missing set =>
    obtain ⟨v, rfl, hset⟩ := h
    simp only [List.cons_append, List.nil_append, parseOptions, hfind, hset]

theorem takes_of_parseOptions (h : parseOptions specs (w :: args) o = .ok o'') :
    ∃ spec rest more o', specs.find? (fun spec => spec.word == toAsciiUppercase w) = some spec ∧
      args = rest ++ more ∧ spec.Takes rest o o' ∧ parseOptions specs more o' = .ok o'' := by
  rw [parseOptions] at h
  split at h
  · cases h
  · rename_i word set hfind
    exact ⟨_, [], args, set o, hfind, rfl, ⟨rfl, rfl⟩, h⟩
  · rename_i word missing set hfind
    split at h
    · cases h
    · rename_i v more
      split at h
      · rename_i o' hset
        exact ⟨_, [v], more, o', hfind, rfl, ⟨v, rfl, hset⟩, h⟩
      · cases h

end

theorem exists_of_find? {keywords : List Keyword} {word : String} {spec : OptionSpec C Options}
    (h : (keywords.map (Keyword.spec (C := C))).find? (fun spec => spec.word == word) = some spec) :
    ∃ k ∈ keywords, word = k.word ∧ spec = k.spec := by
  obtain ⟨k, hk, rfl⟩ := List.mem_map.mp (List.mem_of_find?_eq_some h)
  have hword := List.find?_some h
  rw [k.spec_word, beq_iff_eq] at hword
  exact ⟨k, hk, hword.symm, rfl⟩

/-- Keywords with different words are told apart. -/
theorem find?_spec {keywords : List Keyword} (hnodup : (keywords.map Keyword.word).Nodup)
    {k : Keyword} (hk : k ∈ keywords) {word : String} (hword : word = k.word) :
    (keywords.map (Keyword.spec (C := C))).find? (fun spec => spec.word == word) =
      some k.spec := by
  subst hword
  induction keywords with
  | nil => cases hk
  | cons k' keywords ih =>
    rw [List.map_cons, List.nodup_cons] at hnodup
    rw [List.map_cons, List.find?_cons, k'.spec_word]
    rcases List.mem_cons.mp hk with rfl | hk
    · simp
    · have hne : (k'.word == k.word) = false := by
        rw [beq_eq_false_iff_ne]
        intro heq
        exact hnodup.1 (heq ▸ List.mem_map_of_mem hk)
      rw [hne]
      exact ih hnodup.2 hk

/-- The option loop of some keywords accepts what spells settings of these, and applies them in
order. -/
theorem parseOptions_ok_iff {keywords : List Keyword} (hnodup : (keywords.map Keyword.word).Nodup)
    {args : List String} {o o' : Options} :
    parseOptions (keywords.map (Keyword.spec (C := C))) args o = .ok o' ↔
      ∃ given, Spells C keywords args given ∧ given.foldl Options.give o = o' := by
  constructor
  · intro h
    induction hn : args.length using Nat.strongRecOn generalizing args o with
    | ind n ih =>
      cases args with
      | nil =>
        cases h
        exact ⟨[], .nil, rfl⟩
      | cons w args =>
        obtain ⟨spec, rest, more, o₁, hfind, rfl, htakes, hmore⟩ := takes_of_parseOptions h
        obtain ⟨k, hk, hword, rfl⟩ := exists_of_find? hfind
        obtain ⟨x, hreads, rfl⟩ := k.takes_iff.mp htakes
        have hlt : more.length < n := by
          rw [← hn, List.length_cons, List.length_append]
          omega
        obtain ⟨given, hgiven, rfl⟩ := ih more.length hlt hmore rfl
        have hspelled : Setting.Spelled C ⟨k, x⟩ (w :: rest) :=
          ⟨w, rest, rfl, k.matches_iff.mpr hword, hreads⟩
        exact ⟨⟨k, x⟩ :: given, .cons hk hspelled hgiven, rfl⟩
  · rintro ⟨given, hspells, rfl⟩
    induction hspells generalizing o with
    | nil => rfl
    | @cons s words args given hmem hspelled hspells ih =>
      obtain ⟨w, rest, rfl, hw, hreads⟩ := hspelled
      rw [List.cons_append, parseOptions_of_takes
        (find?_spec hnodup hmem (s.1.matches_iff.mp hw)) (s.1.takes_iff.mpr ⟨s.2, hreads, rfl⟩)]
      exact ih

/-! ## The last value counts -/

theorem lastOf_concat (k : Keyword) (given : List Setting) (s : Setting) :
    lastOf k (given ++ [s]) = if h : s.1 = k then some (h ▸ s.2) else lastOf k given := by
  rw [lastOf, List.reverse_append, List.reverse_singleton, List.singleton_append]
  rfl

/-- Every field holds the value of the last setting of its keyword. -/
theorem foldl_give (given : List Setting) :
    given.foldl Options.give {} =
      { value := ((lastOf .value given).map utf8).getD []
        metadata := lastOf .metadata given
        ttlMs := lastOf .ttl given
        version := lastOf .version given
        withMeta := (lastOf .withMeta given).isSome
        expectedVersion := lastOf .expect given
        keyPrefix := (lastOf .keyPrefix given).map utf8
        cursor := lastOf .cursor given
        limit := lastOf .limit given
        fromVersion := lastOf .fromVersion given
        schema := lastOf .schema given
        maxVersions := lastOf .maxVersions given
        tombstoneRetentionSecs := lastOf .retention given } := by
  induction given using List.reverseRecOn with
  | nil => rfl
  | append_singleton given s ih =>
    obtain ⟨k, x⟩ := s
    rw [List.foldl_concat, ih]
    simp only [lastOf_concat]
    cases k <;> rfl

theorem lastOf_perm {given given' : List Setting} (hnodup : given.NodupKeys)
    (hperm : given.Perm given') (k : Keyword) : lastOf k given = lastOf k given' := by
  have hreverse : given.reverse.Perm given'.reverse :=
    (List.reverse_perm given).trans (hperm.trans (List.reverse_perm given').symm)
  have hnodup' : given.reverse.NodupKeys :=
    (List.perm_nodupKeys (List.reverse_perm given)).mpr hnodup
  exact List.perm_dlookup k hnodup' hreverse

theorem lastOf_cons (k : Keyword) (s : Setting) (given : List Setting) :
    lastOf k (s :: given) = (lastOf k given).or (List.dlookup k [s]) := by
  rw [lastOf, List.reverse_cons, List.dlookup_append]
  rfl

theorem Spells.keyword_mem {keywords : List Keyword} {args : List String} {given : List Setting}
    (h : Spells C keywords args given) : ∀ s ∈ given, s.1 ∈ keywords := by
  induction h with
  | nil => simp
  | cons hmem _ _ ih => exact List.forall_mem_cons.mpr ⟨hmem, ih⟩

theorem Spells.mono {keywords keywords' : List Keyword} (hsub : keywords ⊆ keywords')
    {args : List String} {given : List Setting} (h : Spells C keywords args given) :
    Spells C keywords' args given := by
  induction h with
  | nil => exact .nil
  | cons hmem hspelled _ ih => exact .cons (hsub hmem) hspelled ih

theorem Spells.lastOf_eq_none {keywords : List Keyword} {args : List String}
    {given : List Setting} (h : Spells C keywords args given) {k : Keyword} (hk : k ∉ keywords) :
    lastOf k given = none := by
  rw [lastOf, List.dlookup_eq_none, List.ne_key]
  intro s hs
  rintro rfl
  exact hk (h.keyword_mem s (List.mem_reverse.mp hs))

theorem Spells.eq_nil {keywords : List Keyword} {given : List Setting}
    (h : Spells C keywords [] given) : given = [] := by
  generalize hargs : ([] : List String) = args at h
  cases h with
  | nil => rfl
  | cons _ hspelled _ =>
    obtain ⟨w, rest, rfl, -⟩ := hspelled
    cases hargs

end Shroudb
