import Shroudb.MemoryStore
import Shroudb.Protocol.OptionGrammar

/-! The parsers that accept exactly the documented options. -/
namespace Shroudb
open Wire

variable {C : Crates}

/-! ## The commands -/

/-- The commands whose options are parsed strictly. -/
inductive StrictVerb where
  | get
  | putIf
  | delIf
  | delPrefix
  | list
  | versions
  | namespaceCreate
deriving DecidableEq, Repr

namespace StrictVerb

def parse : StrictVerb → List String → Except (CommandError C) Command
  | .get => parseGet
  | .putIf => parsePutIf
  | .delIf => parseDelIf
  | .delPrefix => parseDelPrefix
  | .list => parseList
  | .versions => parseVersions
  | .namespaceCreate => fun args => parseNamespace ("CREATE" :: args)

def keywords : StrictVerb → List Keyword
  | .get => [.version, .withMeta]
  | .putIf => [.expect, .metadata]
  | .delIf => [.expect]
  | .delPrefix => []
  | .list => [.keyPrefix, .cursor, .limit]
  | .versions => [.limit, .fromVersion]
  | .namespaceCreate => [.schema, .maxVersions, .retention]

/-- The command that operands and settings mean, if they mean one. -/
inductive Means : StrictVerb → List String → List Setting → Command → Prop
  | get (ns key : String) (given : List Setting) :
    Means .get [ns, key] given
      (.get ns (utf8 key) (lastOf .version given) (lastOf .withMeta given).isSome)
  | putIf (ns key value : String) (given : List Setting) (expected : UInt64) :
    lastOf .expect given = some expected →
      Means .putIf [ns, key, value] given
        (.putIf ns (utf8 key) (utf8 value) (lastOf .metadata given) expected)
  | delIf (ns key : String) (expected : UInt64) :
    Means .delIf [ns, key] [⟨.expect, expected⟩] (.delIf ns (utf8 key) expected)
  | delPrefix (ns keyPrefix : String) : keyPrefix ≠ "" →
    Means .delPrefix [ns, keyPrefix] [] (.delPrefix ns (utf8 keyPrefix))
  | list (ns : String) (given : List Setting) :
    Means .list [ns] given
      (.list ns ((lastOf .keyPrefix given).map utf8) (lastOf .cursor given) (lastOf .limit given))
  | versions (ns key : String) (given : List Setting) :
    Means .versions [ns, key] given
      (.versions ns (utf8 key) (lastOf .limit given) (lastOf .fromVersion given))
  | namespaceCreate (name : String) (given : List Setting) :
    Means .namespaceCreate [name] given
      (.namespaceCreate name (lastOf .schema given) (lastOf .maxVersions given)
        (lastOf .retention given))

/-- An argument list of the grammar: operands, and then options. -/
def Denotes (C : Crates) (verb : StrictVerb) (args : List String) (c : Command) : Prop :=
  ∃ operands options given, args = operands ++ options ∧ Spells C verb.keywords options given ∧
    verb.Means operands given c

/-! ## Each parser accepts its grammar -/

section
variable {args operands options : List String} {c : Command}

theorem nodup_words (verb : StrictVerb) : (verb.keywords.map Keyword.word).Nodup := by
  cases verb <;> decide

theorem Means.unique {verb : StrictVerb} {given : List Setting} {c' : Command}
    (h : verb.Means operands given c) (h' : verb.Means operands given c') : c = c' := by
  cases h with
  | putIf ns key value _ expected hexpected =>
    cases h' with
    | putIf _ _ _ _ expected' hexpected' =>
      rw [Option.some.inj (hexpected.symm.trans hexpected')]
  | _ =>
    cases h'
    rfl

/-- After its operands, a parser is the option loop of its keywords. -/
theorem denoted_iff {verb : StrictVerb} {f : Options → Command}
    (hparse : verb.parse (C := C) (operands ++ options) =
      (parseOptions (verb.keywords.map Keyword.spec) options {}).map f)
    (hmeans : ∀ given, verb.Means operands given (f (given.foldl Options.give {}))) :
    verb.parse (C := C) (operands ++ options) = .ok c ↔
      ∃ given, Spells C verb.keywords options given ∧ verb.Means operands given c := by
  rw [hparse]
  constructor
  · intro h
    obtain ⟨o, ho, rfl⟩ := exists_of_map_ok h
    obtain ⟨given, hgiven, rfl⟩ := (parseOptions_ok_iff verb.nodup_words).mp ho
    exact ⟨given, hgiven, hmeans given⟩
  · rintro ⟨given, hgiven, hc⟩
    obtain rfl := (hmeans given).unique hc
    rw [(parseOptions_ok_iff verb.nodup_words).mpr ⟨given, hgiven, rfl⟩]
    rfl

theorem get_iff (ns key : String) :
    parse (C := C) .get ([ns, key] ++ options) = .ok c ↔
      ∃ given, Spells C (keywords .get) options given ∧ Means .get [ns, key] given c := by
  refine denoted_iff rfl fun given => ?_
  rw [foldl_give]
  exact .get ns key given

theorem list_iff (ns : String) :
    parse (C := C) .list ([ns] ++ options) = .ok c ↔
      ∃ given, Spells C (keywords .list) options given ∧ Means .list [ns] given c := by
  refine denoted_iff rfl fun given => ?_
  rw [foldl_give]
  exact .list ns given

theorem versions_iff (ns key : String) :
    parse (C := C) .versions ([ns, key] ++ options) = .ok c ↔
      ∃ given, Spells C (keywords .versions) options given ∧ Means .versions [ns, key] given c := by
  refine denoted_iff rfl fun given => ?_
  rw [foldl_give]
  exact .versions ns key given

theorem namespaceCreate_iff (name : String) :
    parse (C := C) .namespaceCreate ([name] ++ options) = .ok c ↔
      ∃ given, Spells C (keywords .namespaceCreate) options given ∧
        Means .namespaceCreate [name] given c := by
  refine denoted_iff rfl fun given => ?_
  rw [foldl_give]
  exact .namespaceCreate name given

/-- The length check of PUTIF refuses nothing that the loop and the check for EXPECT accept. -/
theorem parsePutIf_ok_iff {ns key value : String} :
    parsePutIf (C := C) (ns :: key :: value :: options) = .ok c ↔
      ∃ o, parseOptions ((keywords .putIf).map (Keyword.spec (C := C))) options {} = .ok o ∧
        ∃ expected, o.expectedVersion = some expected ∧
          .putIf ns (utf8 key) (utf8 value) o.metadata expected = c := by
  match options with
  | [] => simp [parsePutIf, requireArgs, parseOptions]
  | [w] =>
    refine iff_of_false (by simp [parsePutIf, requireArgs]) ?_
    rintro ⟨o, ho, -⟩
    obtain ⟨spec, rest, more, o', hfind, hnil, htakes, -⟩ := takes_of_parseOptions ho
    obtain ⟨rfl, -⟩ : rest = [] ∧ more = [] := by simpa using hnil.symm
    obtain ⟨k, hk, -, rfl⟩ := exists_of_find? hfind
    obtain rfl | rfl : k = .expect ∨ k = .metadata := by simpa [keywords] using hk
    all_goals
      obtain ⟨v, hv, -⟩ := htakes
      cases hv
  | w :: v :: rest =>
    rw [parsePutIf]
    constructor
    · intro h
      split at h
      · cases h
      · rename_i o ho
        split at h
        · rename_i expected hexpected
          exact ⟨o, ho, expected, hexpected, Except.ok.inj h⟩
        · cases h
    · rintro ⟨o, ho, expected, hexpected, rfl⟩
      have hloop : parseOptions [expectOption, metaOption (C := C)] (w :: v :: rest) {} = .ok o :=
        ho
      simp only [hloop, hexpected]

theorem putIf_iff (ns key value : String) :
    parse (C := C) .putIf ([ns, key, value] ++ options) = .ok c ↔
      ∃ given, Spells C (keywords .putIf) options given ∧
        Means .putIf [ns, key, value] given c := by
  refine parsePutIf_ok_iff.trans ?_
  constructor
  · rintro ⟨o, ho, expected, hexpected, rfl⟩
    obtain ⟨given, hgiven, rfl⟩ := (parseOptions_ok_iff (nodup_words .putIf)).mp ho
    rw [foldl_give] at hexpected ⊢
    exact ⟨given, hgiven, .putIf ns key value given expected hexpected⟩
  · rintro ⟨given, hgiven, hmeans⟩
    cases hmeans with
    | putIf _ _ _ _ expected hexpected =>
      refine ⟨_, (parseOptions_ok_iff (nodup_words .putIf)).mpr ⟨given, hgiven, rfl⟩, expected, ?_⟩
      rw [foldl_give]
      exact ⟨hexpected, rfl⟩

theorem parseDelIf_ok_iff {ns key : String} :
    parseDelIf (C := C) (ns :: key :: options) = .ok c ↔
      ∃ w v expected, options = [w, v] ∧ eqIgnoreAsciiCase w "EXPECT" ∧
        parseUInt64 v = .ok expected ∧ .delIf ns (utf8 key) expected = c := by
  constructor
  · intro h
    unfold parseDelIf at h
    split at h
    · rename_i w v rest heq
      simp only [List.cons.injEq] at heq
      obtain ⟨rfl, rfl, rfl⟩ := heq
      split_ifs at h with hword
      split at h
      · cases h
      · rename_i expected hnumber
        split at h
        · cases h
          exact ⟨w, v, expected, rfl, hword, parseNumber_ok_iff.mp hnumber, rfl⟩
        · cases h
    · cases h
  · rintro ⟨w, v, expected, rfl, hword, hnumber, rfl⟩
    simp [parseDelIf, hword, parseNumber_ok_iff.mpr hnumber]

theorem delIf_iff (ns key : String) :
    parse (C := C) .delIf ([ns, key] ++ options) = .ok c ↔
      ∃ given, Spells C (keywords .delIf) options given ∧ Means .delIf [ns, key] given c := by
  refine parseDelIf_ok_iff.trans ?_
  constructor
  · rintro ⟨w, v, expected, rfl, hword, hnumber, rfl⟩
    have hspelled : Setting.Spelled C ⟨.expect, expected⟩ [w, v] :=
      ⟨w, [v], rfl, hword, v, rfl, hnumber⟩
    exact ⟨_, .cons List.mem_cons_self hspelled .nil, .delIf ns key expected⟩
  · rintro ⟨given, hgiven, hmeans⟩
    cases hmeans with
    | delIf _ _ expected =>
      cases hgiven with
      | cons _ hspelled hnil =>
        cases hnil
        obtain ⟨w, rest, rfl, hword, v, rfl, hnumber⟩ := hspelled
        exact ⟨w, v, expected, rfl, hword, hnumber, rfl⟩

theorem delPrefix_iff (ns keyPrefix : String) :
    parse (C := C) .delPrefix ([ns, keyPrefix] ++ options) = .ok c ↔
      ∃ given, Spells C (keywords .delPrefix) options given ∧
        Means .delPrefix [ns, keyPrefix] given c := by
  constructor
  · intro h
    change parseDelPrefix (ns :: keyPrefix :: options) = .ok c at h
    simp only [parseDelPrefix] at h
    split_ifs at h with hempty
    split at h
    · cases h
      refine ⟨[], .nil, .delPrefix ns keyPrefix ?_⟩
      rintro rfl
      exact hempty rfl
    · cases h
  · rintro ⟨given, hgiven, hmeans⟩
    cases hmeans with
    | delPrefix _ _ hne =>
      cases hgiven
      have hbytes : utf8 keyPrefix ≠ [] := fun h => hne (utf8_injective (h.trans rfl))
      exact if_neg hbytes

end

/-- The grammar of a command whose operands are given. -/
theorem parse_operands_iff {verb : StrictVerb} {operands options : List String} {c : Command}
    {given : List Setting} (hmeans : verb.Means operands given c) {c' : Command} :
    verb.parse (C := C) (operands ++ options) = .ok c' ↔
      ∃ given, Spells C verb.keywords options given ∧ verb.Means operands given c' := by
  cases hmeans with
  | get ns key => exact get_iff ns key
  | putIf ns key value => exact putIf_iff ns key value
  | delIf ns key => exact delIf_iff ns key
  | delPrefix ns keyPrefix => exact delPrefix_iff ns keyPrefix
  | list ns => exact list_iff ns
  | versions ns key => exact versions_iff ns key
  | namespaceCreate name => exact namespaceCreate_iff name

/-- What is accepted starts with as many operands as the command has. -/
theorem exists_operands {verb : StrictVerb} {args : List String} {c : Command}
    (h : verb.parse (C := C) args = .ok c) :
    ∃ operands options, args = operands ++ options ∧
      ∃ given, Spells C verb.keywords options given ∧ verb.Means operands given c := by
  cases verb with
  | get =>
    match args with
    | [] | [_] => cases h
    | ns :: key :: options => exact ⟨[ns, key], options, rfl, (get_iff ns key).mp h⟩
  | putIf =>
    match args with
    | [] | [_] | [_, _] => cases h
    | ns :: key :: value :: options =>
      exact ⟨[ns, key, value], options, rfl, (putIf_iff ns key value).mp h⟩
  | delIf =>
    match args with
    | [] | [_] => cases h
    | ns :: key :: options => exact ⟨[ns, key], options, rfl, (delIf_iff ns key).mp h⟩
  | delPrefix =>
    match args with
    | [] | [_] => cases h
    | ns :: keyPrefix :: options =>
      exact ⟨[ns, keyPrefix], options, rfl, (delPrefix_iff ns keyPrefix).mp h⟩
  | list =>
    match args with
    | [] => cases h
    | ns :: options => exact ⟨[ns], options, rfl, (list_iff ns).mp h⟩
  | versions =>
    match args with
    | [] | [_] => cases h
    | ns :: key :: options => exact ⟨[ns, key], options, rfl, (versions_iff ns key).mp h⟩
  | namespaceCreate =>
    match args with
    | [] => cases h
    | name :: options => exact ⟨[name], options, rfl, (namespaceCreate_iff name).mp h⟩

theorem Means.perm {verb : StrictVerb} {operands : List String} {given given' : List Setting}
    {c : Command} (h : verb.Means operands given c) (hnodup : given.NodupKeys)
    (hperm : given.Perm given') : verb.Means operands given' c := by
  have hlast := lastOf_perm hnodup hperm
  cases h with
  | get ns key =>
    rw [hlast, hlast]
    exact .get ns key given'
  | putIf ns key value _ expected hexpected =>
    rw [hlast] at hexpected ⊢
    exact .putIf ns key value given' expected hexpected
  | delIf ns key expected =>
    rw [← List.singleton_perm.mp hperm]
    exact .delIf ns key expected
  | delPrefix ns keyPrefix hne =>
    rw [List.nil_perm.mp hperm]
    exact .delPrefix ns keyPrefix hne
  | list ns =>
    rw [hlast, hlast, hlast]
    exact .list ns given'
  | versions ns key =>
    rw [hlast, hlast]
    exact .versions ns key given'
  | namespaceCreate name =>
    rw [hlast, hlast, hlast]
    exact .namespaceCreate name given'

end StrictVerb

/-- A strict parser accepts exactly the argument lists of the grammar, with the value of the last
occurrence of each option. Options without repetition may be given in any order. -/
theorem strict_parse_iff (C : Crates) (verb : StrictVerb) :
    (∀ args c, verb.parse (C := C) args = .ok c ↔ verb.Denotes C args c) ∧
    ∀ operands options options' given given' c, Spells C verb.keywords options given →
      Spells C verb.keywords options' given' → given.NodupKeys → given.Perm given' →
        verb.Means operands given c →
          verb.parse (C := C) (operands ++ options) = .ok c ∧
            verb.parse (C := C) (operands ++ options') = .ok c := by
  refine ⟨fun args c => ⟨fun h => ?_, ?_⟩, ?_⟩
  · obtain ⟨operands, options, rfl, given, hgiven, hmeans⟩ := StrictVerb.exists_operands h
    exact ⟨operands, options, given, rfl, hgiven, hmeans⟩
  · rintro ⟨operands, options, given, rfl, hgiven, hmeans⟩
    exact (StrictVerb.parse_operands_iff hmeans).mpr ⟨given, hgiven, hmeans⟩
  · intro operands options options' given given' c hgiven hgiven' hnodup hperm hmeans
    have hmeans' := hmeans.perm hnodup hperm
    exact ⟨(StrictVerb.parse_operands_iff hmeans).mpr ⟨given, hgiven, hmeans⟩,
      (StrictVerb.parse_operands_iff hmeans').mpr ⟨given', hgiven', hmeans'⟩⟩

namespace Memory

/-- Of two versions the second counts, whatever the case of the keywords. -/
theorem last_version_counts :
    let args := ["a", "k", "version", "7", "Meta", "VERSION", "8"]
    StrictVerb.get.Denotes crates args (.get "a" [107] (some 8) true) ∧
      StrictVerb.get.parse (C := crates) args = .ok (.get "a" [107] (some 8) true) := by
  intro args
  have hfirst : Setting.Spelled crates ⟨.version, (7 : UInt64)⟩ ["version", "7"] :=
    ⟨_, _, rfl, by decide, "7", rfl, by decide⟩
  have hmeta : Setting.Spelled crates ⟨.withMeta, ()⟩ ["Meta"] := ⟨_, _, rfl, by decide, rfl⟩
  have hsecond : Setting.Spelled crates ⟨.version, (8 : UInt64)⟩ ["VERSION", "8"] :=
    ⟨_, _, rfl, by decide, "8", rfl, by decide⟩
  have hspells : Spells crates StrictVerb.get.keywords
      ["version", "7", "Meta", "VERSION", "8"] _ :=
    .cons (by decide) hfirst <| .cons (by decide) hmeta <| .cons (by decide) hsecond .nil
  have hdenotes : StrictVerb.get.Denotes crates args (.get "a" [107] (some 8) true) :=
    ⟨["a", "k"], _, _, rfl, hspells, .get "a" "k" _⟩
  exact ⟨hdenotes, ((strict_parse_iff crates .get).1 args _).mpr hdenotes⟩

end Memory

end Shroudb
