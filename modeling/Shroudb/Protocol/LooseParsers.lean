import Shroudb.Protocol.StrictParsers

/-! Where NAMESPACE ALTER and PUT leave the documented options. -/
namespace Shroudb
open Wire

variable {C : Crates}

/-! ## NAMESPACE ALTER -/

def parseCreate (C : Crates) (name : String) (options : List String) :
    Except (CommandError C) Command :=
  parseNamespace ("CREATE" :: name :: options)

def parseAlter (C : Crates) (name : String) (options : List String) :
    Except (CommandError C) Command :=
  parseNamespace ("ALTER" :: name :: options)

/-- ALTER takes what CREATE takes, means the same by it, and refuses the rest. -/
structure AltersAsCreated (C : Crates) (name : String) (options : List String) : Prop where
  accepted : (∃ c, parseAlter C name options = .ok c) ↔ ∃ c, parseCreate C name options = .ok c
  fields : ∀ schema maxVersions retention,
    parseCreate C name options = .ok (.namespaceCreate name schema maxVersions retention) →
      parseAlter C name options = .ok (.namespaceAlter name schema maxVersions retention)
  refused : ∀ e, parseCreate C name options = .error e →
    ∃ message arg, parseAlter C name options = .error (.badArg message arg)

theorem scanOptions_found {α : Type} {specs : List (String × (Option String → α → α))}
    {w word v : String} {args : List String} {o : α} {set : Option String → α → α}
    (hw : toAsciiUppercase w = word) (hfind : specs.lookup word = some set) :
    scanOptions specs (w :: v :: args) o = scanOptions specs args (set (some v) o) := by
  simp only [scanOptions, hw, hfind]

/-- On well-formed options the loop of ALTER does what the loop of CREATE does. -/
theorem scanOptions_of_spells {options : List String} {given : List Setting}
    (h : Spells C StrictVerb.namespaceCreate.keywords options given) (o : Options) :
    scanOptions (alterSpecs C) options o = given.foldl Options.give o := by
  induction h generalizing o with
  | nil => rfl
  | @cons s words args given hmem hspelled _ ih =>
    obtain ⟨k, x⟩ := s
    obtain ⟨w, rest, rfl, hw, hreads⟩ := hspelled
    have hupper := k.matches_iff.mp hw
    rw [List.foldl_cons, ← ih]
    -- All three keywords take a value, and both loops read it with the same parser.
    obtain rfl | rfl | rfl : k = .schema ∨ k = .maxVersions ∨ k = .retention := by
      simpa [StrictVerb.keywords] using hmem
    all_goals
      obtain ⟨v, rfl, hv⟩ := hreads
      rw [List.cons_append, List.singleton_append, scanOptions_found hupper rfl,
        Option.bind_some, hv]
      rfl

theorem parseAlter_eq (name : String) (options : List String) :
    parseAlter C name options =
      .ok (.namespaceAlter name (scanOptions (alterSpecs C) options {}).schema
        (scanOptions (alterSpecs C) options {}).maxVersions
        (scanOptions (alterSpecs C) options {}).tombstoneRetentionSecs) := rfl

/-- CREATE and ALTER share a grammar exactly on the well-formed option lists: ALTER accepts all the
others too, which CREATE refuses. -/
theorem alters_as_created_iff (C : Crates) (name : String) (options : List String) :
    AltersAsCreated C name options ↔
      ∃ given, Spells C [.schema, .maxVersions, .retention] options given := by
  constructor
  · intro h
    obtain ⟨c, hc⟩ := h.accepted.mp ⟨_, parseAlter_eq name options⟩
    obtain ⟨given, hgiven, -⟩ := (StrictVerb.namespaceCreate_iff name).mp hc
    exact ⟨given, hgiven⟩
  · rintro ⟨given, hgiven⟩
    have hcreate : parseCreate C name options =
        .ok (.namespaceCreate name (lastOf .schema given) (lastOf .maxVersions given)
          (lastOf .retention given)) :=
      (StrictVerb.namespaceCreate_iff name).mpr ⟨given, hgiven, .namespaceCreate name given⟩
    have halter : parseAlter C name options =
        .ok (.namespaceAlter name (lastOf .schema given) (lastOf .maxVersions given)
          (lastOf .retention given)) := by
      rw [parseAlter_eq, scanOptions_of_spells hgiven, foldl_give]
    refine ⟨iff_of_true ⟨_, halter⟩ ⟨_, hcreate⟩, fun schema maxVersions retention h => ?_,
      fun e h => ?_⟩
    · rw [hcreate] at h
      cases h
      exact halter
    · rw [hcreate] at h
      cases h

namespace Memory

/-- A limit that is no number is left out of the alteration, where CREATE refuses it. -/
theorem alter_drops_bad_limit :
    parseCreate crates "a" ["MAX_VERSIONS", "ten"] =
        .error (.badArg "MAX_VERSIONS must be a positive integer" "") ∧
      parseAlter crates "a" ["MAX_VERSIONS", "ten"] = .ok (.namespaceAlter "a" none none none) ∧
      ¬ AltersAsCreated crates "a" ["MAX_VERSIONS", "ten"] := by
  have hcreate : parseCreate crates "a" ["MAX_VERSIONS", "ten"] =
      .error (.badArg "MAX_VERSIONS must be a positive integer" "") := rfl
  refine ⟨hcreate, rfl, fun h => ?_⟩
  obtain ⟨c, hc⟩ := h.accepted.mp ⟨_, rfl⟩
  rw [hcreate] at hc
  cases hc

end Memory

/-! ## PUT -/

/-- The value may stand without a keyword before the options, and then means the same. -/
structure PutsInPlace (C : Crates) (ns key value : String) (options : List String)
    (given : List Setting) : Prop where
  inPlace : parseCommand (C := C) (commandFrame ("PUT" :: ns :: key :: value :: options)) =
    .ok (.put ns (utf8 key) (utf8 value) (lastOf .metadata given) (lastOf .ttl given))
  named : parseCommand (C := C) (commandFrame ("PUT" :: ns :: key :: "VALUE" :: value :: options)) =
    .ok (.put ns (utf8 key) (utf8 value) (lastOf .metadata given) (lastOf .ttl given))

section
variable {ns key value : String} {options : List String} {given : List Setting}

theorem parseCommand_put (args : List String) :
    parseCommand (C := C) (commandFrame ("PUT" :: args)) = parsePut args :=
  parseCommand_commandFrame parsePut (by decide) rfl

/-- With four arguments or more PUT takes all but two for options. -/
theorem parsePut_options (w v : String) (args : List String) :
    parsePut (C := C) (ns :: key :: w :: v :: args) =
      (parseOptions ([Keyword.value, .metadata, .ttl].map Keyword.spec) (w :: v :: args) {}).map
        fun o => .put ns (utf8 key) o.value o.metadata o.ttlMs := rfl

/-- Under its keyword the value goes with any options. -/
theorem put_named (h : Spells C [.metadata, .ttl] options given) :
    parseCommand (C := C) (commandFrame ("PUT" :: ns :: key :: "VALUE" :: value :: options)) =
      .ok (.put ns (utf8 key) (utf8 value) (lastOf .metadata given) (lastOf .ttl given)) := by
  have hword : eqIgnoreAsciiCase "VALUE" Keyword.value.word = true := by decide
  have hvalue : Setting.Spelled C ⟨.value, value⟩ ["VALUE", value] := ⟨_, _, rfl, hword, rfl⟩
  have hspells : Spells C [.value, .metadata, .ttl] ("VALUE" :: value :: options)
      (⟨.value, value⟩ :: given) :=
    .cons List.mem_cons_self hvalue (h.mono (List.subset_cons_self _ _))
  have hlast : lastOf .value (⟨.value, value⟩ :: given) = some value := by
    rw [lastOf_cons, h.lastOf_eq_none (by decide)]
    rfl
  have hother : ∀ k, k ≠ .value → lastOf k (⟨.value, value⟩ :: given) = lastOf k given := by
    intro k hk
    rw [lastOf_cons, List.dlookup_cons_ne _ _ hk, List.dlookup_nil, Option.or_none]
  rw [parseCommand_put, parsePut_options,
    (parseOptions_ok_iff (by decide)).mpr ⟨_, hspells, rfl⟩, foldl_give, hlast,
    hother .metadata (by decide), hother .ttl (by decide)]
  rfl

/-- In its place the value is taken for an option that there is not. -/
theorem put_inPlace_refused {option : String}
    (hvalue : ∀ k ∈ [Keyword.value, .metadata, .ttl], eqIgnoreAsciiCase value k.word = false) :
    parseCommand (C := C) (commandFrame ("PUT" :: ns :: key :: value :: option :: options)) =
      .error (.badArg "unexpected argument: " value) := by
  have hfind : ([Keyword.value, .metadata, .ttl].map (Keyword.spec (C := C))).find?
      (fun spec => spec.word == toAsciiUppercase value) = none := by
    rw [List.find?_eq_none]
    intro spec hspec hword
    obtain ⟨k, hk, rfl⟩ := List.mem_map.mp hspec
    rw [k.spec_word, beq_iff_eq] at hword
    exact Bool.false_ne_true ((hvalue k hk).symm.trans (k.matches_iff.mpr hword.symm))
  rw [parseCommand_put, parsePut_options, parseOptions, hfind]
  rfl

end

/-- A value in its place goes with no options. -/
theorem puts_in_place_iff (C : Crates) (ns key value : String)
    (hvalue : ∀ k ∈ [Keyword.value, .metadata, .ttl], eqIgnoreAsciiCase value k.word = false)
    (options : List String) (given : List Setting)
    (hgiven : Spells C [.metadata, .ttl] options given) :
    PutsInPlace C ns key value options given ↔ options = [] := by
  constructor
  · intro h
    cases options with
    | nil => rfl
    | cons option options =>
      have hinPlace := h.inPlace
      rw [put_inPlace_refused hvalue] at hinPlace
      cases hinPlace
  · rintro rfl
    obtain rfl := hgiven.eq_nil
    exact ⟨parseCommand_put _, put_named hgiven⟩

namespace Memory

theorem no_keyword : ∀ k ∈ [Keyword.value, .metadata, .ttl],
    eqIgnoreAsciiCase "v" k.word = false := by decide

/-- A PUT of a value alone. -/
theorem value_alone_in_place :
    PutsInPlace crates "a" "k" "v" [] [] ∧
      parseCommand (C := crates) (commandFrame ["PUT", "a", "k", "v"]) =
        .ok (.put "a" [107] [118] none none) :=
  ⟨(puts_in_place_iff crates "a" "k" "v" no_keyword [] [] .nil).mpr rfl, rfl⟩

/-- A PUT of a value and a lifetime is refused, and accepted with the keyword. -/
theorem value_refused_before_option :
    Spells crates [.metadata, .ttl] ["TTL", "5"] [⟨.ttl, (5 : UInt64)⟩] ∧
      parseCommand (C := crates) (commandFrame ["PUT", "a", "k", "v", "TTL", "5"]) =
        .error (.badArg "unexpected argument: " "v") ∧
      parseCommand (C := crates) (commandFrame ["PUT", "a", "k", "VALUE", "v", "TTL", "5"]) =
        .ok (.put "a" [107] [118] none (some 5)) ∧
      ¬ PutsInPlace crates "a" "k" "v" ["TTL", "5"] [⟨.ttl, (5 : UInt64)⟩] := by
  have hspelled : Setting.Spelled crates ⟨.ttl, (5 : UInt64)⟩ ["TTL", "5"] :=
    ⟨_, _, rfl, by decide, "5", rfl, by decide⟩
  have hinPlace : parseCommand (C := crates) (commandFrame ["PUT", "a", "k", "v", "TTL", "5"]) =
      .error (.badArg "unexpected argument: " "v") := put_inPlace_refused no_keyword
  refine ⟨.cons (by decide) hspelled .nil, hinPlace, rfl, fun h => ?_⟩
  have hok := h.inPlace
  rw [hinPlace] at hok
  cases hok

end Memory

end Shroudb
