import Shroudb.Wire.LittleEndian
import Shroudb.Server.Rekey

/-! The file `run_export` writes and the parsing of it in `run_import`. -/
namespace Shroudb
open Wire

/-- `ns` is the `namespace` of the source. -/
structure ExportHeader where
  ns : String
  version : UInt32
  createdAt : UInt64
  keyCount : UInt64
deriving DecidableEq, Repr

/-- State 0 is active, 1 is deleted. -/
structure ExportVersion (C : Crates) where
  state : UInt8
  value : Bytes
  metadata : C.Metadata
  updatedAt : UInt64
  actor : String

structure ExportEntry (C : Crates) where
  key : Bytes
  versions : List (ExportVersion C)

/-- What the bundle takes from `serde_json`, `postcard`, `shroudb_crypto` and `shroudb_store`. -/
structure BundleCodec (C : Crates) where
  headerToJson : ExportHeader → Except String Bytes
  headerFromJson : Bytes → Except String ExportHeader
  configToJson : NamespaceConfig C → Except String Bytes
  configFromJson : Bytes → Except String (NamespaceConfig C)
  configDefault : NamespaceConfig C
  entriesToBytes : List (ExportEntry C) → Except String Bytes
  entriesFromBytes : Bytes → Except String (List (ExportEntry C))
  /-- Key, ciphertext and associated data. -/
  aesGcmDecrypt : Bytes → Bytes → Bytes → Except String Bytes

def exportMagic : Bytes := [83, 68, 66, 1]

def writeBundle (headerJson encrypted configJson : Bytes) : Bytes :=
  exportMagic ++ leBytes 4 headerJson.length ++ headerJson ++ encrypted ++
    leBytes 4 configJson.length ++ configJson

/-- `bundle[i..j]`, which panics out of range. -/
def slice (bundle : Bytes) (i j : Nat) : Except RekeyExit Bytes :=
  if i ≤ j ∧ j ≤ bundle.length then .ok ((bundle.drop i).take (j - i))
  else .error (.panicked "slice index out of range")

section
variable {C : Crates} (P : BundleCodec C)

/-- The header and its JSON text. -/
def parseHeader (bundle : Bytes) : Except RekeyExit (ExportHeader × Bytes) :=
  if bundle.length < 8 then .error (.failed "invalid export file: bad magic bytes")
  else do
    let magic ← slice bundle 0 4
    if magic ≠ exportMagic then .error (.failed "invalid export file: bad magic bytes")
    else
      let headerLen := ofLe (← slice bundle 4 8)
      if bundle.length < 8 + headerLen then .error (.failed "invalid export file: truncated header")
      else
        let headerJson ← slice bundle 8 (8 + headerLen)
        match P.headerFromJson headerJson with
        | .error _ => .error (.failed "invalid export file: bad header JSON")
        | .ok header => .ok (header, headerJson)

/-- The scan for the configuration, from the end backwards. There are `n` offsets left to try, the
last of them `start + n - 1`. -/
def findConfig (bundle : Bytes) (start : Nat) :
    (n : Nat) → Except RekeyExit (Option (NamespaceConfig C × Nat))
  | 0 => .ok none
  | n + 1 => do
    let tryOffset := start + n
    let candidateLen := ofLe (← slice bundle tryOffset (tryOffset + 4))
    if tryOffset + 4 + candidateLen = bundle.length ∧ candidateLen < 1000000 then
      let configBytes ← slice bundle (tryOffset + 4) bundle.length
      match P.configFromJson configBytes with
      | .ok config => .ok (some (config, tryOffset))
      | .error _ => findConfig bundle start n
    else findConfig bundle start n

/-- The configuration and the encrypted payload. -/
def parseSections (bundle : Bytes) (encryptedStart : Nat) :
    Except RekeyExit (NamespaceConfig C × Bytes) :=
  if bundle.length < encryptedStart + 4 then .error (.failed "invalid export file: truncated")
  else do
    let found ← findConfig P bundle encryptedStart (bundle.length - 4 - encryptedStart)
    let (config, configEnd) := found.getD (P.configDefault, bundle.length)
    let encrypted ← slice bundle encryptedStart configEnd
    .ok (config, encrypted)

/-- `serde_json` parses back what it prints, and prints no zero byte. -/
structure BundleCodec.PrintsJson : Prop where
  header : ∀ {header json}, P.headerToJson header = .ok json → P.headerFromJson json = .ok header
  config : ∀ {config json}, P.configToJson config = .ok json → P.configFromJson json = .ok config
  configBytes : ∀ {config json}, P.configToJson config = .ok json → (0 : UInt8) ∉ json

variable {P} {bundle : Bytes}

theorem slice_eq {i j : Nat} (hij : i ≤ j) (hj : j ≤ bundle.length) :
    slice bundle i j = .ok ((bundle.drop i).take (j - i)) :=
  if_pos ⟨hij, hj⟩

theorem slice_append {pre mid post : Bytes} {i j : Nat} (hi : i = pre.length)
    (hj : j = pre.length + mid.length) : slice (pre ++ mid ++ post) i j = .ok mid := by
  subst hi hj
  rw [slice_eq (Nat.le_add_right _ _) (by simp)]
  simp

theorem slice_front {mid post : Bytes} {j : Nat} (hj : j = mid.length) :
    slice (mid ++ post) 0 j = .ok mid := by
  subst hj
  rw [slice_eq (Nat.zero_le _) (by simp)]
  simp

/-- At offset `t` stands the length of the rest of the bundle, which is below the limit and parses
as a configuration. -/
def ConfigAt (P : BundleCodec C) (bundle : Bytes) (t : Nat) (config : NamespaceConfig C) : Prop :=
  ∃ pre json, bundle = pre ++ leBytes 4 json.length ++ json ∧ pre.length = t ∧
    json.length < 1000000 ∧ P.configFromJson json = .ok config

/-- What the scan reads at an offset. -/
theorem configAt_iff {t : Nat} {config : NamespaceConfig C} (ht : t + 4 ≤ bundle.length) :
    ConfigAt P bundle t config ↔
      t + 4 + ofLe ((bundle.drop t).take 4) = bundle.length ∧
        ofLe ((bundle.drop t).take 4) < 1000000 ∧
        P.configFromJson (bundle.drop (t + 4)) = .ok config := by
  constructor
  · rintro ⟨pre, json, rfl, rfl, hlt, hparse⟩
    have hwindow : ((pre ++ leBytes 4 json.length ++ json).drop pre.length).take 4 =
        leBytes 4 json.length := by
      rw [List.append_assoc, List.drop_left, List.take_left' (length_leBytes _ _)]
    have hrest : (pre ++ leBytes 4 json.length ++ json).drop (pre.length + 4) = json :=
      List.drop_left' (by simp)
    rw [hwindow, hrest, ofLe_leBytes_of_lt (by omega)]
    exact ⟨by simp [Nat.add_assoc], hlt, hparse⟩
  · rintro ⟨hend, hlt, hparse⟩
    have hwidth : ((bundle.drop t).take 4).length = 4 := by
      rw [List.length_take, List.length_drop]
      omega
    have hlen : (bundle.drop (t + 4)).length = ofLe ((bundle.drop t).take 4) := by
      rw [List.length_drop]
      omega
    have hle := leBytes_ofLe ((bundle.drop t).take 4)
    rw [hwidth] at hle
    refine ⟨bundle.take t, bundle.drop (t + 4), ?_, ?_, by omega, hparse⟩
    · rw [hlen, hle, List.append_assoc, ← List.drop_drop, List.take_append_drop,
        List.take_append_drop]
    · rw [List.length_take]
      omega

/-- The configuration that starts last among the offsets from `start` up to `stop`. -/
def Latest (P : BundleCodec C) (bundle : Bytes) (start stop : Nat) :
    Option (NamespaceConfig C × Nat) → Prop
  | some (config, t) => start ≤ t ∧ t < stop ∧ ConfigAt P bundle t config ∧
      ∀ t' config', t < t' → t' < stop → ¬ ConfigAt P bundle t' config'
  | none => ∀ t config, start ≤ t → t < stop → ¬ ConfigAt P bundle t config

theorem Latest.extend {start n : Nat} {found : Option (NamespaceConfig C × Nat)}
    (h : Latest P bundle start (start + n) found)
    (hnone : ∀ config, ¬ ConfigAt P bundle (start + n) config) :
    Latest P bundle start (start + (n + 1)) found := by
  have hlast : ∀ {t : Nat}, t < start + (n + 1) → t < start + n ∨ t = start + n := by
    intro t ht
    omega
  cases found with
  | none =>
    intro t config hstart ht
    rcases hlast ht with ht | rfl
    · exact h t config hstart ht
    · exact hnone config
  | some found =>
    obtain ⟨config, t⟩ := found
    obtain ⟨hstart, ht, hat, hlater⟩ := h
    refine ⟨hstart, by omega, hat, fun t' config' htt' ht' => ?_⟩
    rcases hlast ht' with ht' | rfl
    · exact hlater t' config' htt' ht'
    · exact hnone config'

/-- Every slice of the scan is in range, and it returns the last match. -/
theorem findConfig_latest {start n : Nat} (h : start + n + 4 ≤ bundle.length) :
    ∃ found, findConfig P bundle start n = .ok found ∧
      Latest P bundle start (start + n) found := by
  induction n with
  | zero => exact ⟨none, rfl, fun t config hstart ht => by omega⟩
  | succ n ih =>
    have hwindow : slice bundle (start + n) (start + n + 4) =
        .ok ((bundle.drop (start + n)).take 4) := by
      rw [slice_eq (by omega) (by omega), Nat.add_sub_cancel_left]
    have hjson : slice bundle (start + n + 4) bundle.length =
        .ok (bundle.drop (start + n + 4)) := by
      rw [slice_eq (by omega) (Nat.le_refl _), List.take_of_length_le]
      rw [List.length_drop]
    obtain ⟨found, hfound, hlatest⟩ := ih (by omega)
    have hat : ∀ config, ConfigAt P bundle (start + n) config ↔ _ :=
      fun config => configAt_iff (by omega)
    rw [findConfig, hwindow]
    simp only [bind, Except.bind, hjson]
    split_ifs with hlen
    · cases hparse : P.configFromJson (bundle.drop (start + n + 4)) with
      | ok config =>
        refine ⟨_, rfl, by omega, by omega, (hat config).mpr ⟨hlen.1, hlen.2, hparse⟩, ?_⟩
        intro t' config' htt' ht'
        omega
      | error e =>
        refine ⟨found, hfound, hlatest.extend fun config hconfig => ?_⟩
        rw [((hat config).mp hconfig).2.2] at hparse
        cases hparse
    · refine ⟨found, hfound, hlatest.extend fun config hconfig => hlen ?_⟩
      exact ⟨((hat config).mp hconfig).1, ((hat config).mp hconfig).2.1⟩

theorem Latest.unique {start stop : Nat} {found found' : Option (NamespaceConfig C × Nat)}
    (h : Latest P bundle start stop found) (h' : Latest P bundle start stop found')
    (hstop : stop + 4 ≤ bundle.length) : found = found' := by
  cases found with
  | none =>
    cases found' with
    | none => rfl
    | some found' =>
      obtain ⟨hstart, ht, hat, -⟩ := h'
      exact absurd hat (h _ _ hstart ht)
  | some found =>
    obtain ⟨config, t⟩ := found
    obtain ⟨hstart, ht, hat, hlater⟩ := h
    cases found' with
    | none => exact absurd hat (h' _ _ hstart ht)
    | some found' =>
      obtain ⟨config', t'⟩ := found'
      obtain ⟨hstart', ht', hat', hlater'⟩ := h'
      have htt' : t = t' := by
        rcases Nat.lt_trichotomy t t' with hlt | heq | hgt
        · exact absurd hat' (hlater t' config' hlt ht')
        · exact heq
        · exact absurd hat (hlater' t config hgt ht)
      subst htt'
      have hparse := ((configAt_iff (by omega)).mp hat).2.2
      rw [((configAt_iff (by omega)).mp hat').2.2] at hparse
      cases hparse
      rfl

/-- Where the ciphertext ends, and under which configuration. -/
def boundary (P : BundleCodec C) (bundle : Bytes) (found : Option (NamespaceConfig C × Nat)) :
    NamespaceConfig C × Nat :=
  found.getD (P.configDefault, bundle.length)

/-- From the header on, every slice is in range. -/
theorem exists_parseSections {start : Nat} (h : start + 4 ≤ bundle.length) :
    ∃ found, Latest P bundle start (bundle.length - 4) found ∧
      parseSections P bundle start =
        .ok ((boundary P bundle found).1,
          (bundle.drop start).take ((boundary P bundle found).2 - start)) := by
  have hstop : start + (bundle.length - 4 - start) = bundle.length - 4 := by omega
  have hroom : start + (bundle.length - 4 - start) + 4 ≤ bundle.length := by omega
  obtain ⟨found, hscan, hlatest⟩ := findConfig_latest (P := P) hroom
  rw [hstop] at hlatest
  have hslice : slice bundle start (boundary P bundle found).2 =
      .ok ((bundle.drop start).take ((boundary P bundle found).2 - start)) := by
    cases found with
    | none => exact slice_eq (show start ≤ bundle.length by omega) (Nat.le_refl _)
    | some found =>
      obtain ⟨hstart, ht, -⟩ := hlatest
      exact slice_eq hstart (show found.2 ≤ bundle.length by omega)
  refine ⟨found, hlatest, ?_⟩
  rw [parseSections, if_neg (by omega), hscan]
  rw [boundary] at hslice
  simp only [bind, Except.bind, hslice]
  rfl

theorem parseSections_of_latest {start : Nat} {found : Option (NamespaceConfig C × Nat)}
    (h : start + 4 ≤ bundle.length) (hfound : Latest P bundle start (bundle.length - 4) found) :
    parseSections P bundle start =
      .ok ((boundary P bundle found).1,
        (bundle.drop start).take ((boundary P bundle found).2 - start)) := by
  obtain ⟨found', hlatest, hparse⟩ := exists_parseSections (P := P) h
  cases hlatest.unique hfound (by omega)
  exact hparse

/-- Every slice of the header is in range. -/
theorem parseHeader_not_panicked (bundle : Bytes) (message : String) :
    parseHeader P bundle ≠ .error (.panicked message) := by
  rw [parseHeader]
  split_ifs with hshort
  · simp
  · rw [slice_eq (by omega) (by omega), slice_eq (by omega) (by omega)]
    simp only [bind, Except.bind]
    split_ifs with hmagic hheader
    · simp
    · simp
    · rw [slice_eq (by omega) (by omega)]
      simp only
      split <;> simp

theorem parseSections_not_panicked (bundle : Bytes) (start : Nat) (message : String) :
    parseSections P bundle start ≠ .error (.panicked message) := by
  by_cases h : start + 4 ≤ bundle.length
  · obtain ⟨found, -, hparse⟩ := exists_parseSections (P := P) h
    rw [hparse]
    simp
  · rw [parseSections, if_pos (by omega)]
    simp

/-! ## Parsing what was written -/

section
variable {headerJson encrypted configJson : Bytes}

/-- Everything in front of the configuration section. -/
def protectedPart (headerJson encrypted : Bytes) : Bytes :=
  exportMagic ++ leBytes 4 headerJson.length ++ headerJson ++ encrypted

theorem writeBundle_eq : writeBundle headerJson encrypted configJson =
    protectedPart headerJson encrypted ++ leBytes 4 configJson.length ++ configJson := rfl

theorem length_protectedPart (headerJson encrypted : Bytes) :
    (protectedPart headerJson encrypted).length = 8 + headerJson.length + encrypted.length := by
  have hmagic : exportMagic.length = 4 := rfl
  simp only [protectedPart, List.length_append, length_leBytes, hmagic]

/-- The header is found again as long as its length fits the field. -/
theorem parseHeader_protectedPart {header : ExportHeader} (rest : Bytes)
    (hparse : P.headerFromJson headerJson = .ok header) (hlen : headerJson.length < 2 ^ 32) :
    parseHeader P (protectedPart headerJson encrypted ++ rest) = .ok (header, headerJson) := by
  have hbundle : protectedPart headerJson encrypted ++ rest =
      exportMagic ++ leBytes 4 headerJson.length ++ headerJson ++ (encrypted ++ rest) := by
    simp [protectedPart]
  have hmagic : slice (protectedPart headerJson encrypted ++ rest) 0 4 = .ok exportMagic := by
    rw [hbundle, List.append_assoc, List.append_assoc]
    exact slice_front rfl
  have hfield : slice (protectedPart headerJson encrypted ++ rest) 4 8 =
      .ok (leBytes 4 headerJson.length) := by
    rw [hbundle, List.append_assoc]
    exact slice_append rfl (by simp [exportMagic])
  have hjson : slice (protectedPart headerJson encrypted ++ rest) 8 (8 + headerJson.length) =
      .ok headerJson := by
    rw [hbundle]
    exact slice_append (by simp [exportMagic]) (by simp [exportMagic])
  have hlength := length_protectedPart headerJson encrypted
  have hvalue : ofLe (leBytes 4 headerJson.length) = headerJson.length :=
    ofLe_leBytes_of_lt hlen
  rw [parseHeader, if_neg (by rw [List.length_append]; omega), hmagic, hfield]
  simp only [bind, Except.bind, ne_eq, not_true_eq_false, if_false, hvalue]
  rw [if_neg (by rw [List.length_append]; omega), hjson]
  simp only [hparse]

/-- A text without zero bytes hides no later section: a length that overlaps it is too large. -/
theorem latest_section {pre json : Bytes} {config : NamespaceConfig C} {start : Nat}
    (hstart : start ≤ pre.length) (hzero : (0 : UInt8) ∉ json) (hne : json ≠ [])
    (hlt : json.length < 1000000) (hparse : P.configFromJson json = .ok config) :
    Latest P (pre ++ leBytes 4 json.length ++ json) start
      ((pre ++ leBytes 4 json.length ++ json).length - 4) (some (config, pre.length)) := by
  have hpos := List.length_pos_iff.mpr hne
  have hlen : (pre ++ leBytes 4 json.length ++ json).length = pre.length + 4 + json.length := by
    simp only [List.length_append, length_leBytes]
  refine ⟨hstart, by omega, ⟨pre, json, rfl, rfl, hlt, hparse⟩, fun t config' ht ht' hat => ?_⟩
  -- the most significant byte of the length read at `t` belongs to the text
  have hsmall := ((configAt_iff (by omega)).mp hat).2.1
  have hindex : t - pre.length - 1 < json.length := by omega
  have hbyte : ((pre ++ leBytes 4 json.length ++ json).drop t)[3]? =
      some (json[t - pre.length - 1]) := by
    rw [List.getElem?_drop, List.getElem?_append_right (by simp; omega), List.length_append,
      length_leBytes, show t + 3 - (pre.length + 4) = t - pre.length - 1 by omega]
    exact List.getElem?_eq_getElem hindex
  have htop : json[t - pre.length - 1] ≠ 0 := fun he => hzero (he ▸ List.getElem_mem hindex)
  have hwidth : (((pre ++ leBytes 4 json.length ++ json).drop t).take 3).length = 3 := by
    rw [List.length_take, List.length_drop]
    omega
  rw [List.take_add_one, hbyte, Option.toList_some] at hsmall
  generalize ((pre ++ leBytes 4 json.length ++ json).drop t).take 3 = low at hsmall hwidth
  have hlarge : 256 ^ low.length ≤ ofLe (low ++ [json[t - pre.length - 1]]) := le_ofLe_concat htop
  rw [hwidth] at hlarge
  omega

theorem parseSections_section {config : NamespaceConfig C} (hzero : (0 : UInt8) ∉ configJson)
    (hne : configJson ≠ []) (hlt : configJson.length < 1000000)
    (hparse : P.configFromJson configJson = .ok config) :
    parseSections P (writeBundle headerJson encrypted configJson) (8 + headerJson.length) =
      .ok (config, encrypted) := by
  have hlength := length_protectedPart headerJson encrypted
  have hstart : 8 + headerJson.length ≤ (protectedPart headerJson encrypted).length := by omega
  rw [writeBundle_eq,
    parseSections_of_latest ?_ (latest_section hstart hzero hne hlt hparse)]
  · have hencrypted : ((protectedPart headerJson encrypted ++ leBytes 4 configJson.length ++
        configJson).drop (8 + headerJson.length)).take encrypted.length = encrypted := by
      rw [protectedPart, List.append_assoc, List.append_assoc _ encrypted,
        List.drop_left' (by simp [exportMagic]; omega), List.take_left]
    simp only [boundary, Option.getD_some, hlength, Nat.add_sub_cancel_left, hencrypted]
  · simp only [List.length_append, length_leBytes]
    omega

/-- A header that was parsed is one whose length fits the field. -/
theorem parseHeader_eq_ok {header : ExportHeader}
    (h : parseHeader P bundle = .ok (header, headerJson)) :
    ∃ rest, bundle = exportMagic ++ leBytes 4 headerJson.length ++ headerJson ++ rest ∧
      headerJson.length < 2 ^ 32 ∧ P.headerFromJson headerJson = .ok header := by
  rw [parseHeader] at h
  split_ifs at h with hshort
  rw [slice_eq (by omega) (by omega), slice_eq (by omega) (by omega)] at h
  simp only [bind, Except.bind] at h
  split_ifs at h with hmagic hheader
  have hwidth : ((bundle.drop 4).take (8 - 4)).length = 4 := by
    rw [List.length_take, List.length_drop]
    omega
  have hle := leBytes_ofLe ((bundle.drop 4).take (8 - 4))
  have hlt := ofLe_lt ((bundle.drop 4).take (8 - 4))
  rw [hwidth] at hle hlt
  generalize hlen : ofLe ((bundle.drop 4).take (8 - 4)) = headerLen at h hheader hle hlt
  rw [slice_eq (by omega) (by omega)] at h
  simp only at h
  cases hparse : P.headerFromJson ((bundle.drop 8).take (8 + headerLen - 8)) with
  | error e =>
    rw [hparse] at h
    cases h
  | ok header' =>
    rw [hparse] at h
    cases h
    have hjson : ((bundle.drop 8).take (8 + headerLen - 8)).length = headerLen := by
      rw [List.length_take, List.length_drop]
      omega
    refine ⟨(bundle.drop 8).drop (8 + headerLen - 8), ?_, by omega, hparse⟩
    rw [hjson, hle, List.append_assoc, List.take_append_drop, List.append_assoc]
    have hdrop : (bundle.drop 4).take (8 - 4) ++ bundle.drop 8 = bundle.drop 4 := by
      rw [← List.drop_drop (i := 4) (j := 4)]
      exact List.take_append_drop 4 _
    rw [hdrop]
    have hfirst : bundle.take 4 = exportMagic := by
      by_contra hne
      exact hmagic hne
    rw [← hfirst, List.take_append_drop]

/-- A bundle is parsed into the header, the payload and the configuration it was written from,
whatever bytes they hold, as long as the header's length fits its field; and no input makes the
parsing leave its range. -/
theorem parse_writeBundle (hjson : P.PrintsJson) :
    (∀ header config headerJson encrypted configJson,
      P.headerToJson header = .ok headerJson → P.configToJson config = .ok configJson →
      headerJson.length < 2 ^ 32 → configJson ≠ [] → configJson.length < 1000000 →
      parseHeader P (writeBundle headerJson encrypted configJson) = .ok (header, headerJson) ∧
        parseSections P (writeBundle headerJson encrypted configJson) (8 + headerJson.length) =
          .ok (config, encrypted)) ∧
    ∀ bundle message, parseHeader P bundle ≠ .error (.panicked message) ∧
      ∀ start, parseSections P bundle start ≠ .error (.panicked message) := by
  refine ⟨?_, fun bundle message => ⟨parseHeader_not_panicked bundle message, ?_⟩⟩
  · intro header config headerJson encrypted configJson hheader hconfig hlen hne hlt
    constructor
    · rw [writeBundle_eq, List.append_assoc]
      exact parseHeader_protectedPart _ (hjson.header hheader) hlen
    · exact parseSections_section (hjson.configBytes hconfig) hne hlt (hjson.config hconfig)
  · exact fun start => parseSections_not_panicked bundle start message

end

end

namespace Memory

def headerOpen : Bytes := utf8 "\x7b\"namespace\":\""

def headerClose : Bytes := utf8 "\",\"version\":1,\"created_at\":0,\"key_count\":1\x7d"

/-- Prints the headers of namespaces with one key, made at time 0. -/
def headerToJson (header : ExportHeader) : Except String Bytes :=
  if header.version = 1 ∧ header.createdAt = 0 ∧ header.keyCount = 1 then
    .ok (headerOpen ++ utf8 header.ns ++ headerClose)
  else .error "not printed"

def headerFromJson (json : Bytes) : Except String ExportHeader :=
  let name := (json.drop headerOpen.length).take
    (json.length - headerOpen.length - headerClose.length)
  if json = headerOpen ++ name ++ headerClose then
    match fromUtf8? name with
    | some ns => .ok ⟨ns, 1, 0, 1⟩
    | none => .error "invalid UTF-8"
  else .error "expected value"

/-- Prints the configurations with nothing set and with `max_versions` 1. -/
def configToJson : NamespaceConfig crates → Except String Bytes
  | ⟨none, none, none⟩ => .ok (utf8 "\x7b\x7d")
  | ⟨none, some n, none⟩ =>
    if n = 1 then .ok (utf8 "\x7b\"max_versions\":1\x7d") else .error "not printed"
  | _ => .error "not printed"

def configFromJson (json : Bytes) : Except String (NamespaceConfig crates) :=
  if json = utf8 "\x7b\x7d" then .ok ⟨none, none, none⟩
  else if json = utf8 "\x7b\"max_versions\":1\x7d" then .ok ⟨none, some 1, none⟩
  else .error "expected value"

/-- A record as it is exported, by its state. -/
def exportedAs (state : UInt8) : ExportVersion crates :=
  if state = 0 then ⟨0, [118], (), 0, "memory"⟩ else ⟨1, [], (), 0, "memory"⟩

def stateOf : ExportVersion crates → Option UInt8
  | ⟨0, [118], (), 0, "memory"⟩ => some 0
  | ⟨1, [], (), 0, "memory"⟩ => some 1
  | _ => none

/-- Prints the lists of one key whose records all look like this. -/
def entriesToBytes : List (ExportEntry crates) → Except String Bytes
  | [⟨[107], versions⟩] =>
    match versions.mapM stateOf with
    | some payload => .ok payload
    | none => .error "not printed"
  | _ => .error "not printed"

def entriesFromBytes (payload : Bytes) : Except String (List (ExportEntry crates)) :=
  .ok [⟨[107], payload.map exportedAs⟩]

def exportKey : Bytes := [7]

/-- The ciphertext of a payload under `exportKey`. -/
def encrypted (payload : Bytes) : Bytes := List.replicate 12 9 ++ payload ++ List.replicate 16 8

/-- Only one payload has ever been encrypted, with the associated data `aad`. -/
def codec (payload aad : Bytes) : BundleCodec crates where
  headerToJson := headerToJson
  headerFromJson := headerFromJson
  configToJson := configToJson
  configFromJson := configFromJson
  configDefault := ⟨none, none, none⟩
  entriesToBytes := entriesToBytes
  entriesFromBytes := entriesFromBytes
  aesGcmDecrypt key ciphertext aad' :=
    if key = exportKey ∧ ciphertext = encrypted payload ∧ aad' = aad then .ok payload
    else .error "decryption failed"

theorem headerFromJson_print {header : ExportHeader} {json : Bytes}
    (h : headerToJson header = .ok json) : headerFromJson json = .ok header := by
  obtain ⟨ns, version, createdAt, keyCount⟩ := header
  simp only [headerToJson] at h
  split_ifs at h with hfields
  obtain ⟨rfl, rfl, rfl⟩ := hfields
  cases h
  have hlen : (headerOpen ++ utf8 ns ++ headerClose).length - headerOpen.length -
      headerClose.length = (utf8 ns).length := by
    simp only [List.length_append]
    omega
  have hname : ((headerOpen ++ utf8 ns ++ headerClose).drop headerOpen.length).take
      (utf8 ns).length = utf8 ns := by
    rw [List.append_assoc, List.drop_left, List.take_left]
  simp only [headerFromJson, hlen, hname, if_true, fromUtf8?_utf8]

theorem codec_printsJson (payload aad : Bytes) : (codec payload aad).PrintsJson where
  header h := headerFromJson_print h
  config {config json} h := by
    change configToJson config = .ok json at h
    change configFromJson json = .ok config
    unfold configToJson at h
    split at h
    · cases h
      rfl
    · rename_i n
      split_ifs at h with hn
      subst hn
      cases h
      rfl
    · cases h
  configBytes {config json} h := by
    change configToJson config = .ok json at h
    unfold configToJson at h
    split at h
    · cases h
      decide
    · split_ifs at h
      cases h
      decide
    · cases h

/-- A namespace with one version kept, exported under its own name. -/
theorem parse_writeBundle_one_version :
    parseHeader (codec [1] [2]) (writeBundle (headerOpen ++ utf8 "a" ++ headerClose)
        [0, 0, 2, 0, 0, 0, 123, 125] (utf8 "\x7b\"max_versions\":1\x7d")) =
      .ok (⟨"a", 1, 0, 1⟩, headerOpen ++ utf8 "a" ++ headerClose) ∧
    parseSections (codec [1] [2]) (writeBundle (headerOpen ++ utf8 "a" ++ headerClose)
        [0, 0, 2, 0, 0, 0, 123, 125] (utf8 "\x7b\"max_versions\":1\x7d"))
        (8 + (headerOpen ++ utf8 "a" ++ headerClose).length) =
      .ok (⟨none, some 1, none⟩, [0, 0, 2, 0, 0, 0, 123, 125]) :=
  (parse_writeBundle (codec_printsJson [1] [2])).1 ⟨"a", 1, 0, 1⟩ ⟨none, some 1, none⟩ _ _ _
    rfl rfl (by decide) (by decide) (by decide)

/-- The header of a namespace whose name has `n` letters. -/
def namedBy (n : Nat) : ExportHeader := ⟨String.ofList (List.replicate n 'a'), 1, 0, 1⟩

theorem length_namedBy (n : Nat) : (utf8 (namedBy n).ns).length = n := by
  rw [namedBy, utf8_replicate (b := 97) (by decide), List.length_replicate]

theorem headerToJson_namedBy (n : Nat) : (codec [] []).headerToJson (namedBy n) =
    .ok (headerOpen ++ utf8 (namedBy n).ns ++ headerClose) := by
  simp only [codec, headerToJson]
  exact if_pos ⟨rfl, rfl, rfl⟩

/-- The length of a long header does not fit, and the header is not found again. -/
theorem parseHeader_namedBy {n : Nat} (h : 2 ^ 32 ≤ n) (encrypted configJson : Bytes) :
    parseHeader (codec [] []) (writeBundle (headerOpen ++ utf8 (namedBy n).ns ++ headerClose)
        encrypted configJson) ≠
      .ok (namedBy n, headerOpen ++ utf8 (namedBy n).ns ++ headerClose) := by
  intro hparse
  obtain ⟨rest, -, hlt, -⟩ := parseHeader_eq_ok hparse
  have hname := length_namedBy n
  simp only [List.length_append] at hlt
  omega

/-- A name of 4 GiB is lost. -/
theorem parseHeader_four_gib_name :
    (codec [] []).headerToJson (namedBy (2 ^ 32)) =
        .ok (headerOpen ++ utf8 (namedBy (2 ^ 32)).ns ++ headerClose) ∧
      parseHeader (codec [] [])
          (writeBundle (headerOpen ++ utf8 (namedBy (2 ^ 32)).ns ++ headerClose) []
            (utf8 "\x7b\x7d")) ≠
        .ok (namedBy (2 ^ 32), headerOpen ++ utf8 (namedBy (2 ^ 32)).ns ++ headerClose) :=
  ⟨headerToJson_namedBy _, parseHeader_namedBy (Nat.le_refl _) _ _⟩

end Memory

end Shroudb
