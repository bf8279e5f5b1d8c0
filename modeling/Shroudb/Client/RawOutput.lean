import Shroudb.Client.Decoder

/-! The raw output of the CLI: `to_raw` writes what `read_value` reads back. -/
namespace Shroudb
open Wire Resp3Frame

namespace Response

mutual
/-- What `write_raw` appends for a response. -/
def rawText : Response → String
  | .string s => "$" ++ (utf8 s).length.repr ++ "\r\n" ++ s ++ "\r\n"
  | .error e => "-" ++ e ++ "\r\n"
  | .integer n => ":" ++ printInt64 n ++ "\r\n"
  | .null => "_\r\n"
  | .array items => "*" ++ items.length.repr ++ "\r\n" ++ rawTexts items
  | .map entries => "%" ++ entries.length.repr ++ "\r\n" ++ rawEntries entries
def rawTexts : List Response → String
  | [] => ""
  | r :: rs => rawText r ++ rawTexts rs
def rawEntries : List (Response × Response) → String
  | [] => ""
  | (k, v) :: entries => rawText k ++ rawText v ++ rawEntries entries
end

/-- A `String` that does not fit in memory cannot be built: `to_raw` panics. -/
def toRaw (r : Response) : Option String :=
  if (utf8 r.rawText).length ≤ maxAllocation then some r.rawText else none

mutual
/-- The frame that is written for a response. -/
def rawFrame : Response → Resp3Frame
  | .string s => .bulkString (utf8 s)
  | .error e => .simpleError e
  | .integer n => .integer n
  | .null => .null
  | .array items => .array (rawFrames items)
  | .map entries => .map (rawPairs entries)
def rawFrames : List Response → List Resp3Frame
  | [] => []
  | r :: rs => rawFrame r :: rawFrames rs
def rawPairs : List (Response × Response) → List (Resp3Frame × Resp3Frame)
  | [] => []
  | (k, v) :: entries => (rawFrame k, rawFrame v) :: rawPairs entries
end

/-- What a decoded response is: an error is one line, and a collection was allocated. -/
inductive Decoded : Response → Prop
  | string (s : String) : Decoded (.string s)
  | error {e : String} (line : '\n' ∉ e.toList) : Decoded (.error e)
  | integer (n : Int64) : Decoded (.integer n)
  | null : Decoded .null
  | array {items : List Response} (fits : items.length * responseSize ≤ maxAllocation)
      (each : ∀ r ∈ items, Decoded r) : Decoded (.array items)
  | map {entries : List (Response × Response)}
      (fits : entries.length * (2 * responseSize) ≤ maxAllocation)
      (keys : ∀ p ∈ entries, Decoded p.1) (values : ∀ p ∈ entries, Decoded p.2) :
      Decoded (.map entries)

theorem rawFrames_eq (rs : List Response) : rawFrames rs = rs.map rawFrame := by
  induction rs with
  | nil => rfl
  | cons r rs ih => simp [rawFrames, ih]

theorem rawPairs_eq (ps : List (Response × Response)) :
    rawPairs ps = ps.map fun p => (rawFrame p.1, rawFrame p.2) := by
  induction ps with
  | nil => rfl
  | cons p ps ih => simp [rawPairs, ih]

/-! ## Every decoded response is such -/

variable {inner : Reader ReadFailure Response} {ended : Bool} {bs rest : Bytes} {r : Response}

/-- What is left of a line holds no line feed. -/
theorem lf_not_mem_trimLine {line : String}
    (h : '\n' ∉ line.toList ∨ ∃ body, '\n' ∉ body ∧ line.toList = body ++ ['\n']) :
    '\n' ∉ trimLine line := by
  rw [trimLine, List.mem_reverse]
  rcases h with hnone | ⟨body, hbody, hline⟩
  · have hrev : '\n' ∉ line.toList.reverse := by simpa using hnone
    rw [trimCrlf_of_not_mem hrev, dropWhile_lf_of_not_mem hrev]
    exact hrev
  · have hrev : '\n' ∉ body.reverse := by simpa using hbody
    rw [hline, List.reverse_append, List.reverse_singleton, List.singleton_append]
    cases hb : body.reverse with
    | nil => simp [trimCrlf]
    | cons c cs =>
      rw [hb] at hrev
      by_cases hc : c = '\r'
      · subst hc
        have hcs : '\n' ∉ cs := fun hm => hrev (List.mem_cons_of_mem _ hm)
        rw [trimCrlf, trimCrlf_of_not_mem hcs, dropWhile_lf_of_not_mem hcs]
        exact hcs
      · have hkeep : trimCrlf ('\n' :: c :: cs) = '\n' :: c :: cs := by
          rw [trimCrlf.eq_def]
          simp [hc]
        rw [hkeep, List.dropWhile_cons_of_pos (by simp), dropWhile_lf_of_not_mem hrev]
        exact hrev

theorem withCapacity_eq_done {count : Int64} {size n : Nat}
    (h : withCapacity count size ended bs = .done n rest) :
    n * size ≤ maxAllocation ∧ rest = bs := by
  unfold withCapacity at h
  split_ifs at h with hfits
  · cases h
    exact ⟨hfits, rfl⟩
  · cases h

theorem decoded_readItems {count : Int64}
    (hi : ∀ {bs r rest}, inner ended bs = .done r rest → Decoded r)
    (h : readItems inner count ended bs = .done r rest) : Decoded r := by
  obtain ⟨n, mid, hn, h⟩ := Reader.bind_eq_done.mp h
  obtain ⟨items, mid', hitems, h⟩ := Reader.bind_eq_done.mp h
  cases h
  obtain ⟨hlen, hall⟩ := Reader.times_eq_done hitems
  refine .array (hlen ▸ (withCapacity_eq_done hn).1) fun r hr => ?_
  obtain ⟨bs', rest', hread⟩ := hall r hr
  exact hi hread

theorem decoded_readEntries {n : Nat} {entries : List (Response × Response)}
    (hi : ∀ {bs r rest}, inner ended bs = .done r rest → Decoded r)
    (h : Reader.times (readEntry inner) n ended bs = .done entries rest) :
    entries.length = n ∧ ∀ p ∈ entries, Decoded p.1 ∧ Decoded p.2 := by
  obtain ⟨hlen, hall⟩ := Reader.times_eq_done h
  refine ⟨hlen, fun p hp => ?_⟩
  obtain ⟨bs', rest', hread⟩ := hall p hp
  obtain ⟨k, mid, hk, hread⟩ := Reader.bind_eq_done.mp hread
  obtain ⟨v, mid', hv, hread⟩ := Reader.bind_eq_done.mp hread
  cases hread
  exact ⟨hi hk, hi hv⟩

theorem decoded_readBody {c : Char} {payload : String} (hp : '\n' ∉ payload.toList)
    (hi : ∀ {bs r rest}, inner ended bs = .done r rest → Decoded r)
    (h : readBody inner c payload ended bs = .done r rest) : Decoded r := by
  unfold readBody at h
  split at h
  · cases h
    exact .string _
  · cases h
    exact .error hp
  · cases hn : parseInt64 payload with
    | ok n =>
      rw [hn] at h
      cases h
      exact .integer n
    | error e =>
      rw [hn] at h
      cases h
  · cases h
    exact .null
  · obtain ⟨len, mid, -, h⟩ := Reader.bind_eq_done.mp h
    split_ifs at h
    · cases h
      exact .null
    · obtain ⟨size, mid', -, h⟩ := Reader.bind_eq_done.mp h
      obtain ⟨buf, mid'', -, h⟩ := Reader.bind_eq_done.mp h
      cases h
      exact .string _
  · obtain ⟨count, mid, -, h⟩ := Reader.bind_eq_done.mp h
    split_ifs at h
    · cases h
      exact .null
    · exact decoded_readItems hi h
  · obtain ⟨count, mid, -, h⟩ := Reader.bind_eq_done.mp h
    obtain ⟨n, mid', hn, h⟩ := Reader.bind_eq_done.mp h
    obtain ⟨entries, mid'', hentries, h⟩ := Reader.bind_eq_done.mp h
    cases h
    obtain ⟨hlen, heach⟩ := decoded_readEntries hi hentries
    exact .map (hlen ▸ (withCapacity_eq_done hn).1) (fun p hp => (heach p hp).1)
      fun p hp => (heach p hp).2
  · split at h
    · cases h
      exact .string _
    · cases h
      exact .string _
    · cases h
  · cases h
    exact .string _
  · obtain ⟨count, mid, -, h⟩ := Reader.bind_eq_done.mp h
    exact decoded_readItems hi h
  · obtain ⟨count, mid, -, h⟩ := Reader.bind_eq_done.mp h
    exact decoded_readItems hi h
  · cases h

theorem decoded_readValueAt {levels : Nat} (h : readValueAt levels ended bs = .done r rest) :
    Decoded r := by
  induction levels generalizing bs r rest with
  | zero => cases h
  | succ levels ih =>
    obtain ⟨line, mid, hline, h⟩ := Reader.bind_eq_done.mp h
    have hlf := lf_not_mem_trimLine (Reader.line_eq_done hline)
    unfold readLineBody at h
    by_cases hempty : line = ""
    · rw [if_pos hempty] at h
      cases h
    · rw [if_neg hempty] at h
      cases htrim : trimLine line with
      | nil =>
        rw [htrim] at h
        cases h
      | cons c cs =>
        simp only [htrim] at h hlf
        split_ifs at h
        · refine decoded_readBody ?_ ih h
          rw [String.toList_ofList]
          exact fun hmem => hlf (List.mem_cons_of_mem c hmem)
        · cases h

/-! ## What is written for it -/

theorem img_rawFrame (hr : Decoded r) : img r.rawFrame = r := by
  induction hr with
  | string s => rw [rawFrame, img, fromUtf8Lossy_utf8]
  | error line | integer n | null => rfl
  | array fits each ih =>
    rw [rawFrame, img, imgAll_eq, rawFrames_eq, List.map_map]
    exact congrArg _ ((List.map_congr_left ih).trans (List.map_id _))
  | map fits keys values ihk ihv =>
    rw [rawFrame, img, imgPairs_eq, rawPairs_eq, List.map_map]
    have hpair : ∀ p ∈ _, (img p.1.rawFrame, img p.2.rawFrame) = id p :=
      fun p hp => Prod.ext (ihk p hp) (ihv p hp)
    exact congrArg _ ((List.map_congr_left hpair).trans (List.map_id _))

theorem utf8_rawTexts {rs : List Response} (h : ∀ r ∈ rs, utf8 r.rawText = writeFrame r.rawFrame) :
    utf8 (rawTexts rs) = writeFrames (rawFrames rs) := by
  induction rs with
  | nil => rfl
  | cons r rs ih =>
    obtain ⟨hr, hrs⟩ := List.forall_mem_cons.mp h
    rw [rawTexts, utf8_append, hr, ih hrs, rawFrames, writeFrames]

theorem utf8_rawEntries {ps : List (Response × Response)}
    (hkeys : ∀ p ∈ ps, utf8 p.1.rawText = writeFrame p.1.rawFrame)
    (hvalues : ∀ p ∈ ps, utf8 p.2.rawText = writeFrame p.2.rawFrame) :
    utf8 (rawEntries ps) = writePairs (rawPairs ps) := by
  induction ps with
  | nil => rfl
  | cons p ps ih =>
    obtain ⟨hk, hks⟩ := List.forall_mem_cons.mp hkeys
    obtain ⟨hv, hvs⟩ := List.forall_mem_cons.mp hvalues
    rw [rawEntries, utf8_append, utf8_append, hk, hv, ih hks hvs, rawPairs, writePairs]

theorem utf8_rawText (hr : Decoded r) : utf8 r.rawText = writeFrame r.rawFrame := by
  have hcrlf : utf8 "\r\n" = crlf := by decide
  induction hr with
  | string s =>
    have hdollar : utf8 "$" = [36] := by decide
    simp [rawText, rawFrame, writeFrame, header, hcrlf, hdollar]
  | error line =>
    have hminus : utf8 "-" = [45] := by decide
    simp [rawText, rawFrame, writeFrame, hcrlf, hminus]
  | integer n =>
    have hcolon : utf8 ":" = [58] := by decide
    simp [rawText, rawFrame, writeFrame, hcrlf, hcolon]
  | null => decide
  | array fits each ih =>
    have hstar : utf8 "*" = [42] := by decide
    simp [rawText, rawFrame, writeFrame, header, hcrlf, hstar, utf8_rawTexts ih, rawFrames_eq]
  | map fits keys values ihk ihv =>
    have hpercent : utf8 "%" = [37] := by decide
    simp [rawText, rawFrame, writeFrame, header, hcrlf, hpercent, utf8_rawEntries ihk ihv,
      rawPairs_eq]

theorem lineSafe_rawFrame (hr : Decoded r) : LineSafe r.rawFrame := by
  induction hr with
  | string s | integer n | null => simp [LineSafe, rawFrame, lineTexts]
  | error line => simpa [LineSafe, rawFrame, lineTexts] using line
  | array fits each ih =>
    rw [rawFrame, rawFrames_eq, lineSafe_array]
    simpa using ih
  | map fits keys values ihk ihv =>
    rw [rawFrame, rawPairs_eq, lineSafe_map, List.forall_mem_map]
    exact fun p hp => ⟨ihk p hp, ihv p hp⟩

/-- A response whose output fits in memory can be allocated again. -/
theorem inMemory_rawFrame (hr : Decoded r) (h : (writeFrame r.rawFrame).length ≤ maxAllocation) :
    InMemory r.rawFrame := by
  induction hr with
  | string s =>
    simp only [rawFrame, writeFrame, crlf, List.length_append, List.length_cons,
      List.length_nil] at h
    simp only [rawFrame, InMemory]
    omega
  | error line | integer n | null => trivial
  | array fits each ih =>
    rw [rawFrame, writeFrame, List.length_append] at h
    rw [rawFrame, InMemory, inMemoryAll_iff, rawFrames_eq, List.length_map, List.forall_mem_map]
    refine ⟨fits, fun r hr => ih r hr ?_⟩
    have hle : (writeFrame r.rawFrame).length ≤ _ :=
      length_writeFrame_le (rawFrames_eq _ ▸ List.mem_map_of_mem hr)
    omega
  | map fits keys values ihk ihv =>
    rw [rawFrame, writeFrame, List.length_append] at h
    rw [rawFrame, InMemory, inMemoryPairs_iff, rawPairs_eq, List.length_map, List.forall_mem_map]
    refine ⟨fits, fun p hp => ?_⟩
    have hle : (writeFrame p.1.rawFrame).length + (writeFrame p.2.rawFrame).length ≤ _ :=
      length_writePair_le (rawPairs_eq _ ▸ List.mem_map_of_mem hp)
    exact ⟨ihk p hp (by omega), ihv p hp (by omega)⟩

/-- What is decoded from any bytes is written so that it is decoded again, and nothing after it. -/
theorem raw_output_reads_back {raw : String} (h : readValue ended bs = .done r rest)
    (hraw : r.toRaw = some raw) (ended' : Bool) (rest' : Bytes) :
    readValue ended' (utf8 raw ++ rest') = .done r rest' := by
  have hr := decoded_readValueAt h
  unfold toRaw at hraw
  split_ifs at hraw with hfits
  cases hraw
  rw [utf8_rawText hr] at hfits ⊢
  have hread := reads_readValue (lineSafe_rawFrame hr) (inMemory_rawFrame hr hfits) ended' rest'
  rwa [img_rawFrame hr] at hread

/-- A set and a boolean are written as the array and the string they were decoded to. -/
theorem set_reads_back :
    readValue false (utf8 "~2\r\n#t\r\n-a\r\n") = .done (.array [.string "true", .error "a"]) [] ∧
    toRaw (.array [.string "true", .error "a"]) = some "*2\r\n$4\r\ntrue\r\n-a\r\n" ∧
    readValue false (utf8 "*2\r\n$4\r\ntrue\r\n-a\r\n" ++ [43]) =
      .done (.array [.string "true", .error "a"]) [43] := by
  have hread : readValue false (utf8 "~2\r\n#t\r\n-a\r\n") =
      .done (.array [.string "true", .error "a"]) [] := by rfl
  have hraw : toRaw (.array [.string "true", .error "a"]) =
      some "*2\r\n$4\r\ntrue\r\n-a\r\n" := by decide
  exact ⟨hread, hraw, raw_output_reads_back hread hraw false [43]⟩

end Response

end Shroudb
