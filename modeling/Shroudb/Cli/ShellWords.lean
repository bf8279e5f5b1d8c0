import Mathlib.Data.List.Basic
import Mathlib.Tactic.Common

/-! The words of a line typed at the prompt of `shroudb-cli`. -/
namespace Shroudb.Cli

/-- The states of `shell_words`. -/
inductive Quoting where
  | normal
  | doubleQuote
  | singleQuote
deriving DecidableEq, Repr

/-- A word that has no characters is not kept. -/
def pushWord (current : List Char) (words : List String) : List String :=
  if current = [] then words else words ++ [String.ofList current]

/-- The loop of `shell_words`: the state, the characters still to read, the word begun and the
words so far. -/
def splitWords : Quoting → List Char → List Char → List String → List String
  | _, [], current, words => pushWord current words
  | .normal, ch :: chars, current, words =>
    if ch = '"' then splitWords .doubleQuote chars current words
    else if ch = '\'' then splitWords .singleQuote chars current words
    else if ch = ' ' ∨ ch = '\t' then splitWords .normal chars [] (pushWord current words)
    else splitWords .normal chars (current ++ [ch]) words
  | .doubleQuote, ch :: chars, current, words =>
    if ch = '"' then splitWords .normal chars current words
    else if ch = '\\' then
      match chars with
      | next :: rest =>
        if next = '"' ∨ next = '\\' then splitWords .doubleQuote rest (current ++ [next]) words
        else splitWords .doubleQuote (next :: rest) (current ++ [ch]) words
      | [] => splitWords .doubleQuote [] (current ++ [ch]) words
    else splitWords .doubleQuote chars (current ++ [ch]) words
  | .singleQuote, ch :: chars, current, words =>
    if ch = '\'' then splitWords .normal chars current words
    else splitWords .singleQuote chars (current ++ [ch]) words

def shellWords (input : String) : List String := splitWords .normal input.toList [] []

/-! ## Quoting -/

def escaped (c : Char) : List Char := if c = '\\' ∨ c = '"' then ['\\', c] else [c]

def doubleQuoted (word : String) : List Char := '"' :: (word.toList.flatMap escaped ++ ['"'])

def singleQuoted (word : String) : List Char := '\'' :: (word.toList ++ ['\''])

def quotedLine (quote : String → List Char) (words : List String) : String :=
  String.ofList ([' '].intercalate (words.map quote))

/-- A quoted word is taken off the line, and its characters go to the word begun. -/
def Unquotes (quote : String → List Char) (word : String) : Prop :=
  ∀ rest current words, splitWords .normal (quote word ++ rest) current words =
    splitWords .normal rest (current ++ word.toList) words

section
variable {c : Char} (chars current : List Char) (words : List String)

theorem splitWords_close : splitWords .doubleQuote ('"' :: chars) current words =
    splitWords .normal chars current words := by
  cases chars <;> simp [splitWords]

theorem splitWords_backslash (h : c = '"' ∨ c = '\\') :
    splitWords .doubleQuote ('\\' :: c :: chars) current words =
      splitWords .doubleQuote chars (current ++ [c]) words := by
  simp [splitWords, h]

theorem splitWords_plain (hquote : c ≠ '"') (hbackslash : c ≠ '\\') :
    splitWords .doubleQuote (c :: chars) current words =
      splitWords .doubleQuote chars (current ++ [c]) words := by
  cases chars <;> simp [splitWords, hquote, hbackslash]

/-- An escaped character is read as itself. -/
theorem splitWords_escaped : splitWords .doubleQuote (escaped c ++ chars) current words =
    splitWords .doubleQuote chars (current ++ [c]) words := by
  unfold escaped
  split_ifs with hc
  · exact splitWords_backslash chars current words hc.symm
  · obtain ⟨hbackslash, hquote⟩ := not_or.mp hc
    exact splitWords_plain chars current words hquote hbackslash

end

theorem unquotes_doubleQuoted (word : String) : Unquotes doubleQuoted word := by
  intro rest current words
  -- the characters after the opening quote, up to the closing one
  have hbody : ∀ (cs current : List Char),
      splitWords .doubleQuote (cs.flatMap escaped ++ '"' :: rest) current words =
        splitWords .normal rest (current ++ cs) words := by
    intro cs
    induction cs with
    | nil =>
      intro current
      rw [List.flatMap_nil, List.nil_append, splitWords_close, List.append_nil]
    | cons c cs ih =>
      intro current
      rw [List.flatMap_cons, List.append_assoc, splitWords_escaped, ih, List.append_assoc]
      rfl
  have hopen := hbody word.toList current
  simpa [doubleQuoted, splitWords] using hopen

theorem unquotes_singleQuoted {word : String} (h : '\'' ∉ word.toList) :
    Unquotes singleQuoted word := by
  intro rest current words
  have hbody : ∀ (cs current : List Char), '\'' ∉ cs →
      splitWords .singleQuote (cs ++ '\'' :: rest) current words =
        splitWords .normal rest (current ++ cs) words := by
    intro cs
    induction cs with
    | nil =>
      intro current _
      simp [splitWords]
    | cons c cs ih =>
      intro current hcs
      obtain ⟨hc, hcs⟩ := not_or.mp (mt List.mem_cons.mpr hcs)
      simp [splitWords, Ne.symm hc, ih _ hcs]
  have hopen := hbody word.toList current h
  simpa [singleQuoted, splitWords] using hopen

/-! ## Whole lines -/

theorem pushWord_toList (word : String) (words : List String) :
    pushWord word.toList words = words ++ [word].filter (· ≠ "") := by
  by_cases hword : word = ""
  · simp [hword, pushWord]
  · simp [hword, pushWord]

/-- Every word comes back but the empty ones. -/
theorem splitWords_quoted {quote : String → List Char} {ws : List String}
    (h : ∀ w ∈ ws, Unquotes quote w) (words : List String) :
    splitWords .normal ([' '].intercalate (ws.map quote)) [] words =
      words ++ ws.filter (· ≠ "") := by
  induction ws generalizing words with
  | nil => simp [splitWords, pushWord]
  | cons w ws ih =>
    have hw : Unquotes quote w := h w List.mem_cons_self
    have hws := ih fun v hv => h v (List.mem_cons_of_mem w hv)
    cases ws with
    | nil =>
      have hlast := hw [] [] words
      rw [List.append_nil, List.nil_append] at hlast
      rw [List.map_singleton, List.intercalate_singleton, hlast, splitWords, pushWord_toList]
    | cons v vs =>
      have hspace : ∀ chars current, splitWords .normal (' ' :: chars) current words =
          splitWords .normal chars [] (pushWord current words) := by
        intro chars current
        simp [splitWords]
      rw [List.map_cons, List.intercalate_cons_of_ne_nil (by simp), List.append_assoc, hw,
        List.singleton_append, hspace, hws, List.nil_append, pushWord_toList, List.append_assoc,
        ← List.filter_append, List.singleton_append]

theorem shellWords_quotedLine {quote : String → List Char} {ws : List String}
    (h : ∀ w ∈ ws, Unquotes quote w) :
    shellWords (quotedLine quote ws) = ws.filter (· ≠ "") := by
  rw [shellWords, quotedLine, String.toList_ofList, splitWords_quoted h, List.nil_append]

theorem shellWords_quotedLine_iff {quote : String → List Char} {ws : List String}
    (h : ∀ w ∈ ws, Unquotes quote w) :
    shellWords (quotedLine quote ws) = ws ↔ "" ∉ ws := by
  rw [shellWords_quotedLine h, List.filter_eq_self]
  constructor
  · intro hall hmem
    simpa using hall "" hmem
  · intro hnone w hw
    have hne : w ≠ "" := fun he => hnone (he ▸ hw)
    simpa using hne

/-- A quoted line is split into the words it was made of exactly when none of them is empty. -/
theorem words_come_back_iff (ws : List String) :
    (shellWords (quotedLine doubleQuoted ws) = ws ↔ "" ∉ ws) ∧
    ((∀ w ∈ ws, '\'' ∉ w.toList) → (shellWords (quotedLine singleQuoted ws) = ws ↔ "" ∉ ws)) := by
  refine ⟨?_, fun h => ?_⟩
  · exact shellWords_quotedLine_iff fun w _ => unquotes_doubleQuoted w
  · exact shellWords_quotedLine_iff fun w hw => unquotes_singleQuoted (h w hw)

theorem spaced_word_comes_back :
    '\'' ∉ "b \\ c".toList ∧
      shellWords (quotedLine singleQuoted ["a", "b \\ c"]) = ["a", "b \\ c"] := by
  have h : ∀ w ∈ ["a", "b \\ c"], '\'' ∉ w.toList := by simp
  exact ⟨h _ (by simp), ((words_come_back_iff _).2 h).mpr (by simp)⟩

/-- The value of the PUT is gone, and the command has an argument less. -/
theorem empty_value_lost :
    shellWords (quotedLine doubleQuoted ["PUT", "a", "k", ""]) = ["PUT", "a", "k"] := by
  rw [shellWords, quotedLine, String.toList_ofList]
  rfl

end Shroudb.Cli
