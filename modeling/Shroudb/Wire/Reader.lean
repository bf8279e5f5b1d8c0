import Shroudb.Wire.Utf8

/-! Readers over a byte stream that arrives in pieces. -/
namespace Wire

/-- What a read does on the bytes present: it returns or errs, leaving `rest` to the next read,
or it waits for more. -/
inductive Poll (ε α : Type) where
  | done (a : α) (rest : Bytes)
  | fail (e : ε) (rest : Bytes)
  | more

/-- The flag says whether the stream has ended after the bytes given. -/
def Reader (ε α : Type) := Bool → Bytes → Poll ε α

namespace Reader
variable {ε α β : Type}

def bind (r : Reader ε α) (f : α → Reader ε β) : Reader ε β := fun ended bs =>
  match r ended bs with
  | .done a rest => f a ended rest
  | .fail e rest => .fail e rest
  | .more => .more

instance : Monad (Reader ε) where
  pure a := fun _ bs => .done a bs
  bind := bind

def fail (e : ε) : Reader ε α := fun _ bs => .fail e bs

/-- Exactly `n` bytes, or `eof` when the stream ends first. -/
def exactly (n : Nat) (eof : ε) : Reader ε Bytes := fun ended bs =>
  if n ≤ bs.length then .done (bs.take n) (bs.drop n)
  else if ended then .fail eof [] else .more

/-- Whether the stream is over. Nothing is consumed. -/
def atEnd : Reader ε Bool := fun ended bs =>
  match bs with
  | [] => if ended then .done true [] else .more
  | b :: bs => .done false (b :: bs)

/-- The bytes up to and including the first line feed, and those after it. -/
def splitLine : Bytes → Option (Bytes × Bytes)
  | [] => none
  | b :: bs => if b = 10 then some ([b], bs) else (splitLine bs).map fun p => (b :: p.1, p.2)

/-- A line with its terminator. A stream that ends without one yields what is left of it. -/
def line (invalid : ε) : Reader ε String := fun ended bs =>
  match splitLine bs with
  | some (l, rest) =>
    match fromUtf8? l with
    | some s => .done s rest
    | none => .fail invalid rest
  | none =>
    if ended then
      match fromUtf8? bs with
      | some s => .done s []
      | none => .fail invalid []
    else .more

def times (r : Reader ε α) : Nat → Reader ε (List α)
  | 0 => pure []
  | n + 1 => do
    let a ← r
    let as ← times r n
    return a :: as

variable {r : Reader ε α} {f : α → Reader ε β} {ended : Bool} {bs rest : Bytes}

@[simp] theorem pure_apply (a : α) : (pure a : Reader ε α) ended bs = .done a bs := rfl

@[simp] theorem fail_apply (e : ε) : (fail e : Reader ε α) ended bs = .fail e bs := rfl

@[simp] theorem pure_bind (a : α) : (pure a >>= f : Reader ε β) = f a := rfl

theorem bind_done {a : α} (h : r ended bs = .done a rest) :
    (r >>= f) ended bs = f a ended rest := by
  change bind r f ended bs = _
  simp [bind, h]

theorem bind_fail {e : ε} (h : r ended bs = .fail e rest) :
    (r >>= f) ended bs = .fail e rest := by
  change bind r f ended bs = _
  simp [bind, h]

theorem bind_more (h : r ended bs = .more) : (r >>= f) ended bs = .more := by
  change bind r f ended bs = _
  simp [bind, h]

theorem bind_eq_done {b : β} :
    (r >>= f) ended bs = .done b rest ↔
      ∃ a mid, r ended bs = .done a mid ∧ f a ended mid = .done b rest := by
  cases h : r ended bs with
  | done a mid => simp [bind_done h]
  | fail e rest => simp [bind_fail h]
  | more => simp [bind_more h]

theorem exactly_eq_done {n : Nat} {eof : ε} {out : Bytes}
    (h : exactly n eof ended bs = .done out rest) : out.length = n ∧ bs = out ++ rest := by
  unfold exactly at h
  split_ifs at h with hn
  cases h
  exact ⟨List.length_take_of_le hn, (List.take_append_drop n bs).symm⟩

/-! ## Readers meeting exactly the bytes written for them -/

/-- In front of any continuation, `r` takes exactly `bs` and returns `a`. -/
def Reads (r : Reader ε α) (bs : Bytes) (a : α) : Prop :=
  ∀ ended rest, r ended (bs ++ rest) = .done a rest

theorem reads_pure (a : α) : Reads (pure a : Reader ε α) [] a := by
  intro ended rest
  rfl

theorem Reads.bind {xs ys : Bytes} {a : α} {b : β} (hr : Reads r xs a) (hf : Reads (f a) ys b) :
    Reads (r >>= f) (xs ++ ys) b := by
  intro ended rest
  rw [List.append_assoc, bind_done (hr ended (ys ++ rest))]
  exact hf ended rest

/-- The last step of a reader takes no bytes. -/
theorem Reads.bind_last {xs : Bytes} {a : α} {b : β} (hr : Reads r xs a) (hf : Reads (f a) [] b) :
    Reads (r >>= f) xs b := by
  have h := hr.bind hf
  rwa [List.append_nil] at h

theorem reads_exactly {n : Nat} {eof : ε} {xs : Bytes} (h : xs.length = n) :
    Reads (exactly n eof) xs xs := by
  intro ended rest
  subst h
  simp [exactly]

theorem reads_atEnd_cons {b : UInt8} {xs : Bytes} {a : β} {g : Bool → Reader ε β}
    (h : Reads (g false) (b :: xs) a) : Reads (atEnd >>= g) (b :: xs) a := by
  intro ended rest
  have hend : (atEnd : Reader ε Bool) ended (b :: xs ++ rest) = .done false (b :: xs ++ rest) := rfl
  rw [bind_done hend]
  exact h ended rest

theorem splitLine_append {xs ys : Bytes} (h : (10 : UInt8) ∉ xs) :
    splitLine (xs ++ 10 :: ys) = some (xs ++ [10], ys) := by
  induction xs with
  | nil => simp [splitLine]
  | cons x xs ih =>
    simp only [List.mem_cons, not_or] at h
    have hx : x ≠ 10 := fun he => h.1 he.symm
    simp [splitLine, hx, ih h.2]

theorem reads_line {s : String} {invalid : ε} (h : '\n' ∉ s.toList) :
    Reads (line invalid) (utf8 (s ++ "\n")) (s ++ "\n") := by
  intro ended rest
  have hlf : utf8 "\n" = [10] := by decide
  have hb : utf8 (s ++ "\n") ++ rest = utf8 s ++ 10 :: rest := by simp [hlf]
  have hl : utf8 s ++ [10] = utf8 (s ++ "\n") := by simp [hlf]
  rw [line, hb, splitLine_append (by rwa [lf_mem_utf8]), hl]
  simp only [fromUtf8?_utf8]

theorem reads_times {xs : List Bytes} {as : List α} (h : List.Forall₂ (Reads r) xs as) :
    Reads (times r as.length) xs.flatten as := by
  induction h with
  | nil => exact reads_pure []
  | cons hx _ ih =>
    rw [List.flatten_cons]
    exact hx.bind (ih.bind_last (reads_pure _))

/-- In front of any continuation, `r` fails on `bs`. -/
def Fails (r : Reader ε α) (bs : Bytes) : Prop :=
  ∀ ended rest, ∃ e rest', r ended (bs ++ rest) = .fail e rest'

theorem Fails.append {xs : Bytes} (hr : Fails r xs) (ys : Bytes) : Fails r (xs ++ ys) := by
  intro ended rest
  rw [List.append_assoc]
  exact hr ended (ys ++ rest)

theorem Fails.bind {xs : Bytes} (hr : Fails r xs) : Fails (r >>= f) xs := by
  intro ended rest
  obtain ⟨e, rest', he⟩ := hr ended rest
  exact ⟨e, rest', bind_fail he⟩

theorem Reads.bind_fails {xs ys : Bytes} {a : α} (hr : Reads r xs a) (hf : Fails (f a) ys) :
    Fails (r >>= f) (xs ++ ys) := by
  intro ended rest
  rw [List.append_assoc, bind_done (hr ended (ys ++ rest))]
  exact hf ended rest

theorem fails_fail (e : ε) : Fails (fail e : Reader ε α) [] := fun _ rest => ⟨e, rest, rfl⟩

theorem fails_atEnd_cons {b : UInt8} {xs : Bytes} {g : Bool → Reader ε β}
    (h : Fails (g false) (b :: xs)) : Fails (atEnd >>= g) (b :: xs) := by
  intro ended rest
  have hend : (atEnd : Reader ε Bool) ended (b :: xs ++ rest) = .done false (b :: xs ++ rest) := rfl
  rw [bind_done hend]
  exact h ended rest

/-- One message that cannot be read is enough. -/
theorem fails_times {xs : List Bytes} (h : ∀ x ∈ xs, (∃ a, Reads r x a) ∨ Fails r x)
    (hbad : ∃ x ∈ xs, Fails r x) : Fails (times r xs.length) xs.flatten := by
  induction xs with
  | nil =>
    obtain ⟨x, hx, -⟩ := hbad
    cases hx
  | cons x xs ih =>
    rw [List.flatten_cons]
    by_cases hx : Fails r x
    · exact hx.bind.append _
    · obtain ⟨a, ha⟩ := (h x List.mem_cons_self).resolve_right hx
      obtain ⟨y, hy, hfails⟩ := hbad
      have hmem : y ∈ xs := by
        rcases List.mem_cons.mp hy with rfl | hy
        · exact absurd hfails hx
        · exact hy
      have hrest := ih (fun z hz => h z (List.mem_cons_of_mem x hz)) ⟨y, hmem, hfails⟩
      exact ha.bind_fails hrest.bind

/-! ## What a reader can return -/

theorem splitLine_eq_some {l : Bytes} (h : splitLine bs = some (l, rest)) :
    ∃ xs, (10 : UInt8) ∉ xs ∧ l = xs ++ [10] ∧ bs = xs ++ 10 :: rest := by
  induction bs generalizing l with
  | nil => simp [splitLine] at h
  | cons b bs ih =>
    rw [splitLine] at h
    split_ifs at h with hb
    · simp only [Option.some.injEq, Prod.mk.injEq] at h
      exact ⟨[], by simp, by simp [← h.1, hb], by simp [← h.2, hb]⟩
    · obtain ⟨⟨l', r'⟩, hs, he⟩ := Option.map_eq_some_iff.mp h
      simp only [Prod.mk.injEq] at he
      obtain ⟨rfl, rfl⟩ := he
      obtain ⟨xs, hx, rfl, rfl⟩ := ih hs
      exact ⟨b :: xs, by simp [hx, Ne.symm hb], by simp, by simp⟩

theorem splitLine_eq_none (h : splitLine bs = none) : (10 : UInt8) ∉ bs := by
  induction bs with
  | nil => simp
  | cons b bs ih =>
    rw [splitLine] at h
    split_ifs at h with hb
    simp [ih (Option.map_eq_none_iff.mp h), Ne.symm hb]

/-- A decoded line holds no line feed but the one that ends it. -/
theorem line_eq_done {invalid : ε} {s : String} (h : line invalid ended bs = .done s rest) :
    '\n' ∉ s.toList ∨ ∃ body, '\n' ∉ body ∧ s.toList = body ++ ['\n'] := by
  rw [line] at h
  split at h
  case h_1 l rest' hs =>
    obtain ⟨xs, hx, rfl, -⟩ := splitLine_eq_some hs
    split at h
    case h_1 s' hu =>
      cases h
      exact Or.inr (lf_last_of_utf8 (utf8_of_fromUtf8? hu) hx)
    case h_2 => cases h
  case h_2 hs =>
    split_ifs at h
    split at h
    case h_1 s' hu =>
      cases h
      have hn := splitLine_eq_none hs
      rw [← utf8_of_fromUtf8? hu, lf_mem_utf8] at hn
      exact Or.inl hn
    case h_2 => cases h

/-- A line that is not empty takes at least a byte. -/
theorem line_takes {invalid : ε} {s : String} (h : line invalid ended bs = .done s rest)
    (hs : s ≠ "") : rest.length < bs.length := by
  rw [line] at h
  split at h
  case h_1 l rest' hsplit =>
    obtain ⟨xs, -, rfl, rfl⟩ := splitLine_eq_some hsplit
    split at h
    · cases h
      simp
      omega
    · cases h
  case h_2 =>
    split_ifs at h
    split at h
    case h_1 s' hu =>
      cases h
      refine List.length_pos_iff.mpr fun hnil => hs (utf8_injective ?_)
      rw [utf8_of_fromUtf8? hu, hnil]
      rfl
    case h_2 => cases h

theorem times_eq_done {n : Nat} {as : List α} (h : times r n ended bs = .done as rest) :
    as.length = n ∧ ∀ a ∈ as, ∃ bs' rest', r ended bs' = .done a rest' := by
  induction n generalizing bs as with
  | zero =>
    cases h
    simp
  | succ n ih =>
    obtain ⟨a, mid, ha, h⟩ := bind_eq_done.mp h
    obtain ⟨as', mid', has, h⟩ := bind_eq_done.mp h
    cases h
    obtain ⟨hl, hr⟩ := ih has
    refine ⟨by simp [hl], fun b hb => ?_⟩
    rcases List.mem_cons.mp hb with rfl | hb
    · exact ⟨bs, mid, ha⟩
    · exact hr b hb

end Reader

end Wire
