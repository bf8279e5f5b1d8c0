import Shroudb.Wire.Decode

/-! Reading a stream while it arrives, by reads that may be dropped half way. -/
namespace Wire

namespace Poll
variable {ε α : Type}

/-- The same answer, with `ext` behind what is left. -/
def append (ext : Bytes) : Poll ε α → Poll ε α
  | .done a rest => .done a (rest ++ ext)
  | .fail e rest => .fail e (rest ++ ext)
  | .more => .more

end Poll

/-- A reader takes bytes off the front, and what it answers does not change when more bytes
arrive or the stream ends. -/
structure Lawful {ε α : Type} (r : Reader ε α) : Prop where
  suffix : ∀ {ended bs a rest}, r ended bs = .done a rest → rest <:+ bs
  stable : ∀ ended bs ext, r false bs = .more ∨ r ended (bs ++ ext) = (r false bs).append ext

namespace Lawful
variable {ε α β : Type} {r : Reader ε α} {f : α → Reader ε β} {ended : Bool} {bs rest ext : Bytes}

theorem done_append (h : Lawful r) {a : α} (hr : r false bs = .done a rest) (ended : Bool)
    (ext : Bytes) : r ended (bs ++ ext) = .done a (rest ++ ext) := by
  rcases h.stable ended bs ext with hmore | hsame
  · rw [hr] at hmore
    cases hmore
  · rw [hsame, hr, Poll.append]

theorem fail_append (h : Lawful r) {e : ε} (hr : r false bs = .fail e rest) (ended : Bool)
    (ext : Bytes) : r ended (bs ++ ext) = .fail e (rest ++ ext) := by
  rcases h.stable ended bs ext with hmore | hsame
  · rw [hr] at hmore
    cases hmore
  · rw [hsame, hr, Poll.append]

theorem pure (a : α) : Lawful (Pure.pure a : Reader ε α) where
  suffix h := by
    cases h
    exact List.suffix_rfl
  stable _ _ _ := Or.inr rfl

theorem fail (e : ε) : Lawful (Reader.fail e : Reader ε α) where
  suffix h := by cases h
  stable _ _ _ := Or.inr rfl

theorem bind (hr : Lawful r) (hf : ∀ a, Lawful (f a)) : Lawful (r >>= f) where
  suffix h := by
    obtain ⟨a, mid, ha, hb⟩ := Reader.bind_eq_done.mp h
    exact ((hf a).suffix hb).trans (hr.suffix ha)
  stable ended bs ext := by
    cases h : r false bs with
    | done a mid =>
      rw [Reader.bind_done h, Reader.bind_done (hr.done_append h ended ext)]
      exact (hf a).stable ended mid ext
    | fail e mid =>
      rw [Reader.bind_fail h, Reader.bind_fail (hr.fail_append h ended ext)]
      exact Or.inr rfl
    | more => exact Or.inl (Reader.bind_more h)

theorem exactly (n : Nat) (eof : ε) : Lawful (Reader.exactly n eof) where
  suffix h := ⟨_, (Reader.exactly_eq_done h).2.symm⟩
  stable ended bs ext := by
    unfold Reader.exactly
    by_cases hn : n ≤ bs.length
    · have hn' : n ≤ (bs ++ ext).length := by
        rw [List.length_append]
        omega
      simp only [hn, hn', if_true, Poll.append, List.take_append_of_le_length hn,
        List.drop_append_of_le_length hn]
      exact Or.inr trivial
    · simp [hn]

theorem atEnd : Lawful (Reader.atEnd : Reader ε Bool) where
  suffix {ended bs a rest} h := by
    cases bs with
    | nil =>
      unfold Reader.atEnd at h
      split_ifs at h
      cases h
      exact List.suffix_rfl
    | cons b bs =>
      cases h
      exact List.suffix_rfl
  stable ended bs ext := by
    cases bs with
    | nil => exact Or.inl rfl
    | cons b bs => exact Or.inr rfl

theorem splitLine_append_some {l : Bytes} (h : Reader.splitLine bs = some (l, rest)) :
    Reader.splitLine (bs ++ ext) = some (l, rest ++ ext) := by
  obtain ⟨xs, hx, rfl, rfl⟩ := Reader.splitLine_eq_some h
  rw [List.append_assoc, List.cons_append]
  exact Reader.splitLine_append hx

theorem line (invalid : ε) : Lawful (Reader.line invalid) where
  suffix {ended bs a rest} h := by
    unfold Reader.line at h
    split at h
    case h_1 l rest' hs =>
      obtain ⟨xs, -, -, rfl⟩ := Reader.splitLine_eq_some hs
      split at h
      · cases h
        exact ⟨xs ++ [10], by simp⟩
      · cases h
    case h_2 =>
      split_ifs at h
      split at h
      · cases h
        exact List.nil_suffix
      · cases h
  stable ended bs ext := by
    unfold Reader.line
    cases hs : Reader.splitLine bs with
    | none => exact Or.inl rfl
    | some p =>
      obtain ⟨l, rest⟩ := p
      rw [splitLine_append_some hs]
      cases hu : fromUtf8? l with
      | some s => exact Or.inr (by simp [hu, Poll.append])
      | none => exact Or.inr (by simp [hu, Poll.append])

theorem times (hr : Lawful r) (n : Nat) : Lawful (Reader.times r n) := by
  induction n with
  | zero => exact pure []
  | succ n ih => exact hr.bind fun a => ih.bind fun as => pure (a :: as)

end Lawful

/-! ## Readers that differ only on long inputs -/

/-- The readers answer alike on fewer than `k` bytes. -/
def Agree {ε α : Type} (k : Nat) (r r' : Reader ε α) : Prop :=
  ∀ ended bs, bs.length < k → r ended bs = r' ended bs

namespace Agree
variable {ε α β : Type} {k : Nat} {r r' : Reader ε α} {f f' : α → Reader ε β}

theorem rfl (r : Reader ε α) : Agree k r r := fun _ _ _ => Eq.refl _

theorem bind (hl : Lawful r) (hr : Agree k r r') (hf : ∀ a, Agree k (f a) (f' a)) :
    Agree k (r >>= f) (r' >>= f') := by
  intro ended bs hlen
  have hsame := hr ended bs hlen
  cases h : r ended bs with
  | done a rest =>
    have hrest := (hl.suffix h).length_le
    rw [Reader.bind_done h, Reader.bind_done (hsame ▸ h)]
    exact hf a ended rest (by omega)
  | fail e rest => rw [Reader.bind_fail h, Reader.bind_fail (hsame ▸ h)]
  | more => rw [Reader.bind_more h, Reader.bind_more (hsame ▸ h)]

theorem times (hl : Lawful r) (hr : Agree k r r') (n : Nat) :
    Agree k (Reader.times r n) (Reader.times r' n) := by
  induction n with
  | zero => exact rfl _
  | succ n ih => exact bind hl hr fun a => bind (hl.times n) ih fun as => rfl _

end Agree

/-! ## Message after message -/

/-- Reading `bs` yields the messages and leaves `rest`. -/
inductive Yields {ε α : Type} (r : Reader ε (Option α)) (ended : Bool) :
    Bytes → List α → Bytes → Prop where
  | nil {bs : Bytes} : Yields r ended bs [] bs
  | cons {bs mid rest : Bytes} {a : α} {as : List α} (h : r ended bs = .done (some a) mid)
      (hs : Yields r ended mid as rest) : Yields r ended bs (a :: as) rest

namespace Yields
variable {ε α : Type} {r : Reader ε (Option α)} {ended : Bool} {bs mid rest ext : Bytes} {a : α}
  {as : List α}

theorem concat (h : Yields r ended bs as mid) (hr : r ended mid = .done (some a) rest) :
    Yields r ended bs (as ++ [a]) rest := by
  induction h with
  | nil => exact .cons hr .nil
  | cons h _ ih => exact .cons h (ih hr)

theorem append (hr : Lawful r) (h : Yields r false bs as rest) (ended : Bool) (ext : Bytes) :
    Yields r ended (bs ++ ext) as (rest ++ ext) := by
  induction h with
  | nil => exact .nil
  | cons h _ ih => exact .cons (hr.done_append h ended ext) ih

end Yields

namespace Reader
variable {ε α : Type} {r : Reader ε (Option α)} {ended : Bool} {bs rest : Bytes} {as : List α}

/-- A message takes at least a byte. -/
def Takes (r : Reader ε (Option α)) : Prop :=
  ∀ {ended bs a rest}, r ended bs = .done (some a) rest → rest.length < bs.length

theorem decodeCalls_enough (hr : Takes r) {n m : Nat} (hn : bs.length < n) (hm : bs.length < m) :
    decodeCalls r ended n bs = decodeCalls r ended m bs := by
  induction n generalizing m bs with
  | zero => omega
  | succ n ih =>
    obtain ⟨m, rfl⟩ := Nat.exists_eq_succ_of_ne_zero (Nat.ne_of_gt (Nat.zero_lt_of_lt hm))
    simp only [decodeCalls]
    split
    case h_1 a rest h =>
      have hlt := hr h
      rw [ih (by omega) (show rest.length < m by omega)]
    all_goals rfl

/-- What remains is decoded as if the stream began there. -/
theorem decode_of_yields (hr : Takes r) (h : Yields r ended bs as rest) :
    decode r ended bs = (as ++ (decode r ended rest).1, (decode r ended rest).2) := by
  induction h with
  | nil => simp
  | cons h _ ih =>
    have hlt := hr h
    rename_i bs mid _ _ _ _
    have hmid : decodeCalls r ended bs.length mid = decode r ended mid :=
      decodeCalls_enough hr hlt (Nat.lt_succ_self _)
    rw [decode, decodeCalls, h]
    simp only [hmid, ih, List.cons_append]

end Reader

/-! ## Reads in progress -/

/-- A stream part way: `consumed` has gone into the read in progress, `buffer` has not. -/
structure Inbox where
  consumed : Bytes
  buffer : Bytes
deriving DecidableEq, Repr

namespace Inbox
variable {ε α : Type}

def contents (s : Inbox) : Bytes := s.consumed ++ s.buffer

def arrive (s : Inbox) (bs : Bytes) : Inbox := { s with buffer := s.buffer ++ bs }

/-- The read goes on with what is there. While it is pending it has taken everything. -/
def poll (r : Reader ε α) (ended : Bool) (s : Inbox) : Option (Except ε α) × Inbox :=
  match r ended s.contents with
  | .done a rest => (some (.ok a), ⟨[], rest⟩)
  | .fail e rest => (some (.error e), ⟨[], rest⟩)
  | .more => (none, ⟨s.contents, []⟩)

/-- The read is dropped, and what it had taken is gone. -/
def abandon (s : Inbox) : Inbox := ⟨[], s.buffer⟩

variable {s : Inbox}

@[simp] theorem contents_arrive {bs : Bytes} : (s.arrive bs).contents = s.contents ++ bs := by
  simp [arrive, contents]

theorem contents_abandon (h : s.consumed = []) : s.abandon.contents = s.contents := by
  simp [abandon, contents, h]

/-- While a value is on its way, a read of it is pending or has read it and nothing is left. -/
theorem poll_of_reads {r : Reader ε α} {a : α} {bs wire : Bytes} (hr : Lawful r)
    (ha : Reader.Reads r bs a) (h : s.contents ++ wire = bs) :
    (s.poll r false).1 = none ∧ (s.poll r false).2.contents = s.contents ∨
      s.poll r false = (some (.ok a), ⟨[], []⟩) ∧ wire = [] := by
  have hall := ha false []
  rw [List.append_nil, ← h] at hall
  rw [poll]
  cases hread : r false s.contents with
  | more => exact Or.inl ⟨rfl, List.append_nil _⟩
  | fail e rest =>
    rw [hr.fail_append hread false wire] at hall
    cases hall
  | done v rest =>
    rw [hr.done_append hread false wire] at hall
    simp only [Poll.done.injEq, List.append_eq_nil_iff] at hall
    obtain ⟨rfl, rfl, hwire⟩ := hall
    exact Or.inr ⟨rfl, hwire⟩

end Inbox

end Wire
