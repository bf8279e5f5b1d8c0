import Shroudb.Wire.Reader

/-! What a reader makes of a message whose stream ends too early. -/
namespace Wire

namespace Reader
variable {ε α β : Type} {r : Reader ε α} {f : α → Reader ε β} {xs ys : Bytes}

/-- `q` is what is left of `bs` when the stream ends within it. -/
def Cut (bs q : Bytes) : Prop := ∃ x, x ≠ [] ∧ q ++ x = bs

/-- `q` and `bs` agree as far as both go. -/
def Along (bs q : Bytes) : Prop := ∃ x y, q ++ x = bs ++ y

/-- Whatever `r` returns on a stream of `S` uses the stream up and satisfies `P`. -/
def EndsOn (S : Bytes → Prop) (r : Reader ε α) (P : α → Prop) : Prop :=
  ∀ q, S q → ∀ a rest, r true q = .done a rest → rest = [] ∧ P a

/-- A stream of `K (xs ++ ys)` ends within `xs`, or is one of `K ys` after it. -/
def Splits (K : Bytes → Bytes → Prop) : Prop :=
  ∀ xs ys q, K (xs ++ ys) q → Cut xs q ∨ ∃ q', q = xs ++ q' ∧ K ys q'

theorem splits_cut : Splits Cut := by
  rintro xs ys q ⟨x, hx, hq⟩
  rcases List.append_eq_append_iff.mp hq with ⟨c, hxs, hc⟩ | ⟨q', rfl, hys⟩
  · cases c with
    | nil =>
      rw [List.append_nil] at hxs
      exact Or.inr ⟨[], by rw [hxs, List.append_nil], x, hx, hc⟩
    | cons b c => exact Or.inl ⟨b :: c, List.cons_ne_nil b c, hxs.symm⟩
  · exact Or.inr ⟨q', rfl, x, hx, hys.symm⟩

theorem splits_along : Splits Along := by
  rintro xs ys q ⟨x, y, hq⟩
  rw [List.append_assoc] at hq
  rcases List.append_eq_append_iff.mp hq with ⟨c, hxs, hc⟩ | ⟨q', rfl, hys⟩
  · cases c with
    | nil =>
      rw [List.append_nil] at hxs
      exact Or.inr ⟨[], by rw [hxs, List.append_nil], x, y, hc⟩
    | cons b c => exact Or.inl ⟨b :: c, List.cons_ne_nil b c, hxs.symm⟩
  · exact Or.inr ⟨q', rfl, x, y, hys.symm⟩

theorem not_cut_nil {q : Bytes} : ¬ Cut [] q := by
  rintro ⟨x, hx, hq⟩
  exact hx (List.append_eq_nil_iff.mp hq).2

theorem Along.of_append {q : Bytes} (h : Along (xs ++ ys) q) : Along xs q := by
  obtain ⟨x, y, hq⟩ := h
  exact ⟨x, ys ++ y, by rw [hq, List.append_assoc]⟩

/-- A cut in front of the first byte, or behind it. -/
theorem cut_cons {b : UInt8} {q : Bytes} (h : Cut (b :: xs) q) :
    q = [] ∨ ∃ q', q = b :: q' ∧ Cut xs q' := by
  obtain ⟨x, hx, hq⟩ := h
  cases q with
  | nil => exact Or.inl rfl
  | cons c q =>
    obtain ⟨rfl, htail⟩ := List.cons.inj hq
    exact Or.inr ⟨q, rfl, x, hx, htail⟩

namespace EndsOn
variable {K : Bytes → Bytes → Prop} {P : α → Prop} {Q : β → Prop} {a : α}

theorem mono {S T : Bytes → Prop} {P' : α → Prop} (h : EndsOn T r P) (hS : ∀ q, S q → T q)
    (hP : ∀ a, P a → P' a) : EndsOn S r P' := by
  intro q hq a rest hr
  obtain ⟨hrest, ha⟩ := h q (hS q hq) a rest hr
  exact ⟨hrest, hP a ha⟩

theorem pure {S : Bytes → Prop} {a : α} (hS : ∀ q, S q → q = []) (ha : P a) :
    EndsOn S (Pure.pure a : Reader ε α) P := by
  intro q hq b rest h
  cases h
  exact ⟨hS q hq, ha⟩

theorem fail {S : Bytes → Prop} {e : ε} : EndsOn S (Reader.fail e : Reader ε α) P := by
  intro q _ a rest h
  cases h

/-- The first stage meets all of its bytes, or a cut of them, after which there are none left for
the second. -/
theorem bind (hK : Splits K) (hr : Reads r xs a) (hc : EndsOn (Cut xs) r P)
    (hnil : ∀ a, P a → EndsOn (· = []) (f a) Q) (hf : EndsOn (K ys) (f a) Q) :
    EndsOn (K (xs ++ ys)) (r >>= f) Q := by
  intro q hq b rest h
  rcases hK xs ys q hq with hcut | ⟨q', rfl, hq'⟩
  · obtain ⟨a', mid, ha, hb⟩ := bind_eq_done.mp h
    obtain ⟨rfl, hP⟩ := hc q hcut a' mid ha
    exact hnil a' hP [] rfl b rest hb
  · rw [bind_done (hr true q')] at h
    exact hf q' hq' b rest h

/-- A first stage that is refused, wherever the stream ends. -/
theorem bind_of_refused {S : Bytes → Prop} (hr : EndsOn S r fun _ => False) :
    EndsOn S (r >>= f) Q := by
  intro q hq b rest h
  obtain ⟨a, mid, ha, -⟩ := bind_eq_done.mp h
  exact (hr q hq a mid ha).2.elim

/-- A first stage that fails on its bytes, and on whose cuts the second stage fails. -/
theorem bind_of_fails (hK : Splits K) (hr : Fails r xs) (hc : EndsOn (Cut xs) r P)
    (hnil : ∀ a, P a → EndsOn (· = []) (f a) Q) : EndsOn (K (xs ++ ys)) (r >>= f) Q := by
  intro q hq b rest h
  rcases hK xs ys q hq with hcut | ⟨q', rfl, -⟩
  · obtain ⟨a', mid, ha, hb⟩ := bind_eq_done.mp h
    obtain ⟨rfl, hP⟩ := hc q hcut a' mid ha
    exact hnil a' hP [] rfl b rest hb
  · obtain ⟨e, rest', hfail⟩ := hr true q'
    rw [bind_fail hfail] at h
    cases h

/-- A last stage that takes no bytes. -/
theorem bind_last {S : Bytes → Prop} (hr : EndsOn S r P)
    (hnil : ∀ a, P a → EndsOn (· = []) (f a) Q) : EndsOn S (r >>= f) Q := by
  intro q hq b rest h
  obtain ⟨a, mid, ha, hb⟩ := bind_eq_done.mp h
  obtain ⟨rfl, hP⟩ := hr q hq a mid ha
  exact hnil a hP [] rfl b rest hb

theorem exactly {n : Nat} {eof : ε} (h : xs.length ≤ n) :
    EndsOn (Cut xs) (Reader.exactly n eof) fun _ => False := by
  rintro q ⟨x, hx, rfl⟩ a rest hdone
  obtain ⟨hlen, hq⟩ := exactly_eq_done hdone
  have hpos := List.length_pos_iff.mpr hx
  rw [List.length_append] at h
  rw [hq, List.length_append] at h
  omega

theorem exactly_nil {n : Nat} {eof : ε} :
    EndsOn (· = []) (Reader.exactly n eof) fun _ => n = 0 := by
  rintro q rfl a rest hdone
  obtain ⟨hlen, hq⟩ := exactly_eq_done hdone
  obtain ⟨rfl, rfl⟩ := List.append_eq_nil_iff.mp hq.symm
  exact ⟨rfl, hlen.symm⟩

/-- A cut line is returned as it is. -/
theorem line {bs : Bytes} {invalid : ε} (h : (10 : UInt8) ∉ bs) :
    EndsOn (Cut (bs ++ [10])) (Reader.line invalid) fun s =>
      (10 : UInt8) ∉ utf8 s ∧ Cut (bs ++ [10]) (utf8 s) := by
  intro q hcut s rest hdone
  have hq : (10 : UInt8) ∉ q := by
    rcases splits_cut bs [10] q hcut with ⟨x, -, rfl⟩ | ⟨q', rfl, hq'⟩
    · exact fun hm => h (List.mem_append_left x hm)
    · rcases cut_cons hq' with rfl | ⟨q'', rfl, hq''⟩
      · simpa using h
      · exact absurd hq'' not_cut_nil
  rw [Reader.line] at hdone
  split at hdone
  case h_1 l rest' hs =>
    obtain ⟨xs, -, -, rfl⟩ := splitLine_eq_some hs
    exact absurd (by simp) hq
  case h_2 =>
    rw [if_pos rfl] at hdone
    split at hdone
    case h_1 s' hu =>
      cases hdone
      have hbytes := utf8_of_fromUtf8? hu
      exact ⟨rfl, by rwa [hbytes], by rwa [hbytes]⟩
    case h_2 => cases hdone

theorem times_nil (hnil : EndsOn (· = []) r fun _ => False) (n : Nat) :
    EndsOn (· = []) (times r (n + 1)) fun _ => False :=
  bind_of_refused hnil

/-- Messages that are read, in front of `w` and of a stream that is still to yield one. -/
theorem times_append {p : Prop} {w : Bytes} {n : Nat} {ms : List Bytes} {as : List α}
    (hK : Splits K) (hnil : EndsOn (· = []) r fun _ => False)
    (hreads : List.Forall₂ (Reads r) ms as) (hcut : ∀ m ∈ ms, EndsOn (Cut m) r fun _ => True)
    (hw : EndsOn (K w) (times r (n + 1)) fun _ => p) :
    EndsOn (K (ms.flatten ++ w)) (times r (ms.length + n + 1)) fun _ => p := by
  induction hreads with
  | nil => simpa using hw
  | @cons m a ms as hm hms ih =>
    have hrest := ih fun m' hm' => hcut m' (List.mem_cons_of_mem m hm')
    have hlen : (m :: ms).length + n + 1 = (ms.length + n + 1) + 1 := by
      rw [List.length_cons]
      omega
    rw [List.flatten_cons, List.append_assoc, hlen]
    refine bind hK hm (hcut m List.mem_cons_self) (fun a _ => ?_) ?_
    · exact bind_of_refused (times_nil hnil _)
    · exact hrest.bind_last fun as hp => pure (fun q hq => hq) hp

theorem times_one {p : Prop} {S : Bytes → Prop} (hr : EndsOn S r fun _ => p) :
    EndsOn S (times r 1) fun _ => p :=
  hr.bind_last fun _ hp => pure (fun _ hq => hq) hp

/-- One message that is refused is enough. -/
theorem times_of_refused {ms : List Bytes} (hnil : EndsOn (· = []) r fun _ => False)
    (hall : ∀ m ∈ ms, (∃ a, Reads r m a) ∧ EndsOn (Cut m) r (fun _ => True) ∨
      EndsOn (Along m) r fun _ => False)
    (hbad : ∃ m ∈ ms, EndsOn (Along m) r fun _ => False) :
    EndsOn (Along ms.flatten) (times r ms.length) fun _ => False := by
  induction ms with
  | nil =>
    obtain ⟨m, hm, -⟩ := hbad
    cases hm
  | cons m ms ih =>
    rw [List.flatten_cons]
    by_cases hm : EndsOn (Along m) r fun _ => False
    · exact bind_of_refused (hm.mono (fun q hq => hq.of_append) fun _ h => h)
    · obtain ⟨⟨a, ha⟩, hcut⟩ := (hall m List.mem_cons_self).resolve_right hm
      obtain ⟨bad, hmem, hrefused⟩ := hbad
      have htail : bad ∈ ms := by
        rcases List.mem_cons.mp hmem with rfl | htail
        · exact absurd hrefused hm
        · exact htail
      have hrest := ih (fun m' hm' => hall m' (List.mem_cons_of_mem m hm')) ⟨bad, htail, hrefused⟩
      have hpos : ms.length = (ms.length - 1) + 1 := by
        have := List.length_pos_of_mem htail
        omega
      refine bind splits_along ha hcut (fun a _ => ?_) (bind_of_refused hrest)
      rw [hpos]
      exact bind_of_refused (times_nil hnil _)

end EndsOn

/-! ## Messages whose last line may be cut -/

/-- On some cut of `bs`, `r` already returns `a`. -/
def Early (r : Reader ε α) (bs : Bytes) (a : α) : Prop :=
  ∃ q, Cut bs q ∧ r true q = .done a []

namespace Early
variable {a : α} {b : β}

theorem bind (hr : Reads r xs a) (hf : Early (f a) ys b) : Early (r >>= f) (xs ++ ys) b := by
  obtain ⟨q, ⟨x, hx, hq⟩, hdone⟩ := hf
  refine ⟨xs ++ q, ⟨x, hx, by rw [List.append_assoc, hq]⟩, ?_⟩
  rw [bind_done (hr true q)]
  exact hdone

theorem bind_last (hr : Early r xs a) (hf : f a true [] = .done b []) :
    Early (r >>= f) xs b := by
  obtain ⟨q, hq, hdone⟩ := hr
  exact ⟨q, hq, by rw [bind_done hdone]; exact hf⟩

theorem line {s : String} {bs : Bytes} {invalid : ε} (h : (10 : UInt8) ∉ utf8 s)
    (hbs : bs ≠ []) : Early (Reader.line invalid) (utf8 s ++ bs) s := by
  refine ⟨utf8 s, ⟨bs, hbs, rfl⟩, ?_⟩
  have hsplit : splitLine (utf8 s) = none := by
    cases hs : splitLine (utf8 s) with
    | none => rfl
    | some p =>
      obtain ⟨xs, -, -, hx⟩ := splitLine_eq_some hs
      exact absurd (by rw [hx]; simp) h
  rw [Reader.line, hsplit]
  simp

theorem times {ms : List Bytes} {as : List α} {m : Bytes}
    (hreads : List.Forall₂ (Reads r) ms as) (hm : Early r m a) :
    Early (Reader.times r (ms.length + 1)) (ms.flatten ++ m) (as ++ [a]) := by
  induction hreads with
  | nil => exact hm.bind_last rfl
  | cons hfirst _ ih =>
    rw [List.flatten_cons, List.append_assoc]
    exact bind hfirst (ih.bind_last rfl)

end Early

end Reader

end Wire
