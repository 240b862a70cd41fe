import Mathlib.Data.List.Basic
import Mathlib.Data.Int.Basic

/-! Texts as the source handles them: identifiers that end in a number, and bytes. -/
namespace HiveKernel.Lib

/-- A number can be read off its text. -/
theorem toString_number_injective {m n : ℕ} (h : toString m = toString n) : m = n := by
  have hread : ∀ k : ℕ, Nat.ofDigitChars 10 (toString k).toList 0 = k := by
    intro k
    rw [show (toString k).toList = Nat.toDigits 10 k from Nat.toList_repr]
    exact Nat.ofDigitChars_ten_toDigits
  rw [← hread m,h,hread n]

theorem append_number_injective {tag : String} {m n : ℕ} (h : tag++toString m = tag++toString n) :
    m = n := by
  apply toString_number_injective
  have hlist := congrArg String.toList h
  rw [String.toList_append,String.toList_append] at hlist
  exact String.toList_injective (List.append_cancel_left hlist)

/-- The bytes of a text. -/
def bytes (s : String) : List UInt8 := s.toUTF8.data.toList

/-- White space: what separates words and what a scanner takes for a space. -/
def isSpace (c : Char) : Bool :=
  let n := c.toNat
  (0x09 ≤ n ∧ n ≤ 0x0d) ∨ n = 0x20 ∨ n = 0x85 ∨ n = 0xa0 ∨ n = 0x1680 ∨ (0x2000 ≤ n ∧ n ≤ 0x200a) ∨
    n = 0x2028 ∨ n = 0x2029 ∨ n = 0x202f ∨ n = 0x205f ∨ n = 0x3000

/-- The words of a text, which is what stands between white space. -/
def fields (s : List Char) : List (List Char) := (s.splitOnP isSpace).filter (· ≠ [])

def trimSpace (s : List Char) : List Char :=
  ((s.dropWhile isSpace).reverse.dropWhile isSpace).reverse

/-- The sign of a numeral and the rest; no sign is a plus. -/
def splitSign : List Char → Bool × List Char
  | '-'::digits => (true,digits)
  | '+'::digits => (false,digits)
  | digits => (false,digits)

/-- The integers of 64 bits. -/
def IsInt64 (v : ℤ) : Prop := -9223372036854775808 ≤ v ∧ v < 9223372036854775808

instance (v : ℤ) : Decidable (IsInt64 v) := inferInstanceAs (Decidable (_ ∧ _))

/-- Read a decimal numeral as an integer of 64 bits. -/
def atoi (s : List Char) : Option ℤ :=
  let (negative,digits) := splitSign s
  if digits ≠ [] ∧ digits.all Char.isDigit then
    let n : ℤ := Nat.ofDigitChars 10 digits 0
    let v := if negative then -n else n
    if IsInt64 v then some v else none
  else none

example : fields " 0\t*/5  a\n".toList = [['0'],['*','/','5'],['a']] := by decide
example : atoi "-012".toList = some (-12) := by decide

/-- A text is a decimal numeral of an integer. -/
inductive Numeral : List Char → ℤ → Prop
  | plain {digits : List Char} (nonempty : digits ≠ []) (all : ∀ c ∈ digits, c.isDigit) :
    Numeral digits (Nat.ofDigitChars 10 digits 0)
  | plus {digits : List Char} (nonempty : digits ≠ []) (all : ∀ c ∈ digits, c.isDigit) :
    Numeral ('+'::digits) (Nat.ofDigitChars 10 digits 0)
  | minus {digits : List Char} (nonempty : digits ≠ []) (all : ∀ c ∈ digits, c.isDigit) :
    Numeral ('-'::digits) (-Nat.ofDigitChars 10 digits 0)

variable {s piece : List Char} {v : ℤ}

/-- A text is a numeral if digits are left behind its sign. -/
lemma numeral_iff : Numeral s v ↔ (splitSign s).2 ≠ [] ∧ (∀ c ∈ (splitSign s).2, c.isDigit) ∧
    v = if (splitSign s).1 then -(Nat.ofDigitChars 10 (splitSign s).2 0 : ℤ)
      else (Nat.ofDigitChars 10 (splitSign s).2 0 : ℤ) := by
  constructor
  · intro h
    cases h with
    | @plain digits nonempty all =>
      have hsign : splitSign s = (false,s) := by
        unfold splitSign
        split
        next rest => exact absurd (all '-' (List.mem_cons_self ..)) (by decide)
        next rest => exact absurd (all '+' (List.mem_cons_self ..)) (by decide)
        next => rfl
      rw [hsign]
      exact ⟨nonempty,all,rfl⟩
    | plus nonempty all => exact ⟨nonempty,all,rfl⟩
    | minus nonempty all => exact ⟨nonempty,all,rfl⟩
  · unfold splitSign
    split
    · rintro ⟨hne,hall,rfl⟩
      exact .minus hne hall
    · rintro ⟨hne,hall,rfl⟩
      exact .plus hne hall
    · rintro ⟨hne,hall,rfl⟩
      exact .plain hne hall

/-- What is read is what the numeral stands for, as far as it has 64 bits. -/
theorem atoi_eq_some_iff : atoi s = some v ↔ Numeral s v ∧ IsInt64 v := by
  rw [numeral_iff]
  unfold atoi
  constructor
  · intro h
    simp only at h
    split_ifs at h with hdigits hneg hrange hrange
    · cases h
      exact ⟨⟨hdigits.1,List.all_eq_true.mp hdigits.2,(if_pos hneg).symm⟩,hrange⟩
    · cases h
      exact ⟨⟨hdigits.1,List.all_eq_true.mp hdigits.2,(if_neg hneg).symm⟩,hrange⟩
  · rintro ⟨⟨hne,hall,rfl⟩,hrange⟩
    simp only
    rw [if_pos ⟨hne,List.all_eq_true.mpr hall⟩,if_pos hrange]

/-- The characters of a numeral. -/
lemma Numeral.chars (h : Numeral s v) : ∀ c ∈ s, c.isDigit ∨ c = '+' ∨ c = '-' := by
  cases h with
  | plain nonempty all => exact fun c hc => .inl (all c hc)
  | plus nonempty all =>
    exact List.forall_mem_cons.mpr ⟨.inr (.inl rfl),fun c hc => .inl (all c hc)⟩
  | minus nonempty all =>
    exact List.forall_mem_cons.mpr ⟨.inr (.inr rfl),fun c hc => .inl (all c hc)⟩

/-- A numeral stands for one number only. -/
lemma Numeral.unique {w : ℤ} (h : Numeral s v) (h' : Numeral s w) : v = w := by
  rw [numeral_iff] at h h'
  exact h.2.2.trans h'.2.2.symm

/-- The pieces of a text are made of its characters other than the separators. -/
theorem mem_of_mem_splitOnP {p : Char → Bool} (h : piece ∈ s.splitOnP p) {c : Char} (hc : c ∈ piece) :
    c ∈ s ∧ p c = false := by
  induction s generalizing piece with
  | nil =>
    rw [List.splitOnP_nil,List.mem_singleton] at h
    rw [h] at hc
    cases hc
  | cons a s ih =>
    rw [List.splitOnP_cons_eq_if_modifyHead] at h
    split_ifs at h with ha
    · rcases List.mem_cons.mp h with rfl | h
      · cases hc
      · exact ⟨List.mem_cons_of_mem a (ih h hc).1,(ih h hc).2⟩
    · obtain ⟨first,rest,hsplit⟩ := List.exists_cons_of_ne_nil (List.splitOnP_ne_nil p s)
      rw [hsplit,List.modifyHead_cons] at h
      rw [hsplit] at ih
      rcases List.mem_cons.mp h with rfl | h
      · rcases List.mem_cons.mp hc with rfl | hc
        · exact ⟨List.mem_cons_self ..,by simpa using ha⟩
        · have hmem := ih (List.mem_cons_self ..) hc
          exact ⟨List.mem_cons_of_mem a hmem.1,hmem.2⟩
      · have hmem := ih (List.mem_cons_of_mem _ h) hc
        exact ⟨List.mem_cons_of_mem a hmem.1,hmem.2⟩

/-- A word has no white space in it. -/
theorem not_isSpace_of_mem_fields (h : piece ∈ fields s) : ∀ c ∈ piece, isSpace c = false :=
  fun _ hc => (mem_of_mem_splitOnP (List.mem_filter.mp h).1 hc).2

theorem fields_cons {word : List Char} (hne : word ≠ []) (hword : ∀ c ∈ word, isSpace c = false)
    (rest : List Char) : fields (word++ ' '::rest) = word::fields rest := by
  rw [fields,List.splitOnP_append_cons_of_forall_mem hword ' ' (by decide),
    List.filter_cons_of_pos (by simpa using hne)]
  rfl

theorem trimSpace_eq_self (h : ∀ c ∈ s, isSpace c = false) : trimSpace s = s := by
  have hdrop : ∀ l : List Char, (∀ c ∈ l, isSpace c = false) → l.dropWhile isSpace = l := by
    intro l hl
    cases l with
    | nil => rfl
    | cons c l => rw [List.dropWhile_cons_of_neg (by simp [hl c (List.mem_cons_self ..)])]
  rw [trimSpace,hdrop s h,hdrop s.reverse fun c hc => h c (List.mem_reverse.mp hc),List.reverse_reverse]

end HiveKernel.Lib
