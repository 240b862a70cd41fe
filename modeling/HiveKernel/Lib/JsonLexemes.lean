import Mathlib.Data.List.Basic
import Mathlib.Data.List.TakeWhile
import Mathlib.Data.Nat.Notation
import Mathlib.Data.Int.Notation

/-! Strings and numbers of JSON texts. Strings are written with ASCII characters only, where a character beyond the
basic plane is a pair of escapes; what is read from a text does not depend on what stands behind it. -/
namespace HiveKernel.Lib.JsonText

/-- The value of a hexadecimal digit of either case. -/
def hexVal (c : Char) : Option ℕ :=
  if c.isDigit then some (c.toNat-48)
  else if 'a' ≤ c ∧ c ≤ 'f' then some (c.toNat-87)
  else if 'A' ≤ c ∧ c ≤ 'F' then some (c.toNat-55)
  else none

def hex4 (n : ℕ) : List Char :=
  [Nat.digitChar (n/4096%16),Nat.digitChar (n/256%16),Nat.digitChar (n/16%16),Nat.digitChar (n%16)]

def readHex4 (a b c d : Char) : Option ℕ := do
  let a ← hexVal a
  let b ← hexVal b
  let c ← hexVal c
  let d ← hexVal d
  pure (4096*a+256*b+16*c+d)

lemma hexVal_digitChar {n : ℕ} (h : n < 16) : hexVal (Nat.digitChar n) = some n := by
  have hall : ∀ k : Fin 16, hexVal (Nat.digitChar k) = some k.val := by decide
  exact hall ⟨n,h⟩

lemma readHex4_hex4 {n : ℕ} (h : n < 65536) : readHex4 (Nat.digitChar (n/4096%16)) (Nat.digitChar (n/256%16))
    (Nat.digitChar (n/16%16)) (Nat.digitChar (n%16)) = some n := by
  unfold readHex4
  rw [hexVal_digitChar (Nat.mod_lt _ (by decide)),hexVal_digitChar (Nat.mod_lt _ (by decide)),
    hexVal_digitChar (Nat.mod_lt _ (by decide)),hexVal_digitChar (Nat.mod_lt _ (by decide))]
  change some (4096*(n/4096%16)+256*(n/256%16)+16*(n/16%16)+n%16) = some n
  congr 1
  omega

/-- The letters behind a backslash. -/
def shortEscape (c : Char) : Option Char :=
  [('"','"'),('\\','\\'),('n','\n'),('r','\r'),('t','\t'),('f',Char.ofNat 12),('b',Char.ofNat 8),('/','/')].lookup c

/-- The UTF-16 units of a character. -/
def units (c : Char) : List ℕ :=
  if c.toNat < 65536 then [c.toNat]
  else [55296+(c.toNat-65536)/1024,56320+(c.toNat-65536)%1024]

def escapeUnit (n : ℕ) : List Char := '\\':: 'u'::hex4 n

/-- The characters that are written with a letter. -/
def shortEscapes : List (Char × Char) :=
  [('"','"'),('\\','\\'),('\n','n'),('\r','r'),('\t','t'),(Char.ofNat 12,'f'),(Char.ofNat 8,'b')]

/-- A character of a string as it is written. -/
def escapeChar (c : Char) : List Char :=
  match shortEscapes.lookup c with
  | some letter => ['\\',letter]
  | none => if ' ' ≤ c ∧ c ≤ '~' then [c] else (units c).flatMap escapeUnit

def quote (s : List Char) : List Char := '"'::s.flatMap escapeChar++['"']

/-- What a string that has begun stands for, in units, and what comes behind it. Raw control characters are not
allowed. -/
def scanString : List Char → Option (List ℕ × List Char)
  | [] => none
  | '"'::s => some ([],s)
  | '\\':: 'u'::a::b::c::d::s => match readHex4 a b c d with
    | none => none
    | some n => (scanString s).map (fun found => (n::found.1,found.2))
  | '\\'::c::s => match shortEscape c with
    | none => none
    | some letter => (scanString s).map (fun found => (letter.toNat::found.1,found.2))
  | c::s => if c.toNat < 32 then none else (scanString s).map (fun found => (c.toNat::found.1,found.2))

/-- The character of a unit that is not part of a pair. A surrogate has none and becomes U+FFFD. -/
def lone (n : ℕ) : Char := if n.isValidChar then Char.ofNat n else Char.ofNat 65533

/-- The characters of a sequence of units. -/
def joinUnits : List ℕ → List Char
  | [] => []
  | [n] => [lone n]
  | high::low::rest =>
    if 55296 ≤ high ∧ high < 56320 ∧ 56320 ≤ low ∧ low < 57344 then
      Char.ofNat (65536+(high-55296)*1024+(low-56320))::joinUnits rest
    else lone high::joinUnits (low::rest)

/-- Units that stand for a character are read as that character, whatever follows. -/
lemma joinUnits_units (c : Char) (rest : List ℕ) : joinUnits (units c++rest) = c::joinUnits rest := by
  have hvalid : c.toNat.isValidChar := c.valid
  unfold units
  split_ifs with hlow
  · have hlone : lone c.toNat = c := by rw [lone,if_pos hvalid,Char.ofNat_toNat]
    have hrange : ¬(55296 ≤ c.toNat ∧ c.toNat < 56320) := by
      rcases hvalid with h | ⟨h,-⟩ <;> omega
    cases rest with
    | nil => simp [joinUnits,hlone]
    | cons low rest =>
      rw [List.singleton_append,joinUnits,if_neg (fun h => hrange ⟨h.1,h.2.1⟩),hlone]
  · have hbound : c.toNat < 1114112 := by
      rcases hvalid with h | ⟨-,h⟩ <;> omega
    rw [List.cons_append,List.singleton_append,joinUnits,if_pos (by omega)]
    have hsum : 65536+(55296+(c.toNat-65536)/1024-55296)*1024+(56320+(c.toNat-65536)%1024-56320) = c.toNat := by
      omega
    rw [hsum,Char.ofNat_toNat]

lemma joinUnits_flatMap (s : List Char) : joinUnits (s.flatMap units) = s := by
  induction s with
  | nil => rfl
  | cons c s ih => rw [List.flatMap_cons,joinUnits_units,ih]

lemma scanString_escapeUnit {n : ℕ} (h : n < 65536) (s : List Char) :
    scanString (escapeUnit n++s) = (scanString s).map (fun found => (n::found.1,found.2)) := by
  rw [escapeUnit,hex4]
  simp only [List.cons_append,List.nil_append]
  rw [scanString,readHex4_hex4 h]

lemma scanString_raw {c : Char} (hquote : c ≠ '"') (hslash : c ≠ '\\') (hcontrol : 32 ≤ c.toNat) (s : List Char) :
    scanString (c::s) = (scanString s).map (fun found => (c.toNat::found.1,found.2)) := by
  rw [scanString,if_neg (by omega)]
  · exact hquote
  · exact fun _ _ _ _ _ h _ => hslash h
  · exact fun _ _ h _ => hslash h

/-- A character is read back as its units. -/
lemma scanString_escapeChar (c : Char) (s : List Char) :
    scanString (escapeChar c++s) = (scanString s).map (fun found => (units c++found.1,found.2)) := by
  unfold escapeChar
  cases hshort : shortEscapes.lookup c with
  | some letter =>
    obtain ⟨before,after,hsplit,-⟩ := List.lookup_eq_some_iff.mp hshort
    have hmem : (c,letter) ∈ shortEscapes := by
      rw [hsplit]
      exact List.mem_append_right _ List.mem_cons_self
    have hall : ∀ pair ∈ shortEscapes, shortEscape pair.2 = some pair.1 ∧ pair.2 ≠ 'u' ∧
        units pair.1 = [pair.1.toNat] := by decide
    obtain ⟨hletter,hu,hunits⟩ := hall _ hmem
    rw [hunits]
    simp only [List.cons_append,List.nil_append]
    rw [scanString]
    · rw [hletter]
    · rintro _ _ _ _ _ rfl
      exact absurd rfl hu
  | none =>
    simp only
    split_ifs with hraw
    · have hne : ∀ letter, (c,letter) ∉ shortEscapes := fun letter hmem =>
        absurd (List.lookup_eq_none_iff.mp hshort _ hmem) (by simp)
      have hquote : c ≠ '"' := fun h => hne '"' (by rw [h]; exact List.mem_cons_self)
      have hslash : c ≠ '\\' := fun h => hne '\\' (by rw [h]; decide)
      have hlow : 32 ≤ c.toNat := hraw.1
      have hhigh : c.toNat ≤ 126 := hraw.2
      rw [units,if_pos (by omega)]
      exact scanString_raw hquote hslash hlow s
    · unfold units
      split_ifs with hlow
      · simp only [List.flatMap_cons,List.flatMap_nil,List.append_nil]
        exact scanString_escapeUnit hlow s
      · have hbound : c.toNat < 1114112 := by
          rcases (show c.toNat.isValidChar from c.valid) with h | ⟨-,h⟩ <;> omega
        simp only [List.flatMap_cons,List.flatMap_nil,List.append_nil,List.append_assoc]
        rw [scanString_escapeUnit (by omega),scanString_escapeUnit (by omega),Option.map_map]
        rfl

/-- A string that was written is read back. -/
theorem scanString_quote (s rest : List Char) :
    scanString (s.flatMap escapeChar++ '"'::rest) = some (s.flatMap units,rest) := by
  induction s with
  | nil => rfl
  | cons c s ih =>
    rw [List.flatMap_cons,List.append_assoc,scanString_escapeChar,ih]
    rfl

/-- A string that ends is read in the same way in front of anything. -/
theorem scanString_append {s rest : List Char} {found : List ℕ} (h : scanString s = some (found,rest)) :
    rest.length < s.length ∧ ∀ more, scanString (s++more) = some (found,rest++more) := by
  induction s using scanString.induct generalizing found with
  | case1 => cases h
  | case2 s =>
    cases h
    exact ⟨Nat.lt_succ_self _,fun more => rfl⟩
  | case3 a b c d s hhex =>
    rw [scanString,hhex] at h
    cases h
  | case4 a b c d s n hhex ih =>
    rw [scanString,hhex] at h
    obtain ⟨_,hfound,hsame⟩ := Option.map_eq_some_iff.mp h
    cases hsame
    obtain ⟨hlength,happend⟩ := ih hfound
    refine ⟨by simp only [List.length_cons]; omega,fun more => ?_⟩
    simp only [List.cons_append]
    rw [scanString,hhex]
    simp only [happend more,Option.map_some]
  | case5 c s hcase hletter =>
    rw [scanString,hletter] at h
    · cases h
    · exact hcase
  | case6 c s hcase letter hletter ih =>
    rw [scanString,hletter] at h
    · obtain ⟨_,hfound,hsame⟩ := Option.map_eq_some_iff.mp h
      cases hsame
      obtain ⟨hlength,happend⟩ := ih hfound
      have hu : c ≠ 'u' := by
        rintro rfl
        rw [show shortEscape 'u' = none by decide] at hletter
        cases hletter
      refine ⟨by simp only [List.length_cons]; omega,fun more => ?_⟩
      simp only [List.cons_append]
      rw [scanString,hletter]
      · simp only [happend more,Option.map_some]
      · exact fun _ _ _ _ _ h _ => hu h
    · exact hcase
  | case7 c s hquote hcase hcase' hcontrol =>
    rw [scanString,if_pos hcontrol] at h
    · cases h
    all_goals assumption
  | case8 c s hquote hcase hcase' hcontrol ih =>
    rw [scanString,if_neg hcontrol] at h
    · obtain ⟨_,hfound,hsame⟩ := Option.map_eq_some_iff.mp h
      cases hsame
      obtain ⟨hlength,happend⟩ := ih hfound
      have hslash : c ≠ '\\' := by
        rintro rfl
        cases s with
        | nil => cases hfound
        | cons c' s => exact hcase' c' s rfl rfl
      refine ⟨by simp only [List.length_cons]; omega,fun more => ?_⟩
      rw [List.cons_append,scanString_raw hquote hslash (by omega),happend more]
      rfl
    all_goals assumption

/-- The characters of which numbers are made. -/
def numberChar (c : Char) : Bool := c.isDigit || c = '.' || c = 'e' || c = 'E' || c = '+' || c = '-'

/-- The text does not begin with such a character. -/
def NoHead (p : Char → Bool) (s : List Char) : Prop := ∀ c, s.head? = some c → p c = false

lemma noHead_nil (p : Char → Bool) : NoHead p [] := fun _ h => by cases h

lemma noHead_cons {p : Char → Bool} {c : Char} (h : p c = false) (s : List Char) : NoHead p (c::s) := by
  intro d hd
  cases hd
  exact h

lemma NoHead.mono {p q : Char → Bool} {s : List Char} (hpq : ∀ c, p c = false → q c = false) (h : NoHead p s) :
    NoHead q s := fun c hc => hpq c (h c hc)

def digits (s : List Char) : List Char × List Char := (s.takeWhile Char.isDigit,s.dropWhile Char.isDigit)

def scanSign : List Char → List Char × List Char
  | '-'::s => (['-'],s)
  | s => ([],s)

/-- A zero, or digits that do not begin with one. -/
def scanInt : List Char → Option (List Char × List Char)
  | '0'::s => some (['0'],s)
  | s => if (digits s).1 = [] then none else some (digits s)

def scanFraction : List Char → List Char × List Char
  | '.'::s => if (digits s).1 = [] then ([],'.'::s) else ('.'::(digits s).1,(digits s).2)
  | s => ([],s)

def scanExponentSign : List Char → List Char × List Char
  | '+'::s => (['+'],s)
  | '-'::s => (['-'],s)
  | s => ([],s)

def scanExponent : List Char → List Char × List Char
  | c::s =>
    if (c = 'e' ∨ c = 'E') ∧ (digits (scanExponentSign s).2).1 ≠ [] then
      (c::(scanExponentSign s).1++(digits (scanExponentSign s).2).1,(digits (scanExponentSign s).2).2)
    else ([],c::s)
  | [] => ([],[])

/-- The text of a number, whether it has a fraction or an exponent, and what comes behind it. -/
def scanNumber (s : List Char) : Option (List Char × Bool × List Char) :=
  match scanInt (scanSign s).2 with
  | none => none
  | some (int,rest) =>
    let fraction := scanFraction rest
    let exponent := scanExponent fraction.2
    some ((scanSign s).1++int++fraction.1++exponent.1,!fraction.1.isEmpty || !exponent.1.isEmpty,exponent.2)

/-- The integer that a text without fraction and exponent stands for. -/
def intOf : List Char → ℤ
  | '-'::s => -(Nat.ofDigitChars 10 s 0)
  | s => Nat.ofDigitChars 10 s 0

def intText (n : ℤ) : List Char := (if n < 0 then ['-'] else [])++Nat.toDigits 10 n.natAbs

variable {s rest more : List Char}

lemma digits_append (h : NoHead Char.isDigit ((digits s).2++more)) :
    digits (s++more) = ((digits s).1,(digits s).2++more) := by
  induction s with
  | nil =>
    cases more with
    | nil => rfl
    | cons c more =>
      have hc := h c rfl
      simp [digits,hc]
  | cons c s ih =>
    by_cases hc : c.isDigit
    · have hnext : digits (c::s) = (c::(digits s).1,(digits s).2) := by simp [digits,hc]
      have hnext' : digits (c::(s++more)) = (c::(digits (s++more)).1,(digits (s++more)).2) := by simp [digits,hc]
      rw [hnext] at h ⊢
      rw [List.cons_append,hnext',ih h]
    · simp [digits,hc]

/-- The rest does not begin with a character that could go on with a number. -/
def fractionChar (c : Char) : Bool := c.isDigit || c = '.'

lemma fractionChar_eq_false {c : Char} (h : numberChar c = false) : fractionChar c = false := by
  simp only [numberChar,fractionChar,Bool.or_eq_false_iff] at h ⊢
  exact ⟨h.1.1.1.1.1,h.1.1.1.1.2⟩

lemma isDigit_eq_false {c : Char} (h : fractionChar c = false) : c.isDigit = false := by
  rw [fractionChar,Bool.or_eq_false_iff] at h
  exact h.1

lemma scanExponentSign_append (h : s ≠ []) :
    scanExponentSign (s++more) = ((scanExponentSign s).1,(scanExponentSign s).2++more) := by
  obtain ⟨c,s,rfl⟩ := List.exists_cons_of_ne_nil h
  unfold scanExponentSign
  split
  · next heq => cases heq; rfl
  · next heq => cases heq; rfl
  · next hplus hminus =>
    split
    · next heq => cases heq; exact absurd rfl (hplus _)
    · next heq => cases heq; exact absurd rfl (hminus _)
    · rfl

lemma scanExponent_append (h : NoHead numberChar ((scanExponent s).2++more)) :
    scanExponent (s++more) = ((scanExponent s).1,(scanExponent s).2++more) ∧ NoHead fractionChar (s++more) := by
  cases s with
  | nil =>
    refine ⟨?_,h.mono (fun _ => fractionChar_eq_false)⟩
    cases more with
    | nil => rfl
    | cons c more =>
      have hc := h c rfl
      have hexp : ¬(c = 'e' ∨ c = 'E') := by
        rintro (rfl | rfl) <;> exact absurd hc (by decide)
      rw [List.nil_append,scanExponent,if_neg (fun h => hexp h.1)]
      rfl
  | cons c s =>
    rw [scanExponent] at h ⊢
    by_cases hcond : (c = 'e' ∨ c = 'E') ∧ (digits (scanExponentSign s).2).1 ≠ []
    · rw [if_pos hcond] at h ⊢
      have hne : s ≠ [] := by
        rintro rfl
        exact hcond.2 rfl
      have hdigits := digits_append (h.mono (fun _ hc => isDigit_eq_false (fractionChar_eq_false hc)))
      constructor
      · rw [List.cons_append,scanExponent,scanExponentSign_append hne]
        simp only [hdigits]
        rw [if_pos hcond]
      · refine noHead_cons ?_ (s++more)
        rcases hcond.1 with rfl | rfl <;> decide
    · rw [if_neg hcond] at h ⊢
      have hc := h c rfl
      have hexp : ¬(c = 'e' ∨ c = 'E') := by
        rintro (rfl | rfl) <;> exact absurd hc (by decide)
      refine ⟨?_,noHead_cons (fractionChar_eq_false hc) (s++more)⟩
      rw [List.cons_append,scanExponent,if_neg (fun h => hexp h.1)]

lemma scanFraction_append (h : NoHead fractionChar ((scanFraction s).2++more)) :
    scanFraction (s++more) = ((scanFraction s).1,(scanFraction s).2++more) ∧ NoHead Char.isDigit (s++more) := by
  have hdigit : ∀ {t : List Char}, NoHead fractionChar t → NoHead Char.isDigit t := fun ht =>
    ht.mono (fun _ => isDigit_eq_false)
  have hnone : ∀ {t : List Char}, NoHead fractionChar t → scanFraction t = ([],t) := by
    intro t ht
    unfold scanFraction
    split
    · exact absurd (ht '.' rfl) (by decide)
    · rfl
  by_cases hpoint : ∃ t, s = '.'::t
  · obtain ⟨t,rfl⟩ := hpoint
    rw [scanFraction] at h ⊢
    by_cases hempty : (digits t).1 = []
    · rw [if_pos hempty] at h
      exact absurd (h '.' rfl) (by decide)
    · rw [if_neg hempty] at h ⊢
      have hdigits := digits_append (hdigit h)
      refine ⟨?_,noHead_cons (by decide) (t++more)⟩
      rw [List.cons_append,scanFraction,hdigits,if_neg hempty]
  · have hs : scanFraction s = ([],s) := by
      unfold scanFraction
      split
      · exact absurd ⟨_,rfl⟩ hpoint
      · rfl
    rw [hs] at h ⊢
    exact ⟨hnone h,hdigit h⟩

lemma scanInt_append {int : List Char} (hscan : scanInt s = some (int,rest)) (h : NoHead Char.isDigit (rest++more)) :
    scanInt (s++more) = some (int,rest++more) ∧ s ≠ [] := by
  have hne : s ≠ [] := by
    rintro rfl
    cases hscan
  refine ⟨?_,hne⟩
  obtain ⟨c,s,rfl⟩ := List.exists_cons_of_ne_nil hne
  by_cases hzero : c = '0'
  · subst hzero
    cases hscan
    rfl
  · rw [scanInt] at hscan
    · split_ifs at hscan with hempty
      cases Option.some.inj hscan
      have hdigits := digits_append (s := c::s) h
      rw [List.cons_append,scanInt]
      · rw [← List.cons_append,hdigits,if_neg hempty]
        rfl
      · rintro _ heq
        exact hzero (List.cons.inj heq).1
    · rintro _ heq
      exact hzero (List.cons.inj heq).1

lemma scanSign_append (h : s ≠ []) : scanSign (s++more) = ((scanSign s).1,(scanSign s).2++more) := by
  obtain ⟨c,s,rfl⟩ := List.exists_cons_of_ne_nil h
  unfold scanSign
  split
  · next heq => cases heq; rfl
  · next hminus =>
    split
    · next heq => cases heq; exact absurd rfl (hminus _)
    · rfl

/-- A number is read in the same way in front of anything that cannot go on with it. -/
theorem scanNumber_append {text : List Char} {decimal : Bool} (hscan : scanNumber s = some (text,decimal,rest))
    (h : NoHead numberChar (rest++more)) : scanNumber (s++more) = some (text,decimal,rest++more) := by
  unfold scanNumber at hscan
  cases hint : scanInt (scanSign s).2 with
  | none =>
    rw [hint] at hscan
    cases hscan
  | some found =>
  obtain ⟨int,s2⟩ := found
  simp only [hint] at hscan
  obtain ⟨rfl,htail⟩ := Prod.mk.inj (Option.some.inj hscan)
  obtain ⟨rfl,rfl⟩ := Prod.mk.inj htail
  obtain ⟨hexponent,hfractionHead⟩ := scanExponent_append h
  obtain ⟨hfraction,hdigitHead⟩ := scanFraction_append hfractionHead
  obtain ⟨hint',hne⟩ := scanInt_append hint hdigitHead
  have hs : s ≠ [] := by
    rintro rfl
    exact hne rfl
  unfold scanNumber
  simp only [scanSign_append hs,hint',hfraction,hexponent]

/-- A numeral begins with a zero only if it is the zero. -/
lemma head_toDigits {n : ℕ} (h : n ≠ 0) : (Nat.toDigits 10 n).head? ≠ some '0' := by
  induction n using Nat.strongRecOn with
  | _ n ih =>
    by_cases hlt : n < 10
    · rw [Nat.toDigits_of_lt_base hlt]
      have hall : ∀ k : Fin 10, k.val ≠ 0 → Nat.digitChar k ≠ '0' := by decide
      exact fun heq => hall ⟨n,hlt⟩ h (Option.some.inj heq)
    · have hhead : (Nat.toDigits 10 (n/10)).head? ≠ some '0' := ih (n/10) (by omega) (by omega)
      rw [Nat.toDigits_of_base_le (by omega) (by omega),List.head?_append_of_ne_nil _ Nat.toDigits_ne_nil]
      exact hhead

lemma scanInt_toDigits (n : ℕ) : scanInt (Nat.toDigits 10 n) = some (Nat.toDigits 10 n,[]) := by
  by_cases hzero : n = 0
  · subst hzero
    rfl
  · have hall : ∀ c ∈ Nat.toDigits 10 n, c.isDigit := fun c hc =>
      Nat.isDigit_of_mem_toDigits (by decide) (by decide) hc
    have hdigits : digits (Nat.toDigits 10 n) = (Nat.toDigits 10 n,[]) := by
      rw [digits,List.takeWhile_eq_self_iff.mpr hall,List.dropWhile_eq_nil_iff.mpr hall]
    unfold scanInt
    split
    · next heq => exact absurd (by rw [heq]; rfl) (head_toDigits hzero)
    · rw [hdigits,if_neg Nat.toDigits_ne_nil]

lemma toDigits_ne_minus (n : ℕ) (s : List Char) : Nat.toDigits 10 n ≠ '-'::s := by
  intro heq
  have hdigit := Nat.isDigit_of_mem_toDigits (b := 10) (n := n) (c := '-') (by decide) (by decide)
    (by rw [heq]; exact List.mem_cons_self)
  exact absurd hdigit (by decide)

lemma scanSign_toDigits (n : ℕ) : scanSign (Nat.toDigits 10 n) = ([],Nat.toDigits 10 n) := by
  unfold scanSign
  split
  · next heq => exact absurd heq (toDigits_ne_minus n _)
  · rfl

/-- An integer is read back. -/
theorem scanNumber_intText (n : ℤ) : scanNumber (intText n) = some (intText n,false,[]) ∧ intOf (intText n) = n := by
  have hvalue : ((Nat.ofDigitChars 10 (Nat.toDigits 10 n.natAbs) 0 : ℕ) : ℤ) = n.natAbs := by
    rw [Nat.ofDigitChars_ten_toDigits]
  unfold intText
  split_ifs with hneg
  · constructor
    · simp [scanNumber,scanSign,scanInt_toDigits,scanFraction,scanExponent]
    · simp only [List.singleton_append,intOf,hvalue]
      omega
  · constructor
    · simp [scanNumber,scanSign_toDigits,scanInt_toDigits,scanFraction,scanExponent]
    · unfold intOf
      split
      · next heq => exact absurd heq (toDigits_ne_minus _ _)
      · rw [List.nil_append,hvalue]
        omega

lemma digits_length (s : List Char) : (digits s).1.length+(digits s).2.length = s.length := by
  rw [← List.length_append,digits,List.takeWhile_append_dropWhile]

lemma scanInt_length {int : List Char} (h : scanInt s = some (int,rest)) : rest.length < s.length := by
  unfold scanInt at h
  split at h
  · cases h
    exact Nat.lt_succ_self _
  · split_ifs at h with hempty
    have hlength := digits_length s
    rw [Option.some.inj h] at hlength hempty
    have hpos := List.length_pos_iff.mpr hempty
    simp only at hlength hpos
    omega

lemma scanFraction_length (s : List Char) : (scanFraction s).2.length ≤ s.length := by
  unfold scanFraction
  split
  · next t =>
    split_ifs
    · exact Nat.le_refl _
    · have hlength := digits_length t
      simp only [List.length_cons]
      omega
  · exact Nat.le_refl _

lemma scanExponent_length (s : List Char) : (scanExponent s).2.length ≤ s.length := by
  cases s with
  | nil => exact Nat.le_refl _
  | cons c s =>
    have hsign : (scanExponentSign s).2.length ≤ s.length := by
      unfold scanExponentSign
      split <;> simp
    rw [scanExponent]
    split_ifs
    · have hlength := digits_length (scanExponentSign s).2
      simp only [List.length_cons]
      omega
    · exact Nat.le_refl _

lemma scanSign_length (s : List Char) : (scanSign s).2.length ≤ s.length := by
  unfold scanSign
  split <;> simp

theorem scanNumber_length {text : List Char} {decimal : Bool} (h : scanNumber s = some (text,decimal,rest)) :
    rest.length < s.length := by
  unfold scanNumber at h
  cases hint : scanInt (scanSign s).2 with
  | none =>
    rw [hint] at h
    cases h
  | some found =>
    obtain ⟨int,s2⟩ := found
    simp only [hint] at h
    obtain ⟨-,htail⟩ := Prod.mk.inj (Option.some.inj h)
    obtain ⟨-,rfl⟩ := Prod.mk.inj htail
    have hsign := scanSign_length s
    have hintLength := scanInt_length hint
    have hfraction := scanFraction_length s2
    have hexponent := scanExponent_length (scanFraction s2).2
    omega

/-- A number begins with a digit, perhaps behind a sign. -/
theorem scanNumber_head {found : List Char × Bool × List Char} (h : scanNumber s = some found) :
    ∃ c t, c.isDigit ∧ (s = c::t ∨ s = '-'::c::t) := by
  have hint : ∀ {t : List Char} {found}, scanInt t = some found → ∃ c u, c.isDigit ∧ t = c::u := by
    intro t found hscan
    unfold scanInt at hscan
    split at hscan
    · next u => exact ⟨'0',u,rfl,rfl⟩
    · split_ifs at hscan with hempty
      cases t with
      | nil => exact absurd rfl hempty
      | cons c u =>
        refine ⟨c,u,?_,rfl⟩
        by_contra hc
        exact hempty (by simp [digits,hc])
  unfold scanNumber at h
  cases hscan : scanInt (scanSign s).2 with
  | none =>
    rw [hscan] at h
    cases h
  | some found =>
    obtain ⟨c,t,hc,hs⟩ := hint hscan
    refine ⟨c,t,hc,?_⟩
    unfold scanSign at hs
    split at hs
    · exact .inr (by rw [← hs])
    · exact .inl hs

end HiveKernel.Lib.JsonText
