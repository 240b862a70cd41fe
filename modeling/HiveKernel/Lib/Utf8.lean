import Mathlib.Data.List.Basic

/-! Bytes that are meant to be UTF-8. They fall into encodings of characters and single bytes at which no
encoding starts; since no encoding starts within another one, this is the only way to read them. -/
namespace HiveKernel.Lib.Utf8

abbrev encodeChar (c : Char) : List UInt8 := String.utf8EncodeChar c

def encode (cs : List Char) : List UInt8 := cs.flatMap encodeChar

/-- The bytes are the encoding of a text. -/
def Valid (s : List UInt8) : Prop := ∃ cs, s = encode cs

/-- The character whose encoding the bytes start with. -/
def first (s : List UInt8) : Option Char := s.toByteArray.utf8DecodeChar? 0

variable {s rest : List UInt8} {b : UInt8} {c d : Char}

lemma encodeChar_ne_nil (c : Char) : encodeChar c ≠ [] := by
  intro h
  have hsize : (encodeChar c).length = c.utf8Size := String.length_utf8EncodeChar c
  have hpos := c.utf8Size_pos
  rw [h,List.length_nil] at hsize
  omega

lemma first_encodeChar (c : Char) (rest : List UInt8) : first (encodeChar c++rest) = some c := by
  rw [first,List.toByteArray_append]
  exact ByteArray.utf8DecodeChar?_utf8EncodeChar_append

lemma first_eq_some_iff : first s = some c ↔ encodeChar c <+: s := by
  constructor
  · intro h
    obtain ⟨l,hl⟩ := ByteArray.exists_of_utf8DecodeChar?_eq_some h
    refine ⟨l.data.toList,List.toByteArray_inj.mp ?_⟩
    rw [hl,List.toByteArray_append]
    congr 1
    exact ByteArray.ext (by simp)
  · rintro ⟨rest,rfl⟩
    exact first_encodeChar c rest

lemma first_eq_none_iff : first s = none ↔ ∀ c, ¬encodeChar c <+: s := by
  rw [Option.eq_none_iff_forall_ne_some]
  exact forall_congr' (fun c => not_congr first_eq_some_iff)

/-- Decode one character after the other, for at most so many. -/
def validFrom : ℕ → List UInt8 → Bool
  | 0,s => s.isEmpty
  | n+1,s => s.isEmpty || match first s with
    | none => false
    | some c => validFrom n (s.drop (encodeChar c).length)

lemma validFrom_iff {n : ℕ} (h : s.length ≤ n) : validFrom n s = true ↔ Valid s := by
  induction n generalizing s with
  | zero =>
    obtain rfl : s = [] := List.eq_nil_of_length_eq_zero (Nat.le_zero.mp h)
    exact iff_of_true rfl ⟨[],rfl⟩
  | succ n ih =>
    rw [validFrom,Bool.or_eq_true,List.isEmpty_iff]
    constructor
    · rintro (rfl | hrest)
      · exact ⟨[],rfl⟩
      · cases hfirst : first s with
        | none => simp [hfirst] at hrest
        | some c =>
          obtain ⟨rest,rfl⟩ := first_eq_some_iff.mp hfirst
          have hpos := List.length_pos_iff.mpr (encodeChar_ne_nil c)
          rw [List.length_append] at h
          simp only [hfirst,List.drop_left] at hrest
          obtain ⟨cs,rfl⟩ := (ih (by omega)).mp hrest
          exact ⟨c::cs,rfl⟩
    · rintro ⟨cs,rfl⟩
      cases cs with
      | nil => exact .inl rfl
      | cons c cs =>
        have hpos := List.length_pos_iff.mpr (encodeChar_ne_nil c)
        have hencode : encode (c::cs) = encodeChar c++encode cs := rfl
        rw [hencode,List.length_append] at h
        right
        simp only [hencode,first_encodeChar,List.drop_left]
        exact (ih (by omega)).mpr ⟨cs,rfl⟩

/-- Two encodings at one place are the same. -/
lemma encodeChar_unique (hc : encodeChar c <+: s) (hd : encodeChar d <+: s) : c = d :=
  Option.some.inj ((first_eq_some_iff.mpr hc).symm.trans (first_eq_some_iff.mpr hd))

/-- Within an encoding no other one starts. -/
lemma not_encodeChar_within {a : ℕ} (ha : 0 < a) (hlt : a < (encodeChar c).length) :
    ¬encodeChar d <+: (encodeChar c++rest).drop a := by
  rintro ⟨tail,htail⟩
  obtain ⟨b,bs,hd⟩ := List.exists_cons_of_ne_nil (encodeChar_ne_nil d)
  have hfirst : b.IsUTF8FirstByte := by
    have hzero := @UInt8.isUTF8FirstByte_getElem_zero_utf8EncodeChar d
    simp only [show String.utf8EncodeChar d = b::bs from hd] at hzero
    exact hzero
  have hbyte : ((encodeChar c++rest).drop a)[0]? = some b := by
    rw [← htail,hd]
    rfl
  rw [List.getElem?_drop,Nat.add_zero,List.getElem?_append_left hlt,List.getElem?_eq_getElem hlt,Option.some.injEq]
    at hbyte
  rw [← hbyte,UInt8.isUTF8FirstByte_getElem_utf8EncodeChar] at hfirst
  omega

/-- How bytes are read: a character where an encoding starts, and otherwise a single byte. -/
inductive Pieces : List (Char ⊕ UInt8) → List UInt8 → Prop
  | nil : Pieces [] []
  | rune {pieces : List (Char ⊕ UInt8)} {s : List UInt8} (c : Char) (rest : Pieces pieces s) :
    Pieces (.inl c::pieces) (encodeChar c++s)
  | stray {pieces : List (Char ⊕ UInt8)} {s : List UInt8} {b : UInt8} (hnone : ∀ c, ¬encodeChar c <+: b::s)
    (rest : Pieces pieces s) : Pieces (.inr b::pieces) (b::s)

/-- Write the pieces, with a substitute for the bytes that belong to no character. -/
def written (substitute : Char) (pieces : List (Char ⊕ UInt8)) : List UInt8 :=
  pieces.flatMap (Sum.elim encodeChar (fun _ => encodeChar substitute))

lemma Pieces.unique {pieces pieces' : List (Char ⊕ UInt8)} (h : Pieces pieces s) (h' : Pieces pieces' s) :
    pieces = pieces' := by
  induction h generalizing pieces' with
  | nil =>
    generalize hs : ([] : List UInt8) = s at h'
    cases h' with
    | nil => rfl
    | rune c _ => exact absurd (List.append_eq_nil_iff.mp hs.symm).1 (encodeChar_ne_nil c)
    | stray => cases hs
  | @rune pieces s c _ ih =>
    generalize hs : encodeChar c++s = t at h'
    cases h' with
    | nil => exact absurd (List.append_eq_nil_iff.mp hs).1 (encodeChar_ne_nil c)
    | @rune pieces' s' d hrest =>
      obtain rfl : c = d := encodeChar_unique ⟨s,hs⟩ ⟨s',rfl⟩
      rw [ih (List.append_cancel_left hs ▸ hrest)]
    | stray hnone => exact absurd ⟨s,hs⟩ (hnone c)
  | @stray pieces s b hnone _ ih =>
    generalize hs : b::s = t at h'
    cases h' with
    | nil => cases hs
    | @rune pieces' s' d _ => exact absurd ⟨s',hs.symm⟩ (hnone d)
    | @stray pieces' s' b' _ hrest =>
      obtain ⟨rfl,rfl⟩ := List.cons.inj hs
      rw [ih hrest]

lemma pieces_encode (cs : List Char) : Pieces (cs.map .inl) (encode cs) := by
  induction cs with
  | nil => exact .nil
  | cons c cs ih => exact .rune c ih

lemma valid_written (substitute : Char) (pieces : List (Char ⊕ UInt8)) : Valid (written substitute pieces) := by
  refine ⟨pieces.map (Sum.elim id (fun _ => substitute)),?_⟩
  rw [written,encode,List.flatMap_map]
  congr 1
  funext piece
  cases piece <;> rfl

/-- What is valid is written as it was. -/
lemma written_of_valid {substitute : Char} {pieces : List (Char ⊕ UInt8)} (h : Pieces pieces s) (hs : Valid s) :
    written substitute pieces = s := by
  obtain ⟨cs,rfl⟩ := hs
  rw [h.unique (pieces_encode cs),written,encode,List.flatMap_map]
  rfl

/-- The byte at the place belongs to an encoding of a character. -/
def Covered (s : List UInt8) (i : ℕ) : Prop :=
  ∃ start c, start ≤ i ∧ i < start+(encodeChar c).length ∧ encodeChar c <+: s.drop start

lemma covered_rune (c : Char) (s : List UInt8) (i : ℕ) : Covered (encodeChar c++s) i ↔
    i < (encodeChar c).length ∨ Covered s (i-(encodeChar c).length) := by
  constructor
  · rintro ⟨start,d,hle,hlt,hd⟩
    by_cases hi : i < (encodeChar c).length
    · exact .inl hi
    refine .inr ?_
    by_cases hstart : (encodeChar c).length ≤ start
    · refine ⟨start-(encodeChar c).length,d,by omega,by omega,?_⟩
      rwa [List.drop_append,List.drop_of_length_le hstart,List.nil_append] at hd
    · exfalso
      rcases Nat.eq_zero_or_pos start with rfl | hpos
      · have hsame : c = d := encodeChar_unique ⟨s,rfl⟩ (by simpa using hd)
        rw [hsame] at hi
        omega
      · exact not_encodeChar_within hpos (Nat.not_le.mp hstart) hd
  · rintro (hi | ⟨start,d,hle,hlt,hd⟩)
    · exact ⟨0,c,Nat.zero_le i,by omega,⟨s,rfl⟩⟩
    · by_cases hi : i < (encodeChar c).length
      · exact ⟨0,c,Nat.zero_le i,by omega,⟨s,rfl⟩⟩
      · refine ⟨(encodeChar c).length+start,d,by omega,by omega,?_⟩
        rw [List.drop_append,List.drop_of_length_le (by omega),List.nil_append,Nat.add_sub_cancel_left]
        exact hd

lemma covered_stray (hnone : ∀ c, ¬encodeChar c <+: b::s) (i : ℕ) : Covered (b::s) i ↔ 0 < i ∧ Covered s (i-1) := by
  constructor
  · rintro ⟨start,d,hle,hlt,hd⟩
    cases start with
    | zero => exact absurd hd (hnone d)
    | succ start => exact ⟨by omega,start,d,by omega,by omega,hd⟩
  · rintro ⟨hpos,start,d,hle,hlt,hd⟩
    exact ⟨start+1,d,by omega,by omega,hd⟩

/-- The bytes of characters are kept in their places, and every other byte is replaced. -/
lemma getElem?_written {substitute : Char} (hone : (encodeChar substitute).length = 1)
    {pieces : List (Char ⊕ UInt8)} (h : Pieces pieces s) :
    (written substitute pieces).length = s.length ∧ ∀ i < s.length,
      (Covered s i → (written substitute pieces)[i]? = s[i]?) ∧
      (¬Covered s i → (written substitute pieces)[i]? = (encodeChar substitute)[0]?) := by
  induction h with
  | nil => exact ⟨rfl,fun i hi => absurd hi (Nat.not_lt_zero i)⟩
  | @rune pieces s c _ ih =>
    have hwritten : written substitute (.inl c::pieces) = encodeChar c++written substitute pieces := rfl
    rw [hwritten,List.length_append,List.length_append,ih.1]
    refine ⟨rfl,fun i hi => ?_⟩
    rw [covered_rune]
    by_cases hlt : i < (encodeChar c).length
    · rw [List.getElem?_append_left hlt,List.getElem?_append_left hlt]
      exact ⟨fun _ => rfl,fun hnot => absurd (Or.inl hlt) hnot⟩
    · rw [List.getElem?_append_right (Nat.not_lt.mp hlt),List.getElem?_append_right (Nat.not_lt.mp hlt)]
      obtain ⟨hkept,hreplaced⟩ := ih.2 (i-(encodeChar c).length) (by omega)
      exact ⟨fun hcovered => hkept (hcovered.resolve_left hlt),fun hnot => hreplaced (fun h => hnot (.inr h))⟩
  | @stray pieces s b hnone _ ih =>
    have hwritten : written substitute (.inr b::pieces) = encodeChar substitute++written substitute pieces := rfl
    rw [hwritten,List.length_append,hone,List.length_cons,ih.1]
    refine ⟨Nat.add_comm 1 _,fun i hi => ?_⟩
    rw [covered_stray hnone]
    cases i with
    | zero =>
      rw [List.getElem?_append_left (by omega)]
      exact ⟨fun hcovered => absurd hcovered.1 (Nat.lt_irrefl 0),fun _ => rfl⟩
    | succ i =>
      rw [List.getElem?_append_right (by omega),hone,Nat.add_sub_cancel,List.getElem?_cons_succ]
      obtain ⟨hkept,hreplaced⟩ := ih.2 i (by omega)
      exact ⟨fun hcovered => hkept hcovered.2,fun hnot => hreplaced (fun h => hnot ⟨Nat.succ_pos i,h⟩)⟩

end HiveKernel.Lib.Utf8
