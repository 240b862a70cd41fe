import HiveKernel.Lib.Utf8

/-! Texts that go out with an event have to be valid UTF-8; payloads need not be. -/
namespace HiveKernel
open Lib Utf8

def runeError : Char := '\ufffd'

/-- `utf8.ValidString`. -/
def validString (s : List UInt8) : Bool := validFrom s.length s

/-- `utf8.DecodeRuneInString`: the first character and its width. What is no encoding has width 1, except the
empty text. -/
def decodeRuneInString (s : List UInt8) : Char × ℕ :=
  if s = [] then (runeError,0)
  else match first s with
    | none => (runeError,1)
    | some c => (c,(encodeChar c).length)

/-- The loop over the bytes. Each turn takes at least one of them. -/
def replaceInvalid : ℕ → List UInt8 → List UInt8
  | 0,_ => []
  | n+1,s =>
    if s = [] then []
    else
      let (r,size) := decodeRuneInString s
      if r = runeError ∧ size ≤ 1 then '?'.toUInt8::replaceInvalid n (s.drop 1)
      else s.take size++replaceInvalid n (s.drop size)

/-- Replace invalid bytes. -/
def sanitizeUTF8 (s : List UInt8) : List UInt8 := if validString s then s else replaceInvalid s.length s

variable {s : List UInt8}

lemma validString_iff : validString s = true ↔ Valid s := validFrom_iff (Nat.le_refl _)

/-- A replacement character that is decoded is wider than an error. -/
lemma not_runeError_of_decoded {c : Char} : ¬(c = runeError ∧ (encodeChar c).length ≤ 1) := by
  rintro ⟨rfl,hsize⟩
  revert hsize
  decide

/-- The loop reads the text as pieces and writes them. -/
lemma replaceInvalid_pieces {n : ℕ} (h : s.length ≤ n) :
    ∃ pieces, Pieces pieces s ∧ replaceInvalid n s = written '?' pieces := by
  induction n generalizing s with
  | zero =>
    obtain rfl : s = [] := List.eq_nil_of_length_eq_zero (Nat.le_zero.mp h)
    exact ⟨[],.nil,rfl⟩
  | succ n ih =>
    by_cases hnil : s = []
    · subst hnil
      exact ⟨[],.nil,rfl⟩
    cases hfirst : first s with
    | none =>
      obtain ⟨b,rest,rfl⟩ := List.exists_cons_of_ne_nil hnil
      obtain ⟨pieces,hpieces,hrest⟩ := ih (s := rest) (Nat.le_of_succ_le_succ h)
      refine ⟨.inr b::pieces,.stray (first_eq_none_iff.mp hfirst) hpieces,?_⟩
      simp only [replaceInvalid,decodeRuneInString,if_neg hnil,hfirst,true_and,Nat.le_refl,if_true,List.drop_one,
        List.tail_cons,hrest]
      rfl
    | some c =>
      obtain ⟨rest,rfl⟩ := first_eq_some_iff.mp hfirst
      have hpos := List.length_pos_iff.mpr (encodeChar_ne_nil c)
      rw [List.length_append] at h
      obtain ⟨pieces,hpieces,hrest⟩ := ih (s := rest) (by omega)
      refine ⟨.inl c::pieces,.rune c hpieces,?_⟩
      simp only [replaceInvalid,decodeRuneInString,if_neg hnil,hfirst,if_neg not_runeError_of_decoded,List.take_left,
        List.drop_left,hrest]
      rfl

/-- Whether or not the text is valid. -/
lemma sanitizeUTF8_pieces (s : List UInt8) : ∃ pieces, Pieces pieces s ∧ sanitizeUTF8 s = written '?' pieces := by
  obtain ⟨pieces,hpieces,hwritten⟩ := replaceInvalid_pieces (s := s) (Nat.le_refl _)
  refine ⟨pieces,hpieces,?_⟩
  unfold sanitizeUTF8
  split_ifs with hvalid
  · exact (written_of_valid hpieces (validString_iff.mp hvalid)).symm
  · exact hwritten

lemma valid_sanitizeUTF8 (s : List UInt8) : Valid (sanitizeUTF8 s) := by
  obtain ⟨pieces,-,hwritten⟩ := sanitizeUTF8_pieces s
  rw [hwritten]
  exact valid_written '?' pieces

lemma sanitizeUTF8_of_valid (h : Valid s) : sanitizeUTF8 s = s := if_pos (validString_iff.mpr h)

/-- The result is valid UTF-8, is the text itself if that is valid, and stays as it is. Exactly the bytes that
belong to no encoding of a character are replaced, each by a question mark; the characters keep their order. -/
theorem sanitizeUTF8_exact (s : List UInt8) :
    Valid (sanitizeUTF8 s) ∧ (Valid s → sanitizeUTF8 s = s) ∧
    sanitizeUTF8 (sanitizeUTF8 s) = sanitizeUTF8 s ∧
    (sanitizeUTF8 s).length = s.length ∧
    (∀ i < s.length, (Covered s i → (sanitizeUTF8 s)[i]? = s[i]?) ∧
      (¬Covered s i → (sanitizeUTF8 s)[i]? = some '?'.toUInt8)) ∧
    ∃ pieces, Pieces pieces s ∧ sanitizeUTF8 s = written '?' pieces := by
  obtain ⟨pieces,hpieces,hwritten⟩ := sanitizeUTF8_pieces s
  have hbytes := @getElem?_written s '?' (by decide) pieces hpieces
  rw [← hwritten] at hbytes
  exact ⟨valid_sanitizeUTF8 s,sanitizeUTF8_of_valid,sanitizeUTF8_of_valid (valid_sanitizeUTF8 s),hbytes.1,hbytes.2,
    pieces,hpieces,hwritten⟩

theorem sanitizeUTF8_exact_truncated : sanitizeUTF8 [0xef,0xbf,0xbd] = [0xef,0xbf,0xbd] ∧
    sanitizeUTF8 [0x61,0xff,0xef,0xbf,0xbd,0xe2,0x82] = [0x61,0x3f,0xef,0xbf,0xbd,0x3f,0x3f] ∧
    ¬Covered [0x61,0xff,0xef,0xbf,0xbd,0xe2,0x82] 5 := by
  have hsanitized : sanitizeUTF8 [0x61,0xff,0xef,0xbf,0xbd,0xe2,0x82] = [0x61,0x3f,0xef,0xbf,0xbd,0x3f,0x3f] := by
    decide
  refine ⟨(sanitizeUTF8_exact [0xef,0xbf,0xbd]).2.1 ⟨['\ufffd'],by decide⟩,hsanitized,fun hcovered => ?_⟩
  have hkept := ((sanitizeUTF8_exact _).2.2.2.2.1 5 (by decide)).1 hcovered
  rw [hsanitized] at hkept
  exact absurd hkept (by decide)

end HiveKernel
