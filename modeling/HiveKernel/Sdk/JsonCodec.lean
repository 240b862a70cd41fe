import HiveKernel.Lib.JsonLexemes
import HiveKernel.Dashboard.Replica

/-! The JSON module of the interpreter: `dumps` with its default options, and `loads`. What is written is read back,
and a value is read in the same way whatever follows it. -/
namespace HiveKernel
open Lib Lib.JsonText Dashboard
variable {F : Type}

inductive FloatKind
  | finite | nan | infinity | negInfinity
  deriving DecidableEq, Repr

/-- Floating point numbers as texts: a finite number is written with a fraction or an exponent, and the number that
is read from this text is the same. -/
structure FloatText (F : Type) where
  kind : F → FloatKind
  repr : F → List Char
  read : List Char → F
  constant : FloatKind → F
  constant_kind : ∀ x, kind x ≠ .finite → constant (kind x) = x
  repr_number : ∀ x, kind x = .finite → scanNumber (repr x) = some (repr x,true,[])
  read_repr : ∀ x, kind x = .finite → read (repr x) = x

namespace JsonCodec

/-- The floating point numbers without a fraction. -/
def wholeFloats : FloatText ℕ where
  kind _ := .finite
  repr x := Nat.toDigits 10 x++ ['.','0']
  read s := Nat.ofDigitChars 10 s.dropLast.dropLast 0
  constant _ := 0
  constant_kind _ h := absurd rfl h
  repr_number x _ := by
    have hsign : scanSign (Nat.toDigits 10 x++ ['.','0']) = ([],Nat.toDigits 10 x++ ['.','0']) := by
      rw [scanSign_append Nat.toDigits_ne_nil,scanSign_toDigits]
    have hpoint : NoHead Char.isDigit ([]++ ['.','0']) := noHead_cons (by decide) ['0']
    have hint := (scanInt_append (scanInt_toDigits x) hpoint).1
    have hfraction : scanFraction ['.','0'] = (['.','0'],[]) := rfl
    have hexponent : scanExponent [] = ([],[]) := rfl
    unfold scanNumber
    simp [hsign,hint,hfraction,hexponent]
  read_repr x _ := by
    have hdigits : (Nat.toDigits 10 x++ ['.','0']).dropLast.dropLast = Nat.toDigits 10 x := by
      simp [List.dropLast_append_of_ne_nil]
    rw [hdigits,Nat.ofDigitChars_ten_toDigits]

def floatText (fl : FloatText F) (x : F) : List Char :=
  match fl.kind x with
  | .finite => fl.repr x
  | .nan => "NaN".toList
  | .infinity => "Infinity".toList
  | .negInfinity => "-Infinity".toList

/-- The texts with `", "` between them. -/
def joined : List (List Char) → List Char
  | [] => []
  | [text] => text
  | text::next::texts => text++ ',':: ' '::joined (next::texts)

def memberText (key : String) (value : List Char) : List Char := quote key.toList++ ':':: ' '::value

mutual
/-- `json.dumps`. -/
def dumps (fl : FloatText F) : Json F → List Char
  | .null => "null".toList
  | .bool true => "true".toList
  | .bool false => "false".toList
  | .int n => intText n
  | .float x => floatText fl x
  | .string s => quote s.toList
  | .array items => '['::joined (itemTexts fl items)++[']']
  | .object members => '\x7b'::joined (memberTexts fl members)++['\x7d']

def itemTexts (fl : FloatText F) : List (Json F) → List (List Char)
  | [] => []
  | item::items => dumps fl item::itemTexts fl items

def memberTexts (fl : FloatText F) : List (String × Json F) → List (List Char)
  | [] => []
  | (key,value)::members => memberText key (dumps fl value)::memberTexts fl members
end

def space (c : Char) : Bool := c = ' ' || c = '\t' || c = '\n' || c = '\r'

def skip (s : List Char) : List Char := s.dropWhile space

/-- The words, among them the numbers that are not finite. -/
def words (fl : FloatText F) : List (List Char × Json F) :=
  [("null".toList,.null),("true".toList,.bool true),("false".toList,.bool false),
    ("NaN".toList,.float (fl.constant .nan)),("Infinity".toList,.float (fl.constant .infinity)),
    ("-Infinity".toList,.float (fl.constant .negInfinity))]

def parseWord (fl : FloatText F) (s : List Char) : Option (Json F × List Char) :=
  (words fl).findSome? (fun (word,value) => if word.isPrefixOf s then some (value,s.drop word.length) else none)

/-- A word or a number. -/
def parseScalar (fl : FloatText F) (s : List Char) : Option (Json F × List Char) :=
  match parseWord fl s with
  | some found => some found
  | none => match scanNumber s with
    | none => none
    | some (text,true,rest) => some (.float (fl.read text),rest)
    | some (text,false,rest) => some (.int (intOf text),rest)

/-- One or more elements with commas between them, up to the bracket that closes them. -/
def parseList {α : Type} (element : List Char → Option (α × List Char)) (close : Char) :
    ℕ → List Char → Option (List α × List Char)
  | 0,_ => none
  | n+1,s => match element s with
    | none => none
    | some (a,rest) => match skip rest with
      | [] => none
      | c::rest =>
        if c = close then some ([a],rest)
        else if c = ',' then (parseList element close n (skip rest)).map (fun found => (a::found.1,found.2))
        else none

/-- A key and its value. -/
def parseMember (value : List Char → Option (Json F × List Char)) :
    List Char → Option ((String × Json F) × List Char)
  | '"'::s => match scanString s with
    | none => none
    | some (key,rest) => match skip rest with
      | ':'::rest => (value (skip rest)).map
          (fun found => ((String.ofList (joinUnits key),found.1),found.2))
      | _ => none
  | _ => none

/-- A key that is there already keeps its place and gets the new value. -/
def dictInsert (members : List (String × Json F)) (member : String × Json F) : List (String × Json F) :=
  if members.any (·.1 = member.1) then members.map (fun old => if old.1 = member.1 then member else old)
  else members++[member]

def dictOf (members : List (String × Json F)) : List (String × Json F) := members.foldl dictInsert []

/-- A value at the beginning of a text, and what comes behind it. -/
def parseValue (fl : FloatText F) : ℕ → List Char → Option (Json F × List Char)
  | 0,_ => none
  | n+1,s => match s with
    | '"'::s => (scanString s).map (fun found => (.string (String.ofList (joinUnits found.1)),found.2))
    | '\x7b'::s => match skip s with
      | '\x7d'::rest => some (.object [],rest)
      | s => (parseList (parseMember (parseValue fl n)) '\x7d' n s).map
          (fun found => (.object (dictOf found.1),found.2))
    | '['::s => match skip s with
      | ']'::rest => some (.array [],rest)
      | s => (parseList (parseValue fl n) ']' n s).map (fun found => (.array found.1,found.2))
    | s => parseScalar fl s

/-- `json.loads`; `none` is a `ValueError`. -/
def loads (fl : FloatText F) (s : List Char) : Option (Json F) :=
  if s.head? = some (Char.ofNat 65279) then none
  else match parseValue fl (s.length+1) (skip s) with
    | none => none
    | some (value,rest) => if skip rest = [] then some value else none

variable {fl : FloatText F} {s rest more : List Char}

lemma skip_append (h : skip s ≠ []) (more : List Char) : skip (s++more) = skip s++more := by
  unfold skip at h ⊢
  rw [List.dropWhile_append,if_neg (fun hempty => h (List.isEmpty_iff.mp hempty))]

lemma skip_length (s : List Char) : (skip s).length ≤ s.length := (List.dropWhile_sublist space).length_le

lemma skip_of_not_space {c : Char} (h : space c = false) (s : List Char) : skip (c::s) = c::s := by
  rw [skip,List.dropWhile_cons,h]
  rfl

lemma numberChar_of_space {c : Char} (h : space c = true) : numberChar c = false := by
  simp only [space,Bool.or_eq_true,decide_eq_true_eq] at h
  rcases h with ((rfl | rfl) | rfl) | rfl <;> decide

/-- If what follows the white space is no part of a number, neither is the white space. -/
lemma noHead_of_skip {c : Char} {t : List Char} (h : skip s = c::t) (hc : numberChar c = false) (more : List Char) :
    NoHead numberChar (s++more) := by
  cases s with
  | nil => cases h
  | cons d s =>
    intro e he
    cases he
    by_cases hd : space d = true
    · exact numberChar_of_space hd
    · rw [skip_of_not_space (by simpa using hd)] at h
      cases h
      exact hc

/-- A word is read where it stands. -/
lemma parseWord_append {word : List Char} {value : Json F} (h : (word,value) ∈ words fl) (rest : List Char) :
    parseWord fl (word++rest) = some (value,rest) := by
  simp only [words,List.mem_cons,List.not_mem_nil,or_false,Prod.mk.injEq] at h
  rcases h with ⟨rfl,rfl⟩ | ⟨rfl,rfl⟩ | ⟨rfl,rfl⟩ | ⟨rfl,rfl⟩ | ⟨rfl,rfl⟩ | ⟨rfl,rfl⟩ <;> rfl

lemma exists_word {value : Json F} (h : parseWord fl s = some (value,rest)) :
    ∃ word, (word,value) ∈ words fl ∧ s = word++rest := by
  obtain ⟨⟨word,value'⟩,hmem,hfound⟩ := List.exists_of_findSome?_eq_some h
  simp only at hfound
  split_ifs at hfound with hprefix
  obtain ⟨rest',rfl⟩ := List.isPrefixOf_iff_prefix.mp hprefix
  rw [List.drop_left] at hfound
  cases hfound
  exact ⟨word,hmem,rfl⟩

/-- Where a number begins there is no word. -/
lemma parseWord_of_number {found : List Char × Bool × List Char} (h : scanNumber s = some found) :
    parseWord fl (s++more) = none := by
  cases hword : parseWord fl (s++more) with
  | none => rfl
  | some found =>
    obtain ⟨value,rest⟩ := found
    obtain ⟨word,hmem,heq⟩ := exists_word hword
    obtain ⟨c,t,hc,hs⟩ := scanNumber_head h
    simp only [words,List.mem_cons,List.not_mem_nil,or_false,Prod.mk.injEq] at hmem
    have hfirst : ∀ {d : Char} {u : List Char}, s++more = d::u → d = c ∨ d = '-' ∧ ∃ v, u = c::v := by
      rintro d u hdu
      rcases hs with rfl | rfl <;> cases hdu
      · exact .inl rfl
      · exact .inr ⟨rfl,_,rfl⟩
    rcases hmem with ⟨rfl,-⟩ | ⟨rfl,-⟩ | ⟨rfl,-⟩ | ⟨rfl,-⟩ | ⟨rfl,-⟩ | ⟨rfl,-⟩ <;>
      rcases hfirst heq with rfl | ⟨h,v,hv⟩ <;> first | exact absurd hc (by decide) | exact absurd h (by decide) | skip
    cases hv
    exact absurd hc (by decide)

def isNumber : Json F → Bool
  | .int _ | .float _ => true
  | _ => false

/-- What follows a number cannot go on with it. -/
def Stops (value : Json F) (rest : List Char) : Prop := isNumber value = true → NoHead numberChar rest

lemma parseScalar_append {value : Json F} (h : parseScalar fl s = some (value,rest)) :
    rest.length < s.length ∧ ∀ more, Stops value (rest++more) → parseScalar fl (s++more) = some (value,rest++more) := by
  unfold parseScalar at h
  cases hword : parseWord fl s with
  | some found =>
    rw [hword] at h
    cases h
    obtain ⟨word,hmem,rfl⟩ := exists_word hword
    have hne : word ≠ [] := by
      rintro rfl
      simp [words] at hmem
    constructor
    · have hpos := List.length_pos_iff.mpr hne
      rw [List.length_append]
      omega
    · intro more _
      rw [parseScalar,List.append_assoc,parseWord_append hmem]
  | none =>
    simp only [hword] at h
    cases hnumber : scanNumber s with
    | none => simp [hnumber] at h
    | some found =>
      obtain ⟨text,decimal,rest'⟩ := found
      simp only [hnumber] at h
      have hrest : rest' = rest ∧ isNumber value = true := by
        cases decimal <;> cases h <;> exact ⟨rfl,rfl⟩
      obtain ⟨rfl,hisNumber⟩ := hrest
      refine ⟨scanNumber_length hnumber,fun more hstops => ?_⟩
      rw [parseScalar,parseWord_of_number hnumber]
      simp only [scanNumber_append hnumber (hstops hisNumber)]
      cases decimal <;> cases h <;> rfl

/-- What one reader finds in texts up to a length, the other finds in longer ones. -/
def Extends {α : Type} (read read' : List Char → Option (α × List Char)) (stops : α → List Char → Prop)
    (bound : ℕ) : Prop :=
  ∀ s a rest, read s = some (a,rest) → rest.length < s.length ∧
    (s.length ≤ bound → ∀ more, stops a (rest++more) → read' (s++more) = some (a,rest++more))

lemma Extends.ne_nil {α : Type} {read read' : List Char → Option (α × List Char)} {stops : α → List Char → Prop}
    {bound : ℕ} (h : Extends read read' stops bound) {a : α} (hread : read s = some (a,rest)) : s ≠ [] := by
  rintro rfl
  exact absurd (h [] a rest hread).1 (Nat.not_lt_zero _)

lemma parseMember_extends {value value' : List Char → Option (Json F × List Char)} {bound : ℕ}
    (h : Extends value value' Stops bound) :
    Extends (parseMember value) (parseMember value') (fun member => Stops member.2) bound := by
  intro s member rest hread
  unfold parseMember at hread
  split at hread
  case h_2 => cases hread
  case h_1 s =>
    cases hstring : scanString s with
    | none => simp [hstring] at hread
    | some found =>
      obtain ⟨key,afterKey⟩ := found
      simp only [hstring] at hread
      obtain ⟨hkeyLength,hkey⟩ := scanString_append hstring
      split at hread
      case h_2 => cases hread
      case h_1 afterColon hcolon =>
        obtain ⟨⟨v,rest'⟩,hvalue,heq⟩ := Option.map_eq_some_iff.mp hread
        cases heq
        obtain ⟨hvalueLength,happend⟩ := h _ _ _ hvalue
        have hskip := skip_length afterColon
        have hcolonLength := skip_length afterKey
        rw [hcolon,List.length_cons] at hcolonLength
        refine ⟨by simp only [List.length_cons]; omega,fun hbound more hstops => ?_⟩
        rw [List.length_cons] at hbound
        rw [List.cons_append,parseMember,hkey more]
        simp only [skip_append (show skip afterKey ≠ [] by rw [hcolon]; exact List.cons_ne_nil _ _) more,hcolon,
          List.cons_append]
        rw [skip_append (h.ne_nil hvalue),happend (by omega) more hstops]
        rfl

lemma parseList_extends {α : Type} {read read' : List Char → Option (α × List Char)}
    {stops : α → List Char → Prop} {bound : ℕ} (h : Extends read read' stops bound)
    (hstops : ∀ a rest, NoHead numberChar rest → stops a rest) {close : Char} (hclose : numberChar close = false)
    {m : ℕ} {found : List α} (hread : parseList read close m s = some (found,rest)) : rest.length < s.length ∧
      ∀ n, s.length ≤ n → s.length ≤ bound → ∀ more, parseList read' close n (s++more) = some (found,rest++more) := by
  induction m generalizing s found with
  | zero => cases hread
  | succ m ih =>
    rw [parseList] at hread
    cases helement : read s with
    | none => simp [helement] at hread
    | some first =>
    obtain ⟨a,afterFirst⟩ := first
    simp only [helement] at hread
    obtain ⟨hlength,happend⟩ := h _ _ _ helement
    cases hskip : skip afterFirst with
    | nil => simp [hskip] at hread
    | cons c next =>
    simp only [hskip] at hread
    have hnext := skip_length afterFirst
    rw [hskip,List.length_cons] at hnext
    have hfirst : ∀ {n more}, s.length ≤ bound → numberChar c = false →
        parseList read' close (n+1) (s++more) = if c = close then some ([a],next++more) else if c = ',' then
          (parseList read' close n (skip (next++more))).map (fun found => (a::found.1,found.2)) else none := by
      intro n more hbound hc
      rw [parseList,happend hbound more (hstops a _ (noHead_of_skip hskip hc more))]
      simp only [skip_append (show skip afterFirst ≠ [] by rw [hskip]; exact List.cons_ne_nil _ _) more,hskip,
        List.cons_append]
    split_ifs at hread with hend hcomma
    · cases hread
      refine ⟨by omega,fun n hn hbound more => ?_⟩
      obtain ⟨n,rfl⟩ : ∃ k, n = k+1 := ⟨n-1,by omega⟩
      rw [hfirst hbound (hend ▸ hclose),if_pos hend]
    · obtain ⟨⟨others,rest'⟩,hothers,heq⟩ := Option.map_eq_some_iff.mp hread
      cases heq
      obtain ⟨hothersLength,happendOthers⟩ := ih hothers
      have hskipNext := skip_length next
      refine ⟨by omega,fun n hn hbound more => ?_⟩
      obtain ⟨n,rfl⟩ : ∃ k, n = k+1 := ⟨n-1,by omega⟩
      have hne : skip next ≠ [] := by
        intro hnil
        rw [hnil] at hothersLength
        exact absurd hothersLength (Nat.not_lt_zero _)
      rw [hfirst hbound (by rw [hcomma]; decide),if_neg hend,if_pos hcomma,skip_append hne,
        happendOthers n (by omega) (by omega) more]
      rfl

/-- The text begins with no quote and no bracket that opens. -/
def Plain (s : List Char) : Prop := ∀ c, s.head? = some c → c ≠ '"' ∧ c ≠ '\x7b' ∧ c ≠ '['

lemma Plain.append (h : Plain s) (hne : s ≠ []) (more : List Char) : Plain (s++more) := by
  intro c hc
  rw [List.head?_append_of_ne_nil s hne] at hc
  exact h c hc

/-- A text that begins so is a word or a number. -/
lemma parseValue_scalar (n : ℕ) (h : Plain s) :
    parseValue fl (n+1) s = parseScalar fl s := by
  rw [parseValue]
  · rintro t rfl
    exact (h _ rfl).1 rfl
  · rintro t rfl
    exact (h _ rfl).2.1 rfl
  · rintro t rfl
    exact (h _ rfl).2.2 rfl

lemma head_ne_of_forall {c : Char} (h : ∀ t, s = c::t → False) : s.head? ≠ some c := by
  intro hhead
  obtain ⟨t,ht⟩ := List.head?_eq_some_iff.mp hhead
  exact h t ht

lemma parseValue_object (n : ℕ) (s : List Char) : parseValue fl (n+1) ('\x7b'::s) =
    if (skip s).head? = some '\x7d' then some (.object [],(skip s).tail)
    else (parseList (parseMember (parseValue fl n)) '\x7d' n (skip s)).map
      (fun found => (.object (dictOf found.1),found.2)) := by
  rw [parseValue]
  split
  · next heq => rw [heq]; rfl
  · next hne => rw [if_neg (head_ne_of_forall hne)]

lemma parseValue_array (n : ℕ) (s : List Char) : parseValue fl (n+1) ('['::s) =
    if (skip s).head? = some ']' then some (.array [],(skip s).tail)
    else (parseList (parseValue fl n) ']' n (skip s)).map (fun found => (.array found.1,found.2)) := by
  rw [parseValue]
  split
  · next heq => rw [heq]; rfl
  · next hne => rw [if_neg (head_ne_of_forall hne)]

lemma head_append (h : s ≠ []) (more : List Char) : (s++more).head? = s.head? :=
  List.head?_append_of_ne_nil s h

lemma tail_append (h : s ≠ []) (more : List Char) : (s++more).tail = s.tail++more := List.tail_append_of_ne_nil h

/-- A bracket with elements behind it. -/
lemma bracket_extends {α : Type} {read read' : List Char → Option (α × List Char)} {stops : α → List Char → Prop}
    {bound m n : ℕ} (h : Extends read read' stops bound) (hstops : ∀ a rest, NoHead numberChar rest → stops a rest)
    {close : Char} (hclose : numberChar close = false) {empty value : Json F} (make : List α → Json F)
    (hread : (if (skip s).head? = some close then some (empty,(skip s).tail)
      else (parseList read close m (skip s)).map (fun found => (make found.1,found.2))) = some (value,rest)) :
    rest.length ≤ s.length ∧ (s.length ≤ bound → s.length ≤ n → ∀ more,
      (if (skip (s++more)).head? = some close then some (empty,(skip (s++more)).tail)
        else (parseList read' close n (skip (s++more))).map (fun found => (make found.1,found.2))) =
          some (value,rest++more)) := by
  have hskip := skip_length s
  split_ifs at hread with hempty
  · have hne : skip s ≠ [] := by
      intro hnil
      rw [hnil] at hempty
      cases hempty
    cases hread
    have htail : (skip s).tail.length = (skip s).length-1 := List.length_tail
    refine ⟨by omega,fun _ _ more => ?_⟩
    rw [skip_append hne,head_append hne,if_pos hempty,tail_append hne]
  · obtain ⟨⟨found,rest'⟩,hlist,heq⟩ := Option.map_eq_some_iff.mp hread
    cases heq
    obtain ⟨hlength,happend⟩ := parseList_extends h hstops hclose hlist
    have hne : skip s ≠ [] := by
      intro hnil
      rw [hnil] at hlength
      exact absurd hlength (Nat.not_lt_zero _)
    refine ⟨by simp only; omega,fun hbound hn more => ?_⟩
    rw [skip_append hne,head_append hne,if_neg hempty,happend n (by omega) (by omega) more]
    rfl

/-- A value that is found is found with any fuel beyond the length of the text, and whatever follows, unless that
goes on with a number. -/
theorem parseValue_extends (fl : FloatText F) (m n bound : ℕ) (hbound : bound < n) :
    Extends (parseValue fl m) (parseValue fl n) Stops bound := by
  induction m generalizing n bound with
  | zero => exact fun s v rest h => by cases h
  | succ m ih =>
    intro s value rest hread
    obtain ⟨n,rfl⟩ : ∃ k, n = k+1 := ⟨n-1,by omega⟩
    by_cases hstring : ∃ t, s = '"'::t
    · obtain ⟨t,rfl⟩ := hstring
      rw [parseValue] at hread
      obtain ⟨⟨found,rest'⟩,hscan,heq⟩ := Option.map_eq_some_iff.mp hread
      cases heq
      obtain ⟨hlength,happend⟩ := scanString_append hscan
      refine ⟨by simp only [List.length_cons]; omega,fun _ more _ => ?_⟩
      rw [List.cons_append,parseValue,happend more]
      rfl
    by_cases hobject : ∃ t, s = '\x7b'::t
    · obtain ⟨t,rfl⟩ := hobject
      rw [parseValue_object] at hread
      have hstops : ∀ (member : String × Json F) rest, NoHead numberChar rest → Stops member.2 rest :=
        fun _ _ h _ => h
      have hclose : numberChar '\x7d' = false := by decide
      constructor
      · have hlength := (bracket_extends (n := 0) (parseMember_extends (ih 1 0 (by omega))) hstops hclose
          (fun found => .object (dictOf found)) hread).1
        rw [List.length_cons]
        omega
      · intro hs more _
        rw [List.length_cons] at hs
        rw [List.cons_append,parseValue_object]
        have hinner := parseMember_extends (ih n (n-1) (by omega))
        exact (bracket_extends hinner hstops hclose (fun found => .object (dictOf found)) hread).2 (by omega)
          (by omega) more
    by_cases harray : ∃ t, s = '['::t
    · obtain ⟨t,rfl⟩ := harray
      rw [parseValue_array] at hread
      have hstops : ∀ (item : Json F) rest, NoHead numberChar rest → Stops item rest := fun _ _ h _ => h
      have hclose : numberChar ']' = false := by decide
      constructor
      · have hlength := (bracket_extends (n := 0) (ih 1 0 (by omega)) hstops hclose .array hread).1
        rw [List.length_cons]
        omega
      · intro hs more _
        rw [List.length_cons] at hs
        rw [List.cons_append,parseValue_array]
        have hinner := ih n (n-1) (by omega)
        exact (bracket_extends hinner hstops hclose .array hread).2 (by omega) (by omega) more
    · have hplain : Plain s := by
        intro c hc
        cases s with
        | nil => cases hc
        | cons d t =>
          cases hc
          exact ⟨fun h => hstring ⟨t,by rw [h]⟩,fun h => hobject ⟨t,by rw [h]⟩,fun h => harray ⟨t,by rw [h]⟩⟩
      rw [parseValue_scalar m hplain] at hread
      obtain ⟨hlength,happend⟩ := parseScalar_append hread
      refine ⟨hlength,fun _ more hstops => ?_⟩
      have hne : s ≠ [] := by
        rintro rfl
        exact absurd hlength (Nat.not_lt_zero _)
      rw [parseValue_scalar n (hplain.append hne more),happend more hstops]

/-- A value of the interpreter: a dict has no key twice. -/
inductive WellFormed : Json F → Prop
  | null : WellFormed .null
  | bool (b : Bool) : WellFormed (.bool b)
  | int (n : ℤ) : WellFormed (.int n)
  | float (x : F) : WellFormed (.float x)
  | string (s : String) : WellFormed (.string s)
  | array {items : List (Json F)} (hitems : ∀ item ∈ items, WellFormed item) : WellFormed (.array items)
  | object {members : List (String × Json F)} (hkeys : (members.map Prod.fst).Nodup)
      (hvalues : ∀ member ∈ members, WellFormed member.2) : WellFormed (.object members)

lemma itemTexts_eq (items : List (Json F)) : itemTexts fl items = items.map (dumps fl) := by
  induction items with
  | nil => rw [itemTexts,List.map_nil]
  | cons item items ih => rw [itemTexts,ih,List.map_cons]

lemma memberTexts_eq (members : List (String × Json F)) :
    memberTexts fl members = members.map (fun member => memberText member.1 (dumps fl member.2)) := by
  induction members with
  | nil => rw [memberTexts,List.map_nil]
  | cons member members ih => rw [memberTexts,ih,List.map_cons]

lemma joined_length_of_mem {text : List Char} {texts : List (List Char)} (h : text ∈ texts) :
    text.length ≤ (joined texts).length := by
  induction texts using joined.induct with
  | case1 => cases h
  | case2 t =>
    rw [List.mem_singleton.mp h]
    exact Nat.le_refl _
  | case3 t next texts ih =>
    rw [joined,List.length_append,List.length_cons,List.length_cons]
    rcases List.mem_cons.mp h with rfl | h
    · omega
    · have hrest := ih h
      omega

lemma length_le_joined {texts : List (List Char)} (h : ∀ text ∈ texts, text ≠ []) :
    texts.length ≤ (joined texts).length := by
  induction texts using joined.induct with
  | case1 => exact Nat.le_refl _
  | case2 t => exact List.length_pos_iff.mpr (h t List.mem_cons_self)
  | case3 t next texts ih =>
    have hrest := ih (fun text htext => h text (List.mem_cons_of_mem t htext))
    simp only [joined,List.length_append,List.length_cons] at hrest ⊢
    omega

/-- A text that begins with something other than white space, a closing bracket or a byte order mark. -/
def Visible (text : List Char) : Prop :=
  ∃ c t, text = c::t ∧ space c = false ∧ c ≠ ']' ∧ c ≠ '\x7d' ∧ c ≠ Char.ofNat 65279

lemma Visible.ne_nil {text : List Char} (h : Visible text) : text ≠ [] := by
  obtain ⟨c,t,rfl,-⟩ := h
  exact List.cons_ne_nil _ _

lemma Visible.skip_append {text : List Char} (h : Visible text) (rest : List Char) :
    skip (text++rest) = text++rest := by
  obtain ⟨c,t,rfl,hc,-⟩ := h
  exact skip_of_not_space hc _

lemma joined_visible {text : List Char} {texts : List (List Char)} (h : Visible text) :
    Visible (joined (text::texts)) := by
  obtain ⟨c,t,rfl,hc⟩ := h
  cases texts with
  | nil => exact ⟨c,t,rfl,hc⟩
  | cons next texts => exact ⟨c,_,rfl,hc⟩

/-- Elements that were written with commas between them are read back. -/
lemma parseList_joined {α : Type} {read : List Char → Option (α × List Char)} {text : α → List Char} {close : Char}
    (hspace : space close = false) (hcomma : close ≠ ',') (hnumber : numberChar close = false) {as : List α}
    (hne : as ≠ []) (hvisible : ∀ a ∈ as, Visible (text a))
    (hread : ∀ a ∈ as, ∀ rest, NoHead numberChar rest → read (text a++rest) = some (a,rest)) {n : ℕ}
    (hn : as.length ≤ n) (rest : List Char) :
    parseList read close n (joined (as.map text)++close::rest) = some (as,rest) := by
  induction as generalizing n with
  | nil => exact absurd rfl hne
  | cons a as ih =>
    obtain ⟨n,rfl⟩ : ∃ k, n = k+1 := ⟨n-1,by rw [List.length_cons] at hn; omega⟩
    rw [List.length_cons] at hn
    cases as with
    | nil =>
      rw [List.map_singleton,joined,parseList,hread a List.mem_cons_self _ (noHead_cons hnumber rest)]
      simp only [skip_of_not_space hspace,if_true]
    | cons b as =>
      have hrest := ih (List.cons_ne_nil _ _) (fun c hc => hvisible c (List.mem_cons_of_mem a hc))
        (fun c hc => hread c (List.mem_cons_of_mem a hc)) (n := n) (by omega)
      have hvisible' : Visible (joined ((b::as).map text)) :=
        joined_visible (hvisible b (List.mem_cons_of_mem a List.mem_cons_self))
      rw [List.map_cons,List.map_cons,joined]
      rw [List.map_cons] at hrest hvisible'
      generalize joined (text b::as.map text) = others at hrest hvisible' ⊢
      have hbetween : skip (',':: ' '::(others++close::rest)) = ',':: ' '::(others++close::rest) := rfl
      have hnext : skip (' '::(others++close::rest)) = others++close::rest := hvisible'.skip_append (close::rest)
      rw [List.append_assoc,List.cons_append,List.cons_append,parseList,
        hread a List.mem_cons_self _ (noHead_cons (by decide) _)]
      simp only [hbetween]
      rw [if_neg hcomma.symm,if_pos trivial,hnext,hrest]
      rfl

lemma dictOf_eq_self {members : List (String × Json F)} (h : (members.map Prod.fst).Nodup) :
    dictOf members = members := by
  have hfold : ∀ known : List (String × Json F), ((known++members).map Prod.fst).Nodup →
      members.foldl dictInsert known = known++members := by
    induction members with
    | nil => exact fun known _ => (List.append_nil known).symm
    | cons member members ih =>
      intro known hknown
      have hnew : dictInsert known member = known++[member] := by
        rw [dictInsert,if_neg]
        intro hany
        obtain ⟨old,hold,hsame⟩ := List.any_eq_true.mp hany
        rw [List.map_append,List.map_cons] at hknown
        have hdisjoint := (List.nodup_append.mp hknown).2.2 old.1 (List.mem_map_of_mem hold) member.1
          List.mem_cons_self
        exact hdisjoint (of_decide_eq_true hsame)
      rw [List.foldl_cons,hnew,ih (List.nodup_cons.mp h).2]
      · rw [List.append_assoc,List.singleton_append]
      · rwa [List.append_assoc,List.singleton_append]
  exact hfold [] h

lemma quote_visible (s : List Char) : Visible (quote s) := ⟨'"',_,rfl,by decide⟩

lemma memberText_visible (key : String) (value : List Char) : Visible (memberText key value) :=
  ⟨'"',_,rfl,by decide⟩

lemma length_le_memberText (key : String) (value : List Char) : value.length ≤ (memberText key value).length := by
  simp only [memberText,List.length_append,List.length_cons]
  omega

/-- No bracket and no white space begins a number. -/
lemma number_visible {found : List Char × Bool × List Char} (h : scanNumber s = some found) :
    Visible s ∧ Plain s := by
  have hbegin : ∀ c : Char, (c.isDigit ∨ c = '-') →
      (space c = false ∧ c ≠ ']' ∧ c ≠ '\x7d' ∧ c ≠ Char.ofNat 65279) ∧ c ≠ '"' ∧ c ≠ '\x7b' ∧ c ≠ '[' := by
    intro c hc
    have hne : ∀ d : Char, d.isDigit = false → d ≠ '-' → c ≠ d := by
      rintro d hd hminus rfl
      rcases hc with hc | hc
      · rw [hd] at hc
        cases hc
      · exact hminus hc
    simp only [space,Bool.or_eq_false_iff,decide_eq_false_iff_not]
    exact ⟨⟨⟨⟨⟨hne ' ' rfl (by decide),hne '\t' rfl (by decide)⟩,hne '\n' rfl (by decide)⟩,
      hne '\r' rfl (by decide)⟩,hne ']' rfl (by decide),hne '\x7d' rfl (by decide),
      hne (Char.ofNat 65279) (by decide) (by decide)⟩,hne '"' rfl (by decide),hne '\x7b' rfl (by decide),
      hne '[' rfl (by decide)⟩
  obtain ⟨c,t,hc,rfl | rfl⟩ := scanNumber_head h
  · refine ⟨⟨c,t,rfl,(hbegin c (.inl hc)).1⟩,fun d hd => ?_⟩
    cases hd
    exact (hbegin c (.inl hc)).2
  · refine ⟨⟨'-',c::t,rfl,by decide⟩,fun d hd => ?_⟩
    cases hd
    exact (hbegin '-' (.inr rfl)).2

lemma floatText_cases (fl : FloatText F) (x : F) : (floatText fl x,Json.float x) ∈ words fl ∨
    (fl.kind x = .finite ∧ floatText fl x = fl.repr x) := by
  have hconstant := fl.constant_kind x
  unfold floatText words
  cases hkind : fl.kind x with
  | finite => exact .inr ⟨rfl,rfl⟩
  | nan | infinity | negInfinity =>
    rw [hkind] at hconstant
    simp [hconstant (by decide)]

lemma words_visible {word : List Char} {value : Json F} (h : (word,value) ∈ words fl) :
    Visible word ∧ Plain word := by
  simp only [words,List.mem_cons,List.not_mem_nil,or_false,Prod.mk.injEq] at h
  rcases h with ⟨rfl,-⟩ | ⟨rfl,-⟩ | ⟨rfl,-⟩ | ⟨rfl,-⟩ | ⟨rfl,-⟩ | ⟨rfl,-⟩ <;>
    exact ⟨⟨_,_,rfl,by decide⟩,fun c hc => by cases hc; decide⟩

lemma dumps_visible (fl : FloatText F) (d : Json F) : Visible (dumps fl d) := by
  cases d with
  | null => exact ⟨'n',_,rfl,by decide⟩
  | bool b => cases b <;> exact ⟨_,_,rfl,by decide⟩
  | int n =>
    rw [dumps]
    exact (number_visible (scanNumber_intText n).1).1
  | float x =>
    rw [dumps]
    rcases floatText_cases fl x with hword | ⟨hfinite,htext⟩
    · exact (words_visible hword).1
    · rw [htext]
      exact (number_visible (fl.repr_number x hfinite)).1
  | string s => exact quote_visible s.toList
  | array items =>
    rw [dumps]
    exact ⟨'[',_,rfl,by decide⟩
  | object members =>
    rw [dumps]
    exact ⟨'\x7b',_,rfl,by decide⟩

lemma parseMember_memberText {value : List Char → Option (Json F × List Char)} {d : Json F} {key : String}
    (hvalue : value (dumps fl d++rest) = some (d,rest)) :
    parseMember value (memberText key (dumps fl d)++rest) = some ((key,d),rest) := by
  have hcolon : skip (':':: ' '::(dumps fl d++rest)) = ':':: ' '::(dumps fl d++rest) := rfl
  have hnext : skip (' '::(dumps fl d++rest)) = dumps fl d++rest := (dumps_visible fl d).skip_append rest
  have htext : memberText key (dumps fl d)++rest =
      '"'::(key.toList.flatMap escapeChar++ '"'::(':':: ' '::(dumps fl d++rest))) := by
    simp [memberText,quote]
  rw [htext,parseMember,scanString_quote]
  simp only [hcolon,hnext,hvalue,Option.map_some,joinUnits_flatMap,String.ofList_toList]

/-- A bracket that was written is read back. -/
lemma bracket_joined {α : Type} {read : List Char → Option (α × List Char)} {text : α → List Char} {close : Char}
    {empty : Json F} (make : List α → Json F) (hspace : space close = false) (hcomma : close ≠ ',')
    (hnumber : numberChar close = false) (hclose : close = ']' ∨ close = '\x7d') {as : List α}
    (hvisible : ∀ a ∈ as, Visible (text a))
    (hread : ∀ a ∈ as, ∀ rest, NoHead numberChar rest → read (text a++rest) = some (a,rest)) {n : ℕ}
    (hn : (joined (as.map text)).length ≤ n) :
    (if (skip (joined (as.map text)++close::rest)).head? = some close then
        some (empty,(skip (joined (as.map text)++close::rest)).tail)
      else (parseList read close n (skip (joined (as.map text)++close::rest))).map
        (fun found => (make found.1,found.2))) = some (if as.isEmpty then empty else make as,rest) := by
  cases as with
  | nil =>
    rw [List.map_nil,joined,List.nil_append,skip_of_not_space hspace]
    exact if_pos rfl
  | cons a as =>
    have hjoined : Visible (joined ((a::as).map text)) := joined_visible (hvisible a List.mem_cons_self)
    have htexts : ∀ t ∈ (a::as).map text, t ≠ [] := by
      intro t ht
      obtain ⟨b,hb,rfl⟩ := List.mem_map.mp ht
      exact (hvisible b hb).ne_nil
    have hcount := length_le_joined htexts
    rw [List.length_map] at hcount
    rw [hjoined.skip_append,if_neg,parseList_joined hspace hcomma hnumber (List.cons_ne_nil a as) hvisible hread
      (by omega)]
    · rfl
    · rw [head_append hjoined.ne_nil]
      obtain ⟨c,t,heq,-,hsquare,hcurly,-⟩ := hjoined
      rw [heq,List.head?_cons,Option.some_inj]
      rcases hclose with rfl | rfl
      · exact hsquare
      · exact hcurly

/-- What is written is read back, in front of anything that does not go on with a number. -/
theorem parseValue_dumps (n : ℕ) {d : Json F} (hd : WellFormed d) (hn : (dumps fl d).length ≤ n) {rest : List Char}
    (hrest : NoHead numberChar rest) : parseValue fl n (dumps fl d++rest) = some (d,rest) := by
  induction n generalizing d rest with
  | zero =>
    have hpos := List.length_pos_iff.mpr (dumps_visible fl d).ne_nil
    omega
  | succ n ih =>
    have hword : ∀ {word : List Char} {value : Json F}, (word,value) ∈ words fl →
        parseValue fl (n+1) (word++rest) = some (value,rest) := by
      intro word value hmem
      obtain ⟨hvisible,hplain⟩ := words_visible hmem
      rw [parseValue_scalar n (hplain.append hvisible.ne_nil rest),parseScalar,parseWord_append hmem]
    have hnumber : ∀ {text : List Char} {decimal : Bool}, scanNumber text = some (text,decimal,[]) →
        parseValue fl (n+1) (text++rest) =
          some (if decimal then .float (fl.read text) else .int (intOf text),rest) := by
      intro text decimal hscan
      obtain ⟨hvisible,hplain⟩ := number_visible hscan
      rw [parseValue_scalar n (hplain.append hvisible.ne_nil rest),parseScalar,
        parseWord_of_number hscan,scanNumber_append hscan (by rwa [List.nil_append])]
      cases decimal <;> rfl
    cases hd with
    | null =>
      rw [dumps]
      exact hword (by simp [words])
    | bool b => cases b <;> rw [dumps] <;> exact hword (by simp [words])
    | int k =>
      rw [dumps,hnumber (scanNumber_intText k).1,(scanNumber_intText k).2]
      rfl
    | float x =>
      rw [dumps]
      rcases floatText_cases fl x with hmem | ⟨hfinite,htext⟩
      · exact hword hmem
      · rw [htext,hnumber (fl.repr_number x hfinite),fl.read_repr x hfinite]
        rfl
    | string s =>
      have htext : dumps fl (.string s)++rest = '"'::(s.toList.flatMap escapeChar++ '"'::rest) := by
        simp [dumps,quote]
      rw [htext,parseValue,scanString_quote]
      simp only [Option.map_some,joinUnits_flatMap,String.ofList_toList]
    | @array items hitems =>
      rw [dumps,itemTexts_eq] at hn ⊢
      simp only [List.length_append,List.length_cons,List.length_nil] at hn
      rw [List.append_assoc,List.cons_append,parseValue_array,List.singleton_append]
      have hitem : ∀ item ∈ items, (dumps fl item).length ≤ n := fun item hmem => by
        have hlength := joined_length_of_mem (List.mem_map_of_mem (f := dumps fl) hmem)
        omega
      rw [bracket_joined .array (by decide) (by decide) (by decide) (.inl rfl) (fun item _ => dumps_visible fl item)
        (fun item hmem rest hrest => ih (hitems item hmem) (hitem item hmem) hrest) (by omega)]
      cases items <;> rfl
    | @object members hkeys hvalues =>
      rw [dumps,memberTexts_eq] at hn ⊢
      simp only [List.length_append,List.length_cons,List.length_nil] at hn
      rw [List.append_assoc,List.cons_append,parseValue_object,List.singleton_append]
      have hvalue : ∀ member ∈ members, (dumps fl member.2).length ≤ n := fun member hmem => by
        have hlength := joined_length_of_mem (List.mem_map_of_mem
          (f := fun member : String × Json F => memberText member.1 (dumps fl member.2)) hmem)
        have hvalueLength := length_le_memberText member.1 (dumps fl member.2)
        omega
      rw [bracket_joined (fun found => .object (dictOf found)) (by decide) (by decide) (by decide) (.inr rfl)
        (fun member _ => memberText_visible member.1 (dumps fl member.2)) (fun member hmem rest hrest =>
          parseMember_memberText (ih (hvalues member hmem) (hvalue member hmem) hrest)) (by omega)]
      rw [dictOf_eq_self hkeys]
      cases members <;> rfl

/-- The text of a value stands for it. -/
theorem loads_dumps (fl : FloatText F) {d : Json F} (hd : WellFormed d) : loads fl (dumps fl d) = some d := by
  unfold loads
  have hvisible := dumps_visible fl d
  have hskip : skip (dumps fl d) = dumps fl d := by
    have happend := hvisible.skip_append []
    rwa [List.append_nil] at happend
  have hparse := parseValue_dumps ((dumps fl d).length+1) hd (Nat.le_succ _) (noHead_nil numberChar)
  rw [List.append_nil] at hparse
  rw [if_neg,hskip,hparse]
  · rfl
  · obtain ⟨c,t,heq,-,-,-,hmark⟩ := hvisible
    rw [heq,List.head?_cons,Option.some_inj]
    exact hmark

lemma object_of_brace {n : ℕ} {value : Json F} (h : parseValue fl n ('\x7b'::s) = some (value,rest)) :
    ∃ members, value = .object members := by
  cases n with
  | zero => cases h
  | succ n =>
    rw [parseValue_object] at h
    split_ifs at h
    · cases h
      exact ⟨[],rfl⟩
    · obtain ⟨found,-,heq⟩ := Option.map_eq_some_iff.mp h
      cases heq
      exact ⟨_,rfl⟩

/-- A text that begins with a brace is read as a value with nothing but white space behind it. -/
lemma loads_brace {d : Json F} (h : loads fl ('\x7b'::s) = some d) : ∃ members rest, d = .object members ∧
    skip rest = [] ∧ parseValue fl (('\x7b'::s).length+1) ('\x7b'::s) = some (.object members,rest) := by
  have hskip : skip ('\x7b'::s) = '\x7b'::s := skip_of_not_space (by decide) s
  unfold loads at h
  rw [if_neg (by simp only [List.head?_cons]; decide),hskip] at h
  cases hparse : parseValue fl (('\x7b'::s).length+1) ('\x7b'::s) with
  | none =>
    rw [hparse] at h
    cases h
  | some found =>
    obtain ⟨value,rest⟩ := found
    simp only [hparse] at h
    split_ifs at h with hrest
    obtain rfl := Option.some.inj h
    obtain ⟨members,rfl⟩ := object_of_brace hparse
    exact ⟨members,rest,rfl,hrest,rfl⟩

/-- What begins like the text of an object stands for something only if it goes on to the end of that text, with
nothing but white space behind it, and then it stands for the object. -/
theorem loads_object (fl : FloatText F) {members : List (String × Json F)} (hd : WellFormed (.object members))
    {block : List Char} (hbegin : block.head? = some '\x7b')
    (hblock : block <+: dumps fl (.object members) ∨ dumps fl (.object members) <+: block) {d : Json F}
    (h : loads fl block = some d) : ∃ rest, block = dumps fl (.object members)++rest ∧ skip rest = [] ∧
      d = .object members := by
  have hwhole : parseValue fl ((dumps fl (.object members)).length+1) (dumps fl (.object members)) =
      some (.object members,[]) := by
    have hparse := parseValue_dumps ((dumps fl (.object members)).length+1) hd (Nat.le_succ _) (noHead_nil numberChar)
    rwa [List.append_nil] at hparse
  obtain ⟨t,rfl⟩ : ∃ t, block = '\x7b'::t := by
    cases block with
    | nil => cases hbegin
    | cons c t => exact ⟨t,by rw [Option.some.inj hbegin]⟩
  obtain ⟨found,behind,rfl,hbehind,hparse⟩ := loads_brace h
  rcases hblock with ⟨q,hq⟩ | ⟨q,hq⟩
  · have hlength := congrArg List.length hq
    rw [List.length_append] at hlength
    have hextends := parseValue_extends fl (('\x7b'::t).length+1) ((dumps fl (.object members)).length+1)
      ('\x7b'::t).length (by omega)
    have hmore := (hextends _ _ _ hparse).2 (Nat.le_refl _) q (fun hnumber => by cases hnumber)
    rw [hq,hwhole] at hmore
    obtain ⟨hvalue,hrest⟩ := Prod.mk.inj (Option.some.inj hmore)
    obtain ⟨-,rfl⟩ := List.append_eq_nil_iff.mp hrest.symm
    exact ⟨[],by simpa using hq,rfl,hvalue.symm⟩
  · have hlength := congrArg List.length hq
    rw [List.length_append] at hlength
    have hextends := parseValue_extends fl ((dumps fl (.object members)).length+1) (('\x7b'::t).length+1)
      (dumps fl (.object members)).length (by omega)
    have hmore := (hextends _ _ _ hwhole).2 (Nat.le_refl _) q (fun hnumber => by cases hnumber)
    rw [hq,hparse] at hmore
    obtain ⟨hvalue,hrest⟩ := Prod.mk.inj (Option.some.inj hmore)
    rw [List.nil_append] at hrest
    exact ⟨q,hq.symm,hrest ▸ hbehind,hvalue⟩

end JsonCodec
end HiveKernel
