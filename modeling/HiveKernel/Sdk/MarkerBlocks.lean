import HiveKernel.Sdk.DrainedResults
import HiveKernel.Sdk.JsonCodec

/-! Blocks of JSON behind markers in the answers of the model. The end of a block is found by counting braces, also
those in strings, so a block survives only if the braces of its text balance. -/
namespace HiveKernel
open Lib Dashboard JsonCodec

variable {marker s before after : List Char}

/-- A text is cut at the first occurrence of the marker. -/
theorem cutAt_eq_some_iff : cutAt marker s = some (before,after) ↔ s = before++marker++after ∧
    ∀ b a, s = b++marker++a → before.length ≤ b.length := by
  induction s generalizing before with
  | nil =>
    rw [cutAt]
    constructor
    · intro h
      split_ifs at h with hempty
      cases h
      exact ⟨by simp [List.isEmpty_iff.mp hempty],fun _ _ _ => Nat.zero_le _⟩
    · rintro ⟨h,-⟩
      obtain ⟨h',rfl⟩ := List.append_eq_nil_iff.mp h.symm
      obtain ⟨rfl,rfl⟩ := List.append_eq_nil_iff.mp h'
      rfl
  | cons c s ih =>
    rw [cutAt]
    by_cases hhere : marker.isPrefixOf (c::s)
    · rw [if_pos hhere]
      obtain ⟨t,ht⟩ := List.isPrefixOf_iff_prefix.mp hhere
      constructor
      · intro h
        cases h
        refine ⟨?_,fun _ _ _ => Nat.zero_le _⟩
        rw [← ht,List.drop_left]
        rfl
      · rintro ⟨h,hfirst⟩
        obtain rfl := List.length_eq_zero_iff.mp (Nat.le_zero.mp (hfirst [] t ht.symm))
        rw [List.nil_append] at h
        rw [h,List.drop_left]
    · rw [if_neg hhere,Option.map_eq_some_iff]
      have hsplit : ∀ b a, c::s = b++marker++a → ∃ b', b = c::b' ∧ s = b'++marker++a := by
        intro b a h
        cases b with
        | nil => exact absurd (List.isPrefixOf_iff_prefix.mpr ⟨a,h.symm⟩) hhere
        | cons d b =>
          obtain ⟨rfl,hs⟩ := List.cons.inj h
          exact ⟨b,rfl,hs⟩
      constructor
      · rintro ⟨⟨b,a⟩,hcut,heq⟩
        cases heq
        obtain ⟨hs,hfirst⟩ := ih.mp hcut
        refine ⟨by rw [hs]; rfl,fun b' a' h => ?_⟩
        obtain ⟨b'',rfl,hs'⟩ := hsplit b' a' h
        exact Nat.succ_le_succ (hfirst b'' a' hs')
      · rintro ⟨h,hfirst⟩
        obtain ⟨b,rfl,hs⟩ := hsplit before after h
        refine ⟨(b,after),ih.mpr ⟨hs,fun b' a' hs' => ?_⟩,rfl⟩
        exact Nat.le_of_succ_le_succ (hfirst (c::b') a' (by rw [hs']; rfl))

lemma cutAt_eq_none_iff : cutAt marker s = none ↔ ¬marker <:+: s := by
  constructor
  · rintro h ⟨b,a,hs⟩
    have hfirst : ∃ n, ∃ b a, s = b++marker++a ∧ b.length = n := ⟨_,b,a,hs.symm,rfl⟩
    classical
    obtain ⟨b',a',hs',hlength⟩ := Nat.find_spec hfirst
    have hcut := cutAt_eq_some_iff.mpr ⟨hs',fun b'' a'' hs'' => hlength ▸ Nat.find_min' hfirst ⟨b'',a'',hs'',rfl⟩⟩
    rw [h] at hcut
    cases hcut
  · intro h
    cases hcut : cutAt marker s with
    | none => rfl
    | some parts => exact absurd ⟨parts.1,parts.2,(cutAt_eq_some_iff.mp hcut).1.symm⟩ h

/-- What stands behind a text does not matter for the first occurrence in it. -/
lemma cutAt_append (h : cutAt marker s = some (before,after)) (more : List Char) :
    cutAt marker (s++more) = some (before,after++more) := by
  obtain ⟨rfl,hfirst⟩ := cutAt_eq_some_iff.mp h
  refine cutAt_eq_some_iff.mpr ⟨by simp,fun b a heq => ?_⟩
  by_contra hlt
  push Not at hlt
  have hwithin : (b++marker) <+: (before++marker++after) := by
    have hall : (b++marker) <+: (before++marker++after++more) := ⟨a,heq.symm⟩
    refine List.prefix_of_prefix_length_le hall (List.prefix_append _ _) ?_
    simp only [List.length_append]
    omega
  obtain ⟨a',ha'⟩ := hwithin
  exact absurd (hfirst b a' ha'.symm) (by omega)

/-- A marker whose last character is nowhere else in it does not overlap itself. -/
lemma eq_nil_of_overlap {body : List Char} {c : Char} (hmarker : marker = body++[c]) (hbody : c ∉ body)
    {y z : List Char} (hsplit : y++z = marker) (hy : y ≠ []) (hz : z <+: marker++after) : z = [] := by
  by_contra hzne
  have hlength : y.length+z.length = body.length+1 := by
    rw [← List.length_append,hsplit,hmarker,List.length_append,List.length_singleton]
  have hpos := List.length_pos_iff.mpr hy
  have hlast : c ∈ z := by
    have hgetLast : marker.getLast? = some c := by rw [hmarker]; exact List.getLast?_concat
    rw [← hsplit,List.getLast?_append_of_ne_nil _ hzne] at hgetLast
    exact List.mem_of_getLast? hgetLast
  have hzbody : z <+: body := by
    refine List.prefix_of_prefix_length_le hz ?_ (by omega)
    exact ⟨[c]++after,by rw [hmarker,List.append_assoc]⟩
  exact hbody (hzbody.subset hlast)

/-- Such a marker is found where it stands, if it does not occur before. -/
lemma cutAt_of_end {body : List Char} {c : Char} (hmarker : marker = body++[c]) (hbody : c ∉ body)
    (hbefore : ¬marker <:+: before) (after : List Char) :
    cutAt marker (before++marker++after) = some (before,after) := by
  refine cutAt_eq_some_iff.mpr ⟨rfl,fun b a heq => ?_⟩
  by_contra hlt
  push Not at hlt
  obtain ⟨y,hy⟩ : b <+: before := by
    refine List.prefix_of_prefix_length_le ⟨marker++a,by rw [← List.append_assoc]; exact heq.symm⟩
      (show before <+: before++marker++after from ⟨marker++after,by rw [List.append_assoc]⟩) (by omega)
  subst hy
  rw [List.append_assoc,List.append_assoc,List.append_assoc] at heq
  have htail : y++(marker++after) = marker++a := List.append_cancel_left heq
  by_cases hle : marker.length ≤ y.length
  · have hbegins : marker <+: y :=
      List.prefix_of_prefix_length_le ⟨a,htail.symm⟩ (List.prefix_append _ _) hle
    exact hbefore (hbegins.isInfix.trans (List.suffix_append b y).isInfix)
  · obtain ⟨z,hz⟩ : y <+: marker :=
      List.prefix_of_prefix_length_le (List.prefix_append y (marker++after)) (htail ▸ List.prefix_append _ _) (by omega)
    have hyne : y ≠ [] := by
      rintro rfl
      simp at hlt
    have hrest : marker++after = z++a := by
      have happend : y++(marker++after) = y++(z++a) := by rw [htail,← List.append_assoc,hz]
      exact List.append_cancel_left happend
    obtain rfl := eq_nil_of_overlap hmarker hbody hz hyne (hrest ▸ List.prefix_append z a)
    rw [List.append_nil] at hz
    exact hle (by rw [hz])

/-- The text closes so many open brackets, the last of them with its last character. -/
def Closes (depth : ℕ) (text : List Char) : Prop :=
  text.count '\x7d' = text.count '\x7b'+depth ∧
    ∀ p, p <+: text → p ≠ text → p.count '\x7d' < p.count '\x7b'+depth

/-- As many brackets are closed as are opened, and all of them only at the end. -/
def BracesBalance (text : List Char) : Prop :=
  text.count '\x7b' = text.count '\x7d' ∧ ∀ p, p <+: text → p ≠ [] → p ≠ text → p.count '\x7d' < p.count '\x7b'

lemma bracesBalance_iff (text : List Char) : BracesBalance ('\x7b'::text) ↔ Closes 1 text := by
  unfold BracesBalance Closes
  rw [List.count_cons_self,List.count_cons_of_ne (by decide)]
  apply and_congr
  · exact eq_comm
  · constructor
    · intro h p hp hne
      have hlt := h ('\x7b'::p) ((List.prefix_cons_inj _).mpr hp) (List.cons_ne_nil _ _)
        (fun heq => hne (List.cons.inj heq).2)
      rwa [List.count_cons_self,List.count_cons_of_ne (by decide)] at hlt
    · rintro h p hp hne hwhole
      obtain ⟨c,p,rfl⟩ := List.exists_cons_of_ne_nil hne
      obtain ⟨rfl,htail⟩ := List.cons_prefix_cons.mp hp
      rw [List.count_cons_self,List.count_cons_of_ne (by decide)]
      exact h p htail (fun heq => hwhole (by rw [heq]))

/-- The depth behind one character. -/
def depthAfter (depth : ℕ) (c : Char) : ℕ :=
  if c = '\x7b' then depth+1 else if c = '\x7d' then depth-1 else depth

lemma bracketBlock_cons {depth : ℕ} {c : Char} (h : ¬(c = '\x7d' ∧ depth ≤ 1)) (text : List Char) :
    bracketBlock depth (c::text) =
      (bracketBlock (depthAfter depth c) text).map (fun parts => (c::parts.1,parts.2)) := by
  rw [bracketBlock,if_neg h]
  rfl

lemma count_cons_depth {depth : ℕ} {c : Char} (hdepth : 0 < depth) (text : List Char) :
    ((c::text).count '\x7d' < (c::text).count '\x7b'+depth ↔
      text.count '\x7d' < text.count '\x7b'+depthAfter depth c) ∧
    ((c::text).count '\x7d' = (c::text).count '\x7b'+depth ↔
      text.count '\x7d' = text.count '\x7b'+depthAfter depth c) := by
  unfold depthAfter
  by_cases hopen : c = '\x7b'
  · subst hopen
    rw [List.count_cons_self,List.count_cons_of_ne (by decide),if_pos rfl]
    omega
  · rw [if_neg hopen,List.count_cons_of_ne (b := c) (a := '\x7b') hopen]
    by_cases hclose : c = '\x7d'
    · subst hclose
      rw [List.count_cons_self,if_pos rfl]
      omega
    · rw [if_neg hclose,List.count_cons_of_ne hclose]
      exact ⟨Iff.rfl,Iff.rfl⟩

lemma closes_cons {depth : ℕ} {c : Char} (hdepth : 0 < depth) (text : List Char) :
    Closes depth (c::text) ↔ Closes (depthAfter depth c) text := by
  unfold Closes
  rw [(count_cons_depth hdepth text).2]
  apply and_congr_right
  rintro -
  constructor
  · intro h p hp hne
    exact (count_cons_depth hdepth p).1.mp
      (h (c::p) ((List.prefix_cons_inj c).mpr hp) (fun heq => hne (List.cons.inj heq).2))
  · intro h p hp hne
    cases p with
    | nil =>
      rw [List.count_nil,List.count_nil]
      omega
    | cons d p =>
      obtain ⟨rfl,htail⟩ := List.cons_prefix_cons.mp hp
      exact (count_cons_depth hdepth p).1.mpr (h p htail (fun heq => hne (by rw [heq])))

/-- The block that is found closes what is open, and it is the only one at this place. -/
theorem bracketBlock_eq_some_iff {depth : ℕ} (hdepth : 0 < depth) {text block rest : List Char} :
    bracketBlock depth text = some (block,rest) ↔ text = block++rest ∧ Closes depth block := by
  induction text generalizing depth block with
  | nil =>
    rw [bracketBlock]
    refine iff_of_false (fun h => by cases h) ?_
    rintro ⟨h,hcloses,-⟩
    obtain ⟨rfl,-⟩ := List.append_eq_nil_iff.mp h.symm
    simp only [List.count_nil] at hcloses
    omega
  | cons c text ih =>
    by_cases hend : c = '\x7d' ∧ depth ≤ 1
    · obtain ⟨rfl,hone⟩ := hend
      obtain rfl : depth = 1 := by omega
      rw [bracketBlock,if_pos ⟨rfl,Nat.le_refl 1⟩]
      constructor
      · intro h
        cases h
        refine ⟨rfl,by decide,fun p hp hne => ?_⟩
        cases p with
        | nil => decide
        | cons d p =>
          obtain ⟨rfl,htail⟩ := List.cons_prefix_cons.mp hp
          exact absurd (by rw [List.prefix_nil.mp htail]) hne
      · rintro ⟨h,hcloses,hfirst⟩
        cases block with
        | nil =>
          simp only [List.count_nil] at hcloses
          omega
        | cons d block =>
          obtain ⟨rfl,rfl⟩ := List.cons.inj h
          by_cases hblock : block = []
          · rw [hblock]
            rfl
          · have hlt := hfirst ['\x7d'] (by simp) (fun heq => hblock (List.cons.inj heq).2.symm)
            exact absurd hlt (by decide)
    · rw [bracketBlock_cons hend,Option.map_eq_some_iff]
      have hnext : 0 < depthAfter depth c := by
        unfold depthAfter
        split_ifs with hopen hclose
        · omega
        · have : ¬depth ≤ 1 := fun h => hend ⟨hclose,h⟩
          omega
        · exact hdepth
      constructor
      · rintro ⟨⟨b,r⟩,hfound,heq⟩
        cases heq
        obtain ⟨rfl,hcloses⟩ := (ih hnext).mp hfound
        exact ⟨rfl,(closes_cons hdepth b).mpr hcloses⟩
      · rintro ⟨h,hcloses⟩
        cases block with
        | nil =>
          have hzero := hcloses.1
          simp only [List.count_nil] at hzero
          omega
        | cons d block =>
          obtain ⟨rfl,rfl⟩ := List.cons.inj h
          exact ⟨(block,rest),(ih hnext).mpr ⟨rfl,(closes_cons hdepth block).mp hcloses⟩,rfl⟩

/-- The block that begins here is the one with balanced braces. -/
lemma bracketBlock_zero {text block rest : List Char} :
    bracketBlock 0 ('\x7b'::text) = some (block,rest) ↔
      '\x7b'::text = block++rest ∧ block ≠ [] ∧ BracesBalance block := by
  rw [bracketBlock_cons (by decide),Option.map_eq_some_iff]
  constructor
  · rintro ⟨⟨b,r⟩,hfound,heq⟩
    cases heq
    obtain ⟨rfl,hcloses⟩ := (bracketBlock_eq_some_iff (by decide)).mp hfound
    exact ⟨rfl,List.cons_ne_nil _ _,(bracesBalance_iff b).mpr hcloses⟩
  · rintro ⟨h,hne,hbalance⟩
    obtain ⟨d,block,rfl⟩ := List.exists_cons_of_ne_nil hne
    obtain ⟨rfl,rfl⟩ := List.cons.inj h
    exact ⟨(block,rest),(bracketBlock_eq_some_iff (by decide)).mpr ⟨rfl,(bracesBalance_iff block).mp hbalance⟩,rfl⟩

namespace MarkerBlocks
variable {F : Type} {fl : FloatText F} {members : List (String × Json F)} {py : TextPython F}

lemma dumps_object (fl : FloatText F) (members : List (String × Json F)) : ∃ text,
    dumps fl (.object members) = '\x7b'::text := by
  rw [dumps]
  exact ⟨_,rfl⟩

/-- Whatever follows the text of an object, the block that is found is this text, if its braces balance, and else it
does not decode. -/
theorem bracketBlock_dumps (fl : FloatText F) (hd : WellFormed (.object members)) (after : List Char) :
    (BracesBalance (dumps fl (.object members)) →
      bracketBlock 0 (dumps fl (.object members)++after) = some (dumps fl (.object members),after)) ∧
    (¬BracesBalance (dumps fl (.object members)) → ∀ block rest,
      bracketBlock 0 (dumps fl (.object members)++after) = some (block,rest) → loads fl block = none) := by
  obtain ⟨text,htext⟩ := dumps_object fl members
  constructor
  · intro hbalance
    rw [htext] at hbalance ⊢
    exact bracketBlock_zero.mpr ⟨rfl,List.cons_ne_nil _ _,hbalance⟩
  · intro hbalance block rest hblock
    rw [htext,List.cons_append] at hblock
    obtain ⟨hsplit,hne,hblockBalance⟩ := bracketBlock_zero.mp hblock
    rw [← List.cons_append,← htext] at hsplit
    cases hloads : loads fl block with
    | none => rfl
    | some d =>
    have hbegins : block <+: dumps fl (.object members) ∨ dumps fl (.object members) <+: block :=
      List.prefix_or_prefix_of_prefix (hsplit ▸ List.prefix_append block rest) (List.prefix_append _ after)
    have hhead : block.head? = some '\x7b' := by
      have hfirst := congrArg List.head? hsplit
      rw [head_append hne,htext] at hfirst
      exact hfirst.symm
    obtain ⟨behind,rfl,hspace,-⟩ := loads_object fl hd hhead hbegins hloads
    by_cases hbehind : behind = []
    · subst hbehind
      rw [List.append_nil] at hblockBalance
      exact absurd hblockBalance hbalance
    · obtain ⟨init,last,rfl⟩ : ∃ init last, behind = init++[last] :=
        ⟨behind.dropLast,behind.getLast hbehind,(List.dropLast_append_getLast hbehind).symm⟩
      have hlast : last = '\x7d' := by
        by_contra hlast
        have hlt := hblockBalance.2 (dumps fl (.object members)++init)
          ⟨[last],by rw [List.append_assoc]⟩ (by rw [htext]; exact List.cons_ne_nil _ _) (by simp)
        have heq := hblockBalance.1
        have hzero : (last == '\x7d') = false := by simpa using hlast
        simp only [List.count_append,List.count_singleton,hzero,Bool.false_eq_true,if_false] at heq hlt
        omega
      have hall := List.dropWhile_eq_nil_iff.mp hspace last (List.mem_append_right _ List.mem_cons_self)
      rw [hlast] at hall
      exact absurd hall (by decide)

lemma dropWhile_gap {gap : List Char} (inner : List Char) (hgap : '\x7b' ∉ gap) :
    (gap++ '\x7b'::inner).dropWhile (· ≠ '\x7b') = '\x7b'::inner := by
  rw [List.dropWhile_append_of_pos (fun c hc => by simpa using fun h : c = '\x7b' => hgap (h ▸ hc))]
  rfl

lemma exists_gap {s : List Char} (hs : s.dropWhile (· ≠ '\x7b') ≠ []) : ∃ gap inner, s = gap++ '\x7b'::inner ∧
    '\x7b' ∉ gap ∧ s.dropWhile (· ≠ '\x7b') = '\x7b'::inner := by
  obtain ⟨c,inner,hstart⟩ := List.exists_cons_of_ne_nil hs
  have hc : c = '\x7b' := by
    have hhead := List.head?_dropWhile_not (· ≠ '\x7b') s
    rw [hstart] at hhead
    simpa using hhead
  subst hc
  refine ⟨s.takeWhile (· ≠ '\x7b'),inner,?_,fun hmem => ?_,hstart⟩
  · rw [← hstart,List.takeWhile_append_dropWhile]
  · have hne := List.mem_takeWhile_imp hmem
    simp at hne

/-- The block begins at the first brace behind the first occurrence of the marker, and its braces balance. -/
theorem markedBlock_eq_some_iff {marker text block rest : String} : markedBlock marker text = some (block,rest) ↔
    ∃ first gap behind, text.toList = first++marker.toList++(gap++(block.toList++behind)) ∧
      (∀ b a, text.toList = b++marker.toList++a → first.length ≤ b.length) ∧ '\x7b' ∉ gap ∧
      (∃ inner, block.toList = '\x7b'::inner) ∧ BracesBalance block.toList ∧ rest = String.ofList (first++behind) := by
  unfold markedBlock
  constructor
  · intro h
    obtain ⟨⟨first,after⟩,hcut,h⟩ := Option.bind_eq_some_iff.mp h
    obtain ⟨⟨found,behind⟩,hfound,h⟩ := Option.bind_eq_some_iff.mp h
    cases h
    obtain ⟨htext,hfirst⟩ := cutAt_eq_some_iff.mp hcut
    have hne : after.dropWhile (· ≠ '\x7b') ≠ [] := by
      intro hnil
      rw [hnil] at hfound
      cases hfound
    obtain ⟨gap,inner,rfl,hgap,hstart⟩ := exists_gap hne
    rw [hstart] at hfound
    obtain ⟨hsplit,hfoundNe,hbalance⟩ := bracketBlock_zero.mp hfound
    obtain ⟨c,found,rfl⟩ := List.exists_cons_of_ne_nil hfoundNe
    rw [String.toList_ofList]
    refine ⟨first,gap,behind,by rw [htext,hsplit],hfirst,hgap,⟨found,?_⟩,hbalance,rfl⟩
    rw [(List.cons.inj hsplit).1]
  · rintro ⟨first,gap,behind,htext,hfirst,hgap,⟨inner,hinner⟩,hbalance,rfl⟩
    have hstart : (gap++(block.toList++behind)).dropWhile (· ≠ '\x7b') = '\x7b'::(inner++behind) := by
      rw [hinner]
      exact dropWhile_gap (inner++behind) hgap
    have hfound : bracketBlock 0 ('\x7b'::(inner++behind)) = some (block.toList,behind) :=
      bracketBlock_zero.mpr ⟨by rw [hinner]; rfl,by rw [hinner]; exact List.cons_ne_nil _ _,hbalance⟩
    rw [cutAt_eq_some_iff.mpr ⟨htext,hfirst⟩]
    simp only [Option.bind_eq_bind,Option.bind_some,hstart,hfound,String.ofList_toList]
    rfl

/-- The interpreter with its own JSON module. -/
def jsonPython (py : TextPython F) (fl : FloatText F) : TextPython F :=
  { py with
    loads := fun text => match loads fl text.toList with
      | none => .error .valueError
      | some d => .ok d }

/-- `_extract_json_block`. -/
def extractJsonBlock (py : TextPython F) (text marker : String) : Option (Json F) :=
  match markedBlock marker text with
  | none => none
  | some (block,_) => match py.loads block with
    | .ok d => some d
    | .error _ => none

lemma extractJsonBlock_eq (py : TextPython F) (fl : FloatText F) (text marker : String) :
    extractJsonBlock (jsonPython py fl) text marker =
      (markedBlock marker text).bind (fun parts => loads fl parts.1.toList) := by
  unfold extractJsonBlock
  cases markedBlock marker text with
  | none => rfl
  | some parts =>
    simp only [jsonPython,Option.bind_some]
    cases loads fl parts.1.toList <;> rfl

/-- An answer of the model with a block in it. -/
def markedText (fl : FloatText F) (before marker : String) (d : Json F) (after : String) : String :=
  before++marker++" "++String.ofList (dumps fl d)++after

/-- The part of the marker that stands behind its first occurrence, where it overlaps itself. -/
def overlap (before marker : String) : List Char :=
  ((cutAt marker.toList (before++marker).toList).map Prod.snd).getD []

lemma overlap_spec (before marker : String) : ∃ first,
    cutAt marker.toList (before++marker).toList = some (first,overlap before marker) := by
  unfold overlap
  cases hcut : cutAt marker.toList (before++marker).toList with
  | none =>
    refine absurd ?_ (cutAt_eq_none_iff.mp hcut)
    rw [String.toList_append]
    exact (List.suffix_append _ _).isInfix
  | some parts => exact ⟨parts.1,rfl⟩

/-- What is searched for the end of the block. -/
def searched (fl : FloatText F) (before marker : String) (d : Json F) (after : String) : List Char :=
  (overlap before marker++ ' '::(dumps fl d++after.toList)).dropWhile (· ≠ '\x7b')

lemma markedBlock_searched {before marker : String} {first : List Char}
    (hcut : cutAt marker.toList (before++marker).toList = some (first,overlap before marker)) (d : Json F)
    (after : String) : markedBlock marker (markedText fl before marker d after) =
      (bracketBlock 0 (searched fl before marker d after)).map
        (fun parts => (String.ofList parts.1,String.ofList (first++parts.2))) := by
  have htext : (markedText fl before marker d after).toList =
      (before++marker).toList++(' '::(dumps fl d++after.toList)) := by
    simp [markedText]
  unfold markedBlock
  rw [htext,cutAt_append hcut]
  simp only [Option.bind_eq_bind,Option.bind_some]
  rw [← searched]
  cases bracketBlock 0 (searched fl before marker d after) <;> rfl

/-- If no brace stands before it, the search begins at the text of the object. -/
lemma searched_eq {before marker : String} (hoverlap : '\x7b' ∉ overlap before marker) (after : String) :
    searched fl before marker (.object members) after = dumps fl (.object members)++after.toList := by
  obtain ⟨text,hobject⟩ := dumps_object fl members
  have hgap : '\x7b' ∉ overlap before marker++[' '] := by simpa using hoverlap
  have hstart := dropWhile_gap (text++after.toList) hgap
  rw [List.append_assoc] at hstart
  rw [searched,hobject]
  exact hstart

/-- The block behind the marker is the object, if the braces of its text balance, and else it does not decode. -/
theorem markedBlock_markedText (fl : FloatText F) (hd : WellFormed (.object members)) {before marker : String}
    (hoverlap : '\x7b' ∉ overlap before marker) {first : List Char}
    (hcut : cutAt marker.toList (before++marker).toList = some (first,overlap before marker)) (after : String) :
    (BracesBalance (dumps fl (.object members)) →
      markedBlock marker (markedText fl before marker (.object members) after) =
        some (String.ofList (dumps fl (.object members)),String.ofList (first++after.toList))) ∧
    (¬BracesBalance (dumps fl (.object members)) → ∀ block rest,
      markedBlock marker (markedText fl before marker (.object members) after) = some (block,rest) →
      loads fl block.toList = none) := by
  obtain ⟨hbalanced,hunbalanced⟩ := bracketBlock_dumps fl hd after.toList
  rw [markedBlock_searched hcut,searched_eq hoverlap]
  constructor
  · intro hbalance
    rw [hbalanced hbalance]
    rfl
  · intro hbalance block rest hblock
    obtain ⟨⟨found,behind⟩,hfound,heq⟩ := Option.map_eq_some_iff.mp hblock
    cases heq
    rw [String.toList_ofList]
    exact hunbalanced hbalance found behind hfound

/-- The object is found exactly if its braces balance. -/
lemma extractJsonBlock_markedText (py : TextPython F) (hd : WellFormed (.object members)) {before marker : String}
    (hoverlap : '\x7b' ∉ overlap before marker) (after : String) :
    extractJsonBlock (jsonPython py fl) (markedText fl before marker (.object members) after) marker =
        some (.object members) ↔ BracesBalance (dumps fl (.object members)) := by
  obtain ⟨first,hcut⟩ := overlap_spec before marker
  obtain ⟨hbalanced,hunbalanced⟩ := markedBlock_markedText fl hd hoverlap hcut after
  rw [extractJsonBlock_eq]
  constructor
  · intro h
    by_contra hbalance
    obtain ⟨⟨block,rest⟩,hblock,hloads⟩ := Option.bind_eq_some_iff.mp h
    rw [hunbalanced hbalance block rest hblock] at hloads
    cases hloads
  · intro hbalance
    rw [hbalanced hbalance,Option.bind_some,String.toList_ofList]
    exact loads_dumps fl hd

/-- Where the marker overlaps itself with a brace, the search begins there. -/
lemma extractJsonBlock_overlap (py : TextPython F) {before marker : String}
    (hoverlap : '\x7b' ∈ overlap before marker) (d : Json F) (after : String) :
    extractJsonBlock (jsonPython py fl) (markedText fl before marker d after) marker = some d ↔
      ∃ block behind, searched fl before marker d after = block++behind ∧ BracesBalance block ∧
        loads fl block = some d := by
  obtain ⟨first,hcut⟩ := overlap_spec before marker
  have hne : searched fl before marker d after ≠ [] := by
    intro hnil
    have hall := List.dropWhile_eq_nil_iff.mp hnil '\x7b' (List.mem_append_left _ hoverlap)
    exact absurd hall (by decide)
  obtain ⟨gap,inner,-,-,hstart⟩ := exists_gap hne
  rw [← searched] at hstart
  rw [extractJsonBlock_eq,markedBlock_searched hcut,hstart]
  constructor
  · intro h
    obtain ⟨parts,hblock,hloads⟩ := Option.bind_eq_some_iff.mp h
    obtain ⟨⟨block,behind⟩,hfound,rfl⟩ := Option.map_eq_some_iff.mp hblock
    obtain ⟨hsplit,-,hbalance⟩ := bracketBlock_zero.mp hfound
    rw [String.toList_ofList] at hloads
    exact ⟨block,behind,hsplit,hbalance,hloads⟩
  · rintro ⟨block,behind,hsplit,hbalance,hloads⟩
    have hblock : block ≠ [] := by
      rintro rfl
      cases hloads
    rw [bracketBlock_zero.mpr ⟨hsplit,hblock,hbalance⟩,Option.map_some,Option.bind_some,String.toList_ofList]
    exact hloads

/-- The markers that are cleaned away, in this order. -/
def blockMarkers : List String := ["SCHEDULE:","DELEGATE_CODE:","DELEGATE:"]

def stripBlock (py : TextPython F) (text marker : String) : String :=
  match markedBlock marker text with
  | some (block,rest) => if hasJsonBlock py block then rest else text
  | none => text

lemma cleanResponse_eq (py : TextPython F) (response : String) :
    cleanResponse py response = blockMarkers.foldl (stripBlock py) response := rfl

/-- Taking a block out makes the text shorter. -/
lemma markedBlock_shorter {marker text block rest : String} (h : markedBlock marker text = some (block,rest)) :
    (∃ inner, block.toList = '\x7b'::inner) ∧ rest.length < text.length := by
  obtain ⟨first,gap,behind,htext,-,-,⟨inner,hinner⟩,-,rfl⟩ := markedBlock_eq_some_iff.mp h
  refine ⟨⟨inner,hinner⟩,?_⟩
  rw [← String.length_toList,← String.length_toList,htext,String.toList_ofList,hinner]
  simp only [List.length_append,List.length_cons]
  omega

/-- A block is taken out exactly if it decodes. -/
lemma stripBlock_eq (py : TextPython F) (fl : FloatText F) (text marker : String) :
    stripBlock (jsonPython py fl) text marker = match markedBlock marker text with
      | some (block,rest) => if (loads fl block.toList).isSome then rest else text
      | none => text := by
  unfold stripBlock
  cases hblock : markedBlock marker text with
  | none => rfl
  | some parts =>
    obtain ⟨block,rest⟩ := parts
    obtain ⟨⟨inner,hinner⟩,-⟩ := markedBlock_shorter hblock
    simp only [hasJsonBlock,jsonPython,hinner]
    cases hloads : loads fl ('\x7b'::inner) with
    | none => rfl
    | some d =>
      obtain ⟨found,-,rfl,-⟩ := loads_brace hloads
      rfl

/-- A marker either has a block that decodes behind it, or the text stays as it is. -/
lemma stripBlock_cases (py : TextPython F) (fl : FloatText F) (marker text : String) :
    (extractJsonBlock (jsonPython py fl) text marker = none ∧ stripBlock (jsonPython py fl) text marker = text) ∨
    (extractJsonBlock (jsonPython py fl) text marker ≠ none ∧
      (stripBlock (jsonPython py fl) text marker).length < text.length) := by
  rw [extractJsonBlock_eq,stripBlock_eq]
  cases hblock : markedBlock marker text with
  | none => exact .inl ⟨rfl,rfl⟩
  | some parts =>
    simp only [Option.bind_some]
    cases hloads : loads fl parts.1.toList with
    | none => exact .inl ⟨rfl,rfl⟩
    | some d => exact .inr ⟨by simp,(markedBlock_shorter hblock).2⟩

/-- Nothing is taken out of a text exactly if no marker has a block that decodes. -/
lemma foldl_stripBlock (py : TextPython F) (fl : FloatText F) (markers : List String) (text : String) :
    (markers.foldl (stripBlock (jsonPython py fl)) text).length ≤ text.length ∧
    (markers.foldl (stripBlock (jsonPython py fl)) text = text ↔
      ∀ marker ∈ markers, extractJsonBlock (jsonPython py fl) text marker = none) := by
  induction markers generalizing text with
  | nil => simp
  | cons marker markers ih =>
    rw [List.foldl_cons,List.forall_mem_cons]
    rcases stripBlock_cases py fl marker text with ⟨hnone,hsame⟩ | ⟨hsome,hshorter⟩
    · rw [hsame]
      exact ⟨(ih text).1,by rw [(ih text).2,and_iff_right hnone]⟩
    · have hle := (ih (stripBlock (jsonPython py fl) text marker)).1
      refine ⟨by omega,iff_of_false (fun heq => ?_) (fun h => hsome h.1)⟩
      rw [heq] at hle
      omega

lemma extractJsonBlock_of_not_infix {marker text : String} (h : ¬marker.toList <:+: text.toList) :
    extractJsonBlock (jsonPython py fl) text marker = none := by
  unfold extractJsonBlock markedBlock
  rw [cutAt_eq_none_iff.mpr h]
  rfl

/-- None of the markers overlaps itself. -/
lemma overlap_blockMarker {marker : String} (hmarker : marker ∈ blockMarkers) {before : String}
    (hbefore : ¬marker.toList <:+: before.toList) : overlap before marker = [] ∧
    cutAt marker.toList (before++marker).toList = some (before.toList,overlap before marker) := by
  have hend : ∃ body, marker.toList = body++[':'] ∧ ':' ∉ body := by
    simp only [blockMarkers,List.mem_cons,List.not_mem_nil,or_false] at hmarker
    rcases hmarker with rfl | rfl | rfl
    · exact ⟨"SCHEDULE".toList,rfl,by decide⟩
    · exact ⟨"DELEGATE_CODE".toList,rfl,by decide⟩
    · exact ⟨"DELEGATE".toList,rfl,by decide⟩
  obtain ⟨body,hbody,hcolon⟩ := hend
  have hcut := cutAt_of_end hbody hcolon hbefore []
  rw [List.append_nil,← String.toList_append] at hcut
  have hoverlap : overlap before marker = [] := by
    unfold overlap
    rw [hcut]
    rfl
  exact ⟨hoverlap,by rw [hcut,hoverlap]⟩

/-- A block with balanced braces is taken out, and one without stays. -/
lemma stripBlock_markedText (py : TextPython F) (fl : FloatText F) (hd : WellFormed (.object members)) {marker : String}
    (hmarker : marker ∈ blockMarkers) {before : String} (hbefore : ¬marker.toList <:+: before.toList)
    (after : String) : (BracesBalance (dumps fl (.object members)) →
      stripBlock (jsonPython py fl) (markedText fl before marker (.object members) after) marker = before++after) ∧
    (¬BracesBalance (dumps fl (.object members)) →
      stripBlock (jsonPython py fl) (markedText fl before marker (.object members) after) marker =
        markedText fl before marker (.object members) after) := by
  obtain ⟨hoverlap,hcut⟩ := overlap_blockMarker hmarker hbefore
  obtain ⟨hbalanced,hunbalanced⟩ := markedBlock_markedText fl hd (by rw [hoverlap]; exact List.not_mem_nil)
    hcut after
  rw [stripBlock_eq]
  constructor
  · intro hbalance
    simp only [hbalanced hbalance,String.toList_ofList,loads_dumps fl hd,Option.isSome_some,if_true]
    rw [← String.toList_append,String.ofList_toList]
  · intro hbalance
    cases hblock : markedBlock marker (markedText fl before marker (.object members) after) with
    | none => rfl
    | some parts =>
      simp only [hunbalanced hbalance parts.1 parts.2 hblock]
      rfl

/-- The markers that are looked for behind this one. -/
def laterMarkers (marker : String) : List String := (blockMarkers.dropWhile (· ≠ marker)).tail

lemma blockMarkers_split {marker : String} (h : marker ∈ blockMarkers) : ∃ earlier,
    blockMarkers = earlier++marker::laterMarkers marker ∧ marker ∉ earlier ∧ marker ∉ laterMarkers marker := by
  simp only [blockMarkers,List.mem_cons,List.not_mem_nil,or_false] at h
  rcases h with rfl | rfl | rfl
  · exact ⟨[],rfl,by decide,by decide⟩
  · exact ⟨["SCHEDULE:"],rfl,by decide,by decide⟩
  · exact ⟨["SCHEDULE:","DELEGATE_CODE:"],rfl,by decide,by decide⟩

/-- None of the other markers occurs in the text. -/
def OnlyMarker (marker text : String) : Prop :=
  ∀ other ∈ blockMarkers, other ≠ marker → ¬other.toList <:+: text.toList

/-- The block is cleaned away, and nothing else, exactly if its braces balance and what stood around it makes no block
behind a later marker. -/
theorem cleanResponse_markedText (py : TextPython F) (hd : WellFormed (.object members))
    {before marker after : String} (hmarker : marker ∈ blockMarkers) (hbefore : ¬marker.toList <:+: before.toList)
    (honly : OnlyMarker marker (markedText fl before marker (.object members) after)) :
    cleanResponse (jsonPython py fl) (markedText fl before marker (.object members) after) = before++after ↔
      BracesBalance (dumps fl (.object members)) ∧
        ∀ later ∈ laterMarkers marker, extractJsonBlock (jsonPython py fl) (before++after) later = none := by
  obtain ⟨earlier,hsplit,hearlier,hlater⟩ := blockMarkers_split hmarker
  obtain ⟨hbalanced,hunbalanced⟩ := stripBlock_markedText py fl hd hmarker hbefore after
  have habsent : ∀ others : List String, (∀ other ∈ others, other ∈ blockMarkers ∧ other ≠ marker) →
      others.foldl (stripBlock (jsonPython py fl)) (markedText fl before marker (.object members) after) =
        markedText fl before marker (.object members) after := by
    intro others hothers
    refine (foldl_stripBlock py fl others _).2.mpr (fun other hother => ?_)
    exact extractJsonBlock_of_not_infix (honly other (hothers other hother).1 (hothers other hother).2)
  have hearlierMarkers : ∀ other ∈ earlier, other ∈ blockMarkers ∧ other ≠ marker := fun other hother =>
    ⟨by rw [hsplit]; exact List.mem_append_left _ hother,fun h => hearlier (h ▸ hother)⟩
  have hlaterMarkers : ∀ other ∈ laterMarkers marker, other ∈ blockMarkers ∧ other ≠ marker := fun other hother =>
    ⟨by rw [hsplit]; exact List.mem_append_right _ (List.mem_cons_of_mem _ hother),fun h => hlater (h ▸ hother)⟩
  rw [cleanResponse_eq]
  conv_lhs => rw [hsplit]
  rw [List.foldl_append,habsent earlier hearlierMarkers,List.foldl_cons]
  by_cases hbalance : BracesBalance (dumps fl (.object members))
  · rw [hbalanced hbalance,(foldl_stripBlock py fl _ _).2]
    exact (and_iff_right hbalance).symm
  · rw [hunbalanced hbalance,habsent _ hlaterMarkers]
    refine iff_of_false (fun heq => ?_) (fun h => hbalance h.1)
    have hlength := congrArg String.length heq
    simp only [markedText,String.length_append] at hlength
    have hspace : (" " : String).length = 1 := rfl
    omega

/-- Behind the first occurrence of the marker the first brace begins a block with balanced braces, and the block stands
for `d`. -/
def BlockStands (fl : FloatText F) (text marker : String) (d : Json F) : Prop :=
  ∃ first gap block behind : List Char, text.toList = first++marker.toList++(gap++(block++behind)) ∧
    (∀ b a, text.toList = b++marker.toList++a → first.length ≤ b.length) ∧ '\x7b' ∉ gap ∧
    block.head? = some '\x7b' ∧ BracesBalance block ∧ loads fl block = some d

/-- A block is found exactly where one stands. -/
theorem extractJsonBlock_eq_some_iff {text marker : String} {d : Json F} :
    extractJsonBlock (jsonPython py fl) text marker = some d ↔ BlockStands fl text marker d := by
  rw [extractJsonBlock_eq]
  constructor
  · intro h
    obtain ⟨⟨block,rest⟩,hblock,hloads⟩ := Option.bind_eq_some_iff.mp h
    obtain ⟨first,gap,behind,htext,hfirst,hgap,⟨inner,hinner⟩,hbalance,-⟩ := markedBlock_eq_some_iff.mp hblock
    exact ⟨first,gap,block.toList,behind,htext,hfirst,hgap,by rw [hinner]; rfl,hbalance,hloads⟩
  · rintro ⟨first,gap,block,behind,htext,hfirst,hgap,hhead,hbalance,hloads⟩
    obtain ⟨inner,rfl⟩ : ∃ inner, block = '\x7b'::inner := ⟨block.tail,(List.cons_head?_tail hhead).symm⟩
    have hblock : markedBlock marker text = some (String.ofList ('\x7b'::inner),String.ofList (first++behind)) :=
      markedBlock_eq_some_iff.mpr ⟨first,gap,behind,by rw [String.toList_ofList]; exact htext,hfirst,hgap,
        ⟨inner,String.toList_ofList⟩,by rw [String.toList_ofList]; exact hbalance,rfl⟩
    rw [hblock,Option.bind_some,String.toList_ofList]
    exact hloads

/-- A block is found, and cleaning leaves what stood around it, if no other marker is there. -/
def RoundTrips (py : TextPython F) (fl : FloatText F) (before marker : String) (d : Json F) (after : String) : Prop :=
  extractJsonBlock (jsonPython py fl) (markedText fl before marker d after) marker = some d ∧
    (marker ∈ blockMarkers → OnlyMarker marker (markedText fl before marker d after) →
      cleanResponse (jsonPython py fl) (markedText fl before marker d after) = before++after)

/-- The braces of the text of `d` balance, those in its strings counted too. Where the marker overlaps itself with a
brace, a text with balanced braces that begins at this brace stands for `d`. -/
def BlockBalances (fl : FloatText F) (before marker : String) (d : Json F) (after : String) : Prop :=
  if '\x7b' ∈ overlap before marker then ∃ block behind, searched fl before marker d after = block++behind ∧
    BracesBalance block ∧ loads fl block = some d
  else BracesBalance (dumps fl d)

/-- What stands around the block makes no block behind a later marker when it is joined. -/
def JoinsCleanly (fl : FloatText F) (before marker : String) (d : Json F) (after : String) : Prop :=
  marker ∈ blockMarkers → OnlyMarker marker (markedText fl before marker d after) →
    ∀ later ∈ laterMarkers marker, ¬∃ found, BlockStands fl (before++after) later found

/-- A block makes the round trip exactly if its braces balance and what stood around it makes no new block. -/
theorem roundTrips_iff (py : TextPython F) (fl : FloatText F) {members : List (String × Json F)}
    (hd : WellFormed (.object members)) {before marker : String} (hbefore : ¬marker.toList <:+: before.toList)
    (after : String) : RoundTrips py fl before marker (.object members) after ↔
      BlockBalances fl before marker (.object members) after ∧
        JoinsCleanly fl before marker (.object members) after := by
  have hfound : extractJsonBlock (jsonPython py fl) (markedText fl before marker (.object members) after) marker =
      some (.object members) ↔ BlockBalances fl before marker (.object members) after := by
    unfold BlockBalances
    split_ifs with hoverlap
    · exact extractJsonBlock_overlap py hoverlap (.object members) after
    · exact extractJsonBlock_markedText py hd hoverlap after
  unfold RoundTrips JoinsCleanly
  rw [hfound]
  apply and_congr_right
  intro hbalances
  refine forall_congr' (fun hmarker => forall_congr' (fun honly => ?_))
  have hbalance : BracesBalance (dumps fl (.object members)) := by
    unfold BlockBalances at hbalances
    rwa [(overlap_blockMarker hmarker hbefore).1,if_neg List.not_mem_nil] at hbalances
  rw [cleanResponse_markedText py hd hmarker hbefore honly,and_iff_right hbalance]
  refine forall_congr' (fun later => forall_congr' (fun _ => ?_))
  simp only [Option.eq_none_iff_forall_ne_some,extractJsonBlock_eq_some_iff,not_exists,ne_eq]

/-- An object in an object, with a string and a number. -/
def reportSchedule : List (String × Json ℕ) := [("name",.string "report"),("params",.object [("days",.int 3)])]

theorem roundTrips_iff_report : RoundTrips Assistant.plainPython wholeFloats "On it. " "SCHEDULE:"
    (.object reportSchedule) " Done." := by
  refine (roundTrips_iff Assistant.plainPython wholeFloats ?_ (by decide) " Done.").mpr ⟨?_,?_⟩
  · refine .object (by decide) (fun member hmember => ?_)
    simp only [reportSchedule,List.mem_cons,List.not_mem_nil,or_false] at hmember
    rcases hmember with rfl | rfl
    · exact .string _
    · refine .object (by decide) (fun member hmember => ?_)
      rw [List.mem_singleton.mp hmember]
      exact .int 3
  · have hblock : bracketBlock 0 (dumps wholeFloats (.object reportSchedule)) =
        some (dumps wholeFloats (.object reportSchedule),[]) := by decide
    unfold BlockBalances
    rw [if_neg (by decide)]
    exact (bracketBlock_zero.mp hblock).2.2
  · rintro - - later hlater ⟨found,first,gap,block,behind,htext,-⟩
    have hinfix : later.toList <:+: ("On it. "++" Done.").toList := ⟨first,gap++(block++behind),htext.symm⟩
    have hlater' : ∀ later ∈ laterMarkers "SCHEDULE:", ¬later.toList <:+: ("On it. "++" Done.").toList := by decide
    exact hlater' later hlater hinfix

/-- A delegation whose text has a bracket in it. -/
def bracketDelegation : List (String × Json ℕ) := [("to",.string "coder"),("task",.string "add the missing \x7d")]

lemma bracketDelegation_wellFormed : WellFormed (.object bracketDelegation) :=
  .object (by decide) (fun member hmember => by
    simp only [bracketDelegation,List.mem_cons,List.not_mem_nil,or_false] at hmember
    rcases hmember with rfl | rfl <;> exact .string _)

/-- The bracket in the text is taken for the end of the block. -/
theorem bracket_in_string_ends_block : ¬∀ (F : Type) (py : TextPython F) (fl : FloatText F)
    (members : List (String × Json F)) (before marker after : String), WellFormed (.object members) →
    ¬marker.toList <:+: before.toList → RoundTrips py fl before marker (.object members) after := by
  intro h
  have hall := h ℕ Assistant.plainPython wholeFloats bracketDelegation "" "DELEGATE:" "" bracketDelegation_wellFormed
    (by decide)
  have hbalance := (extractJsonBlock_markedText Assistant.plainPython bracketDelegation_wellFormed
    (by decide) "").mp hall.1
  exact absurd hbalance.1 (by decide)

end MarkerBlocks
end HiveKernel
