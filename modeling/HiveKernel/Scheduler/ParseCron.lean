import HiveKernel.Scheduler.Cron
import HiveKernel.Lib.Check
import HiveKernel.Lib.Text

/-! The parser of cron expressions, and what the expressions it accepts mean. -/
namespace HiveKernel
open Lib

def quoted (s : List Char) : String := (String.ofList s).quote

def parseValue (p : List Char) : Except String ℤ :=
  match atoi (trimSpace p) with
  | some v => .ok v
  | none => .error s!"invalid value: {quoted p}"

def parseCronField (s : List Char) : Except String CronField :=
  match s with
  | ['*'] => .ok { any := true }
  | '*':: '/'::n => match atoi n with
    | some n => if 0 < n then .ok { interval := n } else .error s!"invalid interval: {quoted s}"
    | none => .error s!"invalid interval: {quoted s}"
  | s => do
    let values ← (s.splitOn ',').mapM parseValue
    .ok { values := values }

/-- One field of an expression; an error names its place. -/
def parseFieldAt (parts : List (List Char)) (i : ℕ) : Except String CronField :=
  let part := parts.getD i []
  withContext s!"field {i} ({quoted part}): " (parseCronField part)

/-- Six fields from the second to the day of the week, or five from the minute on; the second is 0 then. -/
def parseCron (expr : String) : Except String CronSchedule := do
  let parts := fields expr.toList
  if parts.length ≠ 5 ∧ parts.length ≠ 6 then
    .error s!"cron: need 5 or 6 fields, got {parts.length}: {expr.quote}"
  else
    let offset := if parts.length = 6 then 1 else 0
    let second ← if parts.length = 6 then parseFieldAt parts 0 else .ok { values := [0] }
    let minute ← parseFieldAt parts offset
    let hour ← parseFieldAt parts (offset+1)
    let dayOfMonth ← parseFieldAt parts (offset+2)
    let month ← parseFieldAt parts (offset+3)
    let dayOfWeek ← parseFieldAt parts (offset+4)
    .ok { second, minute, hour, dayOfMonth, month, dayOfWeek }

example : parseCron "*/10 0,30 * * * 1" = .ok
    { second := { interval := 10 }, minute := { values := [0,30] }, hour := { any := true }
      dayOfMonth := { any := true }, month := { any := true }, dayOfWeek := { values := [1] } } := by rfl

/-- The fields of a schedule in the order of an expression. -/
def CronSchedule.fields (cs : CronSchedule) : List CronField :=
  [cs.second,cs.minute,cs.hour,cs.dayOfMonth,cs.month,cs.dayOfWeek]

/-- The fields of an expression from the second on. -/
def cronFields (expr : String) : List (List Char) :=
  if (fields expr.toList).length = 6 then fields expr.toList else ['0']::fields expr.toList

lemma parseFieldAt_eq_ok {parts : List (List Char)} {i : ℕ} {f : CronField} :
    parseFieldAt parts i = .ok f ↔ parseCronField (parts.getD i []) = .ok f := withContext_eq_ok

/-- An expression is accepted if each of its fields is, and the schedule is made of them. -/
theorem parseCron_eq_ok_iff {expr : String} {sched : CronSchedule} :
    parseCron expr = .ok sched ↔ ((fields expr.toList).length = 5 ∨ (fields expr.toList).length = 6) ∧
      List.Forall₂ (fun part f => parseCronField part = .ok f) (cronFields expr) sched.fields := by
  unfold parseCron cronFields CronSchedule.fields
  generalize fields expr.toList = parts
  have hzero : parseCronField ['0'] = .ok { values := [0] } := rfl
  match parts with
  | [a,b,c,d,e] =>
    simp only [List.length_cons,List.length_nil,zero_add,Nat.reduceAdd,ne_eq,not_true_eq_false,Nat.reduceEqDiff,
      not_false_eq_true,and_true,if_false,bind_eq_ok,Except.ok.injEq,parseFieldAt_eq_ok,List.getD_cons_zero,
      List.getD_cons_succ,exists_eq_left',or_false,true_and,List.forall₂_cons,List.forall₂_nil_right_iff]
    constructor
    · rintro ⟨_,hminute,_,hhour,_,hday,_,hmonth,_,hweekday,rfl⟩
      exact ⟨hzero,hminute,hhour,hday,hmonth,hweekday⟩
    · rintro ⟨hsecond,hminute,hhour,hday,hmonth,hweekday⟩
      rw [Except.ok.inj (hzero.symm.trans hsecond)]
      exact ⟨_,hminute,_,hhour,_,hday,_,hmonth,_,hweekday,rfl⟩
  | [a,b,c,d,e,f] =>
    simp only [List.length_cons,List.length_nil,zero_add,Nat.reduceAdd,ne_eq,not_true_eq_false,and_false,if_false,
      if_true,bind_eq_ok,Except.ok.injEq,parseFieldAt_eq_ok,List.getD_cons_zero,List.getD_cons_succ,or_true,true_and,
      and_true,List.forall₂_cons,List.forall₂_nil_right_iff]
    constructor
    · rintro ⟨_,hsecond,_,hminute,_,hhour,_,hday,_,hmonth,_,hweekday,rfl⟩
      exact ⟨hsecond,hminute,hhour,hday,hmonth,hweekday⟩
    · rintro ⟨hsecond,hminute,hhour,hday,hmonth,hweekday⟩
      exact ⟨_,hsecond,_,hminute,_,hhour,_,hday,_,hmonth,_,hweekday,rfl⟩
  | [] | [_] | [_,_] | [_,_,_] | [_,_,_,_] | _::_::_::_::_::_::_::rest => simp

/-- The form of a field, and what is read from it. -/
inductive Reads : List Char → CronField → Prop
  | any : Reads ['*'] { any := true }
  | interval {digits : List Char} {n : ℤ} (numeral : Numeral digits n) (int64 : IsInt64 n) (pos : 0 < n) :
    Reads ('*':: '/'::digits) { interval := n }
  | list {s : List Char} {values : List ℤ}
    (numerals : List.Forall₂ (fun piece v => Numeral piece v ∧ IsInt64 v) (s.splitOn ',') values) :
    Reads s { values := values }

/-- What a field stands for: everything, the multiples of a number, or the numbers of a list. -/
inductive Admits : List Char → ℤ → Prop
  | any (v : ℤ) : Admits ['*'] v
  | interval {digits : List Char} {n v : ℤ} (numeral : Numeral digits n) (multiple : n ∣ v) :
    Admits ('*':: '/'::digits) v
  | listed {s piece : List Char} {v : ℤ} (mem : piece ∈ s.splitOn ',') (numeral : Numeral piece v) : Admits s v

variable {s : List Char} {f : CronField} {v : ℤ}

lemma not_numeral_star (rest : List Char) : ¬Numeral ('*'::rest) v := by
  intro h
  have hchar := h.chars '*' (List.mem_cons_self ..)
  revert hchar
  decide

/-- The first piece of a list starts as the list does. -/
lemma exists_star_piece (rest : List Char) : ∃ first, '*'::first ∈ ('*'::rest).splitOn ',' := by
  obtain ⟨first,pieces,hsplit⟩ := List.exists_cons_of_ne_nil (List.splitOn_ne_nil ',' rest)
  rw [List.splitOn_cons_eq_if_modifyHead,if_neg (by decide),hsplit]
  exact ⟨first,List.mem_cons_self ..⟩

lemma not_list_star {rest : List Char} {values : List ℤ} :
    ¬List.Forall₂ (fun piece v => Numeral piece v ∧ IsInt64 v) (('*'::rest).splitOn ',') values := by
  intro h
  obtain ⟨first,hfirst⟩ := exists_star_piece rest
  obtain ⟨v,-,numeral,-⟩ := exists_right_of_mem h hfirst
  exact not_numeral_star first numeral

lemma parseValue_eq_ok {p : List Char} (hp : ∀ c ∈ p, isSpace c = false) :
    parseValue p = .ok v ↔ Numeral p v ∧ IsInt64 v := by
  rw [← atoi_eq_some_iff,parseValue,trimSpace_eq_self hp]
  cases atoi p with
  | none => simp
  | some w => simp

/-- The parser reads fields of this form and no others. -/
theorem parseCronField_eq_ok_iff (hs : ∀ c ∈ s, isSpace c = false) : parseCronField s = .ok f ↔ Reads s f := by
  unfold parseCronField
  split
  next =>
    constructor
    · intro h
      cases h
      exact .any
    · intro h
      cases h with
      | any => rfl
      | list numerals => exact absurd numerals not_list_star
  next digits =>
    constructor
    · intro h
      split at h
      next n hn =>
        split_ifs at h with hpos
        cases h
        obtain ⟨hnum,hint⟩ := atoi_eq_some_iff.mp hn
        exact .interval hnum hint hpos
      next => cases h
    · intro h
      cases h with
      | interval numeral int64 pos =>
        rw [atoi_eq_some_iff.mpr ⟨numeral,int64⟩]
        exact if_pos pos
      | list numerals => exact absurd numerals not_list_star
  next hany hinterval =>
    have hpieces : ∀ {values}, (s.splitOn ',').mapM parseValue = .ok values ↔
        List.Forall₂ (fun piece v => Numeral piece v ∧ IsInt64 v) (s.splitOn ',') values := by
      intro values
      rw [mapM_eq_ok_iff,List.forall₂_iff_zip,List.forall₂_iff_zip]
      refine and_congr_right fun _ => forall_congr' fun piece => forall_congr' fun v => imp_congr_right fun h => ?_
      exact parseValue_eq_ok fun c hc => hs c (mem_of_mem_splitOnP (List.of_mem_zip h).1 hc).1
    rw [bind_eq_ok]
    constructor
    · rintro ⟨values,hvalues,hf⟩
      cases hf
      exact .list (hpieces.mp hvalues)
    · intro h
      cases h with
      | any => exact absurd rfl hany
      | interval numeral int64 pos => exact absurd rfl (hinterval _)
      | list numerals => exact ⟨_,hpieces.mpr numerals,rfl⟩

/-- A field that is read matches what it stands for. -/
theorem Reads.matches_iff (h : Reads s f) : f.Matches v ↔ Admits s v := by
  cases h with
  | any => exact iff_of_true (by simp [CronField.Matches]) (.any v)
  | @interval digits n numeral int64 pos =>
    have hmatches : CronField.Matches { interval := n } v ↔ n ∣ v := by
      rw [CronField.Matches,if_neg Bool.false_ne_true,if_pos pos]
      exact Int.dvd_iff_emod_eq_zero.symm
    rw [hmatches]
    constructor
    · exact .interval numeral
    · intro h
      cases h with
      | interval numeral' multiple =>
        rw [numeral.unique numeral']
        exact multiple
      | listed mem numeral' =>
        have hcomma : ',' ∉ '*':: '/'::digits := by
          intro hmem
          rcases List.mem_cons.mp hmem with h | hmem
          · cases h
          · rcases List.mem_cons.mp hmem with h | hmem
            · cases h
            · exact absurd (numeral.chars ',' hmem) (by decide)
        rw [List.splitOn_eq_singleton hcomma,List.mem_singleton] at mem
        rw [mem] at numeral'
        exact absurd numeral' (not_numeral_star _)
  | @list s values numerals =>
    have hmatches : CronField.Matches { values := values } v ↔ v ∈ values := by simp [CronField.Matches]
    rw [hmatches]
    constructor
    · intro hv
      obtain ⟨piece,hpiece,numeral,-⟩ := exists_left_of_mem numerals hv
      exact .listed hpiece numeral
    · intro h
      cases h with
      | any => exact absurd numerals not_list_star
      | interval numeral multiple => exact absurd numerals not_list_star
      | listed mem numeral =>
        obtain ⟨w,hw,numeral',-⟩ := exists_right_of_mem numerals mem
        rwa [numeral.unique numeral']

/-- The components of a time in the order of an expression. -/
def CivilTime.components (t : CivilTime) : List ℤ := [t.second,t.minute,t.hour,t.day,t.month,t.weekday]

lemma matches_iff_forall₂ (sched : CronSchedule) (t : CivilTime) :
    sched.Matches t ↔ List.Forall₂ CronField.Matches sched.fields t.components := by
  simp [CronSchedule.Matches,CronSchedule.fields,CivilTime.components]

lemma not_isSpace_zero : ∀ c ∈ ['0'], isSpace c = false := List.forall_mem_singleton.mpr (by decide)

lemma not_isSpace_of_mem_cronFields {expr : String} {part : List Char} (h : part ∈ cronFields expr) :
    ∀ c ∈ part, isSpace c = false := by
  unfold cronFields at h
  split_ifs at h
  · exact not_isSpace_of_mem_fields h
  · rcases List.mem_cons.mp h with rfl | h
    · exact not_isSpace_zero
    · exact not_isSpace_of_mem_fields h

/-- An accepted expression has five or six fields, all of the form of a field. -/
theorem parseCron_eq_ok_iff_reads {expr : String} {sched : CronSchedule} :
    parseCron expr = .ok sched ↔ ((fields expr.toList).length = 5 ∨ (fields expr.toList).length = 6) ∧
      List.Forall₂ Reads (cronFields expr) sched.fields := by
  rw [parseCron_eq_ok_iff,List.forall₂_iff_zip,List.forall₂_iff_zip]
  refine and_congr_right fun _ => and_congr_right fun _ => forall_congr' fun part => forall_congr' fun f =>
    imp_congr_right fun h => ?_
  exact parseCronField_eq_ok_iff (not_isSpace_of_mem_cronFields (List.of_mem_zip h).1)

lemma forall₂_matches_iff {parts : List (List Char)} {fs : List CronField} (h : List.Forall₂ Reads parts fs)
    (values : List ℤ) : List.Forall₂ CronField.Matches fs values ↔ List.Forall₂ Admits parts values := by
  induction h generalizing values with
  | nil => rw [List.forall₂_nil_left_iff,List.forall₂_nil_left_iff]
  | cons hread _ ih =>
    cases values with
    | nil => simp
    | cons v values => rw [List.forall₂_cons,List.forall₂_cons,hread.matches_iff,ih]

lemma reads_zero : Reads ['0'] { values := [0] } := (parseCronField_eq_ok_iff not_isSpace_zero).mp rfl

lemma admits_zero_iff : Admits ['0'] v ↔ v = 0 := by
  rw [← reads_zero.matches_iff]
  simp [CronField.Matches]

/-- A field in front of the others. -/
lemma fields_zero (e : String) : fields ("0 "++e).toList = ['0']::fields e.toList := by
  rw [String.toList_append]
  exact fields_cons (List.cons_ne_nil _ _) not_isSpace_zero e.toList

/-- Five fields are read as six with a zero in front. -/
theorem parseCron_zero {e : String} (h : (fields e.toList).length = 5) (sched : CronSchedule) :
    parseCron e = .ok sched ↔ parseCron ("0 "++e) = .ok sched := by
  have hsame : cronFields e = cronFields ("0 "++e) := by
    unfold cronFields
    rw [fields_zero,List.length_cons,h,if_neg (by decide),if_pos rfl]
  rw [parseCron_eq_ok_iff,parseCron_eq_ok_iff,hsame,fields_zero,List.length_cons,h]
  simp

/-- The times of a schedule: with six fields, each admits its component of the time; with five, each admits its
component from the minute on, and the second is 0. -/
theorem parseCron_matches {expr : String} {sched : CronSchedule} (h : parseCron expr = .ok sched) (t : CivilTime) :
    sched.Matches t ↔ List.Forall₂ Admits (fields expr.toList) t.components ∨
      t.second = 0 ∧ List.Forall₂ Admits (fields expr.toList) t.components.tail := by
  obtain ⟨hlength,hreads⟩ := parseCron_eq_ok_iff_reads.mp h
  rw [matches_iff_forall₂,forall₂_matches_iff hreads]
  unfold cronFields
  rcases hlength with hfive | hsix
  · have hnot : ¬List.Forall₂ Admits (fields expr.toList) t.components := by
      intro hall
      have := hall.length_eq.symm.trans hfive
      cases this
    rw [hfive,if_neg (by decide),or_iff_right hnot]
    exact List.forall₂_cons.trans (and_congr_left' admits_zero_iff)
  · have hnot : ¬List.Forall₂ Admits (fields expr.toList) t.components.tail := by
      intro hall
      have := hall.length_eq.symm.trans hsix
      cases this
    rw [hsix,if_pos rfl,or_iff_left fun h => hnot h.2]

/-- Expressions mean what they say, and five fields what six mean that begin with a zero. -/
theorem parseCron_means : (∀ expr sched t, parseCron expr = .ok sched →
      (sched.Matches t ↔ List.Forall₂ Admits (fields expr.toList) t.components ∨
        t.second = 0 ∧ List.Forall₂ Admits (fields expr.toList) t.components.tail)) ∧
    ∀ e, (fields e.toList).length = 5 →
      ((∃ sched, parseCron e = .ok sched) ↔ ∃ sched, parseCron ("0 "++e) = .ok sched) ∧
      ∀ sched sched', parseCron e = .ok sched → parseCron ("0 "++e) = .ok sched' →
        ∀ t, sched.Matches t ↔ sched'.Matches t := by
  refine ⟨fun expr sched t h => parseCron_matches h t,fun e he => ⟨?_,fun sched sched' h h' t => ?_⟩⟩
  · exact exists_congr (parseCron_zero he)
  · have hsame := (parseCron_zero he sched).mp h
    cases hsame.symm.trans h'
    rfl

/-- Every minute at ten past eight, and every ten seconds of it. -/
theorem parseCron_means_morning : ∃ sched, parseCron "*/10 10 8 * * *" = .ok sched ∧
    sched.Matches ⟨30,10,8,15,1,3⟩ ∧
    List.Forall₂ Admits (fields "*/10 10 8 * * *".toList) [30,10,8,15,1,3] ∧
    ∃ sched', parseCron "0 10 8 * * *" = .ok sched' := by
  obtain ⟨hmeans,hfive⟩ := parseCron_means
  have hsched : ∃ sched, parseCron "*/10 10 8 * * *" = .ok sched ∧ sched.Matches ⟨30,10,8,15,1,3⟩ :=
    ⟨_,rfl,by decide⟩
  obtain ⟨sched,hparse,hmatches⟩ := hsched
  refine ⟨sched,hparse,hmatches,?_,(hfive "10 8 * * *" (by decide)).1.mp ⟨_,rfl⟩⟩
  rcases (hmeans _ sched _ hparse).mp hmatches with hall | ⟨hzero,-⟩
  · exact hall
  · cases hzero

/-- The second is not among the five fields. -/
theorem second_not_among_five : ¬∀ expr sched t, parseCron expr = .ok sched →
    (sched.Matches t ↔ List.Forall₂ Admits (fields expr.toList)
      (t.components.drop (6-(fields expr.toList).length))) := by
  intro h
  have hparse : ∃ sched, parseCron "* * * * *" = .ok sched ∧ ¬sched.Matches ⟨30,0,0,1,1,1⟩ := ⟨_,rfl,by decide⟩
  obtain ⟨sched,hsched,hnot⟩ := hparse
  refine hnot ((h _ sched ⟨30,0,0,1,1,1⟩ hsched).mpr ?_)
  have hfields : fields "* * * * *".toList = List.replicate 5 ['*'] := by decide
  rw [hfields]
  exact .cons (.any 0) (.cons (.any 0) (.cons (.any 1) (.cons (.any 1) (.cons (.any 1) .nil))))

end HiveKernel
