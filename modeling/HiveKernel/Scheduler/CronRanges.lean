import HiveKernel.Scheduler.ParseCron
import Mathlib.Algebra.Order.Ring.Int

/-! The ranges of the fields. The parser checks the form of a field and leaves its values alone, so that a schedule
is accepted and stored that no time matches. -/
namespace HiveKernel
open Lib

/-- The least and the greatest value of each component, from the second to the day of the week. -/
def cronRanges : List (ℤ × ℤ) := [(0,59),(0,59),(0,23),(1,31),(1,12),(0,6)]

def Within (range : ℤ × ℤ) (v : ℤ) : Prop := range.1 ≤ v ∧ v ≤ range.2

instance (range : ℤ × ℤ) (v : ℤ) : Decidable (Within range v) := inferInstanceAs (Decidable (_ ∧ _))

/-- Some value of the range matches. -/
def Satisfiable (f : CronField) (range : ℤ × ℤ) : Prop := ∃ v, Within range v ∧ f.Matches v

/-- A field keeps to its range: the values of a list lie in it, an interval meets it. -/
structure InRange (part : List Char) (range : ℤ × ℤ) : Prop where
  listed : ∀ piece ∈ part.splitOn ',', ∀ v, Numeral piece v → Within range v
  interval : ∀ digits n, part = '*':: '/'::digits → Numeral digits n → ∃ v, Within range v ∧ n ∣ v

/-- The fields that meet their range. An interval meets every range that begins with zero. -/
inductive Meets : List Char → ℤ × ℤ → Prop
  | any (range : ℤ × ℤ) : Meets ['*'] range
  | interval {digits : List Char} {n : ℤ} {range : ℤ × ℤ} (numeral : Numeral digits n)
    (small : range.1 = 0 ∨ n ≤ range.2) : Meets ('*':: '/'::digits) range
  | listed {part piece : List Char} {v : ℤ} {range : ℤ × ℤ} (mem : piece ∈ part.splitOn ',')
    (numeral : Numeral piece v) (within : Within range v) : Meets part range

/-- A field that is read can be satisfied in a range exactly if it meets it. -/
lemma Reads.satisfiable_iff {part : List Char} {f : CronField} (h : Reads part f) {range : ℤ × ℤ}
    (hrange : range ∈ cronRanges) : Satisfiable f range ↔ Meets part range := by
  have hbounds : (range.1 = 0 ∨ range.1 = 1) ∧ range.1 ≤ range.2 := by
    revert range
    decide
  constructor
  · rintro ⟨v,hv,hmatches⟩
    cases h.matches_iff.mp hmatches with
    | any => exact .any range
    | interval numeral multiple =>
      refine .interval numeral ?_
      rcases hbounds.1 with hzero | hone
      · exact .inl hzero
      · have hpos : 0 < v := by
          have := hv.1
          omega
        exact .inr ((Int.le_of_dvd hpos multiple).trans hv.2)
    | listed mem numeral => exact .listed mem numeral hv
  · intro hmeets
    suffices ∃ v, Within range v ∧ Admits part v by
      obtain ⟨v,hv,hadmits⟩ := this
      exact ⟨v,hv,h.matches_iff.mpr hadmits⟩
    cases hmeets with
    | any => exact ⟨range.1,⟨le_rfl,hbounds.2⟩,.any _⟩
    | @interval digits n _ numeral small =>
      have hpos : 0 < n := by
        cases h with
        | interval numeral' int64 pos => rwa [numeral.unique numeral']
        | list numerals => exact absurd numerals not_list_star
      by_cases hzero : range.1 = 0
      · exact ⟨0,⟨hzero.le,hzero ▸ hbounds.2⟩,.interval numeral (Int.dvd_zero n)⟩
      · have hone : range.1 = 1 := hbounds.1.resolve_left hzero
        exact ⟨n,⟨by omega,small.resolve_left hzero⟩,.interval numeral dvd_rfl⟩
    | listed mem numeral within => exact ⟨_,within,.listed mem numeral⟩

lemma length_cronFields {expr : String}
    (h : (fields expr.toList).length = 5 ∨ (fields expr.toList).length = 6) : (cronFields expr).length = 6 := by
  unfold cronFields
  split_ifs with hsix
  · exact hsix
  · rw [List.length_cons]
    omega

lemma mem_cronFields {expr : String} {part : List Char} (h : part ∈ fields expr.toList) : part ∈ cronFields expr := by
  unfold cronFields
  split_ifs
  · exact h
  · exact List.mem_cons_of_mem _ h

/-- An expression is accepted exactly if it has five or six fields of the form of a field. -/
theorem isOk_parseCron_iff (expr : String) : (∃ sched, parseCron expr = .ok sched) ↔
    ((fields expr.toList).length = 5 ∨ (fields expr.toList).length = 6) ∧
      ∀ part ∈ fields expr.toList, ∃ f, Reads part f := by
  constructor
  · rintro ⟨sched,hsched⟩
    obtain ⟨hlength,hreads⟩ := parseCron_eq_ok_iff_reads.mp hsched
    refine ⟨hlength,fun part hpart => ?_⟩
    obtain ⟨f,-,hf⟩ := exists_right_of_mem hreads (mem_cronFields hpart)
    exact ⟨f,hf⟩
  · rintro ⟨hlength,hread⟩
    have hall : ∀ part ∈ cronFields expr, ∃ f, Reads part f := by
      intro part hpart
      unfold cronFields at hpart
      split_ifs at hpart
      · exact hread part hpart
      · rcases List.mem_cons.mp hpart with rfl | hpart
        · exact ⟨{ values := [0] },reads_zero⟩
        · exact hread part hpart
    obtain ⟨fs,hfs⟩ := exists_forall₂_iff.mpr hall
    have hsix := hfs.length_eq.symm.trans (length_cronFields hlength)
    match fs with
    | [second,minute,hour,dayOfMonth,month,dayOfWeek] =>
      exact ⟨⟨second,minute,hour,dayOfMonth,month,dayOfWeek⟩,parseCron_eq_ok_iff_reads.mpr ⟨hlength,hfs⟩⟩

/-- The parser accepts what has the form of an expression, whatever the values; of the fields it accepts, those can be
satisfied that meet their range. -/
theorem parseCron_checks_form (expr : String) :
    ((∃ sched, parseCron expr = .ok sched) ↔
      ((fields expr.toList).length = 5 ∨ (fields expr.toList).length = 6) ∧
        ∀ part ∈ fields expr.toList, ∃ f, Reads part f) ∧
    ∀ sched, parseCron expr = .ok sched →
      ∀ part f range, (part,f,range) ∈ (cronFields expr).zip (sched.fields.zip cronRanges) →
        (Satisfiable f range ↔ Meets part range) := by
  refine ⟨isOk_parseCron_iff expr,fun sched h part f range hmem => ?_⟩
  obtain ⟨-,hreads⟩ := parseCron_eq_ok_iff_reads.mp h
  have hrange : range ∈ cronRanges := (List.of_mem_zip (List.of_mem_zip hmem).2).2
  obtain ⟨i,hi,hget⟩ := List.getElem_of_mem hmem
  rw [List.length_zip,List.length_zip] at hi
  rw [List.getElem_zip,List.getElem_zip,Prod.mk.injEq,Prod.mk.injEq] at hget
  obtain ⟨rfl,rfl,-⟩ := hget
  exact (hreads.get (by omega) (by omega)).satisfiable_iff hrange

/-- The last day of a month may be asked for as a multiple of 31, and is found in some. -/
theorem parseCron_checks_form_last_day : ∃ sched, parseCron "0 0 */31 * *" = .ok sched ∧
    Satisfiable sched.dayOfMonth (1,31) := by
  obtain ⟨sched,hsched,hday⟩ : ∃ sched, parseCron "0 0 */31 * *" = .ok sched ∧
      sched.dayOfMonth = { interval := 31 } := ⟨_,rfl,rfl⟩
  have hdigits : ∀ c ∈ ['3','1'], c.isDigit := List.all_eq_true.mp (by decide)
  have hmeets : Meets "*/31".toList (1,31) := .interval (.plain (List.cons_ne_nil _ _) hdigits) (.inr (by decide))
  have hmem : ("*/31".toList,sched.dayOfMonth,(1,31)) ∈
      (cronFields "0 0 */31 * *").zip (sched.fields.zip cronRanges) := by
    have hfields : cronFields "0 0 */31 * *" = [['0'],['0'],['0'],"*/31".toList,['*'],['*']] := by decide
    rw [hfields]
    simp [CronSchedule.fields,cronRanges]
  exact ⟨sched,hsched,((parseCron_checks_form "0 0 */31 * *").2 sched hsched _ _ _ hmem).mpr hmeets⟩

/-- Minute 99 is accepted, and comes in no hour. -/
theorem minute_out_of_range : ¬∀ expr sched, parseCron expr = .ok sched →
    List.Forall₂ InRange (cronFields expr) cronRanges ∧ List.Forall₂ Satisfiable sched.fields cronRanges := by
  intro h
  obtain ⟨sched,hsched,hminute⟩ : ∃ sched, parseCron "99 * * * *" = .ok sched ∧
      sched.minute = { values := [99] } := ⟨_,rfl,rfl⟩
  obtain ⟨-,hall⟩ := h _ sched hsched
  obtain ⟨v,hv,hmatches⟩ : Satisfiable sched.minute (0,59) := hall.get (i := 1) (show 1 < 6 by decide) (by decide)
  rw [hminute] at hmatches
  have hv99 : v = 99 := by simpa [CronField.Matches] using hmatches
  subst hv99
  exact absurd hv (by decide)

def cronActionOf : String → Except String CronAction
  | "execute" => .ok .execute
  | "" => .ok .execute
  | "spawn" => .ok .spawn
  | "wake" => .ok .wake
  | "message" => .ok .message
  | action => .error s!"unknown cron action: {action.quote}"

namespace CronScheduler

/-- Parse an expression and add an entry for it. -/
def parseAndAdd (cs : CronScheduler) (name cronExpr action : String) (targetPID : ℕ) (executeDesc : String)
    (executeParams : List (String × String)) : Except String String × CronScheduler :=
  match parseCron cronExpr with
  | .error e => (.error s!"invalid cron expression: {e}",cs)
  | .ok sched => match cronActionOf action with
    | .error e => (.error e,cs)
    | .ok cronAction =>
      let (id,cs) := cs.add
        { name := name, schedule := sched, action := cronAction, targetPID := targetPID, executeDesc := executeDesc
          executeParams := executeParams }
      (.ok id,cs)

end CronScheduler
end HiveKernel
