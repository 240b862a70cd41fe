import HiveKernel.Lib.Run
import HiveKernel.Lib.Table

/-! The crontab and its poller. Times are nanoseconds since the zero time, and a location says how a whole
second reads on the clock and the calendar. -/
namespace HiveKernel
open Lib

/-- The components of a time that a schedule looks at. -/
structure CivilTime where
  second : ℤ
  minute : ℤ
  hour : ℤ
  day : ℤ
  month : ℤ
  weekday : ℤ
  deriving DecidableEq, Repr

/-- How the whole seconds since the zero time read at a place. -/
def Location : Type := ℕ → CivilTime

namespace Location

def monthLengths (leap : Bool) : List ℕ := [31,if leap then 29 else 28,31,30,31,30,31,31,30,31,30,31]

/-- Month and day of the month of a day of the year, both from one. -/
def monthDay : List ℕ → ℕ → ℕ → ℕ × ℕ
  | [],month,day => (month,day+1)
  | length::rest,month,day => if day < length then (month,day+1) else monthDay rest (month+1) (day-length)

/-- The Gregorian calendar. The zero time is the first of January of the year one, a Monday. -/
def utc : Location := fun s =>
  let days := s/86400
  let inCycle := days%146097
  let century := min (inCycle/36524) 3
  let inCentury := inCycle-century*36524
  let inFour := inCentury%1461
  let year := min (inFour/365) 3
  let leap := decide (year = 3 ∧ (inCentury/1461 ≠ 24 ∨ century = 3))
  let date := monthDay (monthLengths leap) 1 (inFour-year*365)
  { second := s%60
    minute := s/60%60
    hour := s/3600%24
    day := date.2
    month := date.1
    weekday := (days+1)%7 }

-- 2024-02-29 12:34:56 was a Thursday
example : utc (62135596800+1709210096) = ⟨56,34,12,29,2,4⟩ := by decide

end Location

/-- A field that is `*`, an interval `*/N`, or a list of values. -/
structure CronField where
  any : Bool := false
  values : List ℤ := []
  interval : ℤ := 0
  deriving DecidableEq, Repr

def CronField.Matches (f : CronField) (value : ℤ) : Prop :=
  if f.any then True
  else if 0 < f.interval then value%f.interval = 0
  else value ∈ f.values

instance (f : CronField) (value : ℤ) : Decidable (f.Matches value) :=
  inferInstanceAs (Decidable
    (if f.any then True else if 0 < f.interval then value%f.interval = 0 else value ∈ f.values))

structure CronSchedule where
  second : CronField
  minute : CronField
  hour : CronField
  dayOfMonth : CronField
  month : CronField
  dayOfWeek : CronField
  deriving DecidableEq, Repr

def CronSchedule.Matches (cs : CronSchedule) (t : CivilTime) : Prop :=
  cs.second.Matches t.second ∧ cs.minute.Matches t.minute ∧ cs.hour.Matches t.hour ∧
    cs.dayOfMonth.Matches t.day ∧ cs.month.Matches t.month ∧ cs.dayOfWeek.Matches t.weekday

instance (cs : CronSchedule) (t : CivilTime) : Decidable (cs.Matches t) :=
  inferInstanceAs (Decidable (_ ∧ _))

inductive CronAction
  | spawn | wake | execute | message
  deriving DecidableEq, Repr

structure CronEntry where
  id : String := ""
  name : String
  schedule : CronSchedule
  action : CronAction
  targetPID : ℕ
  executeDesc : String := ""
  executeParams : List (String × String) := []
  lastRun : ℕ := 0
  enabled : Bool := false
  deriving DecidableEq, Repr

/-- An entry stands under its own identifier. -/
structure CronScheduler where
  entries : Table String CronEntry
  nextID : ℕ
  id_eq : ∀ {k e}, entries.get k = some e → e.id = k

/-- Nanoseconds of a second. -/
def nanos : ℕ := 1000000000

/-- `Truncate(time.Second)`, as a number of seconds. -/
def wholeSecond (t : ℕ) : ℕ := t/nanos

namespace CronScheduler

def new : CronScheduler := ⟨.empty,0,fun h => by cases h⟩

/-- Write an entry. -/
def put (cs : CronScheduler) (entry : CronEntry) : CronScheduler where
  entries := cs.entries.set entry.id entry
  nextID := cs.nextID
  id_eq := by
    intro k e he
    rcases Table.get_set_some he with ⟨rfl,rfl⟩ | ⟨-,he⟩
    · rfl
    · exact cs.id_eq he

def add (cs : CronScheduler) (entry : CronEntry) : String × CronScheduler :=
  let id := s!"cron-{cs.nextID+1}"
  (id,{ cs with nextID := cs.nextID+1 }.put { entry with id := id, enabled := true })

def notFound (id : String) : String := s!"cron entry {id.quote} not found"

def remove (cs : CronScheduler) (id : String) : Except String CronScheduler :=
  match cs.entries.get id with
  | none => .error (notFound id)
  | some _ => .ok { cs with entries := cs.entries.erase id, id_eq := fun h => cs.id_eq (Table.get_erase_some h).2 }

def setEnabled (cs : CronScheduler) (id : String) (enabled : Bool) : Except String CronScheduler :=
  match cs.entries.get id with
  | none => .error (notFound id)
  | some entry => .ok (cs.put { entry with enabled := enabled })

/-- The entry is to run at that time. -/
def IsDue (loc : Location) (now : ℕ) (entry : CronEntry) : Prop :=
  entry.enabled = true ∧ entry.schedule.Matches (loc (wholeSecond now)) ∧
    wholeSecond entry.lastRun ≠ wholeSecond now

instance (loc : Location) (now : ℕ) (entry : CronEntry) : Decidable (IsDue loc now entry) :=
  inferInstanceAs (Decidable (_ ∧ _))

/-- One iteration of `CheckDue`. -/
def checkEntry (loc : Location) (now : ℕ) (acc : List CronEntry × CronScheduler) (id : String) :
    List CronEntry × CronScheduler :=
  match acc.2.entries.get id with
  | none => acc
  | some entry =>
    if IsDue loc now entry then
      let entry := { entry with lastRun := now }
      (acc.1++[entry],acc.2.put entry)
    else acc

def checkDue (cs : CronScheduler) (loc : Location) (now : ℕ) (order : List String) : List CronEntry × CronScheduler :=
  order.foldl (checkEntry loc now) ([],cs)

variable {loc : Location} {now : ℕ}

lemma get_put (cs : CronScheduler) (entry : CronEntry) (id : String) :
    (cs.put entry).entries.get id = if id = entry.id then some entry else cs.entries.get id := Table.get_set _ _ _ _

/-- The entry after a poll. -/
def checked (loc : Location) (now : ℕ) (entry : CronEntry) : CronEntry :=
  if IsDue loc now entry then { entry with lastRun := now } else entry

/-- An entry that ran at that time is not due any more. -/
lemma checked_checked (entry : CronEntry) : checked loc now (checked loc now entry) = checked loc now entry := by
  unfold checked
  by_cases hdue : IsDue loc now entry
  · rw [if_pos hdue,if_neg (fun h => h.2.2 rfl)]
  · rw [if_neg hdue,if_neg hdue]

lemma get_checkEntry (acc : List CronEntry × CronScheduler) (k id : String) :
    (checkEntry loc now acc k).2.entries.get id = if id = k
      then (acc.2.entries.get id).map (checked loc now) else acc.2.entries.get id := by
  unfold checkEntry
  cases hk : acc.2.entries.get k with
  | none =>
    split_ifs with hid
    · rw [hid,hk]
      rfl
    · rfl
  | some entry =>
    have hname : entry.id = k := acc.2.id_eq hk
    by_cases hdue : IsDue loc now entry
    · simp only [if_pos hdue,get_put,hname]
      split_ifs with hid
      · rw [hid,hk,Option.map_some,checked,if_pos hdue,hname]
      · rfl
    · simp only [if_neg hdue]
      split_ifs with hid
      · rw [hid,hk,Option.map_some,checked,if_neg hdue]
      · rfl

/-- What the loop does to an entry. -/
lemma get_checkEntries (order : List String) (acc : List CronEntry × CronScheduler) (id : String) :
    (order.foldl (checkEntry loc now) acc).2.entries.get id = if id ∈ order
      then (acc.2.entries.get id).map (checked loc now) else acc.2.entries.get id := by
  induction order generalizing acc with
  | nil => rfl
  | cons k order ih =>
    rw [List.foldl_cons,ih,get_checkEntry]
    by_cases hk : id = k
    · subst hk
      cases acc.2.entries.get id with
      | none => simp
      | some entry => simp [checked_checked]
    · simp [hk]

/-- What the loop returns. -/
lemma mem_checkEntries {order : List String} (hnodup : order.Nodup) (acc : List CronEntry × CronScheduler)
    (id : String) :
    (∃ d ∈ (order.foldl (checkEntry loc now) acc).1, d.id = id) ↔
      (∃ d ∈ acc.1, d.id = id) ∨ id ∈ order ∧ ∃ entry, acc.2.entries.get id = some entry ∧ IsDue loc now entry := by
  induction order generalizing acc with
  | nil => simp
  | cons k order ih =>
    rw [List.nodup_cons] at hnodup
    rw [List.foldl_cons,ih hnodup.2,get_checkEntry]
    have hfirst : (∃ d ∈ (checkEntry loc now acc k).1, d.id = id) ↔ (∃ d ∈ acc.1, d.id = id) ∨
        id = k ∧ ∃ entry, acc.2.entries.get k = some entry ∧ IsDue loc now entry := by
      unfold checkEntry
      cases hk : acc.2.entries.get k with
      | none => simp
      | some entry =>
        have hname : entry.id = k := acc.2.id_eq hk
        by_cases hdue : IsDue loc now entry
        · simp [hdue,or_and_right,exists_or,hname,eq_comm]
        · simp [hdue]
    rw [hfirst]
    by_cases hk : id = k
    · subst hk
      simp [hnodup.1]
    · simp [hk]

lemma mem_checkDue (cs : CronScheduler) {order : List String} (horder : cs.entries.Enumerates order) (id : String) :
    (∃ d ∈ (cs.checkDue loc now order).1, d.id = id) ↔
      ∃ entry, cs.entries.get id = some entry ∧ IsDue loc now entry := by
  have hnodup : order.Nodup := horder.symm.nodup cs.entries.toAList.nodupKeys
  rw [checkDue,mem_checkEntries hnodup]
  constructor
  · rintro (⟨d,hd,-⟩ | ⟨-,hdue⟩)
    · cases hd
    · exact hdue
  · rintro ⟨entry,hentry,hdue⟩
    exact .inr ⟨(horder.mem_iff id).mpr (by simp [hentry]),entry,hentry,hdue⟩

end CronScheduler

/-- The scheduler with the time of the last poll. -/
structure CronPoller where
  cron : CronScheduler
  last : Option ℕ

inductive CronOp
  | add (name : String) (schedule : CronSchedule) (action : CronAction) (targetPID : ℕ) (executeDesc : String)
      (executeParams : List (String × String))
  | remove (id : String)
  | setEnabled (id : String) (enabled : Bool)
  | poll (now : ℕ) (order : List String)

namespace CronPoller
open CronScheduler
variable {loc : Location} {s t : CronPoller} {op : CronOp}

def start : CronPoller := ⟨.new,none⟩

/-- Calls that return an error change nothing, and the clock of the polls goes forward. -/
def step (loc : Location) (s : CronPoller) : CronOp → Option CronPoller
  | .add name schedule action targetPID executeDesc executeParams =>
    let entry : CronEntry :=
      { name := name, schedule := schedule, action := action, targetPID := targetPID, executeDesc := executeDesc
        executeParams := executeParams }
    some { s with cron := (s.cron.add entry).2 }
  | .remove id => match s.cron.remove id with
    | .ok cron => some { s with cron := cron }
    | .error _ => some s
  | .setEnabled id enabled => match s.cron.setEnabled id enabled with
    | .ok cron => some { s with cron := cron }
    | .error _ => some s
  | .poll now order =>
    if (∀ t, s.last = some t → t < now) ∧ s.cron.entries.Enumerates order then
      some ⟨(s.cron.checkDue loc now order).2,some now⟩
    else none

/-- A whole second of the schedule between two polls. -/
def Occurs (loc : Location) (schedule : CronSchedule) (since now sec : ℕ) : Prop :=
  since < sec*nanos ∧ sec*nanos ≤ now ∧ schedule.Matches (loc sec)

instance (loc : Location) (schedule : CronSchedule) (since now sec : ℕ) :
    Decidable (Occurs loc schedule since now sec) := inferInstanceAs (Decidable (_ ∧ _))

/-- Every entry last ran at a poll, or never. -/
def RanBefore (s : CronPoller) : Prop :=
  ∀ id entry, s.cron.entries.get id = some entry → entry.lastRun ≤ s.last.getD 0

lemma ranBefore_start : start.RanBefore := by
  intro id entry h
  cases h

/-- Writing an entry that ran no later than the others. -/
lemma RanBefore.put (h : s.RanBefore) (nextID : ℕ) {entry : CronEntry} (hentry : entry.lastRun ≤ s.last.getD 0) :
    RanBefore { s with cron := { s.cron with nextID := nextID }.put entry } := by
  intro id e he
  change ({ s.cron with nextID := nextID }.put entry).entries.get id = some e at he
  rw [get_put] at he
  split_ifs at he
  · cases he
    exact hentry
  · exact h id e he

lemma RanBefore.step (h : s.RanBefore) (hs : s.step loc op = some t) : t.RanBefore := by
  cases op with
  | add name schedule action targetPID executeDesc executeParams =>
    cases hs
    exact h.put _ (Nat.zero_le _)
  | remove id =>
    simp only [CronPoller.step,CronScheduler.remove] at hs
    cases hid : s.cron.entries.get id with
    | none =>
      simp only [hid] at hs
      cases hs
      exact h
    | some entry =>
      simp only [hid] at hs
      cases hs
      exact fun k e he => h k e (Table.get_erase_some he).2
  | setEnabled id enabled =>
    simp only [CronPoller.step,CronScheduler.setEnabled] at hs
    cases hid : s.cron.entries.get id with
    | none =>
      simp only [hid] at hs
      cases hs
      exact h
    | some entry =>
      simp only [hid] at hs
      cases hs
      exact h.put s.cron.nextID (h id entry hid)
  | poll now order =>
    simp only [CronPoller.step] at hs
    split_ifs at hs with hpoll
    cases hs
    have hle : s.last.getD 0 ≤ now := by
      cases hlast : s.last with
      | none => exact Nat.zero_le now
      | some t => exact (hpoll.1 t hlast).le
    intro id e he
    change (s.cron.checkDue loc now order).2.entries.get id = some e at he
    rw [checkDue,get_checkEntries] at he
    split_ifs at he
    · obtain ⟨entry,hentry,rfl⟩ := Option.map_eq_some_iff.mp he
      unfold checked
      split_ifs
      · exact le_rfl
      · exact (h id entry hentry).trans hle
    · exact (h id e he).trans hle

/-- No second is counted twice: between two polls that have a whole second between them, nothing ran in the second of
the later one. -/
lemma wholeSecond_ne {since now sec lastRun : ℕ} (hrun : lastRun ≤ since) (hsince : since < sec*nanos)
    (hnow : sec*nanos ≤ now) : wholeSecond lastRun ≠ wholeSecond now := by
  have hbefore : wholeSecond lastRun < sec := Nat.div_lt_of_lt_mul (by rw [Nat.mul_comm]; omega)
  have hafter : sec ≤ wholeSecond now := (Nat.le_div_iff_mul_le (by decide)).mpr hnow
  omega

/-- Every second of the schedule since the last poll makes an enabled entry due exactly if the second of this poll is
one of the schedule too, or there was none at all. -/
theorem due_iff_matches_now {trace : List (Transition CronPoller CronOp)} (run : Run (step loc) start trace t)
    {before later : List (Transition CronPoller CronOp)} {s s' : CronPoller} {now since : ℕ} {order : List String}
    (hpoll : trace = before++⟨s,.poll now order,s'⟩::later) (hlast : s.last = some since) {id : String}
    {entry : CronEntry} (hentry : s.cron.entries.get id = some entry) (henabled : entry.enabled = true) :
    (∀ sec, Occurs loc entry.schedule since now sec → ∃ d ∈ (s.cron.checkDue loc now order).1, d.id = id) ↔
      ((∃ sec, Occurs loc entry.schedule since now sec) → entry.schedule.Matches (loc (wholeSecond now))) := by
  subst hpoll
  obtain ⟨hbefore,hstep,-⟩ := run.split
  have hran : s.RanBefore := (hbefore.invariant (fun _ _ _ h hs => RanBefore.step h hs) ranBefore_start).2
  have hrun : entry.lastRun ≤ since := by
    have := hran id entry hentry
    rwa [hlast] at this
  simp only [step] at hstep
  split_ifs at hstep with horder
  rw [mem_checkDue s.cron horder.2]
  constructor
  · rintro hdue ⟨sec,hsec⟩
    obtain ⟨e,he,hd⟩ := hdue sec hsec
    cases hentry.symm.trans he
    exact hd.2.1
  · intro hmatch sec hsec
    exact ⟨entry,hentry,henabled,hmatch ⟨sec,hsec⟩,wholeSecond_ne hrun hsec.1 hsec.2.1⟩

/-- At second 30 of every minute. -/
def halfMinute : CronSchedule :=
  { second := { values := [30] }, minute := { any := true }, hour := { any := true }, dayOfMonth := { any := true }
    month := { any := true }, dayOfWeek := { any := true } }

/-- 12:34:30 on a day of 2024. -/
def noon : ℕ := 63844806870

def addHalfMinute : CronOp := .add "report" halfMinute .execute 2 "write the report" []

/-- Polls less than a second apart, before and in that second. -/
theorem due_iff_matches_now_noon : ∃ (trace : List (Transition CronPoller CronOp)) (s s' : CronPoller),
    Run (step Location.utc) start trace s' ∧
    Occurs Location.utc halfMinute (noon*nanos-400000000) (noon*nanos+500000000) noon ∧
    ∃ d ∈ (s.cron.checkDue Location.utc (noon*nanos+500000000) ["cron-1"]).1, d.id = "cron-1" := by
  obtain ⟨s,s',entry,hs,hs',hlast,hentry,henabled,hschedule⟩ : ∃ s s' entry,
      exec (step Location.utc) [addHalfMinute,.poll (noon*nanos-400000000) ["cron-1"]] start = some s ∧
      s.step Location.utc (.poll (noon*nanos+500000000) ["cron-1"]) = some s' ∧
      s.last = some (noon*nanos-400000000) ∧ s.cron.entries.get "cron-1" = some entry ∧ entry.enabled = true ∧
      entry.schedule = halfMinute := ⟨_,_,_,rfl,rfl,rfl,rfl,rfl,rfl⟩
  have hoccurs : Occurs Location.utc halfMinute (noon*nanos-400000000) (noon*nanos+500000000) noon := by
    decide
  have hrun := (Run.of_exec hs).snoc hs'
  refine ⟨_,s,s',hrun,hoccurs,?_⟩
  refine (due_iff_matches_now hrun rfl hlast hentry henabled).mpr ?_ noon (hschedule ▸ hoccurs)
  intro _
  rw [hschedule]
  decide

/-- Polls a little more than a second apart, one before that second and one after it. -/
theorem second_without_poll : ¬∀ (loc : Location) (trace before later : List (Transition CronPoller CronOp))
    (t s s' : CronPoller) (now since : ℕ) (order : List String) (id : String) (entry : CronEntry),
    Run (step loc) start trace t → trace = before++⟨s,.poll now order,s'⟩::later → s.last = some since →
    s.cron.entries.get id = some entry → entry.enabled = true →
    ∀ sec, Occurs loc entry.schedule since now sec → ∃ d ∈ (s.cron.checkDue loc now order).1, d.id = id := by
  intro h
  obtain ⟨s,s',entry,hs,hs',hlast,hentry,henabled,hschedule,hnone⟩ : ∃ s s' entry,
      exec (step Location.utc) [addHalfMinute,.poll (noon*nanos-100000000) ["cron-1"]] start = some s ∧
      s.step Location.utc (.poll (noon*nanos+1050000000) ["cron-1"]) = some s' ∧
      s.last = some (noon*nanos-100000000) ∧ s.cron.entries.get "cron-1" = some entry ∧ entry.enabled = true ∧
      entry.schedule = halfMinute ∧ (s.cron.checkDue Location.utc (noon*nanos+1050000000) ["cron-1"]).1 = [] :=
    ⟨_,_,_,rfl,rfl,rfl,rfl,rfl,rfl,rfl⟩
  have hoccurs : Occurs Location.utc halfMinute (noon*nanos-100000000) (noon*nanos+1050000000) noon := by
    decide
  obtain ⟨d,hd,-⟩ := h _ _ _ [] s' s s' _ _ _ _ entry ((Run.of_exec hs).snoc hs') rfl hlast hentry henabled noon
    (hschedule ▸ hoccurs)
  rw [hnone] at hd
  cases hd

end CronPoller
end HiveKernel
