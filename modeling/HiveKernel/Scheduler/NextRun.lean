import HiveKernel.Scheduler.Cron
import Mathlib.Order.Bounds.Basic
import Mathlib.Data.List.Nodup

/-! The next run of a schedule, which is searched forward second by second, and the polls of the scheduler, which
find an entry due in one second after the other. -/
namespace HiveKernel
open Lib

/-- The seconds of the search; the zero time if the schedule matches none of them. -/
def scanSeconds (loc : Location) (sched : CronSchedule) : ℕ → ℕ → ℕ
  | 0,_ => 0
  | n+1,t => if sched.Matches (loc (wholeSecond t)) then t else scanSeconds loc sched n (t+nanos)

/-- The next time after `after` at which the schedule matches, up to a day ahead. -/
def nextRunAfter (loc : Location) (sched : CronSchedule) (after : ℕ) : ℕ :=
  scanSeconds loc sched 86400 (wholeSecond after*nanos+nanos)

/-- The times among the whole seconds `first` to `first+n-1` that match. -/
def matching (loc : Location) (sched : CronSchedule) (first n : ℕ) : Set ℕ :=
  {t | ∃ sec, t = sec*nanos ∧ first ≤ sec ∧ sec < first+n ∧ sched.Matches (loc sec)}

variable {loc : Location} {sched : CronSchedule}

@[simp] lemma wholeSecond_mul (sec : ℕ) : wholeSecond (sec*nanos) = sec := Nat.mul_div_cancel sec (by decide)

lemma scanSeconds_succ (first n : ℕ) : scanSeconds loc sched (n+1) (first*nanos) =
    if sched.Matches (loc first) then first*nanos else scanSeconds loc sched n ((first+1)*nanos) := by
  rw [scanSeconds,wholeSecond_mul,Nat.add_mul,Nat.one_mul]

/-- The search finds the least of its seconds that matches. -/
lemma scanSeconds_spec (loc : Location) (sched : CronSchedule) (first n : ℕ) (hfirst : 0 < first) :
    (scanSeconds loc sched n (first*nanos) = 0 ∧ matching loc sched first n = ∅) ∨
    (scanSeconds loc sched n (first*nanos) ≠ 0 ∧
      IsLeast (matching loc sched first n) (scanSeconds loc sched n (first*nanos))) := by
  induction n generalizing first with
  | zero =>
    refine .inl ⟨rfl,Set.eq_empty_of_forall_notMem ?_⟩
    rintro t ⟨sec,-,hle,hlt,-⟩
    omega
  | succ n ih =>
    rw [scanSeconds_succ]
    by_cases hmatch : sched.Matches (loc first)
    · rw [if_pos hmatch]
      refine .inr ⟨Nat.mul_ne_zero (by omega) (by decide),⟨first,rfl,le_rfl,by omega,hmatch⟩,?_⟩
      rintro t ⟨sec,rfl,hle,-,-⟩
      exact Nat.mul_le_mul_right nanos hle
    · have hrest : matching loc sched first (n+1) = matching loc sched (first+1) n := by
        ext t
        constructor
        · rintro ⟨sec,rfl,hle,hlt,hsec⟩
          have hne : sec ≠ first := by
            rintro rfl
            exact hmatch hsec
          exact ⟨sec,rfl,by omega,by omega,hsec⟩
        · rintro ⟨sec,rfl,hle,hlt,hsec⟩
          exact ⟨sec,rfl,by omega,by omega,hsec⟩
      rw [if_neg hmatch,hrest]
      exact ih (first+1) (by omega)

/-- The next run is the least second of the day ahead that matches. -/
lemma nextRunAfter_spec (loc : Location) (sched : CronSchedule) (t : ℕ) :
    (nextRunAfter loc sched t = 0 ∧ matching loc sched (wholeSecond t+1) 86400 = ∅) ∨
    (nextRunAfter loc sched t ≠ 0 ∧
      IsLeast (matching loc sched (wholeSecond t+1) 86400) (nextRunAfter loc sched t)) := by
  have hstart : nextRunAfter loc sched t = scanSeconds loc sched 86400 ((wholeSecond t+1)*nanos) := by
    rw [nextRunAfter,Nat.add_mul,Nat.one_mul]
  rw [hstart]
  exact scanSeconds_spec loc sched (wholeSecond t+1) 86400 (Nat.succ_pos _)

/-- The next run as a second, if there is one. -/
lemma nextRunAfter_second {t : ℕ} (h : nextRunAfter loc sched t ≠ 0) :
    ∃ sec, nextRunAfter loc sched t = sec*nanos ∧ wholeSecond t < sec ∧ sched.Matches (loc sec) ∧
      ∀ earlier, wholeSecond t < earlier → earlier < sec → ¬sched.Matches (loc earlier) := by
  rcases nextRunAfter_spec loc sched t with ⟨hzero,-⟩ | ⟨-,⟨sec,hsec,hle,hlt,hmatch⟩,hleast⟩
  · exact absurd hzero h
  · refine ⟨sec,hsec,hle,hmatch,fun earlier hafter hbefore hearlier => ?_⟩
    have hmin := hleast ⟨earlier,rfl,hafter,by omega,hearlier⟩
    rw [hsec] at hmin
    have := Nat.le_of_mul_le_mul_right hmin (by decide)
    omega

structure CronPoll where
  now : ℕ
  order : List String

namespace CronScheduler
variable {cs cs' : CronScheduler} {p : CronPoll} {trace : List (Transition CronScheduler CronPoll)} {id : String}
  {entry : CronEntry}

def poll (loc : Location) (cs : CronScheduler) (p : CronPoll) : Option CronScheduler :=
  if cs.entries.Enumerates p.order then some (cs.checkDue loc p.now p.order).2 else none

/-- The identifiers of the entries that a poll returns. -/
def returned (loc : Location) (e : Transition CronScheduler CronPoll) : List String :=
  (e.source.checkDue loc e.label.now e.label.order).1.map CronEntry.id

/-- The identifiers returned within one whole second. -/
def returnedIn (loc : Location) (sec : ℕ) (trace : List (Transition CronScheduler CronPoll)) : List String :=
  (trace.filter fun e => wholeSecond e.label.now = sec).flatMap (returned loc)

lemma poll_cases (h : cs.poll loc p = some cs') :
    cs.entries.Enumerates p.order ∧ cs' = (cs.checkDue loc p.now p.order).2 := by
  unfold poll at h
  split_ifs at h with horder
  exact ⟨horder,(Option.some.inj h).symm⟩

lemma get_poll (h : cs.poll loc p = some cs') (id : String) :
    cs'.entries.get id = (cs.entries.get id).map (checked loc p.now) := by
  obtain ⟨horder,rfl⟩ := poll_cases h
  rw [checkDue,get_checkEntries]
  split_ifs with hid
  · rfl
  · have hnone : cs.entries.get id = none := by
      rw [← Option.not_isSome_iff_eq_none]
      exact fun hsome => hid ((horder.mem_iff id).mpr hsome)
    rw [hnone]
    rfl

lemma mem_returned (h : cs.poll loc p = some cs') :
    id ∈ returned loc ⟨cs,p,cs'⟩ ↔ ∃ entry, cs.entries.get id = some entry ∧ IsDue loc p.now entry := by
  rw [returned,List.mem_map]
  exact mem_checkDue cs (poll_cases h).1 id

/-- What the loop returns, it returns in the order of the table. -/
lemma checkEntries_sublist (loc : Location) (now : ℕ) (order : List String) (acc : List CronEntry × CronScheduler) :
    ∃ ids, ids.Sublist order ∧
      (order.foldl (checkEntry loc now) acc).1.map CronEntry.id = acc.1.map CronEntry.id++ids := by
  induction order generalizing acc with
  | nil => exact ⟨[],.slnil,(List.append_nil _).symm⟩
  | cons k order ih =>
    obtain ⟨ids,hsub,hids⟩ := ih (checkEntry loc now acc k)
    rw [List.foldl_cons,hids]
    unfold checkEntry
    cases hk : acc.2.entries.get k with
    | none => exact ⟨ids,hsub.cons k,rfl⟩
    | some entry =>
      by_cases hdue : IsDue loc now entry
      · refine ⟨k::ids,hsub.cons_cons k,?_⟩
        simp [if_pos hdue,acc.2.id_eq hk]
      · refine ⟨ids,hsub.cons k,?_⟩
        simp only [if_neg hdue]

lemma nodup_returned (h : cs.poll loc p = some cs') : (returned loc ⟨cs,p,cs'⟩).Nodup := by
  have hnodup : p.order.Nodup := (poll_cases h).1.symm.nodup cs.entries.toAList.nodupKeys
  obtain ⟨ids,hsub,hids⟩ := checkEntries_sublist loc p.now p.order ([],cs)
  have hret : returned loc ⟨cs,p,cs'⟩ = ids := hids
  rw [hret]
  exact hsub.nodup hnodup

/-- An entry that ran in a second is not returned again before the second is over. -/
lemma not_mem_returned_of_ran {sec : ℕ} (run : Run (poll loc) cs trace cs')
    (hentry : cs.entries.get id = some entry) (hran : wholeSecond entry.lastRun = sec)
    (hsorted : trace.Pairwise fun d e => d.label.now ≤ e.label.now)
    (hafter : ∀ e ∈ trace, sec ≤ wholeSecond e.label.now) :
    ∀ e ∈ trace, wholeSecond e.label.now = sec → id ∉ returned loc e := by
  induction run with
  | nil => simp
  | @cons cs mid cs' p trace first rest ih =>
    rw [List.pairwise_cons] at hsorted
    intro e he hsec
    have hfirst : wholeSecond p.now = sec := by
      refine le_antisymm ?_ (hafter _ (List.mem_cons_self ..))
      rcases List.mem_cons.mp he with rfl | he
      · exact hsec.le
      · rw [← hsec]
        exact Nat.div_le_div_right (hsorted.1 e he)
    have hidle : ¬IsDue loc p.now entry := fun h => h.2.2 (hran.trans hfirst.symm)
    rcases List.mem_cons.mp he with rfl | he
    · rw [mem_returned first]
      rintro ⟨entry',hentry',hdue⟩
      cases hentry.symm.trans hentry'
      exact hidle hdue
    · refine ih ?_ hsorted.2 (fun d hd => hafter d (List.mem_cons_of_mem _ hd)) e he hsec
      rw [get_poll first,hentry,Option.map_some,checked,if_neg hidle]

/-- Two polls of one second return different entries. -/
lemma pairwise_returned (run : Run (poll loc) cs trace cs')
    (hsorted : trace.Pairwise fun d e => d.label.now ≤ e.label.now) :
    trace.Pairwise fun d e => wholeSecond d.label.now = wholeSecond e.label.now →
      List.Disjoint (returned loc d) (returned loc e) := by
  induction run with
  | nil => exact .nil
  | @cons cs mid cs' p trace first rest ih =>
    rw [List.pairwise_cons] at hsorted
    refine .cons (fun e he hsec id hd => ?_) (ih hsorted.2)
    obtain ⟨entry,hentry,hdue⟩ := (mem_returned first).mp hd
    have hnow : mid.entries.get id = some { entry with lastRun := p.now } := by
      rw [get_poll first,hentry,Option.map_some,checked,if_pos hdue]
    exact not_mem_returned_of_ran rest hnow rfl hsorted.2 (fun d hd => Nat.div_le_div_right (hsorted.1 d hd)) e he
      hsec.symm

lemma nodup_returnedIn (run : Run (poll loc) cs trace cs')
    (hsorted : trace.Pairwise fun d e => d.label.now ≤ e.label.now) (sec : ℕ) :
    (returnedIn loc sec trace).Nodup := by
  refine List.nodup_flatMap.mpr ⟨fun e he => ?_,?_⟩
  · exact nodup_returned (run.steps e (List.mem_of_mem_filter he))
  · have hpair := (pairwise_returned run hsorted).filter fun e => wholeSecond e.label.now = sec
    refine hpair.imp_of_mem fun {d e} hd he h => h ?_
    rw [List.mem_filter,decide_eq_true_eq] at hd he
    exact hd.2.trans he.2.symm

/-- The polls go through the whole seconds from `first` on, once in each. -/
def EverySecond (first : ℕ) (trace : List (Transition CronScheduler CronPoll)) : Prop :=
  trace.map (fun e => wholeSecond e.label.now) = List.range' first trace.length

lemma EverySecond.split {first : ℕ} {pre post : List (Transition CronScheduler CronPoll)}
    {e : Transition CronScheduler CronPoll} (h : EverySecond first (pre++e::post)) :
    EverySecond first pre ∧ wholeSecond e.label.now = first+pre.length := by
  unfold EverySecond at h ⊢
  rw [List.map_append,List.length_append,← List.range'_append_1] at h
  obtain ⟨hpre,hrest⟩ := List.append_inj h (by simp)
  exact ⟨hpre,(List.cons.inj hrest).1⟩

lemma EverySecond.mem {first : ℕ} (h : EverySecond first trace) {e : Transition CronScheduler CronPoll}
    (he : e ∈ trace) : first ≤ wholeSecond e.label.now ∧ wholeSecond e.label.now < first+trace.length := by
  have hin : wholeSecond e.label.now ∈ trace.map (fun e => wholeSecond e.label.now) := List.mem_map_of_mem he
  rw [h,List.mem_range'_1] at hin
  exact hin

/-- Polls that meet no second of its schedule leave an entry alone. -/
lemma get_of_quiet (run : Run (poll loc) cs trace cs') (hentry : cs.entries.get id = some entry)
    (hquiet : ∀ e ∈ trace, ¬entry.schedule.Matches (loc (wholeSecond e.label.now))) :
    cs'.entries.get id = some entry ∧ ∀ e ∈ trace, id ∉ returned loc e := by
  induction run with
  | nil => exact ⟨hentry,by simp⟩
  | @cons cs mid cs' p trace first rest ih =>
    rw [List.forall_mem_cons] at hquiet
    have hidle : ¬IsDue loc p.now entry := fun h => hquiet.1 h.2.1
    have hmid : mid.entries.get id = some entry := by
      rw [get_poll first,hentry,Option.map_some,checked,if_neg hidle]
    obtain ⟨hget,hnot⟩ := ih hmid hquiet.2
    refine ⟨hget,List.forall_mem_cons.mpr ⟨?_,hnot⟩⟩
    rw [mem_returned first]
    rintro ⟨entry',hentry',hdue⟩
    cases hentry.symm.trans hentry'
    exact hidle hdue

/-- A poll in a later second returns an enabled entry exactly if the second is one of its schedule. -/
lemma mem_returned_iff_matches (h : cs.poll loc p = some cs') (hentry : cs.entries.get id = some entry)
    (henabled : entry.enabled = true) (hlater : wholeSecond entry.lastRun < wholeSecond p.now) :
    id ∈ returned loc ⟨cs,p,cs'⟩ ↔ entry.schedule.Matches (loc (wholeSecond p.now)) := by
  rw [mem_returned h]
  constructor
  · rintro ⟨entry',hentry',hdue⟩
    cases hentry.symm.trans hentry'
    exact hdue.2.1
  · exact fun hmatch => ⟨entry,hentry,henabled,hmatch,hlater.ne⟩

/-- Polled once in every second after `t`, an entry is returned for the first time in the second of the next run. -/
lemma first_returned_iff {t : ℕ} (run : Run (poll loc) cs trace cs') (hentry : cs.entries.get id = some entry)
    (henabled : entry.enabled = true) (hran : entry.lastRun ≤ t) (hevery : EverySecond (wholeSecond t+1) trace)
    (hnext : nextRunAfter loc entry.schedule t ≠ 0) {pre post : List (Transition CronScheduler CronPoll)}
    {e : Transition CronScheduler CronPoll} (hsplit : trace = pre++e::post) :
    (id ∈ returned loc e ∧ ∀ d ∈ pre, id ∉ returned loc d) ↔
      wholeSecond e.label.now*nanos = nextRunAfter loc entry.schedule t := by
  obtain ⟨sec,hsec,hafter,hmatch,hleast⟩ := nextRunAfter_second hnext
  rw [hsec,Nat.mul_left_inj (by decide)]
  have hlast : wholeSecond entry.lastRun ≤ wholeSecond t := Nat.div_le_div_right hran
  have hquiet : ∀ {pre post e}, trace = pre++e::post → wholeSecond e.label.now ≤ sec →
      (∀ d ∈ pre, id ∉ returned loc d) ∧
        (id ∈ returned loc e ↔ entry.schedule.Matches (loc (wholeSecond e.label.now))) := by
    rintro pre post e rfl hle
    obtain ⟨hpre,hnow⟩ := hevery.split
    obtain ⟨hbefore,hstep,-⟩ := run.split
    obtain ⟨hget,hnot⟩ := get_of_quiet hbefore hentry fun d hd => by
      have hd := hpre.mem hd
      exact hleast _ (by omega) (by omega)
    exact ⟨hnot,mem_returned_iff_matches hstep hget henabled (by omega)⟩
  constructor
  · rintro ⟨hret,hfirst⟩
    rcases lt_trichotomy (wholeSecond e.label.now) sec with hlt | heq | hgt
    · have hnow := (hquiet hsplit hlt.le).2.mp hret
      rw [hsplit] at hevery
      exact absurd hnow (hleast _ (by have := hevery.split.2; omega) hlt)
    · exact heq
    · obtain ⟨d,hd,hdsec⟩ : ∃ d ∈ pre, wholeSecond d.label.now = sec := by
        have hevery' := hsplit ▸ hevery
        obtain ⟨hpre,hnow⟩ := hevery'.split
        have hin : sec ∈ pre.map (fun e => wholeSecond e.label.now) := by
          rw [hpre,List.mem_range'_1]
          omega
        exact List.mem_map.mp hin
      obtain ⟨pre₁,pre₂,rfl⟩ := List.append_of_mem hd
      have hsplit' : trace = pre₁++d::(pre₂++e::post) := by simp [hsplit]
      exact absurd ((hquiet hsplit' hdsec.le).2.mpr (hdsec ▸ hmatch)) (hfirst d hd)
  · intro heq
    obtain ⟨hnot,hret⟩ := hquiet hsplit heq.le
    exact ⟨hret.mpr (heq ▸ hmatch),hnot⟩

/-- The next run is the least matching second of the day ahead, and the one in which the polls find the entry for the
first time; no second finds it twice. -/
theorem nextRunAfter_agrees (loc : Location) (sched : CronSchedule) (t : ℕ) :
    (nextRunAfter loc sched t = 0 ↔ matching loc sched (wholeSecond t+1) 86400 = ∅) ∧
    (nextRunAfter loc sched t ≠ 0 →
      IsLeast (matching loc sched (wholeSecond t+1) 86400) (nextRunAfter loc sched t)) ∧
    (∀ {cs cs' : CronScheduler} {trace : List (Transition CronScheduler CronPoll)} {id : String} {entry : CronEntry},
      Run (poll loc) cs trace cs' → cs.entries.get id = some entry → entry.enabled = true →
      entry.schedule = sched → entry.lastRun ≤ t → EverySecond (wholeSecond t+1) trace →
      nextRunAfter loc sched t ≠ 0 → ∀ {pre post e}, trace = pre++e::post →
      ((id ∈ returned loc e ∧ ∀ d ∈ pre, id ∉ returned loc d) ↔
        wholeSecond e.label.now*nanos = nextRunAfter loc sched t)) ∧
    ∀ {cs cs' : CronScheduler} {trace : List (Transition CronScheduler CronPoll)}, Run (poll loc) cs trace cs' →
      (trace.Pairwise fun d e => d.label.now ≤ e.label.now) → ∀ sec, (returnedIn loc sec trace).Nodup := by
  refine ⟨?_,?_,?_,fun run hsorted sec => nodup_returnedIn run hsorted sec⟩
  · rcases nextRunAfter_spec loc sched t with ⟨hzero,hnone⟩ | ⟨hne,hleast⟩
    · exact iff_of_true hzero hnone
    · exact iff_of_false hne hleast.nonempty.ne_empty
  · rcases nextRunAfter_spec loc sched t with ⟨hzero,-⟩ | ⟨-,hleast⟩
    · exact fun hne => absurd hzero hne
    · exact fun _ => hleast
  · rintro cs cs' trace id entry run hentry henabled rfl hran hevery hnext pre post e hsplit
    exact first_returned_iff run hentry henabled hran hevery hnext hsplit

/-- Polls in the seconds before and at noon. -/
def beforeNoon : CronPoll := ⟨CronPoller.noon*nanos-700000000,["cron-1"]⟩
def atNoon : CronPoll := ⟨CronPoller.noon*nanos+200000000,["cron-1"]⟩

/-- An entry for second 30 of every minute, asked for and polled from a little before second 29 on. -/
theorem nextRunAfter_agrees_noon : ∃ cs cs' cs'' : CronScheduler,
    cs.poll Location.utc beforeNoon = some cs' ∧ cs'.poll Location.utc atNoon = some cs'' ∧
    nextRunAfter Location.utc CronPoller.halfMinute (CronPoller.noon*nanos-1100000000) = CronPoller.noon*nanos ∧
    "cron-1" ∈ returned Location.utc ⟨cs',atNoon,cs''⟩ ∧
    (returnedIn Location.utc CronPoller.noon [⟨cs,beforeNoon,cs'⟩,⟨cs',atNoon,cs''⟩]).Nodup := by
  obtain ⟨cs,cs',cs'',entry,hfirst,hsecond,hentry,henabled,hschedule,hran⟩ :
      ∃ (cs cs' cs'' : CronScheduler) (entry : CronEntry),
      cs.poll Location.utc beforeNoon = some cs' ∧ cs'.poll Location.utc atNoon = some cs'' ∧
      cs.entries.get "cron-1" = some entry ∧ entry.enabled = true ∧ entry.schedule = CronPoller.halfMinute ∧
      entry.lastRun = 0 :=
    ⟨(CronScheduler.new.add
        { name := "report", schedule := CronPoller.halfMinute, action := .execute, targetPID := 2 }).2,
      _,_,_,rfl,rfl,rfl,rfl,rfl,rfl⟩
  have hnext : nextRunAfter Location.utc CronPoller.halfMinute (CronPoller.noon*nanos-1100000000) =
      CronPoller.noon*nanos := by decide
  obtain ⟨-,-,hpolls,hnodup⟩ :=
    nextRunAfter_agrees Location.utc CronPoller.halfMinute (CronPoller.noon*nanos-1100000000)
  let first : Transition CronScheduler CronPoll := ⟨cs,beforeNoon,cs'⟩
  let again : Transition CronScheduler CronPoll := ⟨cs',atNoon,cs''⟩
  have hrun : Run (poll Location.utc) cs [first,again] cs'' := .cons hfirst (.cons hsecond (.nil cs''))
  have hstart : wholeSecond (CronPoller.noon*nanos-1100000000) = CronPoller.noon-2 := by decide
  have hbefore : wholeSecond first.label.now = CronPoller.noon-1 :=
    show wholeSecond beforeNoon.now = CronPoller.noon-1 by decide
  have hnow : wholeSecond again.label.now = CronPoller.noon :=
    show wholeSecond atNoon.now = CronPoller.noon by decide
  have hevery : EverySecond (wholeSecond (CronPoller.noon*nanos-1100000000)+1) [first,again] := by
    rw [EverySecond,hstart,List.map_cons,List.map_singleton,hbefore,hnow]
    exact show [CronPoller.noon-1,CronPoller.noon] = List.range' (CronPoller.noon-2+1) 2 by decide
  have hsorted : [first,again].Pairwise fun d e => d.label.now ≤ e.label.now :=
    List.pairwise_pair.mpr (show beforeNoon.now ≤ atNoon.now by decide)
  have hsplit : [first,again] = [first]++again::[] := rfl
  have hiff := hpolls hrun hentry henabled hschedule (by omega) hevery (by rw [hnext]; decide) hsplit
  exact ⟨cs,cs',cs'',hfirst,hsecond,hnext,(hiff.mpr (by rw [hnow,hnext])).1,hnodup hrun hsorted CronPoller.noon⟩

end CronScheduler
end HiveKernel
