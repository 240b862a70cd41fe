import HiveKernel.Process.TreeInvariant
import HiveKernel.Lib.Run
import Mathlib.Data.List.Range

/-! Restarts over a whole history of exits. Exits that follow each other closely form a series, which ends
with a pause of more than five minutes since the last restart. -/
namespace HiveKernel
open Lib

/-- What a supervisor is told, one call after the other. The registry is what the call finds. -/
inductive SupervisorOp
  | exit (registry : Registry) (now : ℤ) (pid : ℕ)
  | resetRestartCount (pid : ℕ)

def SupervisorOp.IsExitOf (pid : ℕ) : SupervisorOp → Prop
  | .exit _ _ k => k = pid
  | .resetRestartCount _ => False

instance (pid : ℕ) : DecidablePred (SupervisorOp.IsExitOf pid)
  | .exit _ _ k => inferInstanceAs (Decidable (k = pid))
  | .resetRestartCount _ => inferInstanceAs (Decidable False)

namespace Supervisor
variable {config : SupervisorConfig} {s t : Supervisor} {pid : ℕ} {last : Option ℤ}
  {trace : List (Transition Supervisor SupervisorOp)}

/-- Forget the restarts of a process. -/
def resetRestartCount (s : Supervisor) (pid : ℕ) : Supervisor :=
  { s with
    restartCounts := s.restartCounts.erase pid
    lastRestart := s.lastRestart.erase pid }

def step (s : Supervisor) : SupervisorOp → Option Supervisor
  | .exit r now pid => some (s.handleChildExit r now pid).1
  | .resetRestartCount pid => some (s.resetRestartCount pid)

/-- The restart that a call schedules for a process. -/
def restartOf (pid : ℕ) (s : Supervisor) : SupervisorOp → Option PendingRestart
  | .exit r now k => if k = pid then (s.handleChildExit r now k).2.2 else none
  | .resetRestartCount _ => none

/-- The exits of a process, and the restarts that they lead to. -/
def exitsOf (pid : ℕ) (trace : List (Transition Supervisor SupervisorOp)) :
    List (Transition Supervisor SupervisorOp) := trace.filter fun e => e.label.IsExitOf pid

def restartsOf (pid : ℕ) (trace : List (Transition Supervisor SupervisorOp)) : List PendingRestart :=
  trace.filterMap fun e => e.source.restartOf pid e.label

/-- When the last restart of a process was scheduled, as far as it is not forgotten. -/
def lastScheduled (pid : ℕ) (last : Option ℤ) (trace : List (Transition Supervisor SupervisorOp)) :
    Option ℤ :=
  trace.foldl (fun last e => match e.label with
    | .exit _ now _ => if (e.source.restartOf pid e.label).isSome then some now else last
    | .resetRestartCount k => if k = pid then none else last) last

/-- A series of exits of a process that is always restarted: only the first of them comes more than five
minutes after the last restart, or before any. -/
structure Series (pid : ℕ) (last : Option ℤ) (trace : List (Transition Supervisor SupervisorOp)) : Prop where
  always : ∀ e ∈ trace, ∀ r now, e.label = .exit r now pid →
    ∃ proc, r.get pid = some proc ∧ restartPolicyForRole proc.role = .always
  pause : ∀ before e later r now, trace = before++e::later → e.label = .exit r now pid →
    ∀ scheduled ∈ lastScheduled pid last before,
      5*minute < now-scheduled ↔ exitsOf pid before = []
  counted : ∀ e ∈ trace, e.label ≠ .resetRestartCount pid

lemma Series.of_append {later : List (Transition Supervisor SupervisorOp)} (h : Series pid last (trace++later)) :
    Series pid last trace where
  always d hd := h.always d (List.mem_append_left _ hd)
  pause before d post r now hsplit := h.pause before d (post++later) r now (by simp [hsplit])
  counted d hd := h.counted d (List.mem_append_left _ hd)

/-- An exit leaves the two maps alone at a process, unless it schedules a restart of this process. -/
lemma handleChildExit_maps (s : Supervisor) (r : Registry) (now : ℤ) (k pid : ℕ) :
    (s.restartOf pid (.exit r now k) = none ∧
      (s.handleChildExit r now k).1.restartCounts.get pid = s.restartCounts.get pid ∧
      (s.handleChildExit r now k).1.lastRestart.get pid = s.lastRestart.get pid) ∨
    ((s.restartOf pid (.exit r now k)).isSome ∧ s.restartCount now pid < s.config.maxRestartAttempts ∧
      (s.handleChildExit r now k).1.restartCounts.get pid = some (s.restartCount now pid+1) ∧
      (s.handleChildExit r now k).1.lastRestart.get pid = some now) := by
  simp only [restartOf]
  rcases handleChildExit_cases s r now k with ⟨-,h⟩ | ⟨proc,-,⟨-,-,h⟩ | ⟨-,hlt,h⟩ | ⟨-,h⟩⟩
  · rw [h,ite_self]
    exact .inl ⟨rfl,rfl,rfl⟩
  · rw [h,ite_self]
    exact .inl ⟨rfl,rfl,rfl⟩
  · rw [h]
    by_cases hk : k = pid
    · subst hk
      rw [if_pos rfl]
      exact .inr ⟨rfl,hlt,Table.get_set_self _ _ _,Table.get_set_self _ _ _⟩
    · rw [if_neg hk]
      exact .inl ⟨rfl,Table.get_set_of_ne (Ne.symm hk),Table.get_set_of_ne (Ne.symm hk)⟩
  · rw [h,ite_self]
    exact .inl ⟨rfl,rfl,rfl⟩

lemma config_step {op : SupervisorOp} (h : s.step op = some t) : t.config = s.config := by
  cases op with
  | exit r now k =>
    cases h
    rcases handleChildExit_cases s r now k with
      ⟨-,h⟩ | ⟨proc,-,⟨-,-,h⟩ | ⟨-,-,h⟩ | ⟨-,h⟩⟩ <;> rw [h]
  | resetRestartCount k =>
    cases h
    rfl

/-- The supervisor remembers the last restart. -/
lemma lastRestart_step {op : SupervisorOp} (h : s.step op = some t) :
    t.lastRestart.get pid = lastScheduled pid (s.lastRestart.get pid) [⟨s,op,t⟩] := by
  cases op with
  | exit r now k =>
    cases h
    simp only [lastScheduled,List.foldl_cons,List.foldl_nil]
    rcases s.handleChildExit_maps r now k pid with ⟨hnone,-,hlast⟩ | ⟨hsome,-,-,hlast⟩
    · simp [hnone,hlast]
    · simp [hsome,hlast]
  | resetRestartCount k =>
    cases h
    simp only [lastScheduled,List.foldl_cons,List.foldl_nil,resetRestartCount,Table.get_erase]
    simp only [eq_comm]

lemma lastRestart_of_run (run : Run step s trace t) :
    t.lastRestart.get pid = lastScheduled pid (s.lastRestart.get pid) trace := by
  induction run with
  | nil => rfl
  | cons first _ ih =>
    rw [ih,lastRestart_step first]
    rfl

/-- What the two maps say about a process at any time: nothing is restarted where no attempt is allowed. -/
structure Regular (config : SupervisorConfig) (pid : ℕ) (s : Supervisor) : Prop where
  config_eq : s.config = config
  nonneg : ∀ n, s.restartCounts.get pid = some n → 0 ≤ n
  allowed : ∀ scheduled, s.lastRestart.get pid = some scheduled → 0 < config.maxRestartAttempts

lemma Regular.restartCount_nonneg (h : Regular config pid s) (now : ℤ) : 0 ≤ s.restartCount now pid := by
  unfold restartCount
  split
  · rfl
  · split_ifs
    · rfl
    · cases hn : s.restartCounts.get pid with
      | none => rfl
      | some n => exact h.nonneg n hn

lemma Regular.new (config : SupervisorConfig) (pid : ℕ) : Regular config pid (.new config) where
  config_eq := rfl
  nonneg n h := by cases h
  allowed n h := by cases h

lemma Regular.step {op : SupervisorOp} (h : Regular config pid s) (hop : s.step op = some t) :
    Regular config pid t := by
  have hconfig := (config_step hop).trans h.config_eq
  cases op with
  | exit r now k =>
    cases hop
    have hcount := h.restartCount_nonneg now
    rcases s.handleChildExit_maps r now k pid with ⟨-,hcounts,hlast⟩ | ⟨-,hlt,hcounts,hlast⟩
    · refine ⟨hconfig,fun n hn => h.nonneg n (hcounts ▸ hn),fun scheduled hs => ?_⟩
      exact h.allowed scheduled (hlast ▸ hs)
    · rw [h.config_eq] at hlt
      refine ⟨hconfig,fun n hn => ?_,fun _ _ => by omega⟩
      have hn' := Option.some.inj (hcounts.symm.trans hn)
      omega
  | resetRestartCount k =>
    cases hop
    exact ⟨hconfig,fun n hn => h.nonneg n (Table.get_erase_some hn).2,
      fun scheduled hs => h.allowed scheduled (Table.get_erase_some hs).2⟩

/-- How far a series has come: the delays so far, and the count that the next exit finds. -/
structure Tally (config : SupervisorConfig) (pid : ℕ) (trace : List (Transition Supervisor SupervisorOp))
    (s : Supervisor) : Prop where
  delays : (restartsOf pid trace).map PendingRestart.backoff =
    (List.range (min (exitsOf pid trace).length config.maxRestartAttempts.toNat)).map
      fun k => config.restartBackoff*(k+1)
  scheduled : exitsOf pid trace ≠ [] → 0 < config.maxRestartAttempts →
    (s.lastRestart.get pid).isSome ∧
      s.restartCounts.get pid =
        some ((min (exitsOf pid trace).length config.maxRestartAttempts.toNat : ℕ) : ℤ)

/-- The next exit of a series finds the number of its exits so far, as far as they were restarted. -/
lemma Tally.restartCount_eq {r : Registry} {now : ℤ} {target : Supervisor} (h : Tally config pid trace t)
    (hreg : Regular config pid t) (hlast : t.lastRestart.get pid = lastScheduled pid last trace)
    (hseries : Series pid last (trace++[⟨t,.exit r now pid,target⟩])) :
    t.restartCount now pid = (min (exitsOf pid trace).length config.maxRestartAttempts.toNat : ℕ) := by
  have hpause := hseries.pause trace _ [] r now rfl rfl
  rw [← hlast] at hpause
  unfold restartCount
  by_cases hfirst : exitsOf pid trace = []
  · rw [hfirst,List.length_nil,Nat.zero_min]
    cases hl : t.lastRestart.get pid with
    | none => rfl
    | some scheduled => exact if_pos ((hpause scheduled hl).mpr hfirst)
  · cases hl : t.lastRestart.get pid with
    | none =>
      have hmax : config.maxRestartAttempts.toNat = 0 := by
        by_contra hne
        have hsome := (h.scheduled hfirst (by omega)).1
        rw [hl] at hsome
        cases hsome
      rw [hmax,Nat.min_zero]
      rfl
    | some scheduled =>
      have hclose : ¬5*minute < now-scheduled := fun hlt => hfirst ((hpause scheduled hl).mp hlt)
      have hcount := (h.scheduled hfirst (hreg.allowed scheduled hl)).2
      simp only [if_neg hclose,hcount,Option.getD_some]

/-- The next exit of a series: a restart with the next delay, or the end of the process. -/
lemma Tally.exit {r : Registry} {now : ℤ} {target : Supervisor} (h : Tally config pid trace t)
    (hreg : Regular config pid t) (hlast : t.lastRestart.get pid = lastScheduled pid last trace)
    (hseries : Series pid last (trace++[⟨t,.exit r now pid,target⟩])) :
    ∃ proc, r.get pid = some proc ∧
      (((exitsOf pid trace).length+1 ≤ config.maxRestartAttempts ∧
          t.handleChildExit r now pid =
            ({ t with
                restartCounts := t.restartCounts.set pid ((exitsOf pid trace).length+1)
                lastRestart := t.lastRestart.set pid now },
              r,some ⟨proc,config.restartBackoff*((exitsOf pid trace).length+1)⟩)) ∨
        (config.maxRestartAttempts < (exitsOf pid trace).length+1 ∧
          t.handleChildExit r now pid = (t,r.setState now pid .dead,none))) := by
  have hcount := h.restartCount_eq hreg hlast hseries
  obtain rfl := hreg.config_eq
  obtain ⟨proc,hproc,hpol⟩ := hseries.always _ (List.mem_append_right _ (List.mem_singleton_self _)) r now rfl
  refine ⟨proc,hproc,?_⟩
  rcases handleChildExit_cases t r now pid with
    ⟨hnone,-⟩ | ⟨proc',hproc',⟨-,hmax,hexit⟩ | ⟨-,hlt,hexit⟩ | ⟨hother,-⟩⟩
  · cases hnone.symm.trans hproc
  · rw [hcount] at hmax
    exact .inr ⟨by omega,hexit⟩
  · obtain rfl := Option.some.inj (hproc'.symm.trans hproc)
    rw [hcount] at hlt
    have hall : min (exitsOf pid trace).length t.config.maxRestartAttempts.toNat =
        (exitsOf pid trace).length := by omega
    rw [hcount,hall] at hexit
    exact .inl ⟨by omega,hexit⟩
  · obtain rfl := Option.some.inj (hproc'.symm.trans hproc)
    exact absurd hpol hother

lemma exitsOf_snoc (pid : ℕ) (trace : List (Transition Supervisor SupervisorOp))
    (e : Transition Supervisor SupervisorOp) :
    exitsOf pid (trace++[e]) = exitsOf pid trace++if e.label.IsExitOf pid then [e] else [] := by
  rw [exitsOf,List.filter_append,List.filter_singleton,Bool.cond_decide]
  rfl

lemma restartsOf_snoc (pid : ℕ) (trace : List (Transition Supervisor SupervisorOp))
    (e : Transition Supervisor SupervisorOp) :
    restartsOf pid (trace++[e]) = restartsOf pid trace++(e.source.restartOf pid e.label).toList := by
  rw [restartsOf,List.filterMap_append,List.filterMap_cons]
  cases e.source.restartOf pid e.label <;> rfl

/-- A call that is not about this process leaves the tally as it is. -/
lemma Tally.other {op : SupervisorOp} {u : Supervisor} (h : Tally config pid trace t)
    (hexit : ¬op.IsExitOf pid) (hrestart : t.restartOf pid op = none)
    (hcounts : u.restartCounts.get pid = t.restartCounts.get pid)
    (hlast : u.lastRestart.get pid = t.lastRestart.get pid) :
    Tally config pid (trace++[⟨t,op,u⟩]) u := by
  constructor
  · rw [restartsOf_snoc,exitsOf_snoc,hrestart,if_neg hexit]
    simpa using h.delays
  · rw [exitsOf_snoc,if_neg hexit,hcounts,hlast,List.append_nil]
    exact h.scheduled

lemma Tally.step {op : SupervisorOp} {u : Supervisor} (h : Tally config pid trace t)
    (hreg : Regular config pid t) (hlast : t.lastRestart.get pid = lastScheduled pid last trace)
    (hseries : Series pid last (trace++[⟨t,op,u⟩])) (hop : t.step op = some u) :
    Tally config pid (trace++[⟨t,op,u⟩]) u := by
  cases op with
  | exit r now k =>
    by_cases hk : k = pid
    · subst hk
      cases hop
      have hn := exitsOf_snoc k trace ⟨t,.exit r now k,(t.handleChildExit r now k).1⟩
      rw [if_pos (show SupervisorOp.IsExitOf k (.exit r now k) from rfl)] at hn
      obtain ⟨proc,-,⟨hle,hexit⟩ | ⟨hlt,hexit⟩⟩ := h.exit hreg hlast hseries
      · have hold : min (exitsOf k trace).length config.maxRestartAttempts.toNat =
            (exitsOf k trace).length := by omega
        have hnew : min ((exitsOf k trace).length+1) config.maxRestartAttempts.toNat =
            (exitsOf k trace).length+1 := by omega
        have hdelays := h.delays
        rw [hold] at hdelays
        constructor
        · rw [restartsOf_snoc,hn,List.length_append,List.length_singleton,hnew,List.range_succ]
          simp [restartOf,hexit,hdelays]
        · intro _ _
          rw [hn,List.length_append,List.length_singleton,hnew,hexit]
          simp
      · have hsame : min ((exitsOf k trace).length+1) config.maxRestartAttempts.toNat =
            min (exitsOf k trace).length config.maxRestartAttempts.toNat := by omega
        constructor
        · rw [restartsOf_snoc,hn,List.length_append,List.length_singleton,hsame,← h.delays]
          simp [restartOf,hexit]
        · intro _ hpos
          rw [hn,List.length_append,List.length_singleton,hsame,hexit]
          refine h.scheduled (fun hnil => ?_) hpos
          rw [hnil,List.length_nil] at hlt
          omega
    · cases hop
      have hnone : t.restartOf pid (.exit r now k) = none := if_neg hk
      rcases t.handleChildExit_maps r now k pid with ⟨-,hcounts,hlast'⟩ | ⟨hsome,-⟩
      · exact h.other hk hnone hcounts hlast'
      · rw [hnone] at hsome
        cases hsome
  | resetRestartCount k =>
    have hk : pid ≠ k := by
      rintro rfl
      exact hseries.counted _ (List.mem_append_right _ (List.mem_singleton_self _)) rfl
    cases hop
    exact h.other id rfl (Table.get_erase_of_ne hk) (Table.get_erase_of_ne hk)

/-- The tally holds along a series. -/
lemma tally_of_run (hreg : Regular config pid s) (run : Run step s trace t)
    (hseries : Series pid (s.lastRestart.get pid) trace) : Tally config pid trace t := by
  refine run.snoc_induction (P := fun trace t => Series pid (s.lastRestart.get pid) trace → Tally config pid trace t)
    (fun _ => ?_) (fun trace t op u run ih hop hseries => ?_) hseries
  · exact ⟨by simp [restartsOf,exitsOf],fun hne => absurd rfl hne⟩
  · have hreg' := (run.invariant (fun _ _ _ => Regular.step) hreg).2
    exact (ih hseries.of_append).step hreg' (lastRestart_of_run run) hseries hop

/-- The restarts of a series have the delays one, two, three and so on times the backoff, and there are as
many as attempts are allowed; every exit after them is the end of the process, and restarts nothing. -/
theorem restarts_bounded {earlier series : List (Transition Supervisor SupervisorOp)}
    (before : Run step (.new config) earlier s) (run : Run step s series t)
    (h : Series pid (lastScheduled pid none earlier) series) :
    (restartsOf pid series).map PendingRestart.backoff =
      (List.range (min (exitsOf pid series).length config.maxRestartAttempts.toNat)).map
        (fun k => config.restartBackoff*(k+1)) ∧
    ∀ pre source r now target post, series = pre++⟨source,.exit r now pid,target⟩::post →
      ∃ proc, r.get pid = some proc ∧
        ((exitsOf pid pre).length+1 ≤ config.maxRestartAttempts →
          (source.handleChildExit r now pid).2 =
            (r,some ⟨proc,config.restartBackoff*((exitsOf pid pre).length+1)⟩)) ∧
        (config.maxRestartAttempts < (exitsOf pid pre).length+1 →
          (source.handleChildExit r now pid).2 = (r.setState now pid .dead,none)) := by
  have hreg := (before.invariant (fun _ _ _ => Regular.step) (Regular.new config pid)).2
  have hlast : s.lastRestart.get pid = lastScheduled pid none earlier := lastRestart_of_run before
  rw [← hlast] at h
  refine ⟨(tally_of_run hreg run h).delays,?_⟩
  rintro pre source r now target post rfl
  obtain ⟨hpre,-,-⟩ := run.split
  have hreg' := (hpre.invariant (fun _ _ _ => Regular.step) hreg).2
  have hcut : Series pid (s.lastRestart.get pid) (pre++[⟨source,.exit r now pid,target⟩]) := by
    rw [List.append_cons] at h
    exact h.of_append
  have htally := tally_of_run hreg hpre hcut.of_append
  obtain ⟨proc,hproc,⟨hle,hexit⟩ | ⟨hlt,hexit⟩⟩ := htally.exit hreg' (lastRestart_of_run hpre) hcut
  · exact ⟨proc,hproc,fun _ => by rw [hexit],fun hlt => by omega⟩
  · exact ⟨proc,hproc,fun hle => by omega,fun _ => by rw [hexit]⟩

/-- The king and a queen. -/
def court : Registry :=
  (Registry.boot 0 "king" "root" "vps1").register 0 (Registry.child (Registry.agentRequest 1 "queen" .daemon) none)

/-- A queen that may be restarted once exits for the second time a minute later. -/
theorem restarts_bounded_queen :
    let config : SupervisorConfig := { defaultSupervisorConfig with maxRestartAttempts := 1 }
    let once := ((new config).handleChildExit court 0 2).1
    (once.handleChildExit court (60*second) 2).2 = (court.setState (60*second) 2 .dead,none) := by
  intro config once
  let twice := (once.handleChildExit court (60*second) 2).1
  let first : Transition Supervisor SupervisorOp := ⟨.new config,.exit court 0 2,once⟩
  let again : Transition Supervisor SupervisorOp := ⟨once,.exit court (60*second) 2,twice⟩
  have hqueen : ∃ proc, court.get 2 = some proc ∧ restartPolicyForRole proc.role = .always := ⟨_,rfl,rfl⟩
  have hseries : Series 2 (lastScheduled 2 none []) [first,again] := by
    refine ⟨fun e he r now hlabel => ?_,fun pre e later r now hsplit hlabel scheduled hs => ?_,fun e he => ?_⟩
    · rcases List.mem_pair.mp he with rfl | rfl
      · cases hlabel
        exact hqueen
      · cases hlabel
        exact hqueen
    · match pre with
      | [] => cases hs
      | [d] =>
        cases hsplit
        cases hlabel
        cases hs
        exact iff_of_false (by decide) (by decide)
      | c::d::rest => cases rest <;> cases hsplit
    · rcases List.mem_pair.mp he with rfl | rfl
      · exact SupervisorOp.noConfusion
      · exact SupervisorOp.noConfusion
  obtain ⟨-,hexits⟩ := restarts_bounded (.nil _) (.cons rfl (.cons rfl (.nil twice))) hseries
  obtain ⟨proc,-,-,hdead⟩ := hexits [first] once court (60*second) twice [] rfl
  exact hdead (by decide)

end Supervisor
end HiveKernel
