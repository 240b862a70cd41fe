import HiveKernel.Dashboard.Resync
import HiveKernel.Kernel.Absorbing
import HiveKernel.Kernel.Residue
import HiveKernel.Lib.Sweep

/-! The health daemon. A scan asks the kernel for one PID after the other, while processes are spawned, end and are
removed, and only then looks for zombies and orphans. The time of a report is left out. -/
namespace HiveKernel
open Lib Dashboard

def stateZombie : ℕ := 5
def stateDead : ℕ := 4

/-- What a scan keeps of a process. -/
structure ScannedProcess where
  pid : ℕ
  ppid : ℕ
  name : String
  state : ℕ
  role : ℕ
  tokens : ℕ

namespace ScannedProcess

def ofInfo (info : ProcessInfo) : ScannedProcess where
  pid := info.pid
  ppid := info.ppid
  name := info.name
  state := info.state
  role := info.role
  tokens := info.tokensConsumed

def text (proc : ScannedProcess) : String := s!"PID {proc.pid} ({proc.name})"

end ScannedProcess

structure HealthReport where
  total : ℕ
  zombieCount : ℕ
  orphanCount : ℕ
  zombies : List ScannedProcess
  orphans : List ScannedProcess
  anomalies : List String
  processes : List ScannedProcess

namespace Maid

/-- The scan goes through the PIDs from one to this. -/
def maxPidScan : ℕ := 200

def pidStates (processes : List ScannedProcess) : Table ℕ ℕ :=
  processes.foldl (fun states proc => states.set proc.pid proc.state) .empty

def Done (state : ℕ) : Prop := state = stateZombie ∨ state = stateDead

instance (state : ℕ) : Decidable (Done state) := inferInstanceAs (Decidable (_ ∨ _))

/-- The process is not done, and its parent is or was not found. The king has no parent. -/
def isOrphan (states : Table ℕ ℕ) (proc : ScannedProcess) : Bool :=
  if proc.ppid = 0 then false
  else if Done proc.state then false
  else match states.get proc.ppid with
  | none => true
  | some state => Done state

/-- The report on the processes that a scan has found. -/
def report (processes : List ScannedProcess) : HealthReport :=
  let zombies := processes.filter (fun proc => proc.state = stateZombie)
  let orphans := processes.filter (isOrphan (pidStates processes))
  let named := fun (found : List ScannedProcess) => ", ".intercalate (found.map ScannedProcess.text)
  { total := processes.length
    zombieCount := zombies.length
    orphanCount := orphans.length
    zombies := zombies
    orphans := orphans
    anomalies := (if zombies.isEmpty then [] else [s!"{zombies.length} zombie(s): "++named zombies])++
      if orphans.isEmpty then [] else [s!"{orphans.length} orphan(s): "++named orphans]
    processes := processes }

end Maid

/-- The kernel and its maid: the PID that a scan asks for next with what it has found, and the reports so far. -/
structure Rounds where
  system : System
  scan : Option (ℕ × List ScannedProcess) := none
  reports : List HealthReport := []

inductive RoundsOp
  | kernel (op : KernelOp)
  | begin
  /-- Ask for the next PID. The call may fail for reasons of its own. -/
  | ask (fails : Bool)
  | finish

namespace Rounds

def start (cfg : Config) (now : ℤ) (runtime : Option RuntimeManager) : Rounds := { system := .boot cfg now runtime }

def lookAt (s : System) (pid : ℕ) : Option ScannedProcess :=
  (getProcessInfo s.king.registry pid).map ScannedProcess.ofInfo

/-- One scan at a time, though those of the health loop, of tasks and of cron tasks may overlap; a report without a
kernel client, which scans nothing, is left out. -/
def step (s : Rounds) : RoundsOp → Option Rounds
  | .kernel op => (s.system.step op).map (fun system => { s with system := system })
  | .begin => match s.scan with
    | none => some { s with scan := some (1,[]) }
    | some _ => none
  | .ask fails => match s.scan with
    | none => none
    | some (pid,processes) =>
      if Maid.maxPidScan < pid then none
      else
        let found := if fails then none else lookAt s.system pid
        some { s with scan := some (pid+1,processes++found.toList) }
  | .finish => match s.scan with
    | none => none
    | some (pid,processes) =>
      if Maid.maxPidScan < pid then some { s with scan := none,reports := s.reports++[Maid.report processes] } else none

variable {s t : Rounds}

/-- What is found when each PID is asked for at a moment of its own, and some calls fail. -/
def found (moment : ℕ → System) (answered : ℕ → Bool) (pid : ℕ) : Option ScannedProcess :=
  if answered pid then lookAt (moment pid) pid else none

def foundBelow (moment : ℕ → System) (answered : ℕ → Bool) (next : ℕ) : List ScannedProcess :=
  (List.range' 1 (next-1)).filterMap (found moment answered)

lemma foundBelow_update (moment : ℕ → System) (answered : ℕ → Bool) {next : ℕ} (hnext : 1 ≤ next) (system : System)
    (fails : Bool) :
    foundBelow (Function.update moment next system) (Function.update answered next !fails) (next+1) =
      foundBelow moment answered next++(if fails then none else lookAt system next).toList := by
  obtain ⟨n,rfl⟩ : ∃ n, next = n+1 := ⟨next-1,by omega⟩
  unfold foundBelow
  simp only [Nat.add_sub_cancel]
  rw [List.range'_concat,List.filterMap_append]
  congr 1
  · refine List.filterMap_congr (fun pid hpid => ?_)
    have hne : pid ≠ n+1 := by
      rw [List.mem_range'_1] at hpid
      omega
    unfold found
    rw [Function.update_of_ne hne,Function.update_of_ne hne]
  · rw [Nat.one_mul,Nat.add_comm 1 n]
    cases fails with
    | true => simp [found]
    | false => cases h : lookAt system (n+1) <;> simp [found,h]

lemma lookAt_eq_some {system : System} {pid : ℕ} {proc : ScannedProcess} :
    lookAt system pid = some proc ↔ ∃ p, system.king.registry.get pid = some p ∧ proc =
      ⟨pid,p.ppid,p.name,internalStateToProto p.state,internalRoleToProto p.role,p.tokensConsumed.toNat⟩ := by
  unfold lookAt getProcessInfo
  rw [Option.map_map,Option.map_eq_some_iff]
  refine exists_congr (fun p => and_congr_right (fun hp => ?_))
  rw [← Registry.get_pid hp]
  exact eq_comm

lemma done_iff_terminal (state : ProcessState) : Maid.Done (internalStateToProto state) ↔ state.Terminal := by
  cases state <;> decide

lemma zombie_iff (state : ProcessState) : internalStateToProto state = stateZombie ↔ state = .zombie := by
  cases state <;> decide

/-- The scan has got an answer about this process. -/
def Saw (moment : ℕ → System) (answered : ℕ → Bool) (pid : ℕ) (p : Process) : Prop :=
  1 ≤ pid ∧ pid ≤ Maid.maxPidScan ∧ answered pid = true ∧ (moment pid).king.registry.get pid = some p

lemma found_eq_some {moment : ℕ → System} {answered : ℕ → Bool} {pid : ℕ} {proc : ScannedProcess} :
    found moment answered pid = some proc ↔ answered pid = true ∧ ∃ p, (moment pid).king.registry.get pid = some p ∧
      proc = ⟨pid,p.ppid,p.name,internalStateToProto p.state,internalRoleToProto p.role,p.tokensConsumed.toNat⟩ := by
  unfold found
  split_ifs with hanswered
  · rw [lookAt_eq_some]
    exact ⟨fun h => ⟨hanswered,h⟩,fun h => h.2⟩
  · exact ⟨(fun h => by cases h),fun h => absurd h.1 hanswered⟩

section Scan
variable (moment : ℕ → System) (answered : ℕ → Bool)

/-- What the states of the scan say of a PID. -/
lemma get_pidStates (n j : ℕ) : (Maid.pidStates (foundBelow moment answered (n+1))).get j =
    if 1 ≤ j ∧ j ≤ n then (found moment answered j).map ScannedProcess.state else none := by
  unfold foundBelow
  rw [Nat.add_sub_cancel]
  induction n with
  | zero =>
    rw [if_neg (by omega)]
    rfl
  | succ n ih =>
    rw [List.range'_concat,List.filterMap_append]
    unfold Maid.pidStates at ih ⊢
    rw [List.foldl_append]
    simp only [Nat.one_mul,Nat.add_comm 1 n,List.filterMap_cons,List.filterMap_nil]
    cases hfound : found moment answered (n+1) with
    | none =>
      rw [List.foldl_nil,ih]
      by_cases hj : j = n+1
      · rw [if_neg (by omega),hj,hfound]
        exact (ite_self _).symm
      · by_cases hle : 1 ≤ j ∧ j ≤ n
        · rw [if_pos hle,if_pos (by omega)]
        · rw [if_neg hle,if_neg (by omega)]
    | some proc =>
      obtain ⟨-,p,-,hproc⟩ := found_eq_some.mp hfound
      have hpid : proc.pid = n+1 := by rw [hproc]
      rw [List.foldl_cons,List.foldl_nil,Table.get_set,hpid]
      by_cases hj : j = n+1
      · rw [if_pos hj,if_pos (by omega),hj,hfound]
        rfl
      · rw [if_neg hj,ih]
        by_cases hle : 1 ≤ j ∧ j ≤ n
        · rw [if_pos hle,if_pos (by omega)]
        · rw [if_neg hle,if_neg (by omega)]

lemma mem_foundBelow {proc : ScannedProcess} : proc ∈ foundBelow moment answered (Maid.maxPidScan+1) ↔
    ∃ pid p, Saw moment answered pid p ∧ proc =
      ⟨pid,p.ppid,p.name,internalStateToProto p.state,internalRoleToProto p.role,p.tokensConsumed.toNat⟩ := by
  unfold foundBelow
  rw [List.mem_filterMap]
  constructor
  · rintro ⟨pid,hpid,hfound⟩
    rw [List.mem_range'_1] at hpid
    obtain ⟨hanswered,p,hp,hproc⟩ := found_eq_some.mp hfound
    exact ⟨pid,p,⟨hpid.1,by omega,hanswered,hp⟩,hproc⟩
  · rintro ⟨pid,p,⟨hlo,hhi,hanswered,hp⟩,hproc⟩
    refine ⟨pid,?_,found_eq_some.mpr ⟨hanswered,p,hp,hproc⟩⟩
    rw [List.mem_range'_1]
    omega

lemma isOrphan_iff (pid : ℕ) (p : Process) (role tokens : ℕ) :
    Maid.isOrphan (Maid.pidStates (foundBelow moment answered (Maid.maxPidScan+1)))
      ⟨pid,p.ppid,p.name,internalStateToProto p.state,role,tokens⟩ = true ↔
    p.ppid ≠ 0 ∧ ¬p.state.Terminal ∧ ∀ q, Saw moment answered p.ppid q → q.state.Terminal := by
  unfold Maid.isOrphan
  dsimp only
  rw [get_pidStates]
  by_cases hroot : p.ppid = 0
  · rw [if_pos hroot]
    exact ⟨(fun h => by cases h),fun h => absurd hroot h.1⟩
  rw [if_neg hroot]
  by_cases hdone : Maid.Done (internalStateToProto p.state)
  · rw [if_pos hdone]
    exact ⟨(fun h => by cases h),fun h => absurd ((done_iff_terminal _).mp hdone) h.2.1⟩
  rw [if_neg hdone]
  have hlive : ¬p.state.Terminal := fun h => hdone ((done_iff_terminal _).mpr h)
  have hunseen : (∀ q, ¬Saw moment answered p.ppid q) → (p.ppid ≠ 0 ∧ ¬p.state.Terminal ∧
      ∀ q, Saw moment answered p.ppid q → q.state.Terminal) :=
    fun h => ⟨hroot,hlive,fun q hq => absurd hq (h q)⟩
  by_cases hrange : 1 ≤ p.ppid ∧ p.ppid ≤ Maid.maxPidScan
  · rw [if_pos hrange]
    cases hfound : found moment answered p.ppid with
    | none =>
      refine ⟨fun _ => hunseen (fun q hq => ?_),fun _ => rfl⟩
      have hsome := found_eq_some.mpr ⟨hq.2.2.1,q,hq.2.2.2,rfl⟩
      rw [hfound] at hsome
      cases hsome
    | some proc =>
      obtain ⟨hanswered,q,hq,hproc⟩ := found_eq_some.mp hfound
      rw [Option.map_some,hproc]
      dsimp only
      rw [decide_eq_true_iff,done_iff_terminal]
      refine ⟨fun hterminal => ⟨hroot,hlive,fun q' hq' => ?_⟩,fun h => h.2.2 q ⟨hrange.1,hrange.2,hanswered,hq⟩⟩
      obtain rfl := Option.some.inj (hq.symm.trans hq'.2.2.2)
      exact hterminal
  · rw [if_neg hrange]
    exact ⟨fun _ => hunseen (fun q hq => hrange ⟨hq.1,hq.2.1⟩),fun _ => rfl⟩

end Scan

/-- What has been read so far, each PID in a state that came after the first one. -/
def Read (first now : System) (next : ℕ) (processes : List ScannedProcess) : Prop :=
  ∃ moment answered, Sweep System.step moment 1 next now ∧
    (∀ i, 1 ≤ i → i < next → Leads System.step first (moment i)) ∧
    processes = foundBelow moment answered next

lemma Read.snoc {first now later : System} {next : ℕ} {processes : List ScannedProcess} {op : KernelOp}
    (h : Read first now next processes) (hs : now.step op = some later) : Read first later next processes := by
  obtain ⟨moment,answered,hsweep,hfirst,hprocesses⟩ := h
  exact ⟨moment,answered,hsweep.snoc hs,hfirst,hprocesses⟩

lemma Read.ask {first now : System} {next : ℕ} {processes : List ScannedProcess} (h : Read first now next processes)
    (hfirst : Leads System.step first now) (hnext : 1 ≤ next) (fails : Bool) :
    Read first now (next+1) (processes++(if fails then none else lookAt now next).toList) := by
  obtain ⟨moment,answered,hsweep,hmoments,rfl⟩ := h
  refine ⟨Function.update moment next now,Function.update answered next !fails,hsweep.read,fun i hlo hhi => ?_,?_⟩
  · rcases Nat.lt_succ_iff_lt_or_eq.mp hhi with hhi | rfl
    · rw [Function.update_of_ne (Nat.ne_of_lt hhi)]
      exact hmoments i hlo hhi
    · rw [Function.update_self]
      exact hfirst
  · exact (foundBelow_update moment answered hnext now fails).symm

structure Sound (first : System) (s : Rounds) : Prop where
  leads : Leads System.step first s.system
  scan : ∀ next processes, s.scan = some (next,processes) →
    1 ≤ next ∧ next ≤ Maid.maxPidScan+1 ∧ Read first s.system next processes
  reports : ∀ report ∈ s.reports, ∃ processes, report = Maid.report processes ∧
    Read first s.system (Maid.maxPidScan+1) processes

lemma sound_start (cfg : Config) (now : ℤ) (runtime : Option RuntimeManager) :
    Sound (.boot cfg now runtime) (start cfg now runtime) :=
  ⟨.refl _,(fun _ _ h => by cases h),(fun _ h => absurd h List.not_mem_nil)⟩

lemma Sound.step {first : System} (h : Sound first s) {op : RoundsOp} (hs : s.step op = some t) : Sound first t := by
  cases op with
  | kernel op =>
    obtain ⟨system,hsystem,rfl⟩ := Option.map_eq_some_iff.mp hs
    refine ⟨h.leads.snoc hsystem,fun next processes hscan => ?_,fun report hreport => ?_⟩
    · obtain ⟨hlo,hhi,hread⟩ := h.scan next processes hscan
      exact ⟨hlo,hhi,hread.snoc hsystem⟩
    · obtain ⟨processes,hprocesses,hread⟩ := h.reports report hreport
      exact ⟨processes,hprocesses,hread.snoc hsystem⟩
  | begin =>
    simp only [Rounds.step] at hs
    split at hs
    next =>
      cases hs
      refine ⟨h.leads,fun next processes hscan => ?_,h.reports⟩
      cases hscan
      exact ⟨Nat.le_refl 1,by decide,fun _ => first,fun _ => true,.empty _ 1 _,
        (fun i hlo hhi => absurd hhi (Nat.not_lt.mpr hlo)),rfl⟩
    next => cases hs
  | ask fails =>
    simp only [Rounds.step] at hs
    split at hs
    next => cases hs
    next pid found hscan =>
      have hend : ¬Maid.maxPidScan < pid := by
        intro hend
        rw [if_pos hend] at hs
        cases hs
      rw [if_neg hend] at hs
      obtain ⟨hlo,-,hread⟩ := h.scan pid found hscan
      cases hs
      refine ⟨h.leads,fun next processes hnext => ?_,h.reports⟩
      cases hnext
      exact ⟨Nat.le_succ_of_le hlo,Nat.succ_le_succ (Nat.not_lt.mp hend),hread.ask h.leads hlo fails⟩
  | finish =>
    simp only [Rounds.step] at hs
    split at hs
    next => cases hs
    next pid found hscan =>
      split_ifs at hs with hend
      obtain ⟨-,hhi,hread⟩ := h.scan pid found hscan
      obtain rfl : pid = Maid.maxPidScan+1 := Nat.le_antisymm hhi hend
      cases hs
      refine ⟨h.leads,(fun _ _ hnone => by cases hnone),fun report hreport => ?_⟩
      rcases List.mem_append.mp hreport with hreport | hreport
      · exact h.reports report hreport
      · exact ⟨found,List.mem_singleton.mp hreport,hread⟩

end Rounds

namespace System
variable {s t : System} {j : ℕ}

/-- A PID that was given out has ended, or is not registered any more. -/
def Ended (j : ℕ) (s : System) : Prop := j < s.king.registry.nextPID ∧ ∀ q ∈ s.king.registry.get j, q.state.Terminal

/-- What has ended and runs later was revived in between. -/
lemma exists_revived (h : Leads step s t) (hs : Ended j s) {q : Process} (hq : t.king.registry.get j = some q)
    (hlive : ¬q.state.Terminal) :
    ∃ a op b, Leads step s a ∧ a.step op = some b ∧ Leads step b t ∧ Revived a b j := by
  obtain ⟨a,op,b,ha,hab,hb,hended,hnot⟩ := h.exists_end hs (fun ht => hlive (ht.2 q hq))
  refine ⟨a,op,b,ha,hab,hb,?_⟩
  have hused := Nat.lt_of_lt_of_le hended.1 (nextPID_le_step hab)
  obtain ⟨p',hp',hp'live⟩ : ∃ p', b.king.registry.get j = some p' ∧ ¬p'.state.Terminal := by
    by_contra hnone
    refine hnot ⟨hused,fun p' hp' => ?_⟩
    by_contra hp'live
    exact hnone ⟨p',hp',hp'live⟩
  cases hp : a.king.registry.get j with
  | none =>
    rw [absent_step hab hp hended.1] at hp'
    cases hp'
  | some p => exact ⟨p,p',hp,hended.2 p hp,hp',hp'live⟩

end System

namespace Rounds
variable {s : Rounds}

lemma report_anomalies (processes : List ScannedProcess) : (Maid.report processes).anomalies = [] ↔
    (Maid.report processes).zombies = [] ∧ (Maid.report processes).orphans = [] := by
  simp only [Maid.report,List.append_eq_nil_iff]
  refine and_congr ?_ ?_
  · split_ifs with hzombies
    · exact ⟨fun _ => List.isEmpty_iff.mp hzombies,fun _ => rfl⟩
    · exact ⟨(fun h => by cases h),fun h => absurd (List.isEmpty_iff.mpr h) hzombies⟩
  · split_ifs with horphans
    · exact ⟨fun _ => List.isEmpty_iff.mp horphans,fun _ => rfl⟩
    · exact ⟨(fun h => by cases h),fun h => absurd (List.isEmpty_iff.mpr h) horphans⟩

/-- In every run of the kernel with its maid each report says what its scan has seen, every PID at a moment of its
own, one after the other. A process is reported as an orphan exactly if it was seen at work while its parent, seen
before, was not. If the parent is at work at that later moment, its call had failed, or it was spawned or revived in
between. -/
theorem reports_of_run {cfg : Config} {now : ℤ} {runtime : Option RuntimeManager}
    {trace : List (Transition Rounds RoundsOp)} (run : Run step (start cfg now runtime) trace s) :
    ∀ report ∈ s.reports, ∃ moment answered, Sweep System.step moment 1 (Maid.maxPidScan+1) s.system ∧
      (∀ i, 1 ≤ i → i ≤ Maid.maxPidScan → Leads System.step (.boot cfg now runtime) (moment i)) ∧
      report.processes = foundBelow moment answered (Maid.maxPidScan+1) ∧
      (∀ pid, pid ∈ report.zombies.map ScannedProcess.pid ↔ ∃ p, Saw moment answered pid p ∧ p.state = .zombie) ∧
      (∀ pid, pid ∈ report.orphans.map ScannedProcess.pid ↔ ∃ p, Saw moment answered pid p ∧ p.ppid ≠ 0 ∧
        ¬p.state.Terminal ∧ ∀ q, Saw moment answered p.ppid q → q.state.Terminal) ∧
      (∀ pid ∈ report.orphans.map ScannedProcess.pid, ∀ p q, (moment pid).king.registry.get pid = some p →
        (moment pid).king.registry.get p.ppid = some q → ¬q.state.Terminal →
        answered p.ppid = false ∨ (moment p.ppid).king.registry.nextPID ≤ p.ppid ∨
        ∃ a op b, Leads System.step (moment p.ppid) a ∧ a.step op = some b ∧ Leads System.step b (moment pid) ∧
          a.Revived b p.ppid) ∧
      (report.anomalies = [] ↔ report.zombies = [] ∧ report.orphans = []) := by
  intro report hreport
  have hsound := (run.invariant (fun _ _ _ h hs => h.step hs) (sound_start cfg now runtime)).2
  obtain ⟨processes,rfl,moment,answered,hsweep,hfirst,rfl⟩ := hsound.reports report hreport
  have hbooted : ∀ i, 1 ≤ i → i ≤ Maid.maxPidScan → Leads System.step (.boot cfg now runtime) (moment i) :=
    fun i hlo hhi => hfirst i hlo (Nat.lt_succ_of_le hhi)
  have horphan : ∀ pid, pid ∈ (Maid.report (foundBelow moment answered (Maid.maxPidScan+1))).orphans.map
      ScannedProcess.pid ↔ ∃ p, Saw moment answered pid p ∧ p.ppid ≠ 0 ∧ ¬p.state.Terminal ∧
        ∀ q, Saw moment answered p.ppid q → q.state.Terminal := by
    intro pid
    simp only [Maid.report,List.mem_map,List.mem_filter,mem_foundBelow]
    constructor
    · rintro ⟨proc,⟨⟨pid',p,hsaw,rfl⟩,hisOrphan⟩,rfl⟩
      exact ⟨p,hsaw,(isOrphan_iff moment answered _ _ _ _).mp hisOrphan⟩
    · rintro ⟨p,hsaw,hisOrphan⟩
      exact ⟨_,⟨⟨pid,p,hsaw,rfl⟩,(isOrphan_iff moment answered _ _ _ _).mpr hisOrphan⟩,rfl⟩
  refine ⟨moment,answered,hsweep,hbooted,rfl,fun pid => ?_,horphan,?_,report_anomalies _⟩
  · simp only [Maid.report,List.mem_map,List.mem_filter,mem_foundBelow,decide_eq_true_iff]
    constructor
    · rintro ⟨proc,⟨⟨pid',p,hsaw,rfl⟩,hzombie⟩,rfl⟩
      exact ⟨p,hsaw,(zombie_iff _).mp hzombie⟩
    · rintro ⟨p,hsaw,hzombie⟩
      exact ⟨_,⟨⟨pid,p,hsaw,rfl⟩,(zombie_iff _).mpr hzombie⟩,rfl⟩
  · intro pid hpid p q hp hq hlive
    obtain ⟨p',hsaw,hroot,-,hparent⟩ := (horphan pid).mp hpid
    obtain rfl := Option.some.inj (hp.symm.trans hsaw.2.2.2)
    have hordered : (moment pid).king.registry.Ordered :=
      (hbooted pid hsaw.1 hsaw.2.1).invariant (fun _ _ _ h hs => System.ordered_step h hs)
        (System.ordered_boot cfg now runtime)
    have hlt := hordered.ppid_lt hp
    have hlo : 1 ≤ p.ppid := Nat.one_le_iff_ne_zero.mpr hroot
    have hhi : p.ppid ≤ Maid.maxPidScan := Nat.le_trans (Nat.le_of_lt hlt) hsaw.2.1
    have hlater := hsweep.later p.ppid pid hlo (Nat.le_of_lt hlt) (Nat.lt_succ_of_le hsaw.2.1)
    cases hanswered : answered p.ppid with
    | false => exact .inl rfl
    | true =>
      right
      by_cases hunused : (moment p.ppid).king.registry.nextPID ≤ p.ppid
      · exact .inl hunused
      · right
        refine System.exists_revived hlater ⟨Nat.lt_of_not_le hunused,fun q' hq' => ?_⟩ hq hlive
        exact hparent q' ⟨hlo,hhi,hanswered,hq'⟩

/-- The rest of a scan whose calls fail. -/
lemma exec_ask_fails {pid : ℕ} {processes : List ScannedProcess} (hscan : s.scan = some (pid,processes)) (n : ℕ)
    (hn : pid+n ≤ Maid.maxPidScan+1) :
    exec step (List.replicate n (.ask true)) s = some { s with scan := some (pid+n,processes) } := by
  induction n generalizing s pid with
  | zero =>
    rw [Nat.add_zero,← hscan]
    rfl
  | succ n ih =>
    have hstep : s.step (.ask true) = some { s with scan := some (pid+1,processes) } := by
      simp only [step,hscan]
      rw [if_neg (by omega)]
      simp
    rw [List.replicate_succ,exec_cons hstep,ih rfl (by omega),Nat.add_assoc,Nat.add_comm 1 n]

/-- The lead of a worker is killed, and a scan has asked for the three processes. -/
def scanAfterKill : List RoundsOp :=
  [.kernel (.spawnChild 0 (.ok "") (Registry.agentRequest 1 "lead" .lead)),
    .kernel (.spawnChild 0 (.ok "") (Registry.agentRequest 2 "worker" .worker)),
    .kernel (.handleKill 0 (fun _ => [1,2,3]) 1 2 false),.begin,.ask false,.ask false,.ask false]

theorem reports_of_run_killed : ∃ s, (∃ trace, Run step (start King.exampleConfig 0 none) trace s) ∧
    s.reports.map (fun report => report.orphans.map ScannedProcess.pid) = [[3]] ∧
    ∀ report ∈ s.reports, report.anomalies = [] ↔ report.zombies = [] ∧ report.orphans = [] := by
  obtain ⟨s,processes,hs,hscan,hreports,horphans⟩ : ∃ s processes,
      exec step scanAfterKill (start King.exampleConfig 0 none) = some s ∧ s.scan = some (4,processes) ∧
      s.reports = [] ∧ (Maid.report processes).orphans.map ScannedProcess.pid = [3] := ⟨_,_,rfl,rfl,rfl,rfl⟩
  have hrest := exec_ask_fails hscan 197 (by decide)
  have hfinish : ({ s with scan := some (4+197,processes) } : Rounds).step .finish =
      some { s with scan := none,reports := [Maid.report processes] } := by
    simp only [step,hreports]
    rfl
  have hrun := ((Run.of_exec hs).append (Run.of_exec hrest)).snoc hfinish
  refine ⟨_,⟨_,hrun⟩,congrArg (fun pids => [pids]) horphans,fun report hreport => ?_⟩
  obtain ⟨moment,answered,-,-,-,-,-,-,hanomalies⟩ := reports_of_run hrun report hreport
  exact hanomalies

end Rounds
end HiveKernel
