import HiveKernel.Lib.Run
import HiveKernel.Lib.Table
import HiveKernel.Sdk.DrainedResults

/-! The pool of idle leads of the queen. Tasks take leads from its front and append them again; the reaper goes
through the live list by index, waits for a kill in between, and puts a list of its own in its place;
`on_shutdown` goes through it in the same way and empties it. -/
namespace HiveKernel
open Lib Dashboard

/-- A lead that has been idle longer is reaped. -/
def leadIdleTimeout : ℤ := 300*second

/-- Where a task stands: it asks whether the lead that it has popped is alive, waits for a new one, has the lead
execute, logs its failure (only the architect strategy does so), waits for its kill, or is over. -/
inductive LeadStage
  | checking (architect : Bool) (pid : ℕ)
  | spawning (architect : Bool)
  | executing (architect : Bool) (pid : ℕ)
  | logging (pid : ℕ)
  | killing (pid : ℕ)
  | ended
  deriving DecidableEq

/-- The lead that the task holds. -/
def LeadStage.held : LeadStage → Option ℕ
  | checking _ pid => some pid
  | executing _ pid => some pid
  | logging pid => some pid
  | killing pid => some pid
  | spawning _ => none
  | ended => none

/-- While the reaper waits for a kill it knows its time, the next index and its copy of the list. -/
inductive ReaperStage
  | sleeping
  | killing (now : ℤ) (next : ℕ) (stillIdle : List (ℕ × ℤ)) (pid : ℕ)
  | cancelled
  deriving DecidableEq

/-- `on_shutdown` first waits for the reaper that it has cancelled. -/
inductive ShutdownStage
  | notYet
  | waiting
  | killing (next : ℕ) (pid : ℕ)
  | over
  deriving DecidableEq

/-- How `get_process_info` ends: the lead is idle or running, it is not or the call fails, or the task is
cancelled. -/
inductive LeadCheck
  | alive
  | gone
  | cancelled
  deriving DecidableEq

/-- The list of idle leads with the times at which they were released, the clock, the leads spawned so far,
those whose kill was requested, the tasks, the reaper and `on_shutdown`. -/
structure LeadDesk where
  idle : List (ℕ × ℤ)
  clock : ℤ
  spawned : List ℕ
  killAsked : List ℕ
  tasks : Table ℕ LeadStage
  reaper : ReaperStage
  shutdown : ShutdownStage

/-- A step: one of the parties goes on to its next await, with the outcome of the last one, or time passes. -/
inductive LeadOp
  | acquire (i : ℕ) (architect : Bool)
  | checked (i : ℕ) (outcome : LeadCheck)
  | spawned (i : ℕ) (outcome : AwaitOutcome ℕ)
  | executed (i : ℕ) (outcome : AwaitOutcome Unit)
  | logged (i : ℕ) (outcome : AwaitOutcome Unit)
  | killed (i : ℕ)
  | reaperWakes
  | reaperGoesOn
  | onShutdown
  | shutdownGoesOn
  | shutdownCancelled
  | pass (time : ℤ)
  deriving DecidableEq

namespace LeadDesk

def start (clock : ℤ) : LeadDesk := ⟨[],clock,[],[],.empty,.sleeping,.notYet⟩

def setTask (s : LeadDesk) (i : ℕ) (stage : LeadStage) : LeadDesk :=
  { s with tasks := s.tasks.set i stage }

def askKill (s : LeadDesk) (pid : ℕ) : LeadDesk := { s with killAsked := s.killAsked++[pid] }

/-- The loop of `_acquire_lead`: pop the first idle lead, or spawn one. -/
def takeLead (s : LeadDesk) (i : ℕ) (architect : Bool) : LeadDesk :=
  match s.idle with
  | [] => s.setTask i (.spawning architect)
  | (pid,_)::rest => { s with idle := rest }.setTask i (.checking architect pid)

def release (s : LeadDesk) (pid : ℕ) : LeadDesk := { s with idle := s.idle++[(pid,s.clock)] }

/-- What the reaper does with the rest of the list: it stops at the next lead to be killed, or is through. -/
inductive ScanResult
  | kill (next : ℕ) (stillIdle : List (ℕ × ℤ)) (pid : ℕ)
  | through (stillIdle : List (ℕ × ℤ))
  deriving DecidableEq

def scan (now : ℤ) : List (ℕ × ℤ) → ℕ → List (ℕ × ℤ) → ScanResult
  | [],_,stillIdle => .through stillIdle
  | (pid,idleSince)::rest,next,stillIdle =>
    if leadIdleTimeout < now-idleSince then .kill (next+1) stillIdle pid
    else scan now rest (next+1) (stillIdle++[(pid,idleSince)])

/-- The reaper goes on at an index. -/
def reap (s : LeadDesk) (now : ℤ) (next : ℕ) (stillIdle : List (ℕ × ℤ)) : LeadDesk :=
  match scan now (s.idle.drop next) next stillIdle with
  | .kill next stillIdle pid => { s.askKill pid with reaper := .killing now next stillIdle pid }
  | .through stillIdle => { s with idle := stillIdle, reaper := .sleeping }

/-- `on_shutdown` goes on at an index. -/
def shutdownFrom (s : LeadDesk) (next : ℕ) : LeadDesk :=
  match s.idle[next]? with
  | some (pid,_) => { s.askKill pid with shutdown := .killing (next+1) pid }
  | none => { s with idle := [], shutdown := .over }

/-- A new lead has a new PID. -/
def step (s : LeadDesk) : LeadOp → Option LeadDesk
  | .acquire i architect => if (s.tasks.get i).isSome then none else some (s.takeLead i architect)
  | .checked i outcome => match s.tasks.get i with
    | some (.checking architect pid) => match outcome with
      | .alive => some (s.setTask i (.executing architect pid))
      | .gone => some ((s.setTask i .ended).takeLead i architect)
      | .cancelled => some (s.setTask i .ended)
    | _ => none
  | .spawned i outcome => match s.tasks.get i with
    | some (.spawning architect) => match outcome with
      | .ok pid =>
        if pid ∈ s.spawned then none
        else some ({ s with spawned := s.spawned++[pid] }.setTask i (.executing architect pid))
      | .error _ | .cancelled => some (s.setTask i .ended)
    | _ => none
  | .executed i outcome => match s.tasks.get i with
    | some (.executing architect pid) => match outcome with
      | .ok _ => some ((s.release pid).setTask i .ended)
      | .error _ =>
        if architect then some (s.setTask i (.logging pid)) else some ((s.askKill pid).setTask i (.killing pid))
      | .cancelled => some (s.setTask i .ended)
    | _ => none
  | .logged i outcome => match s.tasks.get i with
    | some (.logging pid) => match outcome with
      | .ok _ => some ((s.askKill pid).setTask i (.killing pid))
      | .error _ | .cancelled => some (s.setTask i .ended)
    | _ => none
  | .killed i => match s.tasks.get i with
    | some (.killing _) => some (s.setTask i .ended)
    | _ => none
  | .reaperWakes => match s.reaper with
    | .sleeping => some (s.reap s.clock 0 [])
    | _ => none
  | .reaperGoesOn => match s.reaper with
    | .killing now next stillIdle _ => some (s.reap now next stillIdle)
    | _ => none
  | .onShutdown => match s.shutdown with
    | .notYet => some { s with reaper := .cancelled, shutdown := .waiting }
    | _ => none
  | .shutdownGoesOn => match s.shutdown with
    | .waiting => some (s.shutdownFrom 0)
    | .killing next _ => some (s.shutdownFrom next)
    | _ => none
  | .shutdownCancelled => match s.shutdown with
    | .waiting | .killing _ _ => some { s with shutdown := .over }
    | _ => none
  | .pass time => some { s with clock := time }

/-- How many tasks hold the lead. -/
def holders (s : LeadDesk) (pid : ℕ) : ℕ := s.tasks.sum (fun _ stage => if stage.held = some pid then 1 else 0)

/-- How often a list of idle leads has the lead. -/
def copies (idle : List (ℕ × ℤ)) (pid : ℕ) : ℕ := idle.countP (fun lead => lead.1 = pid)

/-- The reaper waits for the kill of the lead. -/
def ReaperKills (s : LeadDesk) (pid : ℕ) : Prop := ∃ now next stillIdle, s.reaper = .killing now next stillIdle pid

/-- Every lead whose kill was not requested is held by one task or is idle once, no lead is held by two tasks,
and the reaper kills no lead that a task holds. -/
structure Kept (s : LeadDesk) : Prop where
  once : ∀ pid ∈ s.spawned, pid ∉ s.killAsked → s.holders pid+copies s.idle pid = 1
  alone : ∀ pid, s.holders pid ≤ 1
  spared : ∀ pid, s.ReaperKills pid → s.holders pid = 0

/-- The reaper does not kill it and no task holds it. -/
def Free (s : LeadDesk) (pid : ℕ) : Prop := s.holders pid = 0 ∧ ¬s.ReaperKills pid

def FrontFree (s : LeadDesk) : Prop := ∀ lead ∈ s.idle.head?, s.Free lead.1

/-- What the task drops was to be killed. -/
def DropsKilled (s : LeadDesk) (i : ℕ) : Prop :=
  ∀ stage pid, s.tasks.get i = some stage → stage.held = some pid → pid ∈ s.killAsked

/-- No task holds the first stale lead from the index on; if there is none, the reaper has kept exactly those
leads before the index whose kill was not requested. -/
def ReapsWell (s : LeadDesk) (now : ℤ) (next : ℕ) (stillIdle : List (ℕ × ℤ)) : Prop :=
  match (s.idle.drop next).find? (fun lead => leadIdleTimeout < now-lead.2) with
  | some lead => s.holders lead.1 = 0
  | none => ∀ pid ∈ s.spawned, pid ∉ s.killAsked → copies stillIdle pid = copies (s.idle.take next) pid

/-- If `on_shutdown` is through, it has requested the kill of every lead in the list. -/
def ClearsWell (s : LeadDesk) (next : ℕ) : Prop :=
  s.idle[next]? = none → ∀ lead ∈ s.idle, lead.1 ∈ s.killAsked

def Careful (s : LeadDesk) : LeadOp → Prop
  | .acquire _ _ => s.FrontFree
  | .checked i .gone => s.DropsKilled i ∧ (s.setTask i .ended).FrontFree
  | .checked i .cancelled | .executed i .cancelled | .logged i (.error _) | .logged i .cancelled => s.DropsKilled i
  | .reaperWakes => s.ReapsWell s.clock 0 []
  | .reaperGoesOn => ∀ now next stillIdle pid, s.reaper = .killing now next stillIdle pid →
    s.ReapsWell now next stillIdle
  | .shutdownGoesOn => (s.shutdown = .waiting → s.ClearsWell 0) ∧
    ∀ next pid, s.shutdown = .killing next pid → s.ClearsWell next
  | _ => True

/-- What a step does, case by case. -/
inductive Move (s : LeadDesk) : LeadOp → LeadDesk → Prop
  | acquire {i : ℕ} {architect : Bool} (hi : s.tasks.get i = none) :
      Move s (.acquire i architect) (s.takeLead i architect)
  | alive {i pid : ℕ} {architect : Bool} (hi : s.tasks.get i = some (.checking architect pid)) :
      Move s (.checked i .alive) (s.setTask i (.executing architect pid))
  | gone {i pid : ℕ} {architect : Bool} (hi : s.tasks.get i = some (.checking architect pid)) :
      Move s (.checked i .gone) ((s.setTask i .ended).takeLead i architect)
  | drop {i pid : ℕ} {stage : LeadStage} {op : LeadOp} (hi : s.tasks.get i = some stage)
      (hheld : stage.held = some pid) (hop : s.Careful op ↔ s.DropsKilled i) : Move s op (s.setTask i .ended)
  | spawned {i pid : ℕ} {architect : Bool} (hi : s.tasks.get i = some (.spawning architect))
      (hnew : pid ∉ s.spawned) : Move s (.spawned i (.ok pid))
        ({ s with spawned := s.spawned++[pid] }.setTask i (.executing architect pid))
  | notSpawned {i : ℕ} {architect : Bool} {outcome : AwaitOutcome ℕ}
      (hi : s.tasks.get i = some (.spawning architect)) : Move s (.spawned i outcome) (s.setTask i .ended)
  | release {i pid : ℕ} {architect : Bool} {u : Unit} (hi : s.tasks.get i = some (.executing architect pid)) :
      Move s (.executed i (.ok u)) ((s.release pid).setTask i .ended)
  | log {i pid : ℕ} {architect : Bool} {text : String} (hi : s.tasks.get i = some (.executing architect pid)) :
      Move s (.executed i (.error text)) (s.setTask i (.logging pid))
  | kill {i pid : ℕ} {stage : LeadStage} {op : LeadOp} (hi : s.tasks.get i = some stage)
      (hheld : stage.held = some pid) (hop : s.Careful op) : Move s op ((s.askKill pid).setTask i (.killing pid))
  | killed {i pid : ℕ} (hi : s.tasks.get i = some (.killing pid)) : Move s (.killed i) (s.setTask i .ended)
  | reap {now : ℤ} {next : ℕ} {stillIdle : List (ℕ × ℤ)} {op : LeadOp}
      (hcopy : (s.reaper = .sleeping ∧ next = 0 ∧ stillIdle = []) ∨
        ∃ pid, s.reaper = .killing now next stillIdle pid)
      (hop : s.Careful op ↔ s.ReapsWell now next stillIdle) : Move s op (s.reap now next stillIdle)
  | onShutdown : Move s .onShutdown { s with reaper := .cancelled, shutdown := .waiting }
  | shutdown {next : ℕ} (hstage : (s.shutdown = .waiting ∧ next = 0) ∨ ∃ pid, s.shutdown = .killing next pid)
      (hop : s.Careful .shutdownGoesOn ↔ s.ClearsWell next) : Move s .shutdownGoesOn (s.shutdownFrom next)
  | shutdownCancelled (hbegun : s.shutdown ≠ .notYet) : Move s .shutdownCancelled { s with shutdown := .over }
  | pass (time : ℤ) : Move s (.pass time) { s with clock := time }

variable {s t : LeadDesk} {op : LeadOp}

lemma move_of_step (h : s.step op = some t) : Move s op t := by
  cases op with
  | acquire i architect =>
    simp only [step] at h
    split at h
    · cases h
    next hi =>
      cases h
      exact .acquire (by simpa using hi)
  | checked i outcome =>
    simp only [step] at h
    split at h
    next hi =>
      cases outcome with
      | alive =>
        cases h
        exact .alive hi
      | gone =>
        cases h
        exact .gone hi
      | cancelled =>
        cases h
        exact .drop hi rfl Iff.rfl
    · cases h
  | spawned i outcome =>
    simp only [step] at h
    split at h
    next hi =>
      cases outcome with
      | ok pid =>
        simp only at h
        split at h
        · cases h
        next hnew =>
          cases h
          exact .spawned hi hnew
      | error text =>
        cases h
        exact .notSpawned hi
      | cancelled =>
        cases h
        exact .notSpawned hi
    · cases h
  | executed i outcome =>
    simp only [step] at h
    split at h
    next architect pid hi =>
      cases outcome with
      | ok u =>
        cases h
        exact .release hi
      | error text =>
        cases architect with
        | true =>
          cases h
          exact .log hi
        | false =>
          cases h
          exact .kill hi rfl trivial
      | cancelled =>
        cases h
        exact .drop hi rfl Iff.rfl
    · cases h
  | logged i outcome =>
    simp only [step] at h
    split at h
    next hi =>
      cases outcome with
      | ok u =>
        cases h
        exact .kill hi rfl trivial
      | error text =>
        cases h
        exact .drop hi rfl Iff.rfl
      | cancelled =>
        cases h
        exact .drop hi rfl Iff.rfl
    · cases h
  | killed i =>
    simp only [step] at h
    split at h
    next hi =>
      cases h
      exact .killed hi
    · cases h
  | reaperWakes =>
    simp only [step] at h
    split at h
    next hreaper =>
      cases h
      exact .reap (.inl ⟨hreaper,rfl,rfl⟩) Iff.rfl
    · cases h
  | reaperGoesOn =>
    simp only [step] at h
    split at h
    next now next stillIdle pid hreaper =>
      cases h
      refine .reap (.inr ⟨pid,hreaper⟩) ⟨fun hcareful => hcareful now next stillIdle pid hreaper,?_⟩
      intro hreaps now' next' stillIdle' pid' hreaper'
      cases hreaper.symm.trans hreaper'
      exact hreaps
    · cases h
  | onShutdown =>
    simp only [step] at h
    split at h
    · cases h
      exact .onShutdown
    · cases h
  | shutdownGoesOn =>
    simp only [step] at h
    split at h
    next hshutdown =>
      cases h
      exact .shutdown (.inl ⟨hshutdown,rfl⟩) (by simp [Careful,hshutdown])
    next next pid hshutdown =>
      cases h
      exact .shutdown (.inr ⟨pid,hshutdown⟩) (by simp [Careful,hshutdown])
    · cases h
  | shutdownCancelled =>
    simp only [step] at h
    split at h
    next hshutdown =>
      cases h
      exact .shutdownCancelled (by simp [hshutdown])
    next hshutdown =>
      cases h
      exact .shutdownCancelled (by simp [hshutdown])
    · cases h
  | pass time =>
    cases h
    exact .pass time

/-- Idle and held leads were spawned, and where a task waits for a kill it was requested. -/
structure Known (s : LeadDesk) : Prop where
  idle : ∀ lead ∈ s.idle, lead.1 ∈ s.spawned
  held : ∀ i stage pid, s.tasks.get i = some stage → stage.held = some pid → pid ∈ s.spawned
  killing : ∀ i pid, s.tasks.get i = some (.killing pid) → pid ∈ s.killAsked
  reaper : ∀ now next stillIdle pid, s.reaper = .killing now next stillIdle pid →
    pid ∈ s.spawned ∧ ∀ lead ∈ stillIdle, lead.1 ∈ s.spawned

lemma known_start (clock : ℤ) : Known (start clock) := by
  constructor <;> simp [start]

/-- A task goes on. -/
lemma Known.setTask (h : Known s) {i : ℕ} {stage : LeadStage}
    (hheld : ∀ pid, stage.held = some pid → pid ∈ s.spawned)
    (hkilling : ∀ pid, stage = .killing pid → pid ∈ s.killAsked) : Known (s.setTask i stage) where
  idle := h.idle
  held j stage' pid hj hpid := by
    rcases Table.get_set_some hj with ⟨-,rfl⟩ | ⟨-,hj⟩
    · exact hheld pid hpid
    · exact h.held j stage' pid hj hpid
  killing j pid hj := by
    rcases Table.get_set_some hj with ⟨-,hstage⟩ | ⟨-,hj⟩
    · exact hkilling pid hstage.symm
    · exact h.killing j pid hj
  reaper := h.reaper

lemma Known.askKill (h : Known s) (pid : ℕ) : Known (s.askKill pid) :=
  ⟨h.idle,h.held,fun i pid' hi => List.mem_append_left _ (h.killing i pid' hi),h.reaper⟩

lemma Known.takeLead (h : Known s) (i : ℕ) (architect : Bool) : Known (s.takeLead i architect) := by
  unfold LeadDesk.takeLead
  split
  · exact h.setTask (by simp [LeadStage.held]) (by simp)
  next pid since rest hidle =>
    have hrest : Known { s with idle := rest } :=
      ⟨fun lead hlead => h.idle lead (hidle ▸ List.mem_cons_of_mem _ hlead),h.held,h.killing,h.reaper⟩
    refine hrest.setTask (fun pid' hpid' => ?_) (by simp)
    obtain rfl : pid = pid' := by simpa [LeadStage.held] using hpid'
    exact h.idle (pid,since) (hidle ▸ List.mem_cons_self)

/-- The reaper takes over the leads that are not stale and stops at the first one that is. -/
lemma scan_cases (now : ℤ) (idle : List (ℕ × ℤ)) (next : ℕ) (stillIdle : List (ℕ × ℤ)) :
    ((∀ lead ∈ idle, ¬leadIdleTimeout < now-lead.2) ∧ scan now idle next stillIdle = .through (stillIdle++idle)) ∨
    (∃ fresh pid since rest, idle = fresh++(pid,since)::rest ∧
      (∀ lead ∈ fresh, ¬leadIdleTimeout < now-lead.2) ∧ leadIdleTimeout < now-since ∧
      scan now idle next stillIdle = .kill (next+fresh.length+1) (stillIdle++fresh) pid) := by
  induction idle generalizing next stillIdle with
  | nil => exact .inl ⟨by simp,by simp [scan]⟩
  | cons lead idle ih =>
    obtain ⟨pid,since⟩ := lead
    by_cases hstale : leadIdleTimeout < now-since
    · exact .inr ⟨[],pid,since,idle,rfl,by simp,hstale,by simp [scan,hstale]⟩
    · rcases ih (next+1) (stillIdle++[(pid,since)]) with
        ⟨hfresh,hscan⟩ | ⟨fresh,pid',since',rest,rfl,hfresh,hstale',hscan⟩
      · exact .inl ⟨List.forall_mem_cons.mpr ⟨hstale,hfresh⟩,by simp [scan,hstale,hscan]⟩
      · refine .inr ⟨(pid,since)::fresh,pid',since',rest,by simp,List.forall_mem_cons.mpr ⟨hstale,hfresh⟩,hstale',?_⟩
        simp only [scan,hstale,if_false,hscan,List.length_cons,List.append_assoc,List.cons_append,
          List.nil_append,ScanResult.kill.injEq,and_true]
        omega

/-- The reaper has put its copy in place, or waits for the next kill. -/
lemma reap_cases (s : LeadDesk) (now : ℤ) (next : ℕ) (stillIdle : List (ℕ × ℤ)) :
    ((∀ lead ∈ s.idle.drop next, ¬leadIdleTimeout < now-lead.2) ∧
      s.reap now next stillIdle = { s with idle := stillIdle++s.idle.drop next, reaper := .sleeping } ∧
      (s.ReapsWell now next stillIdle ↔ ∀ pid ∈ s.spawned, pid ∉ s.killAsked →
        copies stillIdle pid = copies (s.idle.take next) pid)) ∨
    (∃ fresh pid since rest, s.idle.drop next = fresh++(pid,since)::rest ∧
      (∀ lead ∈ fresh, ¬leadIdleTimeout < now-lead.2) ∧
      s.reap now next stillIdle =
        { s.askKill pid with reaper := .killing now (next+fresh.length+1) (stillIdle++fresh) pid } ∧
      (s.ReapsWell now next stillIdle ↔ s.holders pid = 0)) := by
  rcases scan_cases now (s.idle.drop next) next stillIdle with
    ⟨hfresh,hscan⟩ | ⟨fresh,pid,since,rest,hrest,hfresh,hstale,hscan⟩
  · have hnone : (s.idle.drop next).find? (fun lead => leadIdleTimeout < now-lead.2) = none :=
      List.find?_eq_none.mpr (fun lead hlead => by simpa using hfresh lead hlead)
    exact .inl ⟨hfresh,by rw [reap,hscan],by rw [ReapsWell,hnone]⟩
  · have hfirst : (s.idle.drop next).find? (fun lead => leadIdleTimeout < now-lead.2) = some (pid,since) := by
      rw [hrest,List.find?_eq_some_iff_append]
      exact ⟨by simpa using hstale,fresh,rest,rfl,fun lead hlead => by simpa using hfresh lead hlead⟩
    exact .inr ⟨fresh,pid,since,rest,hrest,hfresh,by rw [reap,hscan],by rw [ReapsWell,hfirst]⟩

lemma Known.reap (h : Known s) {now : ℤ} {next : ℕ} {stillIdle : List (ℕ × ℤ)}
    (hcopy : ∀ lead ∈ stillIdle, lead.1 ∈ s.spawned) : Known (s.reap now next stillIdle) := by
  have hdrop : ∀ lead ∈ s.idle.drop next, lead.1 ∈ s.spawned :=
    fun lead hlead => h.idle lead (List.mem_of_mem_drop hlead)
  rcases s.reap_cases now next stillIdle with ⟨-,hreap,-⟩ | ⟨fresh,pid,since,rest,hrest,-,hreap,-⟩
  · rw [hreap]
    exact ⟨List.forall_mem_append.mpr ⟨hcopy,hdrop⟩,h.held,h.killing,by simp⟩
  · rw [hreap]
    refine ⟨h.idle,h.held,(h.askKill pid).killing,?_⟩
    rintro now' next' stillIdle' pid' hreaper
    cases hreaper
    rw [hrest] at hdrop
    have hfresh : ∀ lead ∈ fresh, lead.1 ∈ s.spawned := fun lead hlead => hdrop lead (by simp [hlead])
    exact ⟨hdrop (pid,since) (by simp),List.forall_mem_append.mpr ⟨hcopy,hfresh⟩⟩

lemma shutdownFrom_cases (s : LeadDesk) (next : ℕ) :
    (s.idle[next]? = none ∧ s.shutdownFrom next = { s with idle := [], shutdown := .over }) ∨
    (∃ lead, s.idle[next]? = some lead ∧
      s.shutdownFrom next = { s.askKill lead.1 with shutdown := .killing (next+1) lead.1 }) := by
  unfold shutdownFrom
  cases hlead : s.idle[next]? with
  | none => exact .inl ⟨rfl,rfl⟩
  | some lead => exact .inr ⟨lead,rfl,rfl⟩

theorem Known.move (h : Known s) (hmove : Move s op t) : Known t := by
  cases hmove with
  | acquire hi => exact h.takeLead _ _
  | alive hi => exact h.setTask (fun pid hpid => h.held _ _ pid hi hpid) (by simp)
  | gone hi => exact (h.setTask (by simp [LeadStage.held]) (by simp)).takeLead _ _
  | drop hi hheld hop => exact h.setTask (by simp [LeadStage.held]) (by simp)
  | @spawned i pid architect hi hnew =>
    have hgrown : Known { s with spawned := s.spawned++[pid] } :=
      ⟨fun lead hlead => List.mem_append_left _ (h.idle lead hlead),
        fun j stage pid' hj hpid' => List.mem_append_left _ (h.held j stage pid' hj hpid'),h.killing,
        fun now next stillIdle pid' hreaper => ⟨List.mem_append_left _ (h.reaper now next stillIdle pid' hreaper).1,
          fun lead hlead => List.mem_append_left _ ((h.reaper now next stillIdle pid' hreaper).2 lead hlead)⟩⟩
    exact hgrown.setTask (by simp [LeadStage.held]) (by simp)
  | notSpawned hi => exact h.setTask (by simp [LeadStage.held]) (by simp)
  | @release i pid architect u hi =>
    have hpid : ∀ lead ∈ [(pid,s.clock)], lead.1 ∈ s.spawned :=
      List.forall_mem_singleton.mpr (h.held i _ pid hi rfl)
    have hreleased : Known (s.release pid) :=
      ⟨List.forall_mem_append.mpr ⟨h.idle,hpid⟩,h.held,h.killing,h.reaper⟩
    exact hreleased.setTask (by simp [LeadStage.held]) (by simp)
  | log hi => exact h.setTask (fun pid hpid => h.held _ _ pid hi hpid) (by simp)
  | @kill i pid stage op hi hheld hop =>
    refine (h.askKill pid).setTask (fun pid' hpid' => ?_) (fun pid' hpid' => ?_)
    · obtain rfl : pid = pid' := by simpa [LeadStage.held] using hpid'
      exact h.held i stage pid hi hheld
    · obtain rfl : pid = pid' := by simpa using hpid'
      exact List.mem_append_right _ List.mem_cons_self
  | killed hi => exact h.setTask (by simp [LeadStage.held]) (by simp)
  | reap hcopy hop =>
    refine h.reap ?_
    rcases hcopy with ⟨-,-,rfl⟩ | ⟨pid,hreaper⟩
    · simp
    · exact (h.reaper _ _ _ pid hreaper).2
  | onShutdown => exact ⟨h.idle,h.held,h.killing,by simp⟩
  | @shutdown next hstage hop =>
    rcases s.shutdownFrom_cases next with ⟨-,heq⟩ | ⟨lead,-,heq⟩
    · rw [heq]
      exact ⟨by simp,h.held,h.killing,h.reaper⟩
    · rw [heq]
      exact ⟨h.idle,h.held,(h.askKill lead.1).killing,h.reaper⟩
  | shutdownCancelled hbegun => exact ⟨h.idle,h.held,h.killing,h.reaper⟩
  | pass time => exact ⟨h.idle,h.held,h.killing,h.reaper⟩

def weight (stage : LeadStage) (pid : ℕ) : ℕ := if stage.held = some pid then 1 else 0

/-- What the task holds now. -/
def load (s : LeadDesk) (i pid : ℕ) : ℕ := ((s.tasks.get i).map (fun stage => weight stage pid)).getD 0

lemma holders_set (s : LeadDesk) (i : ℕ) (stage : LeadStage) (pid : ℕ) :
    (s.tasks.set i stage).sum (fun _ stage => weight stage pid)+s.load i pid = s.holders pid+weight stage pid := by
  cases hi : s.tasks.get i with
  | none =>
    have hsum := Table.sum_set_of_none s.tasks hi stage (fun _ stage => weight stage pid)
    simp only [load,hi,Option.map_none,Option.getD_none,holders,weight] at hsum ⊢
    omega
  | some old =>
    have hsum := Table.sum_set_of_some s.tasks hi stage (fun _ stage => weight stage pid)
    simpa only [load,hi,Option.map_some,Option.getD_some,holders,weight] using hsum

lemma holders_setTask (s : LeadDesk) (i : ℕ) (stage : LeadStage) (pid : ℕ) :
    (s.setTask i stage).holders pid+s.load i pid = s.holders pid+weight stage pid := s.holders_set i stage pid

lemma load_of_get {i : ℕ} {stage : LeadStage} (hi : s.tasks.get i = some stage) (pid : ℕ) :
    s.load i pid = weight stage pid := by
  rw [load,hi]
  rfl

lemma load_of_none {i : ℕ} (hi : s.tasks.get i = none) (pid : ℕ) : s.load i pid = 0 := by
  rw [load,hi]
  rfl

@[simp] lemma weight_self {stage : LeadStage} {pid : ℕ} (h : stage.held = some pid) : weight stage pid = 1 := by
  rw [weight,if_pos h]

lemma weight_of_ne {stage : LeadStage} {pid q : ℕ} (h : stage.held = some pid) (hne : q ≠ pid) :
    weight stage q = 0 := by
  rw [weight,h,if_neg]
  exact fun heq => hne (Option.some.inj heq).symm

lemma weight_of_none {stage : LeadStage} (h : stage.held = none) (pid : ℕ) : weight stage pid = 0 := by
  simp [weight,h]

/-- A lead that was not spawned is nowhere. -/
lemma Known.holders_eq_zero (h : Known s) {pid : ℕ} (hpid : pid ∉ s.spawned) : s.holders pid = 0 := by
  have hzero : s.holders pid = s.tasks.sum (fun _ _ => 0) := by
    refine Table.sum_congr s.tasks (fun i stage hi => if_neg (fun hheld => hpid ?_))
    exact h.held i stage pid hi hheld
  simp [hzero,Table.sum]

lemma copies_eq_zero {idle : List (ℕ × ℤ)} {pid : ℕ} : copies idle pid = 0 ↔ ∀ lead ∈ idle, lead.1 ≠ pid := by
  simp [copies,List.countP_eq_zero]

lemma copies_pos {idle : List (ℕ × ℤ)} {lead : ℕ × ℤ} (h : lead ∈ idle) : 0 < copies idle lead.1 :=
  List.countP_pos_iff.mpr ⟨lead,h,by simp⟩

lemma copies_append (idle later : List (ℕ × ℤ)) (pid : ℕ) :
    copies (idle++later) pid = copies idle pid+copies later pid := List.countP_append

lemma copies_take_drop (idle : List (ℕ × ℤ)) (next pid : ℕ) :
    copies idle pid = copies (idle.take next) pid+copies (idle.drop next) pid := by
  rw [← copies_append,List.take_append_drop]

/-- A step that takes no lead, loses none that was not to be killed, and starts no kill by the reaper. -/
lemma Kept.of_places (h : Kept s) (hspawned : t.spawned = s.spawned)
    (hasked : ∀ pid, pid ∈ s.killAsked → pid ∈ t.killAsked) (hholders : ∀ pid, t.holders pid ≤ s.holders pid)
    (hplaces : ∀ pid, pid ∉ t.killAsked → t.holders pid+copies t.idle pid = s.holders pid+copies s.idle pid)
    (hreaper : ∀ pid, t.ReaperKills pid → s.ReaperKills pid) : Kept t where
  once pid hpid hnot := by
    rw [hplaces pid hnot]
    exact h.once pid (hspawned ▸ hpid) (fun hpid' => hnot (hasked pid hpid'))
  alone pid := (hholders pid).trans (h.alone pid)
  spared pid hkills := by
    have hspared := h.spared pid (hreaper pid hkills)
    have hle := hholders pid
    omega

/-- A task goes on with the same lead, or with none as before. -/
lemma Kept.setTask (h : Kept s) {i : ℕ} {stage : LeadStage} (hstage : ∀ pid, weight stage pid = s.load i pid) :
    Kept (s.setTask i stage) := by
  have hsame : ∀ pid, (s.setTask i stage).holders pid = s.holders pid := by
    intro pid
    have hholders := s.holders_setTask i stage pid
    have hpid := hstage pid
    omega
  exact h.of_places rfl (fun _ hpid => hpid) (fun pid => (hsame pid).le)
    (fun pid _ => congrArg (fun n => n+copies s.idle pid) (hsame pid)) (fun _ hkills => hkills)

lemma Kept.askKill (h : Kept s) (pid : ℕ) : Kept (s.askKill pid) :=
  h.of_places rfl (fun _ hpid => List.mem_append_left _ hpid) (fun _ => le_rfl) (fun _ _ => rfl)
    (fun _ hkills => hkills)

/-- A task drops its lead. -/
lemma kept_drop_iff (h : Kept s) (hk : Known s) {i pid : ℕ} {stage : LeadStage} (hi : s.tasks.get i = some stage)
    (hheld : stage.held = some pid) : Kept (s.setTask i .ended) ↔ pid ∈ s.killAsked := by
  have hholders := s.holders_setTask i .ended
  have hended : ∀ q, weight .ended q = 0 := weight_of_none rfl
  have hload : ∀ q, s.load i q = weight stage q := load_of_get hi
  constructor
  · intro ht
    by_contra hnot
    have honce := h.once pid (hk.held i stage pid hi hheld) hnot
    have honce' : (s.setTask i .ended).holders pid+copies s.idle pid = 1 :=
      ht.once pid (hk.held i stage pid hi hheld) hnot
    have hpid := hholders pid
    rw [hended,hload,weight_self hheld] at hpid
    omega
  · intro hasked
    refine h.of_places rfl (fun _ hq => hq) (fun q => ?_) (fun q hnot => ?_) (fun _ hkills => hkills)
    · have hq := hholders q
      rw [hended] at hq
      omega
    · have hne : q ≠ pid := by
        rintro rfl
        exact hnot hasked
      have hq := hholders q
      rw [hended,hload,weight_of_ne hheld hne] at hq
      simp only [LeadDesk.setTask] at hq ⊢
      omega

/-- A lead goes back into the list. -/
lemma Kept.release (h : Kept s) {i pid : ℕ} {architect : Bool}
    (hi : s.tasks.get i = some (.executing architect pid)) : Kept ((s.release pid).setTask i .ended) := by
  have hholders : ∀ q, ((s.release pid).setTask i .ended).holders q+weight (.executing architect pid) q =
      s.holders q := by
    intro q
    have hset := (s.release pid).holders_setTask i .ended q
    rw [weight_of_none rfl] at hset
    rwa [← load_of_get hi q]
  have hcopies : ∀ q, copies (s.release pid).idle q = copies s.idle q+weight (.executing architect pid) q := by
    intro q
    simp only [LeadDesk.release,copies_append]
    simp [copies,weight,LeadStage.held]
  refine h.of_places rfl (fun _ hq => hq) (fun q => ?_) (fun q _ => ?_) (fun _ hkills => hkills)
  · have hq := hholders q
    omega
  · have hq := hholders q
    have hq' := hcopies q
    simp only [LeadDesk.setTask] at hq ⊢
    omega

/-- A new lead is held by the task that has spawned it. -/
lemma Kept.spawned (h : Kept s) (hk : Known s) {i pid : ℕ} {architect : Bool}
    (hi : s.tasks.get i = some (.spawning architect)) (hnew : pid ∉ s.spawned) :
    Kept ({ s with spawned := s.spawned++[pid] }.setTask i (.executing architect pid)) := by
  have hheld : (LeadStage.executing architect pid).held = some pid := rfl
  have hnone : s.holders pid = 0 := hk.holders_eq_zero hnew
  have hcopies : copies s.idle pid = 0 := by
    refine copies_eq_zero.mpr (fun lead hlead heq => hnew ?_)
    rw [← heq]
    exact hk.idle lead hlead
  have hholders : ∀ q, ({ s with spawned := s.spawned++[pid] }.setTask i (.executing architect pid)).holders q =
      s.holders q+weight (.executing architect pid) q := by
    intro q
    have hset := ({ s with spawned := s.spawned++[pid] } : LeadDesk).holders_setTask i (.executing architect pid) q
    have hload : ({ s with spawned := s.spawned++[pid] } : LeadDesk).load i q = 0 :=
      (load_of_get hi q).trans (weight_of_none rfl q)
    rwa [hload] at hset
  refine ⟨fun q hq hnot => ?_,fun q => ?_,fun q hkills => ?_⟩
  · rw [hholders]
    by_cases hqp : q = pid
    · subst hqp
      simp only [LeadDesk.setTask,hnone,hcopies,weight_self hheld]
    · rw [weight_of_ne hheld hqp]
      rcases List.mem_append.mp hq with hq | hq
      · exact h.once q hq hnot
      · exact absurd (List.mem_singleton.mp hq) hqp
  · rw [hholders]
    by_cases hqp : q = pid
    · subst hqp
      rw [hnone,weight_self hheld]
    · rw [weight_of_ne hheld hqp]
      exact h.alone q
  · obtain ⟨now,next,stillIdle,hreaper⟩ := hkills
    have hqp : q ≠ pid := by
      rintro rfl
      exact hnew (hk.reaper now next stillIdle q hreaper).1
    rw [hholders,weight_of_ne hheld hqp]
    exact h.spared q ⟨now,next,stillIdle,hreaper⟩

/-- What a task does to the leads when it takes one. -/
lemma takeLead_cases (s : LeadDesk) {i : ℕ} (hi : ∀ q, s.load i q = 0) (architect : Bool) :
    (s.idle = [] ∧ s.takeLead i architect = s.setTask i (.spawning architect)) ∨
    ∃ pid since rest, s.idle = (pid,since)::rest ∧
      s.takeLead i architect = { s with idle := rest }.setTask i (.checking architect pid) ∧
      (∀ q, (s.takeLead i architect).holders q = s.holders q+if q = pid then 1 else 0) ∧
      ∀ q, copies s.idle q = copies rest q+if q = pid then 1 else 0 := by
  unfold takeLead
  cases hidle : s.idle with
  | nil => exact .inl ⟨rfl,rfl⟩
  | cons lead rest =>
    obtain ⟨pid,since⟩ := lead
    refine .inr ⟨pid,since,rest,rfl,rfl,fun q => ?_,fun q => ?_⟩
    · have hset := ({ s with idle := rest } : LeadDesk).holders_setTask i (.checking architect pid) q
      have hload : ({ s with idle := rest } : LeadDesk).load i q = 0 := hi q
      rw [hload] at hset
      have hweight : weight (.checking architect pid) q = if q = pid then 1 else 0 := by
        simp [weight,LeadStage.held,eq_comm]
      rw [hweight] at hset
      exact hset
    · simp [copies,List.countP_cons,eq_comm]

lemma spawned_takeLead (s : LeadDesk) (i : ℕ) (architect : Bool) : (s.takeLead i architect).spawned = s.spawned := by
  unfold takeLead
  split <;> rfl

lemma killAsked_takeLead (s : LeadDesk) (i : ℕ) (architect : Bool) :
    (s.takeLead i architect).killAsked = s.killAsked := by
  unfold takeLead
  split <;> rfl

/-- The places of a lead all in all stay the same. -/
lemma places_takeLead (s : LeadDesk) {i : ℕ} (hi : ∀ q, s.load i q = 0) (architect : Bool) (q : ℕ) :
    (s.takeLead i architect).holders q+copies (s.takeLead i architect).idle q = s.holders q+copies s.idle q := by
  rcases s.takeLead_cases hi architect with ⟨-,heq⟩ | ⟨pid,since,rest,hidle,heq,hholders,hcopies⟩
  · have hset := s.holders_setTask i (.spawning architect) q
    rw [hi,weight_of_none rfl] at hset
    rw [heq]
    simp only [LeadDesk.setTask] at hset ⊢
    omega
  · have hidle' : (s.takeLead i architect).idle = rest := by rw [heq]; rfl
    have hq := hholders q
    have hq' := hcopies q
    rw [hidle']
    omega

/-- A task takes the first lead. -/
lemma kept_takeLead_iff (h : Kept s) {i : ℕ} (hi : ∀ q, s.load i q = 0) (architect : Bool) :
    Kept (s.takeLead i architect) ↔ s.FrontFree := by
  rcases s.takeLead_cases hi architect with ⟨hidle,heq⟩ | ⟨pid,since,rest,hidle,heq,hholders,hcopies⟩
  · rw [heq]
    refine iff_of_true (h.setTask (fun pid => ?_)) (by simp [FrontFree,hidle])
    rw [hi,weight_of_none rfl]
  · have hfront : s.FrontFree ↔ s.Free pid := by simp [FrontFree,hidle]
    have hkills : ∀ q, (s.takeLead i architect).ReaperKills q ↔ s.ReaperKills q := by
      intro q
      rw [heq]
      rfl
    rw [hfront]
    constructor
    · intro ht
      have hone := hholders pid
      rw [if_pos rfl] at hone
      refine ⟨?_,fun hreaper => ?_⟩
      · have halone := ht.alone pid
        omega
      · have hspared := ht.spared pid ((hkills pid).mpr hreaper)
        omega
    · rintro ⟨hnone,hreaper⟩
      refine ⟨fun q hq hnot => ?_,fun q => ?_,fun q hq => ?_⟩
      · rw [s.places_takeLead hi architect]
        rw [heq] at hq hnot
        exact h.once q hq hnot
      · rw [hholders]
        split_ifs with hqp
        · rw [hqp,hnone]
        · exact h.alone q
      · rw [hkills] at hq
        have hqp : q ≠ pid := by
          rintro rfl
          exact hreaper hq
        rw [hholders,if_neg hqp]
        exact h.spared q hq

/-- A task that finds its lead gone takes the next one. -/
lemma kept_gone_iff (h : Kept s) (hk : Known s) {i pid : ℕ} {architect : Bool}
    (hi : s.tasks.get i = some (.checking architect pid)) :
    Kept ((s.setTask i .ended).takeLead i architect) ↔ pid ∈ s.killAsked ∧ (s.setTask i .ended).FrontFree := by
  have hload : ∀ q, (s.setTask i .ended).load i q = 0 := fun q =>
    (load_of_get (Table.get_set_self _ _ _) q).trans (weight_of_none rfl q)
  have hdrop := kept_drop_iff h hk hi rfl
  constructor
  · intro ht
    have hasked : pid ∈ s.killAsked := by
      by_contra hnot
      have hspawned := hk.held i _ pid hi rfl
      have honce := ht.once pid (by rwa [spawned_takeLead]) (by rwa [killAsked_takeLead])
      rw [places_takeLead _ hload] at honce
      have honce' := h.once pid hspawned hnot
      have hholders := s.holders_setTask i .ended pid
      rw [load_of_get hi,weight_self rfl,weight_of_none rfl] at hholders
      simp only [LeadDesk.setTask] at honce hholders
      omega
    exact ⟨hasked,(kept_takeLead_iff (hdrop.mpr hasked) hload architect).mp ht⟩
  · rintro ⟨hasked,hfront⟩
    exact (kept_takeLead_iff (hdrop.mpr hasked) hload architect).mpr hfront

/-- The reaper goes on. -/
lemma kept_reap_iff (h : Kept s) (now : ℤ) (next : ℕ) (stillIdle : List (ℕ × ℤ)) :
    Kept (s.reap now next stillIdle) ↔ s.ReapsWell now next stillIdle := by
  rcases s.reap_cases now next stillIdle with ⟨-,hreap,hwell⟩ | ⟨fresh,pid,since,rest,hrest,-,hreap,hwell⟩
  · rw [hreap,hwell]
    constructor
    · intro ht pid hpid hnot
      have honce := h.once pid hpid hnot
      have honce' := ht.once pid hpid hnot
      rw [copies_take_drop s.idle next] at honce
      simp only [holders,copies_append] at honce honce'
      omega
    · intro hsame
      refine ⟨fun pid hpid hnot => ?_,h.alone,?_⟩
      · rw [copies_append,hsame pid hpid hnot,← copies_take_drop]
        exact h.once pid hpid hnot
      · rintro pid ⟨now',next',stillIdle',hreaper⟩
        cases hreaper
  · rw [hreap,hwell]
    constructor
    · exact fun ht => ht.spared pid ⟨_,_,_,rfl⟩
    · intro hnone
      refine ⟨(h.askKill pid).once,h.alone,?_⟩
      rintro q ⟨now',next',stillIdle',hreaper⟩
      cases hreaper
      exact hnone

/-- `on_shutdown` goes on. -/
lemma kept_shutdownFrom_iff (h : Kept s) (hk : Known s) (next : ℕ) :
    Kept (s.shutdownFrom next) ↔ s.ClearsWell next := by
  rcases s.shutdownFrom_cases next with ⟨hnone,heq⟩ | ⟨lead,hlead,heq⟩
  · rw [heq]
    constructor
    · intro ht _ lead hlead
      by_contra hnot
      have honce := h.once lead.1 (hk.idle lead hlead) hnot
      have honce' := ht.once lead.1 (hk.idle lead hlead) hnot
      have hpos := copies_pos hlead
      have hempty : copies [] lead.1 = 0 := rfl
      simp only [holders,hempty] at honce honce'
      omega
    · intro hclears
      refine ⟨fun pid hpid hnot => ?_,h.alone,h.spared⟩
      have hnowhere : copies s.idle pid = 0 := by
        refine copies_eq_zero.mpr (fun lead hlead heq => hnot ?_)
        rw [← heq]
        exact hclears hnone lead hlead
      have honce := h.once pid hpid hnot
      rw [hnowhere] at honce
      exact honce
  · rw [heq]
    refine iff_of_true ?_ (fun hnone => by rw [hlead] at hnone; cases hnone)
    exact ⟨(h.askKill lead.1).once,h.alone,h.spared⟩

lemma dropsKilled_iff {i pid : ℕ} {stage : LeadStage} (hi : s.tasks.get i = some stage)
    (hheld : stage.held = some pid) : s.DropsKilled i ↔ pid ∈ s.killAsked := by
  constructor
  · exact fun h => h stage pid hi hheld
  · intro h stage' pid' hi' hheld'
    obtain rfl := Option.some.inj (hi.symm.trans hi')
    obtain rfl := Option.some.inj (hheld.symm.trans hheld')
    exact h

/-- After a step every lead is in its place exactly if the step was careful. -/
theorem kept_move_iff (h : Kept s) (hk : Known s) (hmove : Move s op t) : Kept t ↔ s.Careful op := by
  cases hmove with
  | acquire hi => exact kept_takeLead_iff h (load_of_none hi) _
  | alive hi => exact iff_of_true (h.setTask (fun q => (load_of_get hi q).symm)) trivial
  | gone hi =>
    have hdrops := dropsKilled_iff hi rfl
    exact (kept_gone_iff h hk hi).trans (and_congr_left' hdrops.symm)
  | drop hi hheld hop => rw [hop,dropsKilled_iff hi hheld,kept_drop_iff h hk hi hheld]
  | spawned hi hnew => exact iff_of_true (h.spawned hk hi hnew) trivial
  | notSpawned hi =>
    refine iff_of_true (h.setTask (fun q => ?_)) (by simp [Careful])
    rw [load_of_get hi,weight_of_none rfl,weight_of_none rfl]
  | release hi => exact iff_of_true (h.release hi) trivial
  | log hi => exact iff_of_true (h.setTask (fun q => (load_of_get hi q).symm)) trivial
  | @kill i pid stage op hi hheld hop =>
    refine iff_of_true ((h.askKill pid).setTask (fun q => ?_)) hop
    have hload : (s.askKill pid).load i q = weight stage q := load_of_get hi q
    rw [hload,weight,weight,hheld]
    rfl
  | killed hi => exact iff_of_true ((kept_drop_iff h hk hi rfl).mpr (hk.killing _ _ hi)) trivial
  | reap hcopy hop => rw [kept_reap_iff h,hop]
  | onShutdown =>
    refine iff_of_true ⟨h.once,h.alone,?_⟩ trivial
    rintro pid ⟨now,next,stillIdle,hreaper⟩
    cases hreaper
  | shutdown hstage hop => rw [kept_shutdownFrom_iff h hk,hop]
  | shutdownCancelled hbegun => exact iff_of_true ⟨h.once,h.alone,h.spared⟩ trivial
  | pass time => exact iff_of_true ⟨h.once,h.alone,h.spared⟩ trivial

lemma kept_start (clock : ℤ) : Kept (start clock) := by
  constructor <;> simp [start,holders,ReaperKills]

end LeadDesk
end HiveKernel
