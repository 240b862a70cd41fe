import HiveKernel.Ipc.Broker
import HiveKernel.Kernel.KernelBudget
import HiveKernel.Resources.CGroupIndex
import HiveKernel.Resources.Limits
import HiveKernel.Resources.Reservations

/-! What is left of a process after the scan has removed it. Seven subsystems keep something under a PID
and each can forget it, but the scan asks none of them to: it takes the process out of the table, and
nothing else. What is left is what had not been cleaned up before, and what is put there afterwards. -/
namespace HiveKernel
open Lib BudgetManager

namespace King
variable {k : King} {now : ℤ} {launch : Except String String} {req : SpawnRequest}

/-- A spawn puts the new process into the group of its parent and hands the trace on to it, at most. -/
lemma spawnChild_files (k : King) (now : ℤ) (launch : Except String String) (req : SpawnRequest) :
    ((k.spawnChild now launch req).2.cgroups = k.cgroups ∨
      (k.spawnChild now launch req).2.cgroups =
        joinGroup k.cgroups req.parentPID k.registry.nextPID) ∧
    ∀ j, j ≠ k.registry.nextPID →
      (k.spawnChild now launch req).2.traceStore.get j = k.traceStore.get j := by
  rcases spawnChild_cases k now launch req with ⟨-,e,he⟩ | ⟨parent,-,-,⟨e,-,he⟩ | ⟨budget,-,he⟩⟩
  · rw [he]
    exact ⟨.inl rfl,fun _ _ => rfl⟩
  · rw [he]
    exact ⟨.inl rfl,fun _ _ => rfl⟩
  · have hp : (k.withChild now req parent budget).registry.get (k.newborn now req parent).pid =
        some (k.newborn now req parent) := (Registry.get_register _ _ _ _).trans (if_pos rfl)
    rw [he]
    rcases startChild_cases hp with ⟨-,e,hs⟩ | ⟨-,addr,registry,runtime,hs,-⟩
    · rw [hs]
      exact ⟨.inr rfl,fun _ _ => rfl⟩
    · rw [hs]
      simp only [passTrace]
      split_ifs
      · exact ⟨.inr rfl,fun _ _ => rfl⟩
      · exact ⟨.inr rfl,fun j hj => Table.get_set_of_ne hj⟩

lemma ignores_joinGroup {m : CGroupManager} {j : ℕ} (h : m.Ignores j) (parentPID : ℕ) {pid : ℕ}
    (hne : j ≠ pid) : (joinGroup m parentPID pid).Ignores j := by
  unfold joinGroup
  split
  · exact h
  · split
    next ha => exact h.addProcess hne ha
    next => exact h

end King

namespace System
variable {s s' : System} {op : KernelOp} {pid : ℕ}

/-- A PID that has been used and is not registered does not come back. -/
lemma absent_step (hs : s.step op = some s') (hnone : s.king.registry.get pid = none)
    (hlt : pid < s.king.registry.nextPID) : s'.king.registry.get pid = none := by
  rcases step_table hs with ⟨now,launch,req,-,rfl⟩ | ⟨now,order,childOrder,-,he,rfl⟩ | hrw
  · rcases get_spawnChild s.king now launch req with hget | ⟨parent,child,-,-,-,-,hget⟩
    · exact (hget pid).trans hnone
    · exact (hget pid).trans ((if_neg hlt.ne).trans hnone)
  · by_contra hsome
    obtain ⟨p',hp'⟩ := Option.ne_none_iff_exists'.mp hsome
    obtain ⟨p,hp,-⟩ := get_reapZombies he pid p' hp'
    rw [hnone] at hp
    cases hp
  · have hpid := hrw pid
    rw [hnone] at hpid
    exact hpid

lemma ignores_step (hs : s.step op = some s') (hi : s.king.cgroups.Ignores pid)
    (hne : pid ≠ s.king.registry.nextPID) : s'.king.cgroups.Ignores pid := by
  cases op with
  | spawnChild now launch req =>
    cases hs
    rcases (King.spawnChild_files s.king now launch req).1 with he | he
    · rw [he]
      exact hi
    · rw [he]
      exact King.ignores_joinGroup hi req.parentPID hne
  | setTrace j traceID traceSpan => cases hs; exact hi
  | waitResult j => cases hs; exact hi
  | completeTask now j exitCode output errMsg =>
    cases hs
    simp only [King.completeTask]
    split
    · exact hi
    · exact hi
  | _ =>
    have hsame := quiet_step King.cgroups (fun _ _ _ _ _ _ _ => rfl) hs not_false
    rw [hsame]
    exact hi

lemma trace_step (hs : s.step op = some s') (ht : s.king.traceStore.get pid = none)
    (hne : pid ≠ s.king.registry.nextPID) (hop : ∀ traceID traceSpan, op ≠ .setTrace pid traceID traceSpan) :
    s'.king.traceStore.get pid = none := by
  cases op with
  | spawnChild now launch req =>
    cases hs
    rw [(King.spawnChild_files s.king now launch req).2 pid hne]
    exact ht
  | setTrace j traceID traceSpan =>
    cases hs
    have hj : pid ≠ j := by
      rintro rfl
      exact hop traceID traceSpan rfl
    exact (Table.get_set_of_ne hj).trans ht
  | waitResult j => cases hs; exact ht
  | completeTask now j exitCode output errMsg =>
    cases hs
    simp only [King.completeTask]
    split
    · exact ht
    · exact ht
  | _ =>
    have hsame := quiet_step King.traceStore (fun _ _ _ _ _ _ _ => rfl) hs not_false
    rw [hsame]
    exact ht

lemma result_step (hs : s.step op = some s') (hr : s.king.results.get pid = none)
    (hnone : s.king.registry.get pid = none) : s'.king.results.get pid = none := by
  cases op with
  | spawnChild now launch req =>
    cases hs
    rw [King.spawnChild_results]
    exact hr
  | setTrace j traceID traceSpan => cases hs; exact hr
  | waitResult j =>
    cases hs
    exact Table.get_erase_none j hr
  | completeTask now j exitCode output errMsg =>
    cases hs
    simp only [King.completeTask]
    split
    · exact hr
    next proc hproc =>
      have hj : pid ≠ j := by
        rintro rfl
        rw [hnone] at hproc
        cases hproc
      exact (Table.get_set_of_ne hj).trans hr
  | _ =>
    have hsame := quiet_step King.results (fun _ _ _ _ _ _ _ => rfl) hs not_false
    rw [hsame]
    exact hr

/-- The list of reservations after a step. -/
def reservationsAfter (s : System) (rs : List Reservation) : KernelOp → List Reservation
  | .spawnChild now _ req =>
    let tier := tierFromCog req.cognitiveTier
    if s.king.Accepts now req ∧ (King.fund s.king.budget req s.king.registry.nextPID).isOk ∧
      0 < req.limits.maxTokensTotal ∧ (s.king.budget.getBudget req.parentPID tier).isSome
    then reservationsAllocate rs req.parentPID s.king.registry.nextPID tier req.limits.maxTokensTotal
    else rs
  | .requestResources pid amount => match s.king.registry.get pid with
    | none => rs
    | some proc =>
      let tier := tierFromCog proc.cognitiveTier
      if (s.king.budget.allocate proc.ppid pid tier amount).isOk
      then reservationsAllocate rs proc.ppid pid tier amount else rs
  | .release pid tier => s.king.budget.reservationsRelease s.king.registry rs pid tier
  | .releaseAll pid =>
    let release := fun (books : BudgetManager × List Reservation) tier =>
      ((books.1.release s.king.registry pid tier).2,
        books.1.reservationsRelease s.king.registry books.2 pid tier)
    ([ModelTier.opus,.sonnet,.mini].foldl release (s.king.budget,rs)).2
  | _ => rs

variable {rs : List Reservation}

/-- Reservations are made for registered processes and for the one that is created. -/
lemma reservation_step (s : System) (op : KernelOp) {r : Reservation} (hr : r ∈ reservationsAfter s rs op) :
    r ∈ rs ∨ (s.king.registry.get r.child).isSome ∨ r.child = s.king.registry.nextPID := by
  cases op with
  | spawnChild now launch req =>
    simp only [reservationsAfter] at hr
    split_ifs at hr
    · rcases mem_of_allocate hr with hr | hr
      · exact .inl hr
      · exact .inr (.inr hr)
    · exact .inl hr
  | requestResources pid amount =>
    simp only [reservationsAfter] at hr
    split at hr
    · exact .inl hr
    next proc hproc =>
      split_ifs at hr
      · rcases mem_of_allocate hr with hr | hr
        · exact .inl hr
        · rw [hr,hproc]
          exact .inr (.inl rfl)
      · exact .inl hr
  | release pid tier => exact .inl (mem_of_release hr)
  | releaseAll pid => exact .inl (mem_of_release (mem_of_release (mem_of_release hr)))
  | _ => exact .inl hr

/-- Whatever an entry has reserved is in the list. -/
lemma covered_step (h : s.Sound) (hc : Covered rs s.king.budget) (hs : s.step op = some s') :
    Covered (reservationsAfter s rs op) s'.king.budget := by
  cases op with
  | spawnChild now launch req =>
    cases hs
    simp only [reservationsAfter]
    rcases King.spawnChild_effect s.king now launch req with ⟨hnot,e,he⟩ | ⟨parent,heff⟩
    · rw [if_neg (fun hx => hnot hx.1),he]
      exact hc
    · have hfund : ∀ {budget : BudgetManager},
          King.fund s.king.budget req s.king.registry.nextPID = .ok budget →
          (s.king.spawnChild now launch req).2.budget = budget →
          Covered (reservationsAfter s rs (.spawnChild now launch req))
            (s.king.spawnChild now launch req).2.budget := by
        intro budget hf hb
        rw [hb]
        simp only [reservationsAfter]
        rcases King.fund_cases hf with ⟨hzero,rfl⟩ | ⟨hpos,⟨entry,hentry,ha⟩ | ⟨hnone,rfl⟩⟩
        · rw [if_neg (fun hx => absurd hx.2.2.1 (by rw [hzero]; exact UInt64.lt_irrefl 0))]
          exact hc
        · rw [if_pos ⟨heff.accepts,by rw [hf]; rfl,hpos,by rw [hentry]; rfl⟩]
          exact hc.allocate ha
        · rw [if_neg (fun hx => absurd hx.2.2.2 (by rw [hnone]; exact Bool.noConfusion))]
          exact hc.setBudget (h.fresh _) _
      rcases heff.outcome with ⟨-,⟨e,he⟩,hb,-⟩ | ⟨-,-,hf,-⟩ | ⟨addr,-,-,hf,-⟩
      · rw [if_neg (fun hx => absurd hx.2.1 (by rw [he]; exact Bool.noConfusion)),hb]
        exact hc
      · exact hfund hf rfl
      · exact hfund hf rfl
  | requestResources pid amount =>
    cases hs
    simp only [reservationsAfter,King.requestResources]
    cases hp : s.king.registry.get pid with
    | none => exact hc
    | some proc =>
      simp only
      cases ha : s.king.budget.allocate proc.ppid pid (tierFromCog proc.cognitiveTier) amount with
      | error e => exact hc
      | ok budget => exact hc.allocate ha
  | reportMetric now pid tokens =>
    cases hs
    rcases King.reportMetric_cases s.king now pid tokens with hb | ⟨tier,hconsume⟩
    · rw [hb]
      exact hc
    · exact hc.consume hconsume
  | release pid tier =>
    cases hs
    exact hc.release _ pid tier
  | releaseAll pid =>
    cases hs
    exact ((hc.release _ pid .opus).release _ pid .sonnet).release _ pid .mini
  | _ =>
    rw [(sameBooks_step hs not_false).budget]
    exact hc

end System

/-- The kernel with its broker and its rate limiter. The reservations and the processes that a scan has
removed are recorded for the statements; no step looks at them. -/
structure Hive where
  system : System
  broker : Broker
  limiter : RateLimiter
  reservations : List Reservation
  reaped : Finset ℕ

inductive HiveOp
  | kernel (op : KernelOp)
  | clearTrace (pid : ℕ)
  | createGroup (order : List ℕ → List ℕ) (name : String) (rootPID : ℕ) (maxTokens : UInt64) (maxProcs : ℤ)
  | deleteGroup (order : List ℕ) (name : String)
  | addProcess (name : String) (pid : ℕ)
  | removeProcess (pid : ℕ)
  | consumeTokens (pid : ℕ) (tokens : UInt64)
  | setLimit (pid : ℕ) (maxPerMin : UInt32)
  | allow (pid : ℕ) (now : ℤ)
  | removeLimit (pid : ℕ)
  | route (now : ℤ) (msg : Message)
  | getInbox (pid : ℕ)
  | removeInbox (pid : ℕ)

namespace Hive

def boot (cfg : Config) (now : ℤ) (runtime : Option RuntimeManager) : Hive :=
  ⟨System.boot cfg now runtime,.new,.new,[],∅⟩

def setKing (h : Hive) (king : King) : Hive := { h with system := { h.system with king := king } }

def setGroups (h : Hive) (cgroups : CGroupManager) : Hive :=
  h.setKing { h.system.king with cgroups := cgroups }

/-- The processes that a scan has taken out of the table. -/
def reapedBy (s : System) : KernelOp → Finset ℕ
  | .reapZombies _ order _ => (order.filter (fun pid => (s.king.registry.get pid).isNone)).toFinset
  | _ => ∅

def step (h : Hive) : HiveOp → Option Hive
  | .kernel op => (h.system.step op).map fun s => { h with
      system := s
      reservations := h.system.reservationsAfter h.reservations op
      reaped := h.reaped ∪ reapedBy s op }
  | .clearTrace pid => some (h.setKing (h.system.king.clearTrace pid))
  | .createGroup order name rootPID maxTokens maxProcs =>
    (h.system.king.cgroups.create h.system.king.registry order name rootPID maxTokens maxProcs).map fun o =>
      h.setGroups (h.system.king.cgroups.kept (o.map Prod.snd))
  | .deleteGroup order name =>
    some (h.setGroups (h.system.king.cgroups.kept (h.system.king.cgroups.delete order name)))
  | .addProcess name pid =>
    some (h.setGroups (h.system.king.cgroups.kept (h.system.king.cgroups.addProcess name pid)))
  | .removeProcess pid => some (h.setGroups (h.system.king.cgroups.removeProcess pid))
  | .consumeTokens pid tokens =>
    some (h.setGroups (h.system.king.cgroups.kept (h.system.king.cgroups.consumeTokens pid tokens)))
  | .setLimit pid maxPerMin => some { h with limiter := h.limiter.setLimit pid maxPerMin }
  | .allow pid now => some { h with limiter := (h.limiter.allowAt pid now).2 }
  | .removeLimit pid => some { h with limiter := h.limiter.remove pid }
  | .route now msg =>
    (h.broker.route h.system.king.registry now msg).map (fun o => { h with broker := o.2 })
  | .getInbox pid => some { h with broker := h.broker.openInbox pid }
  | .removeInbox pid => some { h with broker := h.broker.removeInbox pid }

/-- Nothing refers to the process. -/
structure Clean (h : Hive) (pid : ℕ) : Prop where
  budget : ∀ tier, h.system.king.budget.getBudget pid tier = none
  reservation : ∀ r ∈ h.reservations, r.child ≠ pid
  group : h.system.king.cgroups.Ignores pid
  window : h.limiter.windows.get pid = none
  inbox : h.broker.inboxes.get pid = none
  result : h.system.king.results.get pid = none
  trace : h.system.king.traceStore.get pid = none

/-- A scan finds the zombies that are due cleaned up, and nothing is put under the PID of a process
that a scan has removed. -/
def Tidy (h : Hive) : HiveOp → Prop
  | .kernel (.reapZombies now _ _) => ∀ pid p, h.system.king.registry.get pid = some p →
      Registry.TimedOut h.system.king.supervisor.config now p → h.Clean pid
  | .kernel (.setTrace pid _ _) => pid ∉ h.reaped
  | .addProcess _ pid => pid ∉ h.reaped
  | .setLimit pid _ => pid ∉ h.reaped
  | .route _ msg => ∀ sender receiver, h.system.king.registry.get msg.fromPID = some sender →
      h.system.king.registry.get msg.toPID = some receiver → sender.ppid = receiver.ppid →
      sender.ppid ∉ h.reaped
  | .getInbox pid => pid ∉ h.reaped
  | _ => True

instance (h : Hive) (pid : ℕ) : Decidable (h.Clean pid) :=
  decidable_of_iff
    ((h.system.king.budget.getBudget pid .opus = none ∧ h.system.king.budget.getBudget pid .sonnet = none ∧
        h.system.king.budget.getBudget pid .mini = none) ∧
      (∀ r ∈ h.reservations, r.child ≠ pid) ∧
      (h.system.king.cgroups.pidGroup.get pid = none ∧
        ∀ name g, h.system.king.cgroups.groups.get name = some g → pid ∉ g.members) ∧
      h.limiter.windows.get pid = none ∧ h.broker.inboxes.get pid = none ∧
      h.system.king.results.get pid = none ∧ h.system.king.traceStore.get pid = none)
    ⟨fun ⟨⟨opus,sonnet,mini⟩,reservation,group,window,inbox,result,trace⟩ =>
      ⟨fun tier => (by cases tier <;> assumption),reservation,group,window,inbox,result,trace⟩,
      fun c => ⟨⟨c.budget _,c.budget _,c.budget _⟩,c.reservation,c.group,c.window,c.inbox,c.result,c.trace⟩⟩

instance (h : Hive) : DecidablePred h.Tidy
  | .kernel (.reapZombies now _ _) => decidable_of_iff
      (∀ pid p, h.system.king.registry.processes.get pid = some p →
        Registry.TimedOut h.system.king.supervisor.config now p → h.Clean pid) Iff.rfl
  | .kernel (.setTrace pid _ _) => inferInstanceAs (Decidable (pid ∉ h.reaped))
  | .addProcess _ pid => inferInstanceAs (Decidable (pid ∉ h.reaped))
  | .setLimit pid _ => inferInstanceAs (Decidable (pid ∉ h.reaped))
  | .route _ msg => decidable_of_iff
      (∀ sender ∈ h.system.king.registry.get msg.fromPID, ∀ receiver ∈ h.system.king.registry.get msg.toPID,
        sender.ppid = receiver.ppid → sender.ppid ∉ h.reaped)
      ⟨fun hx sender receiver hs hr => hx sender hs receiver hr,
        fun hx sender hs receiver hr => hx sender receiver hs hr⟩
  | .getInbox pid => inferInstanceAs (Decidable (pid ∉ h.reaped))
  | .kernel (.spawnChild ..) | .kernel (.killChild ..) | .kernel (.handleKill ..)
  | .kernel (.requestResources ..) | .kernel (.reportMetric ..) | .kernel (.release ..)
  | .kernel (.releaseAll ..) | .kernel (.waitResult ..) | .kernel (.childExit ..) | .kernel (.restart ..)
  | .kernel (.send ..) | .kernel (.sleep ..) | .kernel (.wake ..) | .kernel (.completeTask ..)
  | .kernel (.cronWake ..) | .clearTrace _ | .createGroup .. | .deleteGroup .. | .removeProcess _
  | .consumeTokens .. | .allow .. | .removeLimit _ | .removeInbox _ => inferInstanceAs (Decidable True)

variable {h h' : Hive} {op : HiveOp} {pid : ℕ}

/-- The PID has been used, and nothing is left of its process. -/
structure Gone (h : Hive) (pid : ℕ) : Prop where
  used : pid < h.system.king.registry.nextPID
  absent : h.system.king.registry.get pid = none
  clean : h.Clean pid

lemma Gone.kernel {op : KernelOp} (hg : h.Gone pid) {s : System} {reaped : Finset ℕ}
    (hs : h.system.step op = some s) (hop : ∀ traceID traceSpan, op ≠ .setTrace pid traceID traceSpan) :
    Gone { h with
      system := s
      reservations := h.system.reservationsAfter h.reservations op
      reaped := reaped } pid := by
  have hne := hg.used.ne
  refine ⟨Nat.lt_of_lt_of_le hg.used (System.nextPID_le_step hs),
    System.absent_step hs hg.absent hg.used,?_⟩
  constructor
  · intro tier
    by_contra hsome
    rcases System.owner_step hs (Option.isSome_iff_ne_none.mpr hsome) with hold | hreg | ⟨rfl,-⟩
    · rw [hg.clean.budget tier] at hold
      cases hold
    · rw [hg.absent] at hreg
      cases hreg
    · exact hne rfl
  · rintro r hr rfl
    rcases System.reservation_step h.system op hr with hr | hreg | hnext
    · exact hg.clean.reservation r hr rfl
    · rw [hg.absent] at hreg
      cases hreg
    · exact hne hnext
  · exact System.ignores_step hs hg.clean.group hne
  · exact hg.clean.window
  · exact hg.clean.inbox
  · exact System.result_step hs hg.clean.result hg.absent
  · exact System.trace_step hs hg.clean.trace hne hop

/-- An operation on the groups. -/
lemma Gone.setGroups (hg : h.Gone pid) {cgroups : CGroupManager} (hi : cgroups.Ignores pid) :
    (h.setGroups cgroups).Gone pid where
  used := hg.used
  absent := hg.absent
  clean := { hg.clean with group := hi }

lemma Gone.kept (hg : h.Gone pid) {outcome : Except String CGroupManager}
    (hok : ∀ m, outcome = .ok m → m.Ignores pid) : (h.system.king.cgroups.kept outcome).Ignores pid := by
  cases outcome with
  | error e => exact hg.clean.group
  | ok m => exact hok m rfl

/-- Of a process that a scan has removed, nothing comes back. -/
theorem gone_step (hg : h.Gone pid) (hr : pid ∈ h.reaped) (ht : h.Tidy op) (hs : h.step op = some h') :
    h'.Gone pid := by
  cases op with
  | kernel op =>
    obtain ⟨s,hstep,rfl⟩ := Option.map_eq_some_iff.mp hs
    apply hg.kernel hstep
    rintro traceID traceSpan rfl
    exact ht hr
  | clearTrace j =>
    cases hs
    exact ⟨hg.used,hg.absent,{ hg.clean with trace := Table.get_erase_none j hg.clean.trace }⟩
  | createGroup order name rootPID maxTokens maxProcs =>
    obtain ⟨o,ho,rfl⟩ := Option.map_eq_some_iff.mp hs
    apply hg.setGroups
    apply hg.kept
    intro m hm
    cases o with
    | error e => cases hm
    | ok made =>
      cases hm
      exact hg.clean.group.create hg.absent ho
  | deleteGroup order name =>
    cases hs
    exact hg.setGroups (hg.kept (fun m hm => hg.clean.group.delete hm))
  | addProcess name j =>
    cases hs
    have hne : pid ≠ j := by
      rintro rfl
      exact ht hr
    exact hg.setGroups (hg.kept (fun m hm => hg.clean.group.addProcess hne hm))
  | removeProcess j =>
    cases hs
    exact hg.setGroups (hg.clean.group.removeProcess j)
  | consumeTokens j tokens =>
    cases hs
    exact hg.setGroups (hg.kept (fun m hm => hg.clean.group.consumeTokens hm))
  | setLimit j maxPerMin =>
    cases hs
    have hne : pid ≠ j := by
      rintro rfl
      exact ht hr
    exact ⟨hg.used,hg.absent,{ hg.clean with window := (Table.get_set_of_ne hne).trans hg.clean.window }⟩
  | allow j now =>
    cases hs
    exact ⟨hg.used,hg.absent,{ hg.clean with window := RateLimiter.window_of_allowAt hg.clean.window }⟩
  | removeLimit j =>
    cases hs
    exact ⟨hg.used,hg.absent,{ hg.clean with window := Table.get_erase_none j hg.clean.window }⟩
  | route now msg =>
    obtain ⟨⟨result,broker⟩,hroute,rfl⟩ := Option.map_eq_some_iff.mp hs
    refine ⟨hg.used,hg.absent,{ hg.clean with inbox := ?_ }⟩
    by_contra hopen
    obtain ⟨sender,receiver,hsender,hreceiver,heq | ⟨heq,hsib⟩⟩ :=
      Broker.inbox_opened_by_route hroute hg.clean.inbox (Option.isSome_iff_ne_none.mpr hopen)
    · rw [← heq,hg.absent] at hreceiver
      cases hreceiver
    · exact ht sender receiver hsender hreceiver hsib (heq ▸ hr)
  | getInbox j =>
    cases hs
    have hne : pid ≠ j := by
      rintro rfl
      exact ht hr
    exact ⟨hg.used,hg.absent,{ hg.clean with inbox := (Table.get_set_of_ne hne).trans hg.clean.inbox }⟩
  | removeInbox j =>
    cases hs
    exact ⟨hg.used,hg.absent,{ hg.clean with inbox := Table.get_erase_none j hg.clean.inbox }⟩

/-- What every step keeps, whether it is tidy or not. -/
structure Sound (h : Hive) : Prop where
  system : h.system.Sound
  timeout : 0 ≤ h.system.king.supervisor.config.zombieTimeout
  covered : Covered h.reservations h.system.king.budget

theorem sound_step (hs : h.Sound) (hstep : h.step op = some h') : h'.Sound := by
  cases op with
  | kernel op =>
    obtain ⟨s,hop,rfl⟩ := Option.map_eq_some_iff.mp hstep
    refine ⟨hs.system.step hop,?_,System.covered_step hs.system hs.covered hop⟩
    rw [System.config_step hop]
    exact hs.timeout
  | createGroup order name rootPID maxTokens maxProcs =>
    obtain ⟨o,-,rfl⟩ := Option.map_eq_some_iff.mp hstep
    exact ⟨⟨hs.system.solvent,hs.system.known⟩,hs.timeout,hs.covered⟩
  | route now msg =>
    obtain ⟨o,-,rfl⟩ := Option.map_eq_some_iff.mp hstep
    exact ⟨hs.system,hs.timeout,hs.covered⟩
  | _ =>
    cases hstep
    exact ⟨⟨hs.system.solvent,hs.system.known⟩,hs.timeout,hs.covered⟩

lemma sound_boot (cfg : Config) (now : ℤ) (runtime : Option RuntimeManager) :
    (boot cfg now runtime).Sound := by
  refine ⟨System.sound_boot cfg now runtime,?_,?_⟩
  · change 0 ≤ defaultSupervisorConfig.zombieTimeout
    decide
  · intro k tier e he
    have hget := King.getBudget_new cfg now runtime k tier
    rw [show (King.new cfg now runtime).budget.getBudget k tier = some e from he] at hget
    split_ifs at hget
    cases hget
    exact Nat.zero_le _

/-- What a scan takes out of the table was due, and had been cleaned up. -/
lemma gone_of_reapedBy {op : KernelOp} {s : System} (hsound : h.Sound) (ht : h.Tidy (.kernel op))
    (hs : h.system.step op = some s) {reaped : Finset ℕ} (hpid : pid ∈ reapedBy s op) :
    Gone { h with
      system := s
      reservations := h.system.reservationsAfter h.reservations op
      reaped := reaped } pid := by
  cases op with
  | reapZombies now order childOrder =>
    have hbooks := System.sameBooks_step hs not_false
    simp only [System.step] at hs
    split_ifs at hs with he
    cases hs
    simp only [reapedBy,List.mem_toFinset,List.mem_filter,Option.isNone_iff_eq_none] at hpid
    obtain ⟨hin,hnone⟩ := hpid
    obtain ⟨p,hp⟩ := Option.isSome_iff_exists.mp ((he.1.mem_iff pid).mp hin)
    have hdue : Registry.TimedOut h.system.king.supervisor.config now p := by
      by_contra hnot
      have hstay := System.isSome_reapZombies he.2 hsound.timeout hp hnot
      rw [show (h.system.king.registry.reapZombies _ now order childOrder).get pid = none from hnone] at hstay
      cases hstay
    have hclean := ht pid p hp hdue
    refine ⟨?_,hnone,?_⟩
    · change pid < (h.system.king.reapZombies now order childOrder).registry.nextPID
      rw [hbooks.nextPID]
      exact (Registry.get_bound hp).2
    · exact ⟨hclean.budget,hclean.reservation,hclean.group,hclean.window,hclean.inbox,hclean.result,
        hclean.trace⟩
  | _ => cases hpid

/-- Nothing is left of the processes that the scans have removed. -/
def Swept (h : Hive) : Prop := ∀ pid ∈ h.reaped, h.Gone pid

theorem swept_step (hsound : h.Sound) (hw : h.Swept) (ht : h.Tidy op) (hs : h.step op = some h') :
    h'.Swept := by
  intro pid hpid
  by_cases hold : pid ∈ h.reaped
  · exact gone_step (hw pid hold) hold ht hs
  cases op with
  | kernel op =>
    obtain ⟨s,hop,rfl⟩ := Option.map_eq_some_iff.mp hs
    rcases Finset.mem_union.mp hpid with hpid | hpid
    · exact absurd hpid hold
    · exact gone_of_reapedBy hsound ht hop hpid
  | createGroup order name rootPID maxTokens maxProcs =>
    obtain ⟨o,-,rfl⟩ := Option.map_eq_some_iff.mp hs
    exact absurd hpid hold
  | route now msg =>
    obtain ⟨o,-,rfl⟩ := Option.map_eq_some_iff.mp hs
    exact absurd hpid hold
  | _ =>
    cases hs
    exact absurd hpid hold

/-- If every scan finds the zombies that are due cleaned up and nobody writes under the PID of a removed
process, nothing refers to a removed process in any state. What an entry has reserved is reserved for
processes that have not been removed. -/
theorem clean_of_run {cfg : Config} {now : ℤ} {runtime : Option RuntimeManager}
    {trace : List (Transition Hive HiveOp)} (run : Run step (boot cfg now runtime) trace h)
    (htidy : ∀ e ∈ trace, e.source.Tidy e.label) :
    ∀ e ∈ trace, (∀ pid ∈ e.target.reaped, e.target.Clean pid) ∧
      Covered e.target.reservations e.target.system.king.budget := by
  have hinv := (run.invariant_of_allowed
    (fun h op h' (hi : h.Sound ∧ h.Swept) (ha : h.Tidy op) hs =>
      ⟨sound_step hi.1 hs,swept_step hi.1 hi.2 ha hs⟩)
    ⟨sound_boot cfg now runtime,fun pid hpid => (by cases hpid)⟩ htidy).1
  intro e he
  obtain ⟨⟨hsound,hswept⟩,hstep⟩ := hinv e he
  exact ⟨fun pid hpid => (swept_step hsound hswept (htidy e he) hstep pid hpid).clean,
    (sound_step hsound hstep).covered⟩

/-- An agent with a budget. -/
def spawnLeo : HiveOp := .kernel (.spawnChild 0 (.ok "") (System.fundedRequest 1 "leo" 50))

/-- A scan over the king and the agent, long after everything else. -/
def lateScan : HiveOp := .kernel (.reapZombies 1000000000000 [1,2] (fun _ => [1,2]))

/-- The agent leaves something everywhere, and all of it is cleaned up before the scan. -/
theorem clean_of_run_cleanedUp : ∃ trace h, Run step (boot King.exampleConfig 0 none) trace h ∧
    h.reaped = {2} ∧ ∀ e ∈ trace, ∀ pid ∈ e.target.reaped, e.target.Clean pid := by
  let ops : List HiveOp := [spawnLeo,.kernel (.setTrace 2 "trace" "span"),
    .route 0 { fromPID := 1, toPID := 2, type := "hello" },.setLimit 2 10,
    .createGroup (fun _ => [1,2]) "grp" 2 100 5,.kernel (.completeTask 0 2 0 [] ""),
    .kernel (.waitResult 2),.kernel (.releaseAll 2),.clearTrace 2,.removeInbox 2,.removeLimit 2,
    .removeProcess 2,lateScan]
  obtain ⟨h,hh,hreaped⟩ : ∃ h, exec step ops (boot King.exampleConfig 0 none) = some h ∧ h.reaped = {2} :=
    ⟨_,rfl,by decide⟩
  exact ⟨_,h,Run.of_exec hh,hreaped,fun e he => (clean_of_run (Run.of_exec hh) (by decide) e he).1⟩

/-- A killed agent is reaped with its budget still there. -/
theorem reaped_agent_keeps_budget :
    ¬ ∀ (cfg : Config) (now : ℤ) (runtime : Option RuntimeManager) (trace : List (Transition Hive HiveOp))
      (h : Hive), Run step (boot cfg now runtime) trace h → ∀ pid ∈ h.reaped, h.Clean pid := by
  intro hall
  obtain ⟨h,hh,hreaped,hbudget⟩ : ∃ h,
      exec step [spawnLeo,.kernel (.killChild 0 (fun _ => [1,2]) (some ["1"]) 2 false),lateScan]
        (boot King.exampleConfig 0 none) = some h ∧
      2 ∈ h.reaped ∧ h.system.king.budget.getBudget 2 .sonnet ≠ none := ⟨_,rfl,by decide,by decide⟩
  exact hbudget ((hall _ _ _ _ h (Run.of_exec hh) 2 hreaped).budget .sonnet)

end Hive
end HiveKernel
