import HiveKernel.Cluster.Migration
import Mathlib.Tactic.IntervalCases

/-! Where a branch ends up. A migration that is undone writes one node, that of the root, to every
process of the branch, and makes the source online. One that is completed counts with the snapshots. -/
namespace HiveKernel
open Lib

namespace Registry
variable {r r' : Registry} {now : ℤ} {vps : String}

lemma moveProcess_ok {pid : ℕ} (h : r.moveProcess now vps pid = .ok r') :
    (r.get pid).isSome ∧ r'.nextPID = r.nextPID ∧
      ∀ k, r'.get k = if k = pid then (r.get k).map (place now vps) else r.get k := by
  unfold moveProcess at h
  cases hp : r.get pid with
  | none => simp [hp] at h
  | some p =>
    simp only [hp,Except.ok.injEq] at h
    subst h
    refine ⟨rfl,by rw [update,nextPID_modify],fun k => ?_⟩
    rw [get_update]
    rfl

lemma nextPID_restoreProcesses (r : Registry) (now : ℤ) (vps : String) (pids : List ℕ) :
    (r.restoreProcesses now vps pids).nextPID = r.nextPID := by
  induction pids generalizing r with
  | nil => rfl
  | cons pid pids ih =>
    exact (ih _).trans (nextPID_modify _ _ _ _ _)

lemma get_restoreProcesses (r : Registry) (now : ℤ) (vps : String) (pids : List ℕ) (k : ℕ) :
    (r.restoreProcesses now vps pids).get k = if k ∈ pids then (r.get k).map (place now vps) else r.get k := by
  induction pids generalizing r with
  | nil => rfl
  | cons pid pids ih =>
    refine (ih _).trans ?_
    rw [get_update]
    by_cases hk : k = pid
    · subst hk
      rw [if_pos rfl,if_pos List.mem_cons_self]
      cases r.get k with
      | none => simp
      | some p => simp [place]
    · simp [hk]

/-- The loop touches no other process, and what it has moved can be put back. -/
lemma moveProcesses_frame (now : ℤ) (vps : String) (pids : List ℕ) (r : Registry) (k : ℕ) :
    (k ∉ pids → (moveProcesses now vps pids r).2.get k = r.get k) ∧ ∀ home : String,
      ((moveProcesses now vps pids r).2.get k).map (place now home) = (r.get k).map (place now home) := by
  induction pids generalizing r with
  | nil => exact ⟨fun _ => rfl,fun _ => rfl⟩
  | cons pid pids ih =>
    rw [moveProcesses]
    cases hmove : r.moveProcess now vps pid with
    | error e => exact ⟨fun _ => rfl,fun _ => rfl⟩
    | ok r' =>
      obtain ⟨-,-,hget⟩ := moveProcess_ok hmove
      obtain ⟨hother,hplace⟩ := ih r'
      constructor
      · intro hk
        rw [List.mem_cons,not_or] at hk
        rw [hother hk.2,hget,if_neg hk.1]
      · intro home
        rw [hplace,hget]
        split_ifs
        · rw [Option.map_map]
          rfl
        · rfl

/-- Without an error every process was there and is moved. -/
lemma moveProcesses_done {pids : List ℕ} (h : (moveProcesses now vps pids r).1 = none) {k : ℕ} (hk : k ∈ pids) :
    ∃ p, r.get k = some p ∧ (moveProcesses now vps pids r).2.get k = some (place now vps p) := by
  induction pids generalizing r with
  | nil => cases hk
  | cons pid pids ih =>
    rw [moveProcesses] at h ⊢
    cases hmove : r.moveProcess now vps pid with
    | error e => simp [hmove] at h
    | ok r' =>
      simp only [hmove] at h ⊢
      obtain ⟨hsome,-,hget⟩ := moveProcess_ok hmove
      by_cases hrest : k ∈ pids
      · obtain ⟨q,hq,hfinal⟩ := ih h hrest
        rw [hget] at hq
        split_ifs at hq
        · obtain ⟨p,hp,rfl⟩ := Option.map_eq_some_iff.mp hq
          exact ⟨p,hp,hfinal⟩
        · exact ⟨q,hq,hfinal⟩
      · obtain rfl : k = pid := (List.mem_cons.mp hk).resolve_right hrest
        obtain ⟨p,hp⟩ := Option.isSome_iff_exists.mp hsome
        refine ⟨p,hp,?_⟩
        rw [(moveProcesses_frame now vps pids r' k).1 hrest,hget,if_pos rfl,hp]
        rfl

end Registry

namespace NodeRegistry
variable {r : NodeRegistry}

def withStatus (status : NodeStatus) (n : NodeInfo) : NodeInfo := { n with status := status }

lemma get_trySetStatus (r : NodeRegistry) (nodeID : String) (status : NodeStatus) (k : String) :
    (r.trySetStatus nodeID status).get k =
      if k = nodeID then (r.get k).map (withStatus status) else r.get k := by
  unfold trySetStatus
  cases h : r.setStatus nodeID status with
  | ok r' => exact get_modify (f := withStatus status) (fun _ => rfl) h k
  | error e =>
    split_ifs with hk
    · subst hk
      unfold setStatus modify at h
      cases hn : r.get k with
      | none => rfl
      | some n => simp [hn] at h
    · rfl

lemma get_tryModify (r : NodeRegistry) (nodeID : String) {f : NodeInfo → NodeInfo} (hid : ∀ n, (f n).id = n.id)
    (k : String) : (r.tryModify nodeID f).get k = if k = nodeID then (r.get k).map f else r.get k := by
  unfold tryModify
  cases hn : r.get nodeID with
  | none =>
    split_ifs with hk
    · rw [hk,hn]
      rfl
    · rfl
  | some n =>
    simp only [get_put,hid,get_id hn]
    split_ifs with hk
    · rw [hk,hn]
      rfl
    · rfl

/-- The sum over all nodes. -/
def processCounts (r : NodeRegistry) : ℤ := r.nodes.sum (fun _ n => n.processCount)

lemma processCounts_put {n m : NodeInfo} (h : r.get m.id = some n) :
    (r.put m).processCounts = r.processCounts-n.processCount+m.processCount := by
  have hsum := Table.sum_set_of_some r.nodes h m (fun _ n => n.processCount)
  change (r.put m).processCounts+n.processCount = r.processCounts+m.processCount at hsum
  omega

lemma processCounts_tryModify (r : NodeRegistry) (nodeID : String) {f : NodeInfo → NodeInfo}
    (hid : ∀ n, (f n).id = n.id) :
    (r.tryModify nodeID f).processCounts = (match r.get nodeID with
      | none => r.processCounts
      | some n => r.processCounts-n.processCount+(f n).processCount : ℤ) := by
  unfold tryModify
  cases hn : r.get nodeID with
  | none => rfl
  | some n =>
    apply processCounts_put
    rw [hid,get_id hn]
    exact hn

lemma lose_id (count : ℤ) (n : NodeInfo) : (lose count n).id = n.id := rfl

lemma gain_id (count : ℤ) (n : NodeInfo) : (gain count n).id = n.id := rfl

end NodeRegistry

namespace Cluster
variable {c₀ c₁ c c' : Cluster} {mig : Migration} {before : NodeRegistry}

/-- The root and everything below it. -/
def Branch (r : Registry) (root k : ℕ) : Prop := Relation.ReflTransGen r.ChildOf k root

/-- The snapshots are those of the branch. -/
lemma mem_pids {now : ℤ} {v : c₀.registry.Visits} {rootPID : ℕ} {targetNode : String}
    (hprep : c₀.prepareMigration now v.order rootPID targetNode = some (.ok mig,c₁)) (k : ℕ) :
    k ∈ mig.pids ↔ Branch c₀.registry mig.rootPID k := by
  obtain ⟨root,descendants,hcheck,hdesc,rfl,-⟩ := prepareMigration_ok hprep
  obtain ⟨hroot,-⟩ := checkMigration_ok hcheck
  obtain rfl := Registry.get_pid hroot
  have hpids := Registry.mem_subtree_iff v hdesc k
  rw [Branch,← hpids]
  simp [Migration.pids,snapshotProcess]

/-- The record while the migration runs. -/
def started (now : ℤ) (mig : Migration) : Migration := { mig with state := .inProgress, startedAt := some now }

/-- What a call with that error returns. -/
def returned : Option String → Except String Unit
  | some e => .error e
  | none => .ok ()

/-- What an `ExecuteMigration` does that has found the migration pending. -/
lemma executeMigration_eq {now : ℤ} (hmig : c.migrations.get mig.id = some mig) (hpending : mig.state = .pending)
    {migrationErr : Option String} {registry : Registry}
    (hmoved : Registry.moveProcesses now mig.targetNode mig.pids c.registry = (migrationErr,registry)) :
    c.executeMigration now mig.id =
      (returned migrationErr,Cluster.finishMigration
        { c with
          registry := registry
          nodes := c.nodes.trySetStatus mig.sourceNode .draining
          migrations := c.migrations.set mig.id (started now mig) } now (started now mig) migrationErr) := by
  have hstart : c.startMigration now mig.id =
      .ok (started now mig,{ c with migrations := c.migrations.set mig.id (started now mig) }) := by
    unfold startMigration
    simp [hmig,hpending,started]
  have hpids : Registry.moveProcesses now (started now mig).targetNode (started now mig).pids c.registry =
      (migrationErr,registry) := hmoved
  unfold executeMigration
  simp only [hstart,drainSource,hpids]
  cases migrationErr with
  | none => rfl
  | some e => rfl

/-- A migration is undone: it was executed and a process was gone, or it was rolled back while it ran.
`before` are the nodes as the execution found them. -/
inductive Undone (mig : Migration) (c : Cluster) : NodeRegistry → Cluster → Prop
  | execute {now : ℤ} {e : String} {c' : Cluster} (hmig : c.migrations.get mig.id = some mig)
      (herr : c.executeMigration now mig.id = (.error e,c')) : Undone mig c c.nodes c'
  | rollback {now : ℤ} {c' : Cluster} {running : Migration} (before : NodeRegistry)
      (hmig : c.migrations.get mig.id = some running)
      (hsame : running = { mig with state := running.state, error := running.error, startedAt := running.startedAt })
      (hok : c.rollbackMigration now mig.id = .ok c') : Undone mig c before c'

/-- The state before the migration, as far as the branch and the source go. -/
structure Restored (prepared : Registry) (before : NodeRegistry) (mig : Migration) (c c' : Cluster) : Prop where
  branch : ∀ k p, Branch prepared mig.rootPID k → c'.registry.get k = some p →
    (prepared.get k).map Process.vps = some p.vps
  others : ∀ k, ¬Branch prepared mig.rootPID k → c'.registry.get k = c.registry.get k
  status : ∀ n n', before.get mig.sourceNode = some n → c'.nodes.get mig.sourceNode = some n' →
    n'.status = n.status

/-- Both ways write the source to every process of the branch that is there, and nothing else. -/
lemma Undone.get (h : Undone mig c before c') (hpending : mig.state = .pending) : ∃ now,
    (∀ k, c'.registry.get k = if k ∈ mig.pids then (c.registry.get k).map (Registry.place now mig.sourceNode)
      else c.registry.get k) ∧
    c'.nodes.get mig.sourceNode = (c.nodes.get mig.sourceNode).map (NodeRegistry.withStatus .online) := by
  cases h with
  | @execute now e _ hmig herr =>
    refine ⟨now,?_⟩
    rcases hmoved : Registry.moveProcesses now mig.targetNode mig.pids c.registry with ⟨migrationErr,registry⟩
    rw [executeMigration_eq hmig hpending hmoved] at herr
    cases migrationErr with
    | none => cases herr
    | some e =>
      obtain ⟨-,rfl⟩ := Prod.mk.inj herr
      constructor
      · intro k
        have hframe := Registry.moveProcesses_frame now mig.targetNode mig.pids c.registry k
        rw [hmoved] at hframe
        refine (Registry.get_restoreProcesses _ _ _ _ k).trans ?_
        change (if k ∈ mig.pids then _ else _) = _
        split_ifs with hk
        · exact hframe.2 mig.sourceNode
        · exact hframe.1 hk
      · refine (NodeRegistry.get_trySetStatus _ _ _ _).trans ?_
        change (if mig.sourceNode = mig.sourceNode then _ else _) = _
        rw [if_pos rfl]
        change ((c.nodes.trySetStatus mig.sourceNode .draining).get mig.sourceNode).map _ = _
        rw [NodeRegistry.get_trySetStatus,if_pos rfl,Option.map_map]
        rfl
  | @rollback now _ running _ hmig hsame hok =>
    refine ⟨now,?_⟩
    unfold rollbackMigration at hok
    simp only [hmig] at hok
    split_ifs at hok
    cases hok
    have hpids : running.pids = mig.pids := by rw [hsame]; rfl
    have hsource : running.sourceNode = mig.sourceNode := by rw [hsame]
    constructor
    · intro k
      rw [← hpids,← hsource]
      exact Registry.get_restoreProcesses _ _ _ _ k
    · rw [← hsource]
      refine (NodeRegistry.get_trySetStatus _ _ _ _).trans ?_
      rw [if_pos rfl]

/-- A migration that is undone leaves the state it found exactly if the branch, as far as it is still there, was on
one node when it was prepared, and the source, if it is still there, was online before. -/
theorem restored_iff_of_undone {now : ℤ} {v : c₀.registry.Visits} {rootPID : ℕ} {targetNode : String}
    (hprep : c₀.prepareMigration now v.order rootPID targetNode = some (.ok mig,c₁))
    (h : Undone mig c before c') :
    Restored c₀.registry before mig c c' ↔
      (∀ k, Branch c₀.registry rootPID k → (c.registry.get k).isSome →
        (c₀.registry.get k).map Process.vps = (c₀.registry.get rootPID).map Process.vps) ∧
      ∀ n, before.get mig.sourceNode = some n → (c.nodes.get mig.sourceNode).isSome → n.status = .online := by
  have hmem := mem_pids hprep
  obtain ⟨root,descendants,hcheck,hdesc,hmig,-⟩ := prepareMigration_ok hprep
  obtain ⟨hroot,-⟩ := checkMigration_ok hcheck
  have hpid : mig.rootPID = rootPID := by rw [hmig]
  have hsource : (c₀.registry.get rootPID).map Process.vps = some mig.sourceNode := by
    rw [hroot,hmig]
    rfl
  obtain ⟨t,hget,hnode⟩ := h.get (by rw [hmig])
  rw [hpid] at hmem
  rw [hsource]
  constructor
  · intro hr
    constructor
    · intro k hk hsome
      obtain ⟨p,hp⟩ := Option.isSome_iff_exists.mp hsome
      have hp' : c'.registry.get k = some (Registry.place t mig.sourceNode p) := by
        rw [hget,if_pos ((hmem k).mpr hk),hp]
        rfl
      rw [hr.branch k _ (hpid ▸ hk) hp']
      rfl
    · intro n hn hsome
      obtain ⟨n',hn'⟩ := Option.isSome_iff_exists.mp hsome
      rw [hn'] at hnode
      exact (hr.status n _ hn hnode).symm
  · rintro ⟨hbranch,hstatus⟩
    constructor
    · intro k p hk hp
      rw [hpid] at hk
      rw [hget,if_pos ((hmem k).mpr hk)] at hp
      obtain ⟨q,hq,rfl⟩ := Option.map_eq_some_iff.mp hp
      exact hbranch k hk (by simp [hq])
    · intro k hk
      rw [hpid] at hk
      rw [hget,if_neg (fun hin => hk ((hmem k).mp hin))]
    · intro n n' hn hn'
      rw [hnode] at hn'
      obtain ⟨m,hm,rfl⟩ := Option.map_eq_some_iff.mp hn'
      exact (hstatus n hn (by simp [hm])).symm

/-- A lead on the first node with two workers, the first of them on a node of its own choice. -/
def leadWithWorkers (vps : String) : Registry :=
  let worker := Registry.child { Registry.agentRequest 2 "worker" .worker with vps := vps }
  let lead := Registry.child (Registry.agentRequest 1 "lead" .lead)
  let r := Registry.boot 0 "king" "root" "vps1"
  let r := r.register 0 (lead (r.get 1))
  let r := r.register 0 (worker (r.get 2))
  r.register 0 (Registry.child (Registry.agentRequest 2 "helper" .worker) (r.get 2))

def threeNodes (status : NodeStatus) : NodeRegistry :=
  ((NodeRegistry.new.put { id := "vps1", memoryMB := 1000, processCount := 4, status := status }).put
    { id := "vps2", memoryMB := 1000 }).put { id := "vps3", memoryMB := 1000 }

def visitsOf (vps : String) : (leadWithWorkers vps).Visits where
  order _ := [1,2,3,4]
  enumerates _ := by
    change List.Perm [1,2,3,4] [4,3,2,1]
    decide

/-- The lead is to move to the third node, and the second worker exits before it does. -/
def prepared (vps : String) : Option (Except String Migration × Cluster) :=
  (new (leadWithWorkers vps) (threeNodes .online)).prepareMigration 0 (visitsOf vps).order 2 "vps3"

def exited (c : Cluster) : Cluster := { c with registry := c.registry.remove 4 }

lemma vps_leadWithWorkers {k : ℕ} (h : ((leadWithWorkers "vps1").get k).isSome) :
    ((leadWithWorkers "vps1").get k).map Process.vps = some "vps1" := by
  obtain ⟨p,hp⟩ := Option.isSome_iff_exists.mp h
  have hlt : 0 < k ∧ k < 5 := Registry.get_bound hp
  obtain ⟨hpos,hlt⟩ := hlt
  interval_cases k <;> rfl

theorem restored_iff_of_undone_exit : ∃ mig c₁ c',
    prepared "vps1" = some (.ok mig,c₁) ∧ Undone mig (exited c₁) (exited c₁).nodes c' ∧
    (c'.registry.get 3).isSome ∧
    Restored (leadWithWorkers "vps1") (exited c₁).nodes mig (exited c₁) c' := by
  obtain ⟨mig,c₁,e,c',hprep,hmig,herr,hthere,hregistry,honline⟩ : ∃ mig c₁ e c',
      prepared "vps1" = some (.ok mig,c₁) ∧ (exited c₁).migrations.get mig.id = some mig ∧
      (exited c₁).executeMigration 1 mig.id = (.error e,c') ∧ (c'.registry.get 3).isSome ∧
      c₁.registry = leadWithWorkers "vps1" ∧
      ((exited c₁).nodes.get mig.sourceNode).map NodeInfo.status = some .online :=
    ⟨_,_,_,_,rfl,rfl,rfl,rfl,rfl,rfl⟩
  have hundone := Undone.execute hmig herr
  refine ⟨mig,c₁,c',hprep,hundone,hthere,(restored_iff_of_undone hprep hundone).mpr ⟨?_,?_⟩⟩
  · intro k _ hsome
    apply vps_leadWithWorkers
    rw [exited,Registry.get_remove,hregistry] at hsome
    split_ifs at hsome
    · cases hsome
    · exact hsome
  · intro n hn _
    rw [hn] at honline
    exact Option.some.inj honline

/-- With the first worker on another node, that worker is put on the node of the lead. -/
theorem rollback_moves_worker : ¬∀ (c₀ c₁ c c' : Cluster) (now : ℤ) (v : c₀.registry.Visits) (rootPID : ℕ)
    (targetNode : String) (mig : Migration) (before : NodeRegistry),
    c₀.prepareMigration now v.order rootPID targetNode = some (.ok mig,c₁) → Undone mig c before c' →
    Restored c₀.registry before mig c c' := by
  intro h
  obtain ⟨mig,c₁,e,c',hprep,hmig,herr,hroot,hbefore,hafter⟩ : ∃ mig c₁ e c',
      prepared "vps2" = some (.ok mig,c₁) ∧ (exited c₁).migrations.get mig.id = some mig ∧
      (exited c₁).executeMigration 1 mig.id = (.error e,c') ∧ mig.rootPID = 2 ∧
      ((leadWithWorkers "vps2").get 3).map Process.vps = some "vps2" ∧
      (c'.registry.get 3).map Process.vps = some "vps1" :=
    ⟨_,_,_,_,rfl,rfl,rfl,rfl,rfl,rfl⟩
  have hrestored := h _ _ _ _ _ _ _ _ _ _ hprep (.execute hmig herr)
  obtain ⟨p,hp,hvps⟩ := Option.map_eq_some_iff.mp hafter
  have hbranch : Branch (leadWithWorkers "vps2") mig.rootPID 3 := by
    rw [hroot]
    exact .single ⟨_,rfl,by decide⟩
  have hsame := hrestored.branch 3 p hbranch hp
  rw [show (new (leadWithWorkers "vps2") (threeNodes .online)).registry = leadWithWorkers "vps2" from rfl,
    hbefore,hvps] at hsame
  exact absurd hsame (by decide)

/-- The counts that the finish leaves. -/
def countAfter (mig : Migration) (id : String) (n : NodeInfo) : ℤ :=
  if id = mig.sourceNode then max (n.processCount-mig.processes.length) 0
  else if id = mig.targetNode then n.processCount+mig.processes.length
  else n.processCount

/-- When the sum over the nodes stays the same. -/
def CountsBalance (count : ℤ) : Option NodeInfo → Option NodeInfo → Prop
  | some source,some _ => count ≤ source.processCount
  | some source,none => source.processCount = 0
  | none,some _ => False
  | none,none => True

lemma lose_processCount (count : ℤ) (n : NodeInfo) :
    (NodeRegistry.lose count n).processCount = max (n.processCount-count) 0 := by
  simp only [NodeRegistry.lose]
  split_ifs <;> omega

/-- What is left of a call that returned nil. -/
lemma executeMigration_ok {now : ℤ} (hmig : c.migrations.get mig.id = some mig) (hpending : mig.state = .pending)
    (hok : c.executeMigration now mig.id = (.ok (),c')) :
    (Registry.moveProcesses now mig.targetNode mig.pids c.registry).1 = none ∧
      c'.registry = (Registry.moveProcesses now mig.targetNode mig.pids c.registry).2 ∧
      c'.nodes = ((c.nodes.trySetStatus mig.sourceNode .draining).tryModify mig.sourceNode
        (NodeRegistry.lose mig.processes.length)).tryModify mig.targetNode
        (NodeRegistry.gain mig.processes.length) := by
  rcases hmoved : Registry.moveProcesses now mig.targetNode mig.pids c.registry with ⟨migrationErr,registry⟩
  rw [executeMigration_eq hmig hpending hmoved] at hok
  cases migrationErr with
  | some e => cases hok
  | none =>
    obtain ⟨-,rfl⟩ := Prod.mk.inj hok
    exact ⟨rfl,rfl,rfl⟩

lemma processCounts_trySetStatus (r : NodeRegistry) (nodeID : String) (status : NodeStatus) :
    (r.trySetStatus nodeID status).processCounts = r.processCounts := by
  have h := NodeRegistry.processCounts_tryModify r nodeID (f := NodeRegistry.withStatus status) (fun _ => rfl)
  unfold NodeRegistry.trySetStatus NodeRegistry.setStatus NodeRegistry.modify
  unfold NodeRegistry.tryModify at h
  cases hn : r.get nodeID with
  | none => rfl
  | some n =>
    simp only [hn,NodeRegistry.withStatus] at h
    refine h.trans ?_
    omega

/-- A completed migration has moved every process that was in the branch when it was prepared, whatever happened
to the process table in between. The counts of the two nodes, where they are registered, change by the size of
the branch, but not below zero. -/
theorem branch_on_target_of_completed {now t : ℤ} {v : c₀.registry.Visits} {rootPID : ℕ} {targetNode : String}
    (hprep : c₀.prepareMigration t v.order rootPID targetNode = some (.ok mig,c₁))
    (hmig : c.migrations.get mig.id = some mig) (hok : c.executeMigration now mig.id = (.ok (),c')) :
    (∀ k, Branch c₀.registry rootPID k → ∃ p, c'.registry.get k = some p ∧ p.vps = targetNode) ∧
    (∀ id, (c'.nodes.get id).map NodeInfo.processCount = (c.nodes.get id).map (countAfter mig id)) ∧
    (c'.nodes.processCounts = c.nodes.processCounts ↔
      CountsBalance mig.processes.length (c.nodes.get mig.sourceNode) (c.nodes.get mig.targetNode)) := by
  have hmem := mem_pids hprep
  obtain ⟨root,descendants,hcheck,-,hrecord,-⟩ := prepareMigration_ok hprep
  obtain ⟨-,-,hne,-⟩ := checkMigration_ok hcheck
  have hpid : mig.rootPID = rootPID := by rw [hrecord]
  have htarget : mig.targetNode = targetNode := by rw [hrecord]
  have hsource : mig.targetNode ≠ mig.sourceNode := by
    rw [hrecord]
    exact hne.symm
  have hsize : 0 < mig.processes.length := by
    rw [hrecord]
    simp
  obtain ⟨hdone,hregistry,hnodes⟩ := executeMigration_ok hmig (by rw [hrecord]) hok
  rw [hpid] at hmem
  refine ⟨?_,?_,?_⟩
  · intro k hk
    obtain ⟨p,-,hp⟩ := Registry.moveProcesses_done hdone ((hmem k).mpr hk)
    rw [hregistry]
    exact ⟨_,hp,htarget⟩
  · intro id
    rw [hnodes,NodeRegistry.get_tryModify _ _ (NodeRegistry.gain_id _),
      NodeRegistry.get_tryModify _ _ (NodeRegistry.lose_id _),NodeRegistry.get_trySetStatus]
    unfold countAfter
    by_cases hs : id = mig.sourceNode
    · rw [if_neg (by rw [hs]; exact hsource.symm),if_pos hs,if_pos hs,Option.map_map,Option.map_map]
      congr 1
      funext n
      rw [if_pos hs]
      exact lose_processCount _ _
    · rw [if_neg hs,if_neg hs]
      by_cases ht : id = mig.targetNode
      · rw [if_pos ht,Option.map_map]
        congr 1
        funext n
        rw [if_neg hs,if_pos ht]
        rfl
      · rw [if_neg ht]
        congr 1
        funext n
        rw [if_neg hs,if_neg ht]
  · rw [hnodes,NodeRegistry.processCounts_tryModify _ _ (NodeRegistry.gain_id _),
      NodeRegistry.get_tryModify _ _ (NodeRegistry.lose_id _),if_neg hsource,NodeRegistry.get_trySetStatus,
      if_neg hsource,NodeRegistry.processCounts_tryModify _ _ (NodeRegistry.lose_id _),
      NodeRegistry.get_trySetStatus,if_pos rfl,processCounts_trySetStatus]
    have hgain : ∀ n : NodeInfo, (NodeRegistry.gain mig.processes.length n).processCount =
        n.processCount+mig.processes.length := fun _ => rfl
    have hdrain : ∀ n : NodeInfo, (NodeRegistry.withStatus .draining n).processCount = n.processCount := fun _ => rfl
    cases c.nodes.get mig.sourceNode with
    | none =>
      cases c.nodes.get mig.targetNode with
      | none => simp [CountsBalance]
      | some m =>
        simp only [Option.map_none,CountsBalance,hgain,iff_false]
        omega
    | some n =>
      cases c.nodes.get mig.targetNode with
      | none =>
        simp only [Option.map_some,CountsBalance,lose_processCount,hdrain]
        omega
      | some m =>
        simp only [Option.map_some,CountsBalance,lose_processCount,hdrain,hgain]
        omega

/-- The lead moves with both workers, three of the four processes on the first node. -/
theorem branch_on_target_of_completed_lead : ∃ mig c₁ c',
    prepared "vps1" = some (.ok mig,c₁) ∧ c₁.executeMigration 1 mig.id = (.ok (),c') ∧
    (∃ p, c'.registry.get 3 = some p ∧ p.vps = "vps3") ∧
    (c'.nodes.get "vps1").map NodeInfo.processCount = some 1 ∧
    c'.nodes.processCounts = c₁.nodes.processCounts := by
  obtain ⟨mig,c₁,c',hprep,hmig,hok,hbalance,hcount⟩ : ∃ mig c₁ c',
      prepared "vps1" = some (.ok mig,c₁) ∧ c₁.migrations.get mig.id = some mig ∧
      c₁.executeMigration 1 mig.id = (.ok (),c') ∧
      (mig.processes.length,c₁.nodes.get mig.sourceNode,(c₁.nodes.get mig.targetNode).isSome) =
        (3,(threeNodes .online).get "vps1",true) ∧
      (c₁.nodes.get "vps1").map (countAfter mig "vps1") = some 1 :=
    ⟨_,_,_,rfl,rfl,rfl,rfl,rfl⟩
  obtain ⟨hbranch,hcounts,hsum⟩ := branch_on_target_of_completed hprep hmig hok
  refine ⟨mig,c₁,c',hprep,hok,hbranch 3 (.single ⟨_,rfl,by decide⟩),(hcounts "vps1").trans hcount,hsum.mpr ?_⟩
  obtain ⟨hlength,hsource,htarget⟩ : mig.processes.length = 3 ∧ _ ∧ _ := by simpa using hbalance
  obtain ⟨m,hm⟩ := Option.isSome_iff_exists.mp htarget
  rw [hlength,hsource,hm]
  exact (by decide : (3 : ℤ) ≤ 4)

/-- A source that has not reported its processes goes to zero, and the target gains all of them. -/
theorem completed_migration_adds_counts : ¬∀ (c₀ c₁ c c' : Cluster) (now t : ℤ) (v : c₀.registry.Visits)
    (rootPID : ℕ) (targetNode : String) (mig : Migration),
    c₀.prepareMigration t v.order rootPID targetNode = some (.ok mig,c₁) → c.migrations.get mig.id = some mig →
    c.executeMigration now mig.id = (.ok (),c') →
    (∀ k, Branch c'.registry rootPID k → ∃ p, c'.registry.get k = some p ∧ p.vps = targetNode) ∧
      c'.nodes.processCounts = c.nodes.processCounts := by
  intro h
  obtain ⟨mig,c₁,c',hprep,hmig,hok,hbefore,hafter⟩ : ∃ mig c₁ c',
      (new (leadWithWorkers "vps2") ((threeNodes .online).put { id := "vps1", memoryMB := 1000 })).prepareMigration 0
        (visitsOf "vps2").order 2 "vps3" = some (.ok mig,c₁) ∧ c₁.migrations.get mig.id = some mig ∧
      c₁.executeMigration 1 mig.id = (.ok (),c') ∧ c₁.nodes.processCounts = 0 ∧ c'.nodes.processCounts = 3 :=
    ⟨_,_,_,rfl,rfl,rfl,rfl,rfl⟩
  have hsame := (h _ _ _ _ _ _ _ _ _ _ hprep hmig hok).2
  rw [hbefore,hafter] at hsame
  exact absurd hsame (by decide)

end Cluster
end HiveKernel
