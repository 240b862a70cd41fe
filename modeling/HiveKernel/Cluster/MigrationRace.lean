import HiveKernel.Cluster.Placement
import HiveKernel.Lib.Text

/-! Executions and rollbacks at the same time. `ExecuteMigration` holds the lock of the manager at its start
and at its finish, but not while it moves processes. `RollbackMigration` holds it all the time, and is allowed
while an execution is in progress. -/
namespace HiveKernel
open Lib

/-- How far an `ExecuteMigration` has come after its start. -/
inductive ExecuteStage
  | draining
  | moving (rest : List ℕ)
  | failed (e : String)
  deriving DecidableEq, Repr

structure ExecuteCall where
  migrationID : String
  stage : ExecuteStage
  deriving DecidableEq, Repr

/-- A `RollbackMigration` that has the lock. -/
structure RollbackCall where
  migrationID : String
  rest : List ℕ
  deriving DecidableEq, Repr

structure Fleet where
  cluster : Cluster
  calls : Table ℕ ExecuteCall
  rollback : Option RollbackCall

inductive FleetOp
  | tree (op : Registry.TreeOp)
  | reparent (now : ℤ) (pid newParentPID : ℕ)
  | setNodes (nodes : NodeRegistry)
  | prepare (now : ℤ) (order : List ℕ → List ℕ) (rootPID : ℕ) (targetNode : String)
  | start (call : ℕ) (now : ℤ) (id : String)
  | drain (call : ℕ)
  | move (call : ℕ) (now : ℤ)
  | finish (call : ℕ) (now : ℤ)
  | rollback (id : String)
  | restore (now : ℤ)
  | unlock

namespace Fleet

def new (registry : Registry) (nodes : NodeRegistry) : Fleet := ⟨.new registry nodes,.empty,none⟩

def withRegistry (s : Fleet) (registry : Registry) : Fleet :=
  { s with cluster := { s.cluster with registry := registry } }

/-- Anyone may write the process table and the nodes between two steps of a call. A step that needs the lock of
the manager waits for a rollback. -/
def step (s : Fleet) : FleetOp → Option Fleet
  | .tree op => (s.cluster.registry.treeStep op).map s.withRegistry
  | .reparent now pid newParentPID => some (s.withRegistry (s.cluster.registry.tryReparent now pid newParentPID))
  | .setNodes nodes => some { s with cluster := { s.cluster with nodes := nodes } }
  | .prepare now order rootPID targetNode =>
    if s.rollback.isSome then none
    else (s.cluster.prepareMigration now order rootPID targetNode).map fun result => { s with cluster := result.2 }
  | .start call now id =>
    if s.rollback.isSome ∨ (s.calls.get call).isSome then none
    else match s.cluster.startMigration now id with
      | .error _ => some s
      | .ok (_,c) => some { s with cluster := c, calls := s.calls.set call ⟨id,.draining⟩ }
  | .drain call => match s.calls.get call with
    | some ⟨id,.draining⟩ => (s.cluster.migrations.get id).map fun mig =>
      { s with cluster := s.cluster.drainSource mig, calls := s.calls.set call ⟨id,.moving mig.pids⟩ }
    | _ => none
  | .move call now => match s.calls.get call with
    | some ⟨id,.moving (pid::rest)⟩ => (s.cluster.migrations.get id).map fun mig =>
      match s.cluster.registry.moveProcess now mig.targetNode pid with
      | .error e => { s with calls := s.calls.set call ⟨id,.failed e⟩ }
      | .ok registry => { s.withRegistry registry with calls := s.calls.set call ⟨id,.moving rest⟩ }
    | _ => none
  | .finish call now =>
    if s.rollback.isSome then none
    else match s.calls.get call with
      | some ⟨id,.moving []⟩ => (s.cluster.migrations.get id).map fun mig =>
        { s with cluster := s.cluster.finishMigration now mig none, calls := s.calls.erase call }
      | some ⟨id,.failed e⟩ => (s.cluster.migrations.get id).map fun mig =>
        { s with cluster := s.cluster.finishMigration now mig (some e), calls := s.calls.erase call }
      | _ => none
  | .rollback id =>
    if s.rollback.isSome then none
    else match s.cluster.migrations.get id with
      | none => some s
      | some mig =>
        if mig.state ≠ .inProgress ∧ mig.state ≠ .failed then some s
        else some { s with rollback := some ⟨id,mig.pids⟩ }
  | .restore now => match s.rollback with
    | some ⟨id,pid::rest⟩ => (s.cluster.migrations.get id).map fun mig =>
      { s.withRegistry (s.cluster.registry.restoreProcesses now mig.sourceNode [pid]) with
        rollback := some ⟨id,rest⟩ }
    | _ => none
  | .unlock => match s.rollback with
    | some ⟨id,[]⟩ => (s.cluster.migrations.get id).map fun mig =>
      { s with
        cluster := { s.cluster with
          migrations := s.cluster.migrations.set id { mig with state := .rolledBack }
          nodes := s.cluster.nodes.trySetStatus mig.sourceNode .online }
        rollback := none }
    | _ => none

section Whole
variable {s : Fleet} {id : String} {mig : Migration} {now : ℤ}

lemma exec_restores (now : ℤ) {pids : List ℕ} (hlock : s.rollback = some ⟨id,pids⟩)
    (hmig : s.cluster.migrations.get id = some mig) :
    exec step (pids.map (fun _ => .restore now)) s =
      some { s.withRegistry (s.cluster.registry.restoreProcesses now mig.sourceNode pids) with
        rollback := some ⟨id,[]⟩ } := by
  induction pids generalizing s with
  | nil =>
    rw [← hlock]
    rfl
  | cons pid pids ih =>
    have hstep : s.step (.restore now) =
        some { s.withRegistry (s.cluster.registry.restoreProcesses now mig.sourceNode [pid]) with
          rollback := some ⟨id,pids⟩ } := by
      simp only [step,hlock,hmig,Option.map_some]
    rw [List.map_cons,exec_cons hstep]
    exact ih rfl hmig

lemma exec_rollback {c : Cluster} (hfree : s.rollback = none) (hmig : s.cluster.migrations.get id = some mig)
    (hid : mig.id = id) (hok : s.cluster.rollbackMigration now id = .ok c) :
    exec step (.rollback id::(mig.pids.map (fun _ => .restore now)++[.unlock])) s = some { s with cluster := c } := by
  unfold Cluster.rollbackMigration at hok
  simp only [hmig] at hok
  split_ifs at hok with hst
  cases hok
  have hlock : s.step (.rollback id) = some { s with rollback := some ⟨id,mig.pids⟩ } := by
    simp only [step,hfree,hmig]
    rw [if_neg hst]
    rfl
  have hrestores := exec_restores (s := { s with rollback := some ⟨id,mig.pids⟩ }) now rfl hmig
  rw [exec_cons hlock,exec_append hrestores]
  simp only [exec,step,withRegistry,hmig,Option.map_some,Option.bind_some,Cluster.restore,hid,hfree]

/-- The loop of an execution ends with its result. -/
lemma exec_moves (now : ℤ) {i : ℕ} {pids : List ℕ} (hcall : s.calls.get i = some ⟨id,.moving pids⟩)
    (hmig : s.cluster.migrations.get id = some mig) : ∃ labels t, exec step labels s = some t ∧
      t.rollback = s.rollback ∧
      t.cluster = { s.cluster with
        registry := (Registry.moveProcesses now mig.targetNode pids s.cluster.registry).2 } ∧
      t.calls.get i = some ⟨id,match (Registry.moveProcesses now mig.targetNode pids s.cluster.registry).1 with
        | none => .moving []
        | some e => .failed e⟩ := by
  induction pids generalizing s with
  | nil => exact ⟨[],s,rfl,rfl,rfl,hcall⟩
  | cons pid pids ih =>
    rw [Registry.moveProcesses]
    cases hmove : s.cluster.registry.moveProcess now mig.targetNode pid with
    | error e =>
      have hstep : s.step (.move i now) = some { s with calls := s.calls.set i ⟨id,.failed e⟩ } := by
        simp only [step,hcall,hmig,hmove,Option.map_some]
      exact ⟨[.move i now],_,exec_cons hstep,rfl,rfl,Table.get_set_self _ _ _⟩
    | ok registry =>
      have hstep : s.step (.move i now) =
          some { s.withRegistry registry with calls := s.calls.set i ⟨id,.moving pids⟩ } := by
        simp only [step,hcall,hmig,hmove,Option.map_some]
      obtain ⟨labels,t,ht,hrest⟩ := ih (s := { s.withRegistry registry with calls := s.calls.set i ⟨id,.moving pids⟩ })
        (Table.get_set_self _ _ _) hmig
      exact ⟨.move i now::labels,t,(exec_cons hstep).trans ht,hrest⟩

/-- An execution that finds its migration pending. -/
lemma exec_execute {i : ℕ} (hfree : s.rollback = none) (hcall : s.calls.get i = none)
    (hmig : s.cluster.migrations.get mig.id = some mig) (hpending : mig.state = .pending) :
    ∃ labels t, exec step labels s = some t ∧ t.cluster = (s.cluster.executeMigration now mig.id).2 := by
  rcases hmoved : Registry.moveProcesses now mig.targetNode mig.pids s.cluster.registry with ⟨migrationErr,registry⟩
  rw [Cluster.executeMigration_eq hmig hpending hmoved]
  let begun : Fleet :=
    { s with
      cluster := { s.cluster with migrations := s.cluster.migrations.set mig.id (Cluster.started now mig) }
      calls := s.calls.set i ⟨mig.id,.draining⟩ }
  have hstart : s.step (.start i now mig.id) = some begun := by
    simp [step,begun,hfree,hcall,Cluster.startMigration,hmig,hpending,Cluster.started]
  have hrecord : begun.cluster.migrations.get mig.id = some (Cluster.started now mig) := Table.get_set_self _ _ _
  let drained : Fleet :=
    { begun with
      cluster := begun.cluster.drainSource (Cluster.started now mig)
      calls := begun.calls.set i ⟨mig.id,.moving mig.pids⟩ }
  have hdrain : begun.step (.drain i) = some drained := by
    have hget : begun.calls.get i = some ⟨mig.id,.draining⟩ := Table.get_set_self _ _ _
    simp only [step,hget,hrecord,Option.map_some]
    rfl
  obtain ⟨labels,t,ht,hlock,hcluster,hend⟩ := exec_moves (s := drained) now (Table.get_set_self _ _ _) hrecord
  have hmoved' : Registry.moveProcesses now (Cluster.started now mig).targetNode mig.pids drained.cluster.registry =
      (migrationErr,registry) := hmoved
  rw [hmoved'] at hcluster hend
  have hlast : t.cluster.migrations.get mig.id = some (Cluster.started now mig) := by
    rw [hcluster]
    exact hrecord
  have hfinish : t.step (.finish i now) = some { t with
      cluster := t.cluster.finishMigration now (Cluster.started now mig) migrationErr
      calls := t.calls.erase i } := by
    have hfree' : t.rollback = none := hlock.trans hfree
    cases migrationErr with
    | none => simp [step,hfree',hend,hlast]
    | some e => simp [step,hfree',hend,hlast]
  refine ⟨.start i now mig.id::.drain i::(labels++[.finish i now]),
    { t with
      cluster := t.cluster.finishMigration now (Cluster.started now mig) migrationErr
      calls := t.calls.erase i },?_,?_⟩
  · rw [exec_cons hstart,exec_cons hdrain,exec_append ht,exec_cons hfinish]
    rfl
  · simp only [hcluster]
    rfl

end Whole
end Fleet

namespace Registry
variable {r r' : Registry}

/-- The processes that are left are where they were. -/
structure KeepsPlaces (r r' : Registry) : Prop where
  nextPID : r.nextPID ≤ r'.nextPID
  vps : ∀ k p', k < r.nextPID → r'.get k = some p' → ∃ p, r.get k = some p ∧ p'.vps = p.vps

lemma KeepsPlaces.refl (r : Registry) : r.KeepsPlaces r := ⟨le_rfl,fun _ p' _ hp' => ⟨p',hp',rfl⟩⟩

lemma KeepsPlaces.trans {r'' : Registry} (h : r.KeepsPlaces r') (h' : r'.KeepsPlaces r'') : r.KeepsPlaces r'' where
  nextPID := h.nextPID.trans h'.nextPID
  vps k p'' hk hp'' := by
    obtain ⟨p',hp',he'⟩ := h'.vps k p'' (hk.trans_le h.nextPID) hp''
    obtain ⟨p,hp,he⟩ := h.vps k p' hk hp'
    exact ⟨p,hp,he'.trans he⟩

lemma keepsPlaces_tryReparent (r : Registry) (now : ℤ) (pid newParentPID : ℕ) :
    r.KeepsPlaces (r.tryReparent now pid newParentPID) where
  nextPID := (nextPID_tryReparent r now pid newParentPID).ge
  vps k p' _ hp' := by
    rw [get_tryReparent] at hp'
    split_ifs at hp'
    · obtain ⟨p,hp,rfl⟩ := Option.map_eq_some_iff.mp hp'
      exact ⟨p,hp,rfl⟩
    · exact ⟨p',hp',rfl⟩

lemma keepsPlaces_reap {now : ℤ} {childOrder : List ℕ} {p : Process}
    (hall : ∀ k, (r.get k).isSome → k ∈ childOrder) : r.KeepsPlaces (r.reap now childOrder p) where
  nextPID := (nextPID_reap r now childOrder p).ge
  vps k p' _ hp' := by
    rw [get_reap hall] at hp'
    split_ifs at hp'
    obtain ⟨q,hq,rfl⟩ := Option.map_eq_some_iff.mp hp'
    refine ⟨q,hq,?_⟩
    unfold adoptedBy
    split_ifs <;> rfl

lemma keepsPlaces_treeStep {op : TreeOp} (h : r.treeStep op = some r') : r.KeepsPlaces r' := by
  cases op with
  | spawn now req =>
    simp only [treeStep] at h
    split_ifs at h with hparent
    split at h
    next p r'' hspawn =>
      cases h
      obtain ⟨parent,-,-,-,-,rfl⟩ := spawn_ok hspawn hparent
      refine ⟨Nat.le_succ _,fun k p' hk hp' => ?_⟩
      rw [get_register,if_neg hk.ne] at hp'
      exact ⟨p',hp',rfl⟩
    next => cases h
  | rollback pid =>
    cases h
    refine ⟨(nextPID_remove r pid).ge,fun k p' _ hp' => ?_⟩
    rw [get_remove] at hp'
    split_ifs at hp'
    exact ⟨p',hp',rfl⟩
  | setState now pid state =>
    cases h
    refine ⟨(nextPID_setState r now pid state).ge,fun k p' _ hp' => ?_⟩
    rw [get_setState] at hp'
    split_ifs at hp'
    · obtain ⟨p,hp,rfl⟩ := Option.map_eq_some_iff.mp hp'
      exact ⟨p,hp,rfl⟩
    · exact ⟨p',hp',rfl⟩
  | reapZombies config now order childOrder =>
    simp only [treeStep] at h
    split_ifs at h with horder
    cases h
    exact reapZombies_induction horder.2 (fun r' => r.KeepsPlaces r') (.refl r)
      (fun r' k p hr' _ _ hall => hr'.trans (keepsPlaces_reap hall))

/-- The process is there only on that node. -/
def On (r : Registry) (vps : String) (k : ℕ) : Prop := ∀ p, r.get k = some p → p.vps = vps

lemma KeepsPlaces.on (h : r.KeepsPlaces r') {vps : String} {k : ℕ} (hk : k < r.nextPID) (hon : r.On vps k) :
    r'.On vps k := by
  intro p' hp'
  obtain ⟨p,hp,he⟩ := h.vps k p' hk hp'
  exact he.trans (hon p hp)

/-- A move to a node takes nobody off it. -/
lemma On.move {now : ℤ} {vps : String} {pid k : ℕ} (h : r.moveProcess now vps pid = .ok r')
    (hon : k = pid ∨ r.On vps k) : r'.On vps k := by
  intro p hp
  obtain ⟨-,-,hget⟩ := moveProcess_ok h
  rw [hget] at hp
  split_ifs at hp with hk
  · obtain ⟨q,-,rfl⟩ := Option.map_eq_some_iff.mp hp
    rfl
  · exact hon.resolve_left hk p hp

lemma on_restoreProcesses (r : Registry) (now : ℤ) (vps : String) {pids : List ℕ} {k : ℕ} (hk : k ∈ pids) :
    (r.restoreProcesses now vps pids).On vps k := by
  intro p hp
  rw [get_restoreProcesses,if_pos hk] at hp
  obtain ⟨q,-,rfl⟩ := Option.map_eq_some_iff.mp hp
  rfl

end Registry

namespace Fleet
variable {s t : Fleet} {id : String} {op : FleetOp}

/-- The record of a migration. -/
def record (s : Fleet) (id : String) : Option Migration := s.cluster.migrations.get id

def stateOf (s : Fleet) (id : String) : Option MigrationState := (s.record id).map Migration.state

/-- No call on that migration is in progress. -/
structure Quiet (id : String) (s : Fleet) : Prop where
  calls : ∀ i call, s.calls.get i = some call → call.migrationID ≠ id
  rollback : ∀ call, s.rollback = some call → call.migrationID ≠ id

/-- Only that migration is executed and rolled back. -/
def Only (id : String) : FleetOp → Prop
  | .start _ _ id' => id' = id
  | .rollback id' => id' = id
  | _ => True

/-- What the two verdicts say. -/
structure Settled (id : String) (e : Transition Fleet FleetOp) : Prop where
  rolledBack : e.source.stateOf id = some .rolledBack → e.target.stateOf id = some .rolledBack
  completed : e.source.stateOf id = some .completed → e.target.stateOf id = some .completed
  onSource : Quiet id e.target → ∀ mig, e.target.record id = some mig → mig.state = .rolledBack →
    ∀ k ∈ mig.pids, e.target.cluster.registry.On mig.sourceNode k
  onTarget : Quiet id e.target → ∀ mig, e.target.record id = some mig → mig.state = .completed →
    ∀ k ∈ mig.pids, e.target.cluster.registry.On mig.targetNode k

/-- An execution that has moved everything finishes while the migration is still in progress. -/
def FinishesRunning (s : Fleet) : FleetOp → Prop
  | .finish i _ => ∀ id, s.calls.get i = some ⟨id,.moving []⟩ → s.stateOf id = some .inProgress
  | _ => True

def Idle (s : Fleet) : Prop := ∀ i, s.calls.get i = none

/-- Where the processes of the branch are, by the state of the migration. -/
def Phase (s : Fleet) (id : String) (mig : Migration) : Prop := match mig.state with
  | .pending => s.Idle
  | .inProgress => ¬s.Idle ∧ (s.rollback = none → ∀ i rest, s.calls.get i = some ⟨id,.moving rest⟩ →
      ∃ done, mig.pids = done++rest ∧ ∀ k ∈ done, s.cluster.registry.On mig.targetNode k)
  | .rolledBack => s.Idle → ∀ k ∈ mig.pids, s.cluster.registry.On mig.sourceNode k
  | .completed => s.Idle ∧ ∀ k ∈ mig.pids, s.cluster.registry.On mig.targetNode k
  | .failed => False

structure Sound (id : String) (s : Fleet) : Prop where
  named : ∀ k mig, s.record k = some mig → mig.id = k ∧ (∃ n ≤ s.cluster.nextID, k = s!"mig-{n}") ∧
    ∀ pid ∈ mig.pids, pid < s.cluster.registry.nextPID
  calls : ∀ i call, s.calls.get i = some call → call.migrationID = id ∧ ∀ j, (s.calls.get j).isSome → j = i
  locked : ∀ call, s.rollback = some call → call.migrationID = id ∧ s.stateOf id = some .inProgress
  absent : s.record id = none → s.Idle
  phase : ∀ mig, s.record id = some mig → s.Phase id mig

lemma Phase.mono {mig : Migration} (h : s.Phase id mig) (hcalls : t.calls = s.calls)
    (hlock : t.rollback = none → s.rollback = none)
    (hon : ∀ vps, ∀ k ∈ mig.pids, s.cluster.registry.On vps k → t.cluster.registry.On vps k) : t.Phase id mig := by
  have hidle : t.Idle ↔ s.Idle := by
    unfold Idle
    rw [hcalls]
  unfold Phase at h ⊢
  cases hst : mig.state with
  | pending =>
    simp only [hst] at h ⊢
    exact hidle.mpr h
  | inProgress =>
    simp only [hst] at h ⊢
    refine ⟨fun hi => h.1 (hidle.mp hi),fun hfree i rest hcall => ?_⟩
    rw [hcalls] at hcall
    obtain ⟨done,hpids,hdone⟩ := h.2 (hlock hfree) i rest hcall
    exact ⟨done,hpids,fun k hk => hon _ k (by simp [hpids,hk]) (hdone k hk)⟩
  | completed =>
    simp only [hst] at h ⊢
    exact ⟨hidle.mpr h.1,fun k hk => hon _ k hk (h.2 k hk)⟩
  | failed =>
    simp only [hst] at h
  | rolledBack =>
    simp only [hst] at h ⊢
    exact fun hi k hk => hon _ k hk (h (hidle.mp hi) k hk)

lemma stateOf_eq {st : MigrationState} : s.stateOf id = some st ↔ ∃ mig, s.record id = some mig ∧ mig.state = st :=
  Option.map_eq_some_iff

lemma Sound.withRegistry (h : Sound id s) {registry : Registry} (hkeeps : s.cluster.registry.KeepsPlaces registry) :
    Sound id (s.withRegistry registry) where
  named k mig hmig := by
    obtain ⟨hid,hname,hbound⟩ := h.named k mig hmig
    exact ⟨hid,hname,fun pid hpid => (hbound pid hpid).trans_le hkeeps.nextPID⟩
  calls := h.calls
  locked := h.locked
  absent := h.absent
  phase mig hmig := by
    refine (h.phase mig hmig).mono ?_ ?_ ?_
    · rfl
    · exact fun hfree => hfree
    · exact fun vps k hk hon => hkeeps.on ((h.named id mig hmig).2.2 k hk) hon

lemma Sound.setNodes (h : Sound id s) (nodes : NodeRegistry) :
    Sound id { s with cluster := { s.cluster with nodes := nodes } } :=
  ⟨h.named,h.calls,h.locked,h.absent,fun mig hmig =>
    (h.phase mig hmig).mono rfl (fun hfree => hfree) (fun _ _ _ hon => hon)⟩

/-- The number of a new migration was not used before. -/
lemma Sound.fresh (h : Sound id s) {k : String} {mig : Migration} (hmig : s.record k = some mig) :
    k ≠ s!"mig-{s.cluster.nextID+1}" := by
  intro he
  obtain ⟨-,⟨n,hn,hname⟩,-⟩ := h.named k mig hmig
  have hsame : "mig-"++toString n = "mig-"++toString (s.cluster.nextID+1) := hname.symm.trans he
  have := append_number_injective hsame
  omega

lemma Sound.prepare (h : Sound id s) (hfree : s.rollback = none) {now : ℤ} {order : List ℕ → List ℕ} {rootPID : ℕ}
    {targetNode : String} {result : Except String Migration} {c : Cluster}
    (hprep : s.cluster.prepareMigration now order rootPID targetNode = some (result,c)) :
    Sound id { s with cluster := c } ∧ ∀ k, (s.record k).isSome → c.migrations.get k = s.record k := by
  cases result with
  | error e =>
    rw [Cluster.prepareMigration_error hprep]
    exact ⟨h,fun _ _ => rfl⟩
  | ok new =>
    obtain ⟨root,descendants,hcheck,hdesc,hnew,rfl⟩ := Cluster.prepareMigration_ok hprep
    obtain ⟨hroot,-⟩ := Cluster.checkMigration_ok hcheck
    have hid : new.id = s!"mig-{s.cluster.nextID+1}" := by rw [hnew]
    have hold : ∀ k, (s.record k).isSome → (s.cluster.migrations.set new.id new).get k = s.record k := by
      intro k hk
      obtain ⟨mig,hmig⟩ := Option.isSome_iff_exists.mp hk
      exact Table.get_set_of_ne (by rw [hid]; exact h.fresh hmig)
    have hbound : ∀ pid ∈ new.pids, pid < s.cluster.registry.nextPID := by
      intro pid hpid
      rw [hnew,Migration.pids,List.map_map] at hpid
      obtain ⟨p,hp,rfl⟩ := List.mem_map.mp hpid
      rcases List.mem_cons.mp hp with rfl | hp
      · rw [← Registry.get_pid hroot] at hroot
        exact (Registry.get_bound hroot).2
      · exact (Registry.get_bound (Registry.mem_collectDescendants hdesc hp).1).2
    refine ⟨⟨?_,h.calls,?_,?_,?_⟩,hold⟩
    · intro k mig hmig
      rcases Table.get_set_some hmig with ⟨rfl,rfl⟩ | ⟨-,hmig⟩
      · exact ⟨rfl,⟨_,le_rfl,hid⟩,hbound⟩
      · obtain ⟨hk,⟨n,hn,hname⟩,hpids⟩ := h.named k mig hmig
        exact ⟨hk,⟨n,Nat.le_succ_of_le hn,hname⟩,hpids⟩
    · intro call hcall
      rw [hfree] at hcall
      cases hcall
    · intro hnone
      apply h.absent
      cases hrec : s.record id with
      | none => rfl
      | some mig =>
        have := (hold id (by simp [hrec])).trans hrec
        exact absurd (hnone.symm.trans this) (by simp)
    · intro mig hmig
      rcases Table.get_set_some hmig with ⟨he,rfl⟩ | ⟨-,hmig⟩
      · have hnone : s.record id = none := by
          cases hrec : s.record id with
          | none => rfl
          | some mig => exact absurd (he.trans hid) (h.fresh hrec)
        have hidle := h.absent hnone
        rw [hnew]
        exact hidle
      · refine (h.phase mig hmig).mono ?_ ?_ ?_
        · rfl
        · exact fun hfree => hfree
        · exact fun _ _ _ hon => hon

section Calls
variable {calls : Table ℕ ExecuteCall} {i : ℕ} {call : ExecuteCall}

lemma get_set_only (honly : ∀ j, (calls.get j).isSome → j = i) {j : ℕ} {call' : ExecuteCall}
    (hj : (calls.set i call).get j = some call') : j = i ∧ call' = call := by
  rcases Table.get_set_some hj with hnew | ⟨hne,hold⟩
  · exact hnew
  · exact absurd (honly j (by simp [hold])) hne

lemma calls_set (honly : ∀ j, (calls.get j).isSome → j = i) (hid : call.migrationID = id) :
    ∀ j call', (calls.set i call).get j = some call' →
      call'.migrationID = id ∧ ∀ k, ((calls.set i call).get k).isSome → k = j := by
  intro j call' hj
  obtain ⟨rfl,rfl⟩ := get_set_only honly hj
  refine ⟨hid,fun k hk => ?_⟩
  obtain ⟨call'',hk⟩ := Option.isSome_iff_exists.mp hk
  exact (get_set_only honly hk).1

lemma get_erase_only (honly : ∀ j, (calls.get j).isSome → j = i) (j : ℕ) : (calls.erase i).get j = none := by
  rw [Table.get_erase]
  split_ifs with hj
  · rfl
  · cases hget : calls.get j with
    | none => rfl
    | some call => exact absurd (honly j (by simp [hget])) hj

end Calls

lemma Idle.only (h : s.Idle) (i : ℕ) : ∀ j, (s.calls.get j).isSome → j = i := by
  intro j hj
  rw [h j] at hj
  cases hj

lemma not_idle_set (s : Fleet) (i : ℕ) (call : ExecuteCall) : ¬({ s with calls := s.calls.set i call }).Idle := by
  intro h
  have := h i
  rw [Table.get_set_self] at this
  cases this

lemma startMigration_ok {c c' : Cluster} {now : ℤ} {mig' : Migration} (h : c.startMigration now id = .ok (mig',c')) :
    ∃ mig, c.migrations.get id = some mig ∧ mig.state = .pending ∧
      c' = { c with migrations := c.migrations.set id (Cluster.started now mig) } := by
  unfold Cluster.startMigration at h
  cases hmig : c.migrations.get id with
  | none => simp [hmig] at h
  | some mig =>
    simp only [hmig] at h
    split_ifs at h with hst
    cases h
    exact ⟨mig,rfl,not_not.mp hst,rfl⟩

/-- Another state of the migration, with its branch. -/
lemma Sound.named_set (h : Sound id s) {mig : Migration} (mig' : Migration) (hmig : s.record id = some mig)
    (hid : mig'.id = mig.id) (hpids : mig'.pids = mig.pids) {k : String} {m : Migration}
    (hm : (s.cluster.migrations.set id mig').get k = some m) :
    m.id = k ∧ (∃ n ≤ s.cluster.nextID, k = s!"mig-{n}") ∧ ∀ pid ∈ m.pids, pid < s.cluster.registry.nextPID := by
  rcases Table.get_set_some hm with ⟨rfl,rfl⟩ | ⟨-,hold⟩
  · rw [hid,hpids]
    exact h.named k mig hmig
  · exact h.named k m hold

lemma Sound.start (h : Sound id s) (hfree : s.rollback = none) {i : ℕ} {now : ℤ} {mig' : Migration} {c : Cluster}
    (hstart : s.cluster.startMigration now id = .ok (mig',c)) :
    Sound id { s with cluster := c, calls := s.calls.set i ⟨id,.draining⟩ } := by
  obtain ⟨mig,hmig,hpending,rfl⟩ := startMigration_ok hstart
  have hidle : s.Idle := by
    have hphase := h.phase mig hmig
    simp only [Phase,hpending] at hphase
    exact hphase
  refine ⟨fun k m hm => h.named_set (Cluster.started now mig) hmig rfl rfl hm,calls_set (hidle.only i) rfl,?_,?_,?_⟩
  · intro call hcall
    rw [hfree] at hcall
    cases hcall
  · intro hnone
    have hset : (s.cluster.migrations.set id (Cluster.started now mig)).get id = none := hnone
    rw [Table.get_set_self] at hset
    cases hset
  · intro m hm
    rcases Table.get_set_some hm with ⟨-,rfl⟩ | ⟨hne,-⟩
    · refine ⟨not_idle_set s i _,fun _ j rest hj => ?_⟩
      cases (get_set_only (hidle.only i) hj).2
    · exact absurd rfl hne

/-- While a call is in progress, the migration is in progress or was rolled back. -/
lemma Sound.busy (h : Sound id s) {i : ℕ} {call : ExecuteCall} (hcall : s.calls.get i = some call) :
    ∃ mig, s.record id = some mig ∧ (mig.state = .inProgress ∨ mig.state = .rolledBack) := by
  have hbusy : ¬s.Idle := fun hi => by simp [hi i] at hcall
  cases hmig : s.record id with
  | none => exact absurd (h.absent hmig) hbusy
  | some mig =>
    refine ⟨mig,rfl,?_⟩
    have hphase := h.phase mig hmig
    unfold Phase at hphase
    cases hst : mig.state with
    | pending =>
      simp only [hst] at hphase
      exact absurd hphase hbusy
    | inProgress => exact .inl rfl
    | completed =>
      simp only [hst] at hphase
      exact absurd hphase.1 hbusy
    | failed => simp only [hst] at hphase
    | rolledBack => exact .inr rfl

lemma Phase.of_busy {mig : Migration} (hst : mig.state = .inProgress ∨ mig.state = .rolledBack) (hbusy : ¬t.Idle)
    (hmoved : mig.state = .inProgress → t.rollback = none → ∀ i rest, t.calls.get i = some ⟨id,.moving rest⟩ →
      ∃ done, mig.pids = done++rest ∧ ∀ k ∈ done, t.cluster.registry.On mig.targetNode k) : t.Phase id mig := by
  unfold Phase
  rcases hst with hst | hst
  · rw [hst]
    exact ⟨hbusy,hmoved hst⟩
  · rw [hst]
    exact fun hi => absurd hi hbusy

/-- The part of a migration in progress that is moved. -/
lemma Sound.moved (h : Sound id s) {mig : Migration} (hmig : s.record id = some mig) (hst : mig.state = .inProgress)
    (hfree : s.rollback = none) {i : ℕ} {rest : List ℕ} (hcall : s.calls.get i = some ⟨id,.moving rest⟩) :
    ∃ done, mig.pids = done++rest ∧ ∀ k ∈ done, s.cluster.registry.On mig.targetNode k := by
  have hphase := h.phase mig hmig
  simp only [Phase,hst] at hphase
  exact hphase.2 hfree i rest hcall

lemma Sound.drain (h : Sound id s) {i : ℕ} {mig : Migration} (hcall : s.calls.get i = some ⟨id,.draining⟩)
    (hmig : s.record id = some mig) :
    Sound id { s with cluster := s.cluster.drainSource mig, calls := s.calls.set i ⟨id,.moving mig.pids⟩ } := by
  have honly := (h.calls i _ hcall).2
  refine ⟨h.named,calls_set honly rfl,h.locked,?_,?_⟩
  · intro hnone
    exact absurd (hnone.symm.trans hmig) (by simp)
  · intro m hm
    cases hmig.symm.trans hm
    obtain ⟨m,hm,hst⟩ := h.busy hcall
    cases hmig.symm.trans hm
    refine Phase.of_busy hst (not_idle_set s i _) (fun _ _ j rest hj => ?_)
    obtain ⟨-,he⟩ := get_set_only honly hj
    cases he
    exact ⟨[],rfl,by simp⟩

/-- The loop stops at a process that is gone. -/
lemma Sound.fail (h : Sound id s) {i : ℕ} {call : ExecuteCall} (hcall : s.calls.get i = some call) (e : String) :
    Sound id { s with calls := s.calls.set i ⟨id,.failed e⟩ } := by
  have honly := (h.calls i _ hcall).2
  obtain ⟨mig,hmig,hst⟩ := h.busy hcall
  refine ⟨h.named,calls_set honly rfl,h.locked,?_,?_⟩
  · intro hnone
    exact absurd (hnone.symm.trans hmig) (by simp)
  · intro m hm
    cases hmig.symm.trans hm
    refine Phase.of_busy hst (not_idle_set s i _) (fun _ _ j rest hj => ?_)
    cases (get_set_only honly hj).2

lemma Sound.move (h : Sound id s) {i : ℕ} {now : ℤ} {pid : ℕ} {rest : List ℕ} {mig : Migration} {registry : Registry}
    (hcall : s.calls.get i = some ⟨id,.moving (pid::rest)⟩) (hmig : s.record id = some mig)
    (hmove : s.cluster.registry.moveProcess now mig.targetNode pid = .ok registry) :
    Sound id { s.withRegistry registry with calls := s.calls.set i ⟨id,.moving rest⟩ } := by
  have honly := (h.calls i _ hcall).2
  obtain ⟨-,hnext,-⟩ := Registry.moveProcess_ok hmove
  refine ⟨?_,calls_set honly rfl,h.locked,?_,?_⟩
  · intro k m hm
    obtain ⟨hid,hname,hbound⟩ := h.named k m hm
    exact ⟨hid,hname,fun pid hpid => (hbound pid hpid).trans_eq hnext.symm⟩
  · intro hnone
    exact absurd (hnone.symm.trans hmig) (by simp)
  · intro m hm
    cases hmig.symm.trans hm
    obtain ⟨m,hm,hst⟩ := h.busy hcall
    cases hmig.symm.trans hm
    refine Phase.of_busy hst (not_idle_set (s.withRegistry registry) i _) (fun hrun hfree j rest' hj => ?_)
    obtain ⟨-,he⟩ := get_set_only honly hj
    cases he
    obtain ⟨done,hpids,hdone⟩ := h.moved hmig hrun hfree hcall
    refine ⟨done++[pid],by simp [hpids],fun k hk => ?_⟩
    apply Registry.On.move hmove
    rcases List.mem_append.mp hk with hk | hk
    · exact .inr (hdone k hk)
    · exact .inl (List.mem_singleton.mp hk)

/-- A verdict is written when the only call ends. -/
lemma Sound.settle (h : Sound id s) (hfree : s.rollback = none) {i : ℕ} {call : ExecuteCall}
    (hcall : s.calls.get i = some call) {mig : Migration} (hmig : s.record id = some mig) (mig' : Migration)
    (hid : mig'.id = mig.id) (hpids : mig'.pids = mig.pids) {registry : Registry} {nodes : NodeRegistry}
    (hnext : registry.nextPID = s.cluster.registry.nextPID)
    (hphase : (mig'.state = .rolledBack ∧ ∀ k ∈ mig.pids, registry.On mig'.sourceNode k) ∨
      (mig'.state = .completed ∧ ∀ k ∈ mig.pids, registry.On mig'.targetNode k)) :
    Sound id { s with
      cluster := { s.cluster with
        registry := registry, migrations := s.cluster.migrations.set mig'.id mig', nodes := nodes }
      calls := s.calls.erase i } := by
  have hname : mig'.id = id := hid.trans (h.named id mig hmig).1
  have honly := (h.calls i _ hcall).2
  have hidle : ∀ j, (s.calls.erase i).get j = none := get_erase_only honly
  refine ⟨?_,?_,?_,?_,?_⟩
  · intro k m hm
    obtain ⟨hid,hname,hbound⟩ := h.named_set mig' hmig hid hpids (hname ▸ hm)
    exact ⟨hid,hname,fun pid hpid => (hbound pid hpid).trans_eq hnext.symm⟩
  · intro j call' hj
    exact absurd ((hidle j).symm.trans hj) (by simp)
  · intro call' hlock
    rw [hfree] at hlock
    cases hlock
  · exact fun _ => hidle
  · intro m hm
    rcases Table.get_set_some hm with ⟨-,rfl⟩ | ⟨hne,-⟩
    · unfold Phase
      rw [hpids]
      rcases hphase with ⟨hst,hon⟩ | ⟨hst,hon⟩
      · rw [hst]
        exact fun _ => hon
      · rw [hst]
        exact ⟨hidle,hon⟩
    · exact absurd hname.symm hne

/-- A rollback with the lock writes nothing that is relied on while it runs. -/
lemma Sound.underLock (h : Sound id s) {call : RollbackCall} (hlock : s.rollback = some call) {registry : Registry}
    (hnext : registry.nextPID = s.cluster.registry.nextPID) (rest : List ℕ) :
    Sound id { s.withRegistry registry with rollback := some ⟨id,rest⟩ } := by
  obtain ⟨-,hst⟩ := h.locked call hlock
  refine ⟨?_,h.calls,?_,h.absent,?_⟩
  · intro k m hm
    obtain ⟨hid,hname,hbound⟩ := h.named k m hm
    exact ⟨hid,hname,fun pid hpid => (hbound pid hpid).trans_eq hnext.symm⟩
  · intro call' hcall'
    cases hcall'
    exact ⟨rfl,hst⟩
  · intro m hm
    obtain ⟨mig,hmig,hst⟩ := stateOf_eq.mp hst
    obtain rfl := Option.some.inj (hmig.symm.trans hm)
    have hphase := h.phase mig hmig
    simp only [Phase,hst] at hphase
    exact Phase.of_busy (.inl hst) hphase.1 (fun _ hfree => by cases hfree)

lemma Sound.lock (h : Sound id s) (hst : s.stateOf id = some .inProgress) (rest : List ℕ) :
    Sound id { s with rollback := some ⟨id,rest⟩ } := by
  refine ⟨h.named,h.calls,?_,h.absent,?_⟩
  · intro call hcall
    cases hcall
    exact ⟨rfl,hst⟩
  · intro m hm
    refine (h.phase m hm).mono ?_ ?_ ?_
    · rfl
    · exact fun hfree => by cases hfree
    · exact fun _ _ _ hon => hon

/-- The execution still runs when the rollback ends. -/
lemma Sound.unlock (h : Sound id s) {call : RollbackCall} (hlock : s.rollback = some call) {mig : Migration}
    (hmig : s.record id = some mig) {nodes : NodeRegistry} :
    Sound id { s with
      cluster := { s.cluster with
        migrations := s.cluster.migrations.set id { mig with state := .rolledBack }, nodes := nodes }
      rollback := none } := by
  obtain ⟨-,hst⟩ := h.locked call hlock
  obtain ⟨m,hm,hst⟩ := stateOf_eq.mp hst
  obtain rfl := Option.some.inj (hmig.symm.trans hm)
  have hphase := h.phase mig hmig
  simp only [Phase,hst] at hphase
  refine ⟨fun k m hm => h.named_set { mig with state := .rolledBack } hmig rfl rfl hm,h.calls,?_,?_,?_⟩
  · intro call hcall
    cases hcall
  · intro hnone
    have hset : (s.cluster.migrations.set id { mig with state := .rolledBack }).get id = none := hnone
    rw [Table.get_set_self] at hset
    cases hset
  · intro m hm
    rcases Table.get_set_some hm with ⟨-,rfl⟩ | ⟨hne,-⟩
    · exact fun hi => absurd hi hphase.1
    · exact absurd rfl hne

/-- A verdict that was reached stays. -/
def Keeps (id : String) (s t : Fleet) : Prop :=
  ∀ st, st = .rolledBack ∨ st = .completed → s.stateOf id = some st → t.stateOf id = some st

lemma keeps_of_record (h : (s.record id).isSome → t.record id = s.record id) : Keeps id s t := by
  intro st _ hst
  obtain ⟨mig,hmig,rfl⟩ := stateOf_eq.mp hst
  rw [stateOf,h (by simp [hmig]),hmig]
  rfl

lemma keeps_of_running (h : s.stateOf id = some .inProgress ∨ s.stateOf id = some .pending) : Keeps id s t := by
  intro st hverdict hst
  rw [hst] at h
  rcases hverdict with rfl | rfl
  · simp at h
  · simp at h

/-- One step, as long as an execution only finishes while the migration is in progress. -/
lemma Sound.step (h : Sound id s) (honly : Only id op) (hs : s.step op = some t) (hrunning : s.FinishesRunning op) :
    Sound id t ∧ Keeps id s t := by
  cases op with
  | tree op =>
    obtain ⟨registry,hstep,rfl⟩ := Option.map_eq_some_iff.mp hs
    exact ⟨h.withRegistry (Registry.keepsPlaces_treeStep hstep),keeps_of_record (fun _ => rfl)⟩
  | reparent now pid newParentPID =>
    cases hs
    exact ⟨h.withRegistry (Registry.keepsPlaces_tryReparent _ now pid newParentPID),keeps_of_record (fun _ => rfl)⟩
  | setNodes nodes =>
    cases hs
    exact ⟨h.setNodes nodes,keeps_of_record (fun _ => rfl)⟩
  | prepare now order rootPID targetNode =>
    simp only [Fleet.step] at hs
    split_ifs at hs with hlock
    obtain ⟨⟨result,c⟩,hprep,rfl⟩ := Option.map_eq_some_iff.mp hs
    obtain ⟨hsound,hold⟩ := h.prepare (by simpa using hlock) hprep
    exact ⟨hsound,keeps_of_record (hold id)⟩
  | start i now id' =>
    obtain rfl : id' = id := honly
    simp only [Fleet.step] at hs
    split_ifs at hs with hlock
    rw [not_or] at hlock
    split at hs
    next => cases hs; exact ⟨h,keeps_of_record (fun _ => rfl)⟩
    next mig' c hstart =>
      cases hs
      obtain ⟨mig,hmig,hpending,-⟩ := startMigration_ok hstart
      exact ⟨h.start (by simpa using hlock.1) hstart,keeps_of_running (.inr (stateOf_eq.mpr ⟨mig,hmig,hpending⟩))⟩
  | drain i =>
    simp only [Fleet.step] at hs
    split at hs
    next id' hcall =>
      obtain ⟨mig,hmig,rfl⟩ := Option.map_eq_some_iff.mp hs
      obtain rfl : id' = id := (h.calls i _ hcall).1
      exact ⟨h.drain hcall hmig,keeps_of_record (fun _ => rfl)⟩
    next => cases hs
  | move i now =>
    simp only [Fleet.step] at hs
    split at hs
    next id' pid rest hcall =>
      obtain ⟨mig,hmig,rfl⟩ := Option.map_eq_some_iff.mp hs
      obtain rfl : id' = id := (h.calls i _ hcall).1
      split
      next e _ => exact ⟨h.fail hcall e,keeps_of_record (fun _ => rfl)⟩
      next registry hmove => exact ⟨h.move hcall hmig hmove,keeps_of_record (fun _ => rfl)⟩
    next => cases hs
  | finish i now =>
    simp only [Fleet.step] at hs
    split_ifs at hs with hlock
    have hfree : s.rollback = none := by simpa using hlock
    split at hs
    next id' hcall =>
      obtain ⟨mig,hmig,rfl⟩ := Option.map_eq_some_iff.mp hs
      obtain rfl : id' = id := (h.calls i _ hcall).1
      have hst := hrunning id' hcall
      refine ⟨?_,keeps_of_running (.inl hst)⟩
      obtain ⟨m,hm,hst⟩ := stateOf_eq.mp hst
      cases hmig.symm.trans hm
      obtain ⟨done,hpids,hdone⟩ := h.moved hmig hst hfree hcall
      rw [List.append_nil] at hpids
      exact h.settle hfree hcall hmig { mig with state := .completed, completedAt := some now } rfl rfl rfl
        (.inr ⟨rfl,fun k hk => hdone k (hpids ▸ hk)⟩)
    next id' e hcall =>
      obtain ⟨mig,hmig,rfl⟩ := Option.map_eq_some_iff.mp hs
      obtain rfl : id' = id := (h.calls i _ hcall).1
      constructor
      · exact h.settle hfree hcall hmig { mig with state := .rolledBack, error := e } rfl rfl
          (Registry.nextPID_restoreProcesses _ _ _ _)
          (.inl ⟨rfl,fun k hk => Registry.on_restoreProcesses _ _ _ hk⟩)
      · intro st hverdict hst
        obtain ⟨m,hm,hbusy⟩ := h.busy hcall
        cases hmig.symm.trans hm
        obtain ⟨m,hm,rfl⟩ := stateOf_eq.mp hst
        cases hmig.symm.trans hm
        refine stateOf_eq.mpr ⟨{ mig with state := .rolledBack, error := e },?_,?_⟩
        · exact (Table.get_set _ _ _ _).trans (if_pos (h.named id' mig hmig).1.symm)
        · rcases hbusy with hbusy | hbusy
          · rw [hbusy] at hverdict
            simp at hverdict
          · exact hbusy.symm
    next => cases hs
  | rollback id' =>
    obtain rfl : id' = id := honly
    simp only [Fleet.step] at hs
    split_ifs at hs with hlock
    split at hs
    next => cases hs; exact ⟨h,keeps_of_record (fun _ => rfl)⟩
    next mig hmig =>
      split_ifs at hs with hst
      · cases hs
        exact ⟨h,keeps_of_record (fun _ => rfl)⟩
      · cases hs
        refine ⟨h.lock (stateOf_eq.mpr ⟨mig,hmig,?_⟩) mig.pids,keeps_of_record (fun _ => rfl)⟩
        by_contra hne
        apply hst
        refine ⟨hne,fun hfailed => ?_⟩
        have hphase := h.phase mig hmig
        simp only [Phase,hfailed] at hphase
  | restore now =>
    simp only [Fleet.step] at hs
    split at hs
    next id' pid rest hlock =>
      obtain ⟨mig,hmig,rfl⟩ := Option.map_eq_some_iff.mp hs
      obtain rfl : id' = id := (h.locked _ hlock).1
      exact ⟨h.underLock hlock (Registry.nextPID_restoreProcesses _ _ _ _) rest,keeps_of_record (fun _ => rfl)⟩
    next => cases hs
  | unlock =>
    simp only [Fleet.step] at hs
    split at hs
    next id' hlock =>
      obtain ⟨mig,hmig,rfl⟩ := Option.map_eq_some_iff.mp hs
      obtain ⟨rfl,hst⟩ := h.locked _ hlock
      exact ⟨h.unlock hlock hmig,keeps_of_running (.inl hst)⟩
    next => cases hs

/-- The invariant says what the verdicts mean. -/
lemma Sound.settled (h : Sound id t) (hkeeps : Keeps id s t) : Settled id ⟨s,op,t⟩ where
  rolledBack := hkeeps .rolledBack (.inl rfl)
  completed := hkeeps .completed (.inr rfl)
  onSource hquiet mig hmig hst := by
    have hidle : t.Idle := by
      intro i
      cases hcall : t.calls.get i with
      | none => rfl
      | some call => exact absurd (h.calls i call hcall).1 (hquiet.calls i call hcall)
    have hphase := h.phase mig hmig
    simp only [Phase,hst] at hphase
    exact hphase hidle
  onTarget _ mig hmig hst := by
    have hphase := h.phase mig hmig
    simp only [Phase,hst] at hphase
    exact hphase.2

/-- An execution that finishes after a rollback overwrites its verdict. -/
lemma Sound.not_settled (h : Sound id s) (hs : s.step op = some t) (hlate : ¬s.FinishesRunning op) :
    ¬Settled id ⟨s,op,t⟩ := by
  intro hsettled
  cases op with
  | finish i now =>
    simp only [FinishesRunning,not_forall] at hlate
    obtain ⟨id',hcall,hnot⟩ := hlate
    obtain rfl : id' = id := (h.calls i _ hcall).1
    obtain ⟨mig,hmig,hst⟩ := h.busy hcall
    have hrolled : mig.state = .rolledBack := hst.resolve_left (fun hrun => hnot (stateOf_eq.mpr ⟨mig,hmig,hrun⟩))
    have hstill := hsettled.rolledBack (stateOf_eq.mpr ⟨mig,hmig,hrolled⟩)
    simp only [Fleet.step] at hs
    split_ifs at hs
    simp only [hcall] at hs
    obtain ⟨m,hm,rfl⟩ := Option.map_eq_some_iff.mp hs
    obtain rfl := Option.some.inj (hmig.symm.trans hm)
    obtain ⟨m,hm,hst⟩ := stateOf_eq.mp hstill
    have hdone := (Table.get_set s.cluster.migrations mig.id id'
      { mig with state := .completed, completedAt := some now }).trans (if_pos (h.named id' mig hmig).1.symm)
    cases hdone.symm.trans hm
    cases hst
  | _ => exact hlate trivial

lemma sound_new (id : String) (registry : Registry) (nodes : NodeRegistry) : Sound id (new registry nodes) where
  named _ _ h := by cases h
  calls _ _ h := by cases h
  locked _ h := by cases h
  absent _ _ := rfl
  phase _ h := by cases h

/-- When only one migration is executed and rolled back, its verdict stays and says where its processes are, exactly
if no execution of it that has moved all its processes finishes after a rollback. -/
theorem settled_iff_finishesRunning {registry : Registry} {nodes : NodeRegistry}
    {trace : List (Transition Fleet FleetOp)} (run : Run step (new registry nodes) trace s)
    (honly : ∀ e ∈ trace, Only id e.label) :
    (∀ e ∈ trace, Settled id e) ↔ ∀ e ∈ trace, e.source.FinishesRunning e.label := by
  refine run.good_iff_allowed_of_legal (Sound id) (Settled id) (fun _ => Only id) FinishesRunning ?_
    (sound_new id registry nodes) honly
  intro s op t hsound hlegal hs
  refine ⟨⟨fun hsettled => ?_,fun hrunning => ?_⟩,fun hrunning => (hsound.step hlegal hs hrunning).1⟩
  · by_contra hlate
    exact hsound.not_settled hs hlate hsettled
  · obtain ⟨ht,hkeeps⟩ := hsound.step hlegal hs hrunning
    exact ht.settled hkeeps

def leadFleet : Fleet := new (Cluster.leadWithWorkers "vps1") (Cluster.threeNodes .online)

/-- The lead and its workers are to move, and the execution has begun. -/
def begun : List FleetOp :=
  [.prepare 0 (Cluster.visitsOf "vps1").order 2 "vps3",.start 0 1 "mig-1",.drain 0]

def moves : List FleetOp := [.move 0 1,.move 0 1,.move 0 1]

/-- A rollback of the three processes. -/
def undo : List FleetOp := [.rollback "mig-1",.restore 2,.restore 2,.restore 2,.unlock]

theorem settled_iff_finishesRunning_alone : ∃ trace s, Run step leadFleet trace s ∧
    s.stateOf "mig-1" = some .completed ∧ ∀ e ∈ trace, Settled "mig-1" e := by
  obtain ⟨s,t,hs,hcall,hst,ht,hend⟩ : ∃ s t, exec step (begun++moves) leadFleet = some s ∧
      s.calls.get 0 = some ⟨"mig-1",.moving []⟩ ∧ s.stateOf "mig-1" = some .inProgress ∧
      s.step (.finish 0 2) = some t ∧ t.stateOf "mig-1" = some .completed := ⟨_,_,rfl,rfl,rfl,rfl,rfl⟩
  have hrun := (Run.of_exec hs).snoc ht
  have honly : ∀ l ∈ begun++moves, Only "mig-1" l := by
    simp [begun,moves,Only]
  refine ⟨_,t,hrun,hend,(settled_iff_finishesRunning hrun ?_).mpr ?_⟩
  · intro e he
    rcases List.mem_append.mp he with he | he
    · exact honly _ (label_mem_of_mem_transitions he)
    · rw [List.mem_singleton.mp he]
      trivial
  · intro e he
    rcases List.mem_append.mp he with he | he
    · have hlabels : ∀ l ∈ begun++moves, e.source.FinishesRunning l := by
        simp [begun,moves,FinishesRunning]
      exact hlabels _ (label_mem_of_mem_transitions he)
    · rw [List.mem_singleton.mp he]
      intro id hcall'
      cases hcall.symm.trans hcall'
      exact hst

/-- A rollback comes before the first move, and the execution completes all the same. -/
theorem completed_after_rollback : ¬∀ (registry : Registry) (nodes : NodeRegistry) (id : String)
    (trace : List (Transition Fleet FleetOp)) (s : Fleet), Run step (new registry nodes) trace s →
    (∀ e ∈ trace, Only id e.label) → ∀ e ∈ trace, Settled id e := by
  intro h
  obtain ⟨s,t,hs,hst,ht,hend⟩ : ∃ s t, exec step (begun++(undo++moves)) leadFleet = some s ∧
      s.stateOf "mig-1" = some .rolledBack ∧ s.step (.finish 0 3) = some t ∧
      t.stateOf "mig-1" = some .completed := ⟨_,_,rfl,rfl,rfl,rfl⟩
  have honly : ∀ l ∈ begun++(undo++moves), Only "mig-1" l := by
    simp [begun,undo,moves,Only]
  have hsettled := h _ _ "mig-1" _ t ((Run.of_exec hs).snoc ht) (fun e he => by
    rcases List.mem_append.mp he with he | he
    · exact honly _ (label_mem_of_mem_transitions he)
    · rw [List.mem_singleton.mp he]
      trivial) ⟨s,.finish 0 3,t⟩ (by simp)
  have hstill := hsettled.rolledBack hst
  rw [hend] at hstill
  cases hstill

end Fleet
end HiveKernel
