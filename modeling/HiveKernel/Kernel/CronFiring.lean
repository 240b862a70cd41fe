import HiveKernel.Kernel.KingMail
import HiveKernel.Kernel.Residue
import HiveKernel.Scheduler.CronRanges

/-! The crontab at work. The poller starts a goroutine for every entry that is due; these act on the kernel, and on
the messages, while everything else goes on. How Go writes the payload of a message as JSON is a parameter; the events
and the log lines of a goroutine are left out. -/
namespace HiveKernel
open Lib

/-- Where the goroutine of an entry stands. It waits only for the end of an execution. -/
inductive FiringStage
  | started
  | executing (traceID : String)
  | ended
  deriving DecidableEq

structure Firing where
  entry : CronEntry
  polledAt : ℕ
  stage : FiringStage := .started
  deriving DecidableEq

/-- What an entry shows of its last execution. -/
structure CronRecord where
  exitCode : ℤ
  output : String
  durationMs : ℕ
  deriving DecidableEq

/-- The kernel with its messages, its crontab and the goroutines so far. -/
structure CronHost where
  system : System
  executor : Bool
  broker : Broker := .new
  cron : CronScheduler := .new
  last : Option ℕ := none
  firings : List Firing := []
  records : Table String CronRecord := .empty

inductive HostOp
  | kernel (op : KernelOp)
  /-- A message that somebody sends. -/
  | route (now : ℤ) (msg : Message)
  | addCron (name cronExpr action : String) (targetPID : ℕ) (executeDesc : String)
      (executeParams : List (String × String))
  | removeCron (id : String)
  /-- A tick of the poller; the clock has gone on since the one before. -/
  | poll (now : ℕ) (order : List String)
  | fire (i : ℕ) (now unix : ℤ) (launch : Except String String)
  | finish (i durationMs : ℕ) (outcome : Except String (ℤ × String))

/-- What an entry would spawn. Nobody fills in the template: all entries come from `ParseAndAdd`. -/
def spawnTemplate : SpawnRequest where
  parentPID := 0
  name := ""
  role := .kernel
  cognitiveTier := .strategic

/-- `truncatePayload`, in characters. -/
def truncated (s : String) (maxLen : ℕ) : String :=
  if s.length ≤ maxLen then s else (s.take maxLen).toString++"..."

namespace CronHost
variable {loc : Location} {marshal : String → List (String × String) → List UInt8}

def start (cfg : Config) (now : ℤ) (runtime : Option RuntimeManager) (executor : Bool) : CronHost :=
  { system := .boot cfg now runtime,executor := executor }

def registry (s : CronHost) : Registry := s.system.king.registry

def withKing (s : CronHost) (king : King) : CronHost := { s with system := { s.system with king := king } }

/-- The runtime that an entry can have execute its task. -/
def runtimeOf (s : CronHost) (pid : ℕ) : Option AgentRuntime :=
  if s.executor then s.system.king.runtime.bind (fun manager => manager.runtimes.get pid) else none

/-- `executeCronEntry` as far as it gets without waiting. -/
def executeCronEntry (marshal : String → List (String × String) → List UInt8) (s : CronHost) (now unix : ℤ)
    (launch : Except String String) (entry : CronEntry) : Option (CronHost × FiringStage) :=
  match entry.action with
  | .execute => match s.runtimeOf entry.targetPID with
    | none => some (s,.ended)
    | some _ =>
      let traceID := s!"cron-{entry.id}-{unix}"
      some (s.withKing (s.system.king.setTrace entry.targetPID traceID "cron"),.executing traceID)
  | .message =>
    let msg := KingMail.cronTask entry.targetPID (marshal entry.executeDesc entry.executeParams)
    (s.broker.route s.registry now msg).map (fun answer => ({ s with broker := answer.2 },.ended))
  | .spawn => some (s.withKing (s.system.king.spawnChild now launch spawnTemplate).2,.ended)
  | .wake => some (s.withKing (s.system.king.cronWake now entry.targetPID),.ended)

/-- What is kept of an execution. -/
def recordOf (durationMs : ℕ) : Except String (ℤ × String) → CronRecord
  | .error e => ⟨1,s!"error: {e}",durationMs⟩
  | .ok (exitCode,output) => ⟨exitCode,truncated output 4000,durationMs⟩

/-- Go on with a goroutine. -/
def setStage (s : CronHost) (i : ℕ) (firing : Firing) (stage : FiringStage) : CronHost :=
  { s with firings := s.firings.set i { firing with stage := stage } }

def step (loc : Location) (marshal : String → List (String × String) → List UInt8) (s : CronHost) :
    HostOp → Option CronHost
  | .kernel op => (s.system.step op).map (fun system => { s with system := system })
  | .route now msg => (s.broker.route s.registry now msg).map (fun answer => { s with broker := answer.2 })
  | .addCron name cronExpr action targetPID executeDesc executeParams =>
    some { s with cron := (s.cron.parseAndAdd name cronExpr action targetPID executeDesc executeParams).2 }
  | .removeCron id => match s.cron.remove id with
    | .ok cron => some { s with cron := cron }
    | .error _ => some s
  | .poll now order =>
    if (∀ t, s.last = some t → t < now) ∧ s.cron.entries.Enumerates order then
      let (due,cron) := s.cron.checkDue loc now order
      some { s with cron := cron,last := some now,firings := s.firings++due.map (fun entry => ⟨entry,now,.started⟩) }
    else none
  | .fire i now unix launch => match s.firings[i]? with
    | some firing =>
      if firing.stage = .started then
        (s.executeCronEntry marshal now unix launch firing.entry).map (fun next => next.1.setStage i firing next.2)
      else none
    | none => none
  | .finish i durationMs outcome => match s.firings[i]? with
    | some firing => match firing.stage with
      | .executing _ => some { s.setStage i firing .ended with
          records := s.records.set firing.entry.id (recordOf durationMs outcome) }
      | _ => none
    | none => none

variable {s t : CronHost} {op : HostOp}

/-- Nothing that an entry could reach is different. -/
structure Untouched (s t : CronHost) : Prop where
  table : ∀ j, t.registry.get j = s.registry.get j
  traceStore : t.system.king.traceStore = s.system.king.traceStore
  broker : t.broker = s.broker

/-- A goroutine touches no process but the target of an entry that wakes it, and of the rest of the kernel only the
trace of the target; a message is routed once, as the mail of the king to the target, and nothing else reaches the
broker; where there is no target it does nothing, unless a runtime has been left behind. -/
structure FireEffect (marshal : String → List (String × String) → List UInt8) (now : ℤ) (entry : CronEntry)
    (s t : CronHost) : Prop where
  table : ∀ j, t.registry.get j = if entry.action = .wake ∧ j = entry.targetPID
    then (s.registry.get j).map (fun p => { p with state := .running,updatedAt := now }) else s.registry.get j
  nextPID : t.registry.nextPID = s.registry.nextPID
  king : t.system.king = { s.system.king with
    registry := t.registry,traceStore := t.system.king.traceStore }
  pending : t.system.pending = s.system.pending
  trace : ∀ j, j ≠ entry.targetPID → t.system.king.traceStore.get j = s.system.king.traceStore.get j
  broker : entry.action ≠ .message → t.broker = s.broker
  mail : entry.action = .message → t.system = s.system ∧ ∃ result, s.broker.route s.registry now
    (KingMail.cronTask entry.targetPID (marshal entry.executeDesc entry.executeParams)) = some (result,t.broker)
  spawn : entry.action = .spawn → t.system = s.system
  gone : s.registry.get entry.targetPID = none → (entry.action = .execute → s.runtimeOf entry.targetPID = none) →
    Untouched s t

lemma FireEffect.refl (now : ℤ) {entry : CronEntry} (hwake : entry.action ≠ .wake) (hmail : entry.action ≠ .message)
    (s : CronHost) : FireEffect marshal now entry s s where
  table _ := (if_neg (fun hboth => hwake hboth.1)).symm
  nextPID := rfl
  king := rfl
  pending := rfl
  trace _ _ := rfl
  broker _ := rfl
  mail h := absurd h hmail
  spawn _ := rfl
  gone _ _ := ⟨fun _ => rfl,rfl,rfl⟩

/-- There is no process 0, so that nothing is spawned. -/
lemma spawnChild_template (k : King) (now : ℤ) (launch : Except String String) :
    (k.spawnChild now launch spawnTemplate).2 = k := by
  rcases King.spawnChild_cases k now launch spawnTemplate with ⟨-,e,he⟩ | ⟨parent,hadm,-⟩
  · rw [he]
  · have hnone : k.registry.get spawnTemplate.parentPID = none := k.registry.get_zero
    rw [hadm.found] at hnone
    cases hnone

/-- A message to a process that is not there is refused. -/
lemma route_of_absent {b : Broker} {r : Registry} {now : ℤ} {targetPID : ℕ} {payload : List UInt8}
    (h : r.get targetPID = none) {answer : Except String Message × Broker}
    (hroute : b.route r now (KingMail.cronTask targetPID payload) = some answer) : answer.2 = b := by
  obtain ⟨result,b'⟩ := answer
  rcases Broker.route_cases hroute with ⟨e,-,hb⟩ | ⟨-,hqueue,-⟩ | ⟨kind,-,-,hfound,-⟩
  · exact hb
  · exact absurd rfl hqueue
  · obtain ⟨sender,receiver,-,hreceiver,-⟩ := Registry.findRoute_ok hfound
    rw [show r.get targetPID = some receiver from hreceiver] at h
    cases h

theorem executeCronEntry_effect {now unix : ℤ} {launch : Except String String} {entry : CronEntry}
    {stage : FiringStage} (h : s.executeCronEntry marshal now unix launch entry = some (t,stage)) :
    FireEffect marshal now entry s t := by
  unfold executeCronEntry at h
  cases haction : entry.action with
  | spawn =>
    simp only [haction,Option.some.injEq,Prod.mk.injEq] at h
    obtain ⟨rfl,-⟩ := h
    rw [spawnChild_template]
    exact .refl now (by rw [haction]; decide) (by rw [haction]; decide) s
  | wake =>
    simp only [haction,Option.some.injEq,Prod.mk.injEq] at h
    obtain ⟨rfl,-⟩ := h
    have hget : ∀ j, (s.registry.setState now entry.targetPID .running).get j = if j = entry.targetPID
        then (s.registry.get j).map (fun p => { p with state := .running,updatedAt := now }) else s.registry.get j :=
      Registry.get_setState _ _ _ _
    refine ⟨fun j => ?_,Registry.nextPID_setState _ _ _ _,rfl,rfl,fun _ _ => rfl,fun _ => rfl,fun hmail => ?_,
      fun hspawn => ?_,fun hgone _ => ⟨fun j => ?_,rfl,rfl⟩⟩
    · simp only [haction,true_and]
      exact hget j
    · rw [haction] at hmail
      cases hmail
    · rw [haction] at hspawn
      cases hspawn
    · refine (hget j).trans ?_
      split_ifs with hj
      · rw [hj,hgone]
        rfl
      · rfl
  | execute =>
    simp only [haction] at h
    split at h
    · simp only [Option.some.injEq,Prod.mk.injEq] at h
      obtain ⟨rfl,-⟩ := h
      exact .refl now (by rw [haction]; decide) (by rw [haction]; decide) s
    next rt hrt =>
      simp only [Option.some.injEq,Prod.mk.injEq] at h
      obtain ⟨rfl,-⟩ := h
      refine ⟨fun j => ?_,rfl,rfl,rfl,fun j hj => Table.get_set_of_ne hj,fun _ => rfl,fun hmail => ?_,
        fun hspawn => ?_,fun _ hrun => ?_⟩
      · exact (if_neg (fun hwake => by cases haction.symm.trans hwake.1)).symm
      · rw [haction] at hmail
        cases hmail
      · rw [haction] at hspawn
        cases hspawn
      · rw [hrun haction] at hrt
        cases hrt
  | message =>
    simp only [haction] at h
    obtain ⟨answer,hroute,hanswer⟩ := Option.map_eq_some_iff.mp h
    obtain ⟨rfl,-⟩ := Prod.mk.inj hanswer
    refine ⟨fun j => ?_,rfl,rfl,rfl,fun _ _ => rfl,fun hno => absurd haction hno,fun _ => ⟨rfl,answer.1,hroute⟩,
      fun _ => rfl,fun hgone _ => ?_⟩
    · exact (if_neg (fun hwake => by cases haction.symm.trans hwake.1)).symm
    · exact ⟨fun _ => rfl,rfl,route_of_absent hgone hroute⟩

/-- The entry and the second of a goroutine. -/
def Firing.occurrence (f : Firing) : String × ℕ := (f.entry.id,wholeSecond f.polledAt)

/-- The identifiers that the scheduler has given out. -/
def Given (nextID : ℕ) (id : String) : Prop := ∃ n, n ≤ nextID ∧ id = s!"cron-{n}"

lemma Given.mono {m n : ℕ} {id : String} (h : Given m id) (hmn : m ≤ n) : Given n id := by
  obtain ⟨k,hk,hid⟩ := h
  exact ⟨k,hk.trans hmn,hid⟩

lemma not_given (nextID : ℕ) : ¬Given nextID s!"cron-{nextID+1}" := by
  rintro ⟨n,hn,hid⟩
  have hsame : nextID+1 = n := append_number_injective hid
  omega

/-- Every goroutine is for a second of its schedule, and for one that its entry has not run in before. -/
structure Timely (loc : Location) (s : CronHost) : Prop where
  entries : ∀ id entry, s.cron.entries.get id = some entry → Given s.cron.nextID id ∧ entry.lastRun ≤ s.last.getD 0
  given : ∀ f ∈ s.firings, Given s.cron.nextID f.entry.id
  ran : ∀ f ∈ s.firings, ∀ entry, s.cron.entries.get f.entry.id = some entry → f.polledAt ≤ entry.lastRun
  occurs : ∀ f ∈ s.firings, f.entry.schedule.Matches (loc (wholeSecond f.polledAt))
  nodup : (s.firings.map Firing.occurrence).Nodup

lemma timely_start (cfg : Config) (now : ℤ) (runtime : Option RuntimeManager) (executor : Bool) :
    Timely loc (start cfg now runtime executor) where
  entries _ _ h := by cases h
  given _ h := by cases h
  ran _ h := by cases h
  occurs _ h := by cases h
  nodup := List.nodup_nil

/-- What the other steps leave of the goroutines. -/
lemma Timely.of_same (h : Timely loc s) (hcron : t.cron = s.cron) (hlast : t.last = s.last)
    (hfirings : t.firings.map (fun f => (f.entry,f.polledAt)) = s.firings.map (fun f => (f.entry,f.polledAt))) :
    Timely loc t := by
  have hold : ∀ f ∈ t.firings, ∃ g ∈ s.firings, g.entry = f.entry ∧ g.polledAt = f.polledAt := by
    intro f hf
    have hmem := List.mem_map_of_mem (f := fun f : Firing => (f.entry,f.polledAt)) hf
    rw [hfirings] at hmem
    obtain ⟨g,hg,hsame⟩ := List.mem_map.mp hmem
    exact ⟨g,hg,(Prod.mk.inj hsame).1,(Prod.mk.inj hsame).2⟩
  have hoccurrence : Firing.occurrence = (fun p : CronEntry × ℕ => (p.1.id,wholeSecond p.2)) ∘
      fun f : Firing => (f.entry,f.polledAt) := rfl
  refine ⟨?_,fun f hf => ?_,fun f hf => ?_,fun f hf => ?_,?_⟩
  · rw [hcron,hlast]
    exact h.entries
  · obtain ⟨g,hg,hentry,-⟩ := hold f hf
    rw [hcron,← hentry]
    exact h.given g hg
  · obtain ⟨g,hg,hentry,hpolled⟩ := hold f hf
    rw [hcron,← hentry,← hpolled]
    exact h.ran g hg
  · obtain ⟨g,hg,hentry,hpolled⟩ := hold f hf
    rw [← hentry,← hpolled]
    exact h.occurs g hg
  · rw [hoccurrence,← List.map_map,hfirings,List.map_map]
    exact h.nodup

lemma map_setStage {i : ℕ} {firing : Firing} (hi : s.firings[i]? = some firing) (stage : FiringStage) :
    (s.firings.set i { firing with stage := stage }).map (fun f => (f.entry,f.polledAt)) =
      s.firings.map (fun f => (f.entry,f.polledAt)) := by
  obtain ⟨hlt,rfl⟩ := List.getElem?_eq_some_iff.mp hi
  rw [List.map_set]
  apply List.ext_getElem
  · simp
  · intro j _ hj
    rw [List.getElem_set]
    split_ifs with hij
    · subst hij
      rw [List.getElem_map]
    · rfl

/-- What `ParseAndAdd` leaves: the crontab as it was, or one more entry that has not run yet. -/
lemma parseAndAdd_snd (cs : CronScheduler) (name cronExpr action : String) (targetPID : ℕ) (executeDesc : String)
    (executeParams : List (String × String)) :
    (cs.parseAndAdd name cronExpr action targetPID executeDesc executeParams).2 = cs ∨
      ∃ entry, entry.lastRun = 0 ∧
        (cs.parseAndAdd name cronExpr action targetPID executeDesc executeParams).2 = (cs.add entry).2 := by
  unfold CronScheduler.parseAndAdd
  cases parseCron cronExpr with
  | error e => exact .inl rfl
  | ok sched =>
    cases cronActionOf action with
    | error e => exact .inl rfl
    | ok cronAction => exact .inr ⟨_,rfl,rfl⟩

lemma Timely.add (h : Timely loc s) {entry : CronEntry} (hrun : entry.lastRun = 0) :
    Timely loc { s with cron := (s.cron.add entry).2 } := by
  have hget : ∀ id e, (s.cron.add entry).2.entries.get id = some e →
      (id = s!"cron-{s.cron.nextID+1}" ∧ e.lastRun = 0) ∨ s.cron.entries.get id = some e := by
    intro id e he
    rcases Table.get_set_some he with ⟨hid,rfl⟩ | ⟨-,he⟩
    · exact .inl ⟨hid,hrun⟩
    · exact .inr he
  refine ⟨fun id e he => ?_,fun f hf => ?_,fun f hf e he => ?_,h.occurs,h.nodup⟩
  · rcases hget id e he with ⟨hid,hzero⟩ | he
    · exact ⟨⟨s.cron.nextID+1,le_rfl,hid⟩,hzero.le.trans (Nat.zero_le _)⟩
    · exact ⟨(h.entries id e he).1.mono (Nat.le_succ _),(h.entries id e he).2⟩
  · exact (h.given f hf).mono (Nat.le_succ _)
  · rcases hget f.entry.id e he with ⟨hid,-⟩ | he
    · exact absurd (hid ▸ h.given f hf) (not_given _)
    · exact h.ran f hf e he

/-- The entry that a poll returns for an identifier. -/
def dueEntry (loc : Location) (now : ℕ) (cs : CronScheduler) (id : String) : Option CronEntry :=
  (cs.entries.get id).bind (fun entry =>
    if CronScheduler.IsDue loc now entry then some { entry with lastRun := now } else none)

lemma checkEntries_fst {now : ℕ} {order : List String} (hnodup : order.Nodup) (acc : List CronEntry × CronScheduler) :
    (order.foldl (CronScheduler.checkEntry loc now) acc).1 = acc.1++order.filterMap (dueEntry loc now acc.2) := by
  induction order generalizing acc with
  | nil => exact (List.append_nil _).symm
  | cons k order ih =>
    rw [List.nodup_cons] at hnodup
    have hrest : order.filterMap (dueEntry loc now (CronScheduler.checkEntry loc now acc k).2) =
        order.filterMap (dueEntry loc now acc.2) := by
      apply List.filterMap_congr
      intro id hid
      unfold dueEntry
      rw [CronScheduler.get_checkEntry,if_neg]
      rintro rfl
      exact hnodup.1 hid
    have hfirst : (CronScheduler.checkEntry loc now acc k).1 = acc.1++(dueEntry loc now acc.2 k).toList := by
      unfold CronScheduler.checkEntry dueEntry
      cases hk : acc.2.entries.get k with
      | none => exact (List.append_nil _).symm
      | some entry =>
        by_cases hdue : CronScheduler.IsDue loc now entry
        · simp [hdue]
        · simp [hdue]
    rw [List.foldl_cons,ih hnodup.2,hrest,hfirst,List.append_assoc]
    congr 1
    cases hk : dueEntry loc now acc.2 k with
    | none => rw [List.filterMap_cons_none hk]; rfl
    | some d => rw [List.filterMap_cons_some hk]; rfl

lemma nextID_checkEntries {now : ℕ} (order : List String) (acc : List CronEntry × CronScheduler) :
    (order.foldl (CronScheduler.checkEntry loc now) acc).2.nextID = acc.2.nextID := by
  induction order generalizing acc with
  | nil => rfl
  | cons k order ih =>
    rw [List.foldl_cons,ih]
    unfold CronScheduler.checkEntry
    split
    · rfl
    · split_ifs
      · rfl
      · rfl

lemma dueEntry_some {now : ℕ} {cs : CronScheduler} {id : String} {d : CronEntry}
    (h : dueEntry loc now cs id = some d) : ∃ entry, cs.entries.get id = some entry ∧
      CronScheduler.IsDue loc now entry ∧ d = { entry with lastRun := now } ∧ d.id = id := by
  obtain ⟨entry,hentry,hd⟩ := Option.bind_eq_some_iff.mp h
  split_ifs at hd with hdue
  cases hd
  have hid : entry.id = id := cs.id_eq hentry
  exact ⟨entry,hentry,hdue,rfl,hid⟩

lemma wholeSecond_mono {m n : ℕ} (h : m ≤ n) : wholeSecond m ≤ wholeSecond n := Nat.div_le_div_right h

/-- A poll starts goroutines for the entries that are due, for a second in which they have not run. -/
lemma Timely.poll (h : Timely loc s) {now : ℕ} {order : List String} (hclock : ∀ t, s.last = some t → t < now)
    (horder : s.cron.entries.Enumerates order) : Timely loc { s with
      cron := (s.cron.checkDue loc now order).2
      last := some now
      firings := s.firings++(s.cron.checkDue loc now order).1.map (fun entry => ⟨entry,now,.started⟩) } := by
  have hnodup : order.Nodup := horder.symm.nodup s.cron.entries.toAList.nodupKeys
  have hdue : (s.cron.checkDue loc now order).1 = order.filterMap (dueEntry loc now s.cron) :=
    checkEntries_fst hnodup ([],s.cron)
  have hnext : (s.cron.checkDue loc now order).2.nextID = s.cron.nextID := nextID_checkEntries order ([],s.cron)
  have hget : ∀ id, (s.cron.checkDue loc now order).2.entries.get id = if id ∈ order
      then (s.cron.entries.get id).map (CronScheduler.checked loc now) else s.cron.entries.get id :=
    CronScheduler.get_checkEntries order ([],s.cron)
  have hle : s.last.getD 0 ≤ now := by
    cases hlast : s.last with
    | none => exact Nat.zero_le now
    | some t => exact (hclock t hlast).le
  have hold : ∀ id e, (s.cron.checkDue loc now order).2.entries.get id = some e →
      ∃ e', s.cron.entries.get id = some e' ∧ (e.lastRun = e'.lastRun ∨ e.lastRun = now) := by
    intro id e he
    rw [hget] at he
    split_ifs at he
    · obtain ⟨e',he',rfl⟩ := Option.map_eq_some_iff.mp he
      refine ⟨e',he',?_⟩
      unfold CronScheduler.checked
      split_ifs
      · exact .inr rfl
      · exact .inl rfl
    · exact ⟨e,he,.inl rfl⟩
  have hnew : ∀ f ∈ (s.cron.checkDue loc now order).1.map (fun entry => (⟨entry,now,.started⟩ : Firing)),
      ∃ id ∈ order, ∃ e, s.cron.entries.get id = some e ∧ CronScheduler.IsDue loc now e ∧ f.polledAt = now ∧
        f.entry = { e with lastRun := now } ∧ f.entry.id = id := by
    intro f hf
    obtain ⟨d,hd,rfl⟩ := List.mem_map.mp hf
    rw [hdue] at hd
    obtain ⟨id,hid,hd⟩ := List.mem_filterMap.mp hd
    obtain ⟨e,he,hdue,hentry,hname⟩ := dueEntry_some hd
    exact ⟨id,hid,e,he,hdue,rfl,hentry,hname⟩
  refine ⟨fun id e he => ?_,fun f hf => ?_,fun f hf e he => ?_,fun f hf => ?_,?_⟩
  · obtain ⟨e',he',hrun⟩ := hold id e he
    obtain ⟨hgiven,hlast⟩ := h.entries id e' he'
    refine ⟨hnext.symm ▸ hgiven,?_⟩
    change e.lastRun ≤ now
    rcases hrun with hrun | hrun
    · omega
    · omega
  · rw [hnext]
    rcases List.mem_append.mp hf with hf | hf
    · exact h.given f hf
    · obtain ⟨id,-,e,he,-,-,-,hname⟩ := hnew f hf
      rw [hname]
      exact (h.entries id e he).1
  · rcases List.mem_append.mp hf with hf | hf
    · obtain ⟨e',he',hrun⟩ := hold f.entry.id e he
      have hran := h.ran f hf e' he'
      have hlast := (h.entries _ e' he').2
      rcases hrun with hrun | hrun
      · omega
      · omega
    · obtain ⟨id,hid,e',he',hisDue,hpolled,-,hname⟩ := hnew f hf
      change (s.cron.checkDue loc now order).2.entries.get f.entry.id = some e at he
      rw [hname,hget,if_pos hid,he',Option.map_some,CronScheduler.checked,if_pos hisDue] at he
      cases he
      exact hpolled.le
  · rcases List.mem_append.mp hf with hf | hf
    · exact h.occurs f hf
    · obtain ⟨id,-,e,-,hisDue,hpolled,hentry,-⟩ := hnew f hf
      rw [hpolled,hentry]
      exact hisDue.2.1
  · rw [List.map_append,List.nodup_append]
    refine ⟨h.nodup,?_,fun a ha b hb hab => ?_⟩
    · have hids : (((s.cron.checkDue loc now order).1.map CronEntry.id)).Nodup := by
        rw [hdue,List.map_filterMap]
        refine hnodup.filterMap (fun id id' name hid hid' => ?_)
        obtain ⟨d,hd,hname⟩ := Option.map_eq_some_iff.mp hid
        obtain ⟨d',hd',hname'⟩ := Option.map_eq_some_iff.mp hid'
        obtain ⟨-,-,-,-,rfl⟩ := dueEntry_some hd
        obtain ⟨-,-,-,-,rfl⟩ := dueEntry_some hd'
        exact hname.trans hname'.symm
      have hmap : ((s.cron.checkDue loc now order).1.map (fun entry => (⟨entry,now,.started⟩ : Firing))).map
          Firing.occurrence =
          ((s.cron.checkDue loc now order).1.map CronEntry.id).map (fun id => (id,wholeSecond now)) := by
        rw [List.map_map,List.map_map]
        rfl
      rw [hmap]
      exact hids.map (fun _ _ hsame => (Prod.mk.inj hsame).1)
    · obtain ⟨f,hf,rfl⟩ := List.mem_map.mp ha
      obtain ⟨g,hg,rfl⟩ := List.mem_map.mp hb
      obtain ⟨id,-,e,he,hisDue,hpolled,-,hname⟩ := hnew g hg
      obtain ⟨hid,hsecond⟩ := Prod.mk.inj hab
      rw [hname] at hid
      rw [hpolled] at hsecond
      have hran := h.ran f hf e (hid ▸ he)
      have hlast := (h.entries id e he).2
      have hlow := wholeSecond_mono hran
      have hhigh := wholeSecond_mono (hlast.trans hle)
      exact hisDue.2.2 (by omega)

/-- What a step of a goroutine is. -/
lemma fire_cases {i : ℕ} {now unix : ℤ} {launch : Except String String}
    (hs : s.step loc marshal (.fire i now unix launch) = some t) : ∃ f t' stage, s.firings[i]? = some f ∧
      s.executeCronEntry marshal now unix launch f.entry = some (t',stage) ∧ t = t'.setStage i f stage := by
  simp only [step] at hs
  split at hs
  next f hf =>
    split_ifs at hs
    obtain ⟨⟨t',stage⟩,hexec,rfl⟩ := Option.map_eq_some_iff.mp hs
    exact ⟨f,t',stage,hf,hexec,rfl⟩
  next => cases hs

/-- The goroutines and the crontab are none of the business of an entry. -/
lemma executeCronEntry_frame {now unix : ℤ} {launch : Except String String} {entry : CronEntry} {stage : FiringStage}
    (h : s.executeCronEntry marshal now unix launch entry = some (t,stage)) :
    t.cron = s.cron ∧ t.last = s.last ∧ t.firings = s.firings := by
  unfold executeCronEntry at h
  split at h
  · split at h
    · cases h
      exact ⟨rfl,rfl,rfl⟩
    · cases h
      exact ⟨rfl,rfl,rfl⟩
  · obtain ⟨answer,-,hanswer⟩ := Option.map_eq_some_iff.mp h
    cases hanswer
    exact ⟨rfl,rfl,rfl⟩
  · cases h
    exact ⟨rfl,rfl,rfl⟩
  · cases h
    exact ⟨rfl,rfl,rfl⟩

lemma Timely.step (h : Timely loc s) (hs : s.step loc marshal op = some t) : Timely loc t := by
  cases op with
  | kernel op =>
    obtain ⟨system,-,rfl⟩ := Option.map_eq_some_iff.mp hs
    exact h.of_same rfl rfl rfl
  | route now msg =>
    obtain ⟨answer,-,rfl⟩ := Option.map_eq_some_iff.mp hs
    exact h.of_same rfl rfl rfl
  | addCron name cronExpr action targetPID executeDesc executeParams =>
    cases hs
    rcases parseAndAdd_snd s.cron name cronExpr action targetPID executeDesc executeParams with hsame | ⟨entry,hrun,he⟩
    · rw [hsame]
      exact h
    · rw [he]
      exact h.add hrun
  | removeCron id =>
    simp only [CronHost.step,CronScheduler.remove] at hs
    cases hid : s.cron.entries.get id with
    | none =>
      simp only [hid] at hs
      cases hs
      exact h
    | some entry =>
      simp only [hid] at hs
      cases hs
      exact ⟨fun k e he => h.entries k e (Table.get_erase_some he).2,h.given,
        fun f hf e he => h.ran f hf e (Table.get_erase_some he).2,h.occurs,h.nodup⟩
  | poll now order =>
    simp only [CronHost.step] at hs
    split_ifs at hs with hpoll
    cases hs
    exact h.poll hpoll.1 hpoll.2
  | fire i now unix launch =>
    obtain ⟨f,t',stage,hf,hexec,rfl⟩ := fire_cases hs
    obtain ⟨hcron,hlast,hfirings⟩ := executeCronEntry_frame hexec
    rw [← hfirings] at hf
    refine h.of_same hcron hlast ?_
    rw [← hfirings]
    exact map_setStage hf stage
  | finish i durationMs outcome =>
    simp only [CronHost.step] at hs
    split at hs
    next f hf =>
      split at hs
      · cases hs
        exact h.of_same rfl rfl (map_setStage hf .ended)
      · cases hs
    next => cases hs

/-- Only the kernel itself and the goroutines change the registry. -/
lemma registry_cases (hs : s.step loc marshal op = some t) :
    (∃ kernelOp, s.system.step kernelOp = some t.system) ∨
    (∃ now entry t', FireEffect marshal now entry s t' ∧ t.registry = t'.registry) ∨ t.registry = s.registry := by
  cases op with
  | kernel op =>
    obtain ⟨system,hstep,rfl⟩ := Option.map_eq_some_iff.mp hs
    exact .inl ⟨op,hstep⟩
  | route now msg =>
    obtain ⟨answer,-,rfl⟩ := Option.map_eq_some_iff.mp hs
    exact .inr (.inr rfl)
  | addCron name cronExpr action targetPID executeDesc executeParams =>
    cases hs
    exact .inr (.inr rfl)
  | removeCron id =>
    simp only [CronHost.step] at hs
    split at hs
    · cases hs
      exact .inr (.inr rfl)
    · cases hs
      exact .inr (.inr rfl)
  | poll now order =>
    simp only [CronHost.step] at hs
    split_ifs at hs
    cases hs
    exact .inr (.inr rfl)
  | fire i now unix launch =>
    obtain ⟨f,t',stage,hf,hexec,rfl⟩ := fire_cases hs
    exact .inr (.inl ⟨now,f.entry,t',executeCronEntry_effect hexec,rfl⟩)
  | finish i durationMs outcome =>
    simp only [CronHost.step] at hs
    split at hs
    · split at hs
      · cases hs
        exact .inr (.inr rfl)
      · cases hs
    · cases hs

lemma nextPID_le_step (hs : s.step loc marshal op = some t) : s.registry.nextPID ≤ t.registry.nextPID := by
  rcases registry_cases hs with ⟨kernelOp,hstep⟩ | ⟨now,entry,t',heffect,hregistry⟩ | hregistry
  · exact System.nextPID_le_step hstep
  · rw [hregistry,heffect.nextPID]
  · rw [hregistry]

/-- A PID that has been used and is not registered. -/
def Gone (pid : ℕ) (s : CronHost) : Prop := s.registry.get pid = none ∧ pid < s.registry.nextPID

lemma Gone.step {pid : ℕ} (h : Gone pid s) (hs : s.step loc marshal op = some t) : Gone pid t := by
  refine ⟨?_,h.2.trans_le (nextPID_le_step hs)⟩
  rcases registry_cases hs with ⟨kernelOp,hstep⟩ | ⟨now,entry,t',heffect,hregistry⟩ | hregistry
  · exact System.absent_step hstep h.1 h.2
  · rw [hregistry,heffect.table,h.1]
    split_ifs
    · rfl
    · rfl
  · rw [hregistry]
    exact h.1

/-- The process of a PID has been removed. -/
def Removed (trace : List (Transition CronHost HostOp)) (pid : ℕ) : Prop :=
  ∃ e ∈ trace, (e.source.registry.get pid).isSome ∧ e.target.registry.get pid = none

lemma gone_of_removed {trace : List (Transition CronHost HostOp)} {pid : ℕ} (run : Run (step loc marshal) s trace t)
    (h : Removed trace pid) : Gone pid t := by
  obtain ⟨e,he,hsome,hnone⟩ := h
  obtain ⟨before,later,rfl⟩ := List.append_of_mem he
  obtain ⟨-,hstep,hlater⟩ := run.split
  obtain ⟨p,hp⟩ := Option.isSome_iff_exists.mp hsome
  have hgone : Gone pid e.target := ⟨hnone,(Registry.get_bound hp).2.trans_le (nextPID_le_step hstep)⟩
  exact (hlater.invariant (fun _ _ _ h hs => h.step hs) hgone).2

/-- In every run of the kernel with its crontab no entry runs twice in a second, and each runs in seconds of its
schedule only. Entries spawn nothing, touch no process but the one they wake, and route at most the one message that
they are for; and once the process of a target has been removed no entry with this target does anything, even if it was
started before, unless it is to execute a task and a runtime has been left behind. -/
theorem firings_of_run {cfg : Config} {now : ℤ} {runtime : Option RuntimeManager} {executor : Bool}
    {trace : List (Transition CronHost HostOp)}
    (run : Run (step loc marshal) (start cfg now runtime executor) trace s) :
    (s.firings.map Firing.occurrence).Nodup ∧
    (∀ f ∈ s.firings, f.entry.schedule.Matches (loc (wholeSecond f.polledAt))) ∧
    ∀ before e later i now unix launch f, trace = before++e::later → e.label = .fire i now unix launch →
      e.source.firings[i]? = some f → FireEffect marshal now f.entry e.source e.target ∧
      (Removed before f.entry.targetPID →
        (f.entry.action = .execute → e.source.runtimeOf f.entry.targetPID = none) → Untouched e.source e.target) := by
  have htimely := (run.invariant (fun _ _ _ h hs => Timely.step h hs) (timely_start cfg now runtime executor)).2
  refine ⟨htimely.nodup,htimely.occurs,?_⟩
  rintro before e later i now unix launch f rfl hlabel hf
  obtain ⟨hbefore,hstep,-⟩ := run.split
  rw [hlabel] at hstep
  obtain ⟨f',t',stage,hf',hexec,htarget⟩ := fire_cases hstep
  obtain rfl : f = f' := Option.some.inj (hf.symm.trans hf')
  have heffect := executeCronEntry_effect hexec
  rw [htarget]
  refine ⟨⟨heffect.table,heffect.nextPID,heffect.king,heffect.pending,heffect.trace,heffect.broker,heffect.mail,
    heffect.spawn,fun hgone hrun => ?_⟩,fun hremoved hrun => ?_⟩
  · obtain ⟨htable,htrace,hbroker⟩ := heffect.gone hgone hrun
    exact ⟨htable,htrace,hbroker⟩
  · obtain ⟨htable,htrace,hbroker⟩ := heffect.gone (gone_of_removed hbefore hremoved).1 hrun
    exact ⟨htable,htrace,hbroker⟩

/-- How the payload of the message below is written. -/
def marshalReport (_ : String) (_ : List (String × String)) : List UInt8 :=
  "\x7b\"description\":\"write the report\",\"params\":null\x7d".toUTF8.toList

/-- A message is due for an agent, which is killed; it is reaped before the message is sent. -/
def lateMessage : List HostOp :=
  [.kernel (.spawnChild 0 (.ok "") (Registry.agentRequest 1 "lead" .lead)),
    .addCron "report" "30 * * * * *" "message" 2 "write the report" [],.poll (CronPoller.noon*nanos) ["cron-1"],
    .kernel (.killChild 0 (fun _ => [1,2]) (some ["1"]) 2 true)]

def reapKilled : HostOp := .kernel (.reapZombies (61*second) [1,2] (fun _ => [1,2]))

theorem firings_of_run_lateMessage : ∃ trace s t,
    Run (step Location.utc marshalReport) (start King.exampleConfig 0 none true) trace s ∧ Removed trace 2 ∧
    s.step Location.utc marshalReport (.fire 0 0 0 (.ok "")) = some t ∧
    t.firings.map Firing.occurrence = [("cron-1",CronPoller.noon)] ∧ Untouched s t := by
  obtain ⟨s',s,t,f,p,hs',hs,ht,hf,htarget,haction,hp,hnone,hfirings⟩ : ∃ s' s t f p,
      exec (step Location.utc marshalReport) lateMessage (start King.exampleConfig 0 none true) = some s' ∧
      s'.step Location.utc marshalReport reapKilled = some s ∧
      s.step Location.utc marshalReport (.fire 0 0 0 (.ok "")) = some t ∧ s.firings[0]? = some f ∧
      f.entry.targetPID = 2 ∧ f.entry.action = .message ∧ s'.registry.get 2 = some p ∧ s.registry.get 2 = none ∧
      t.firings.map Firing.occurrence = [("cron-1",CronPoller.noon)] :=
    ⟨_,_,_,_,_,rfl,rfl,rfl,rfl,rfl,rfl,rfl,rfl,rfl⟩
  have hbefore := (Run.of_exec hs').snoc hs
  have hremoved : Removed (transitions (step Location.utc marshalReport) lateMessage
      (start King.exampleConfig 0 none true)++[⟨s',reapKilled,s⟩]) 2 := by
    refine ⟨_,List.mem_append_right _ (List.mem_singleton_self _),?_,hnone⟩
    rw [hp]
    rfl
  have heffect := (firings_of_run (hbefore.snoc ht)).2.2 _ _ [] 0 0 0 (.ok "") f rfl rfl hf
  refine ⟨_,s,t,hbefore,hremoved,ht,hfirings,heffect.2 ?_ ?_⟩
  · rw [htarget]
    exact hremoved
  · rw [haction]
    exact fun hexecute => by cases hexecute

end CronHost
end HiveKernel
