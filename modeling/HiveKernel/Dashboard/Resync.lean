import HiveKernel.Dashboard.Replication
import HiveKernel.Lib.Overwrite
import HiveKernel.Lib.Since
import HiveKernel.Process.TreeWalks

/-! The dashboard between the event stream and its resyncs. A resync asks the kernel for the king, then for the
processes below it, and only then replaces the tree, while the stream goes on, ends and is taken up again after the
last event that was applied. -/
namespace HiveKernel.Dashboard
open Lib

def internalRoleToProto : AgentRole → ℕ
  | .kernel => 0
  | .daemon => 1
  | .agent => 2
  | .architect => 3
  | .lead => 4
  | .worker => 5
  | .task => 6

def internalCogToProto : CognitiveTier → ℕ
  | .strategic => 0
  | .tactical => 1
  | .operational => 2

def internalStateToProto : ProcessState → ℕ
  | .idle => 0
  | .running => 1
  | .blocked => 2
  | .sleeping => 3
  | .dead => 4
  | .zombie => 5

def roleNames : List (ℕ × String) :=
  [(0,"kernel"),(1,"daemon"),(2,"agent"),(3,"architect"),(4,"lead"),(5,"worker"),(6,"task")]

def tierNames : List (ℕ × String) := [(0,"strategic"),(1,"tactical"),(2,"operational")]

def stateNames : List (ℕ × String) :=
  [(0,"idle"),(1,"running"),(2,"blocked"),(3,"sleeping"),(4,"dead"),(5,"zombie")]

/-- The context usage and the current task are left out: the kernel never sets them. -/
structure ProcessInfo where
  pid : ℕ
  ppid : ℕ
  user : String
  name : String
  role : ℕ
  cognitiveTier : ℕ
  model : String
  state : ℕ
  vps : String
  tokensConsumed : ℕ
  childCount : ℕ
  startedAt : ℕ
  runtimeAddr : String

def processToProto (p : Process) : ProcessInfo where
  pid := p.pid
  ppid := p.ppid
  user := p.user
  name := p.name
  role := internalRoleToProto p.role
  cognitiveTier := internalCogToProto p.cognitiveTier
  model := p.model
  state := internalStateToProto p.state
  vps := p.vps
  tokensConsumed := p.tokensConsumed.toNat
  childCount := 0
  startedAt := (p.startedAt/1000000000 % 2^64).toNat
  runtimeAddr := p.runtimeAddr

/-- The name of a number, or the number itself. -/
def nameOf (names : List (ℕ × String)) (n : ℕ) : String := (names.lookup n).getD (toString n)

def procToDict (p : ProcessInfo) : Node where
  pid := p.pid
  ppid := p.ppid
  name := p.name
  user := p.user
  role := nameOf roleNames p.role
  roleId := p.role
  cognitiveTier := nameOf tierNames p.cognitiveTier
  tierId := p.cognitiveTier
  model := p.model
  state := nameOf stateNames p.state
  stateId := p.state
  vps := p.vps
  tokensConsumed := p.tokensConsumed
  childCount := p.childCount
  startedAt := p.startedAt
  runtimeAddr := p.runtimeAddr

/-- An unknown process is an error. -/
def getProcessInfo (r : Registry) (pid : ℕ) : Option ProcessInfo :=
  (r.get pid).map (fun p => { processToProto p with childCount := r.countChildren pid % 2^32 })

/-- Everything below the king. -/
def listChildren (r : Registry) (order : List ℕ → List ℕ) : Option (List ProcessInfo) :=
  (r.getDescendants order 1).map (List.map processToProto)

/-- The tree that a resync makes of the two answers. -/
def newCache (king : ProcessInfo) (children : List ProcessInfo) : Table ℕ Node :=
  (king::children).foldl (fun cache info => cache.set info.pid (procToDict info)) .empty

/-- An answer of the kernel. How much it had emitted by then is recorded for the statements. -/
structure Answer (α : Type) where
  value : α
  emitted : ℕ

/-- A resync under way, with the answers it has got. -/
inductive Resync
  | king (info : Answer ProcessInfo)
  | tree (info : Answer ProcessInfo) (children : Answer (List ProcessInfo))

/-- The kernel and the dashboard. A stream is the position of the event that comes next. -/
structure Board (F : Type) where
  source : Source
  replica : Replica F := {}
  stream : Option ℕ := none
  resyncs : Table ℕ Resync := .empty

inductive BoardOp
  | kernel (op : SourceOp)
  | getKing (resync : ℕ)
  | listChildren (resync : ℕ) (order : List ℕ → List ℕ)
  | replace (resync : ℕ)
  | giveUp (resync : ℕ)
  | subscribe
  | deliver (now : ℤ)
  | lose
  | hangUp

namespace Board
variable {F : Type}

def start : Board F := { source := .start }

def answered {α : Type} (b : Board F) (value : α) : Answer α := ⟨value,b.source.emissions.length⟩

/-- Apply the next event. An exception ends the stream. -/
def deliver (py : Python F) (now : ℤ) (b : Board F) (i : ℕ) (evt : ProcessEvent) : Board F :=
  match b.replica.applyEvent py now evt with
  | (.ok _,replica) => { b with replica := replica, stream := some (i+1) }
  | (.error _,replica) => { b with replica := replica, stream := none }

def step (py : Python F) (b : Board F) : BoardOp → Option (Board F)
  | .kernel op => (b.source.step op).map (fun source => { b with source := source })
  | .getKing resync => match b.resyncs.get resync,getProcessInfo b.source.registry 1 with
    | none,some info => some { b with resyncs := b.resyncs.set resync (.king (b.answered info)) }
    | _,_ => none
  | .listChildren resync order => match b.resyncs.get resync,Dashboard.listChildren b.source.registry order with
    | some (.king info),some children =>
      some { b with resyncs := b.resyncs.set resync (.tree info (b.answered children)) }
    | _,_ => none
  | .replace resync => match b.resyncs.get resync with
    | some (.tree info children) => some
        { b with
          replica := { b.replica with treeCache := newCache info.value children.value }
          resyncs := b.resyncs.erase resync }
    | _ => none
  | .giveUp resync => some { b with resyncs := b.resyncs.erase resync }
  -- the stream starts after the last event that was applied
  | .subscribe => match b.stream with
    | none => some { b with stream := some b.replica.lastSeq }
    | some _ => none
  | .deliver now => match b.stream with
    | none => none
    | some i => (b.source.events[i]?).map (b.deliver py now i)
  -- the log has dropped the event, or the channel was full
  | .lose => match b.stream with
    | none => none
    | some i => (b.source.events[i]?).map (fun _ => { b with stream := some (i+1) })
  | .hangUp => some { b with stream := none }

/-- The position from which events are applied, now or when the stream is taken up again. -/
def position (b : Board F) : ℕ := b.stream.getD b.replica.lastSeq

/-- The stream has delivered everything that was emitted. -/
def CaughtUp (b : Board F) : Prop := b.stream = some b.source.events.length

instance (b : Board F) : Decidable b.CaughtUp := inferInstanceAs (Decidable (_ = _))

end Board

/-- The parent is left out: a move emits no event. -/
structure Label where
  name : String
  state : String
  deriving DecidableEq, Repr

def Summary.label (s : Summary) : Label := ⟨s.name,s.state⟩

def ProcessInfo.label (info : ProcessInfo) : Label := (procToDict info).summary.label

def label (p : Process) : Label := (Source.summary p).label

/-- What an event does to the node of a process. -/
def relabel (k : ℕ) (l : Option Label) (evt : ProcessEvent) : Option Label :=
  if evt.pid = k then
    if evt.type = .spawned then some (Replica.spawnedNode evt).summary.label
    else if evt.type = .stateChanged then l.map (fun l => { l with state := evt.newState })
    else if evt.type = .removed then none
    else l
  else l

/-- The node of a process by the events alone. -/
def told (k : ℕ) (events : List ProcessEvent) : Option Label := events.foldl (relabel k) none

lemma told_snoc (k : ℕ) (events : List ProcessEvent) (evt : ProcessEvent) :
    told k (events++[evt]) = relabel k (told k events) evt := by
  simp only [told,List.foldl_append,List.foldl_cons,List.foldl_nil]

lemma relabel_eq_map_shown (view : ℕ → Option Summary) (evt : ProcessEvent) (k : ℕ) :
    (Replica.shown view evt k).map Summary.label = relabel k ((view k).map Summary.label) evt := by
  unfold Replica.shown relabel
  by_cases hpid : evt.pid = k
  · subst hpid
    rw [if_pos rfl]
    split_ifs
    · rw [Function.update_self]
      rfl
    · rw [Function.update_self]
      cases view evt.pid with
      | none => rfl
      | some s => rfl
    · rw [Function.update_self]
      rfl
    · rfl
  · have hother : ∀ v, Function.update view evt.pid v k = view k :=
      fun v => Function.update_of_ne (fun h => hpid h.symm) _ _
    rw [if_neg hpid]
    split_ifs
    · rw [hother]
    · rw [hother]
    · rw [hother]
    · rfl

/-- Nodes that differ in their state only. -/
def SameNode (l l' : Option Label) : Prop := l.map Label.name = l'.map Label.name

lemma SameNode.relabel {l l' : Option Label} (h : SameNode l l') (k : ℕ) (evt : ProcessEvent) :
    SameNode (Dashboard.relabel k l evt) (Dashboard.relabel k l' evt) := by
  unfold SameNode at h ⊢
  unfold Dashboard.relabel
  split_ifs
  · rfl
  · rw [Option.map_map,Option.map_map]
    exact h
  · rfl
  · exact h
  · exact h

lemma SameNode.foldl {l l' : Option Label} (h : SameNode l l') (k : ℕ) (events : List ProcessEvent) :
    SameNode (events.foldl (Dashboard.relabel k) l) (events.foldl (Dashboard.relabel k) l') := by
  induction events generalizing l l' with
  | nil => exact h
  | cons evt events ih => exact ih (h.relabel k evt)

/-- Every event overwrites: it sets the node, its state, or takes it away. -/
lemma overwrites_relabel (k : ℕ) : Overwrites (relabel k) := by
  intro l evt between
  by_cases hpid : evt.pid = k
  · by_cases hchanged : evt.type = .stateChanged
    · have hnot : ¬evt.type = .spawned := by
        rw [hchanged]
        decide
      have hact : ∀ l, relabel k l evt = l.map (fun l => { l with state := evt.newState }) := by
        intro l
        rw [relabel,if_pos hpid,if_neg hnot,if_pos hchanged]
      have hsame : SameNode (relabel k l evt) l := by
        rw [hact,SameNode,Option.map_map]
        rfl
      have hafter := hsame.foldl k between
      rw [hact (between.foldl (relabel k) l),hact (between.foldl (relabel k) (relabel k l evt))]
      unfold SameNode at hafter
      cases h : between.foldl (relabel k) l with
      | none =>
        rw [h] at hafter
        rw [Option.map_eq_none_iff.mp hafter]
      | some a =>
        rw [h] at hafter
        obtain ⟨a',ha',hname⟩ := Option.map_eq_some_iff.mp hafter
        rw [ha',Option.map_some,Option.map_some,hname]
    · unfold relabel
      simp only [if_pos hpid,if_neg hchanged]
      split_ifs
      · rfl
      · rfl
      · rfl
  · have hact : ∀ l, relabel k l evt = l := fun l => if_neg hpid
    rw [hact l]

/-- Under such a type a logged event reads like a change of the table. -/
def TreeChange (t : EventType) : Prop := t = .spawned ∨ t = .stateChanged ∨ t = .removed

lemma relabel_of_not_treeChange {k : ℕ} {evt : ProcessEvent} (h : evt.pid = k → ¬TreeChange evt.type)
    (l : Option Label) : relabel k l evt = l := by
  unfold relabel
  split_ifs with hpid hspawned hchanged hremoved
  · exact absurd (.inl hspawned) (h hpid)
  · exact absurd (.inr (.inl hchanged)) (h hpid)
  · exact absurd (.inr (.inr hremoved)) (h hpid)
  · rfl
  · rfl

lemma relabel_stamp (k seq : ℕ) (now : ℤ) (lookup : TraceLookup) (evt : ProcessEvent) (l : Option Label) :
    relabel k l (EventLog.stamp seq now lookup evt) = relabel k l evt := by
  obtain ⟨id,span,h⟩ := EventLog.stamp_eq seq now lookup evt
  rw [h]
  rfl

namespace Source
variable {s t : Source} {k : ℕ}

/-- The registered node of a process, without its parent. -/
def labelOf (s : Source) (k : ℕ) : Option Label := (s.view k).map Summary.label

/-- The events tell the name and the state of a process, and no request of its own that is under way will log a
change. -/
structure Tells (k : ℕ) (s : Source) : Prop where
  told : s.labelOf k = told k s.events
  calls : ∀ call name req, s.calls.get call = some (.log k name req) → ¬TreeChange req.eventType

lemma events_emit (s : Source) (r : Registry) (m : Moment) (evt : ProcessEvent) :
    ((s.withRegistry r).emit m evt).events =
      s.events++[EventLog.stamp (0+s.emissions.length+1) m.now m.lookup evt] :=
  EventLog.emitted_snoc 0 s.emissions ⟨m.now,m.lookup,evt⟩

lemma length_events (s : Source) : s.events.length = s.emissions.length := EventLog.length_emitted 0 _

lemma Tells.emit (h : s.Tells k) {r : Registry} {m : Moment} {evt : ProcessEvent}
    (hlabel : (s.withRegistry r).labelOf k = relabel k (s.labelOf k) evt) :
    ((s.withRegistry r).emit m evt).Tells k := by
  refine ⟨?_,h.calls⟩
  rw [events_emit,told_snoc,relabel_stamp,← h.told]
  exact hlabel

lemma Tells.change (h : s.Tells k) {r : Registry} {m : Moment} {evt : ProcessEvent}
    (hview : (s.withRegistry r).view k = Replica.shown s.view evt k) : ((s.withRegistry r).emit m evt).Tells k := by
  refine h.emit ?_
  rw [labelOf,hview]
  exact relabel_eq_map_shown s.view evt k

lemma Tells.silent (h : s.Tells k) {r : Registry} (hlabel : (s.withRegistry r).labelOf k = s.labelOf k) :
    (s.withRegistry r).Tells k := ⟨hlabel.trans h.told,h.calls⟩

lemma Tells.register (h : s.Tells k) (m : Moment) (p : Process) : (s.register m p).Tells k := by
  refine h.change ?_
  change ((s.registry.register m.now p).get k).map summary = Function.update s.view s.registry.nextPID _ k
  rw [Registry.get_register,Function.update_apply]
  split_ifs
  · simp [Replica.spawnedNode,Node.summary,spawnedEvent,string_ne_empty,summary,Registry.stamped]
  · rfl

lemma Tells.setState (h : s.Tells k) (m : Moment) (pid : ℕ) (state : ProcessState) :
    (s.setState m pid state).Tells k := by
  unfold Source.setState
  cases hp : s.registry.get pid with
  | none => exact h
  | some p =>
    have hview : (s.withRegistry (s.registry.setState m.now pid state)).view k =
        if k = pid then some { summary p with state := state.string } else s.view k := by
      change ((s.registry.setState m.now pid state).get k).map summary = _
      rw [Registry.get_setState]
      split_ifs with hk
      · rw [hk,hp]
        rfl
      · rfl
    dsimp only
    split_ifs with hsame
    · refine h.silent ?_
      rw [labelOf,labelOf,hview]
      split_ifs with hk
      · rw [hk,view,hp,← hsame]
        rfl
      · rfl
    · refine h.change ?_
      rw [hview]
      change _ = Function.update s.view pid ((s.view pid).map _) k
      rw [Function.update_apply]
      split_ifs
      · rw [view,hp]
        rfl
      · rfl

lemma Tells.remove (h : s.Tells k) (m : Moment) (pid : ℕ) : (s.remove m pid).Tells k := by
  unfold Source.remove
  cases s.registry.get pid with
  | none => exact h
  | some p =>
    refine h.change ?_
    change ((s.registry.remove pid).get k).map summary = Function.update s.view pid none k
    rw [Registry.get_remove,Function.update_apply]
    split_ifs
    · rfl
    · rfl

lemma Tells.move (h : s.Tells k) (now : ℤ) (pid newParentPID : ℕ) : (s.move now pid newParentPID).Tells k := by
  unfold Source.move
  cases hp : s.registry.get pid with
  | none => exact h
  | some p =>
    dsimp only
    rw [Registry.send_of_state_none _ _ _ rfl]
    refine h.silent ?_
    change (((s.registry.setParent now pid newParentPID).get k).map summary).map Summary.label = _
    rw [Registry.setParent,Registry.get_update]
    split_ifs with hk
    · rw [labelOf,view,hk,hp]
      rfl
    · rfl

lemma Tells.closeCall (h : s.Tells k) (call : ℕ) : (s.closeCall call).Tells k :=
  ⟨h.told,fun i name req hi => h.calls i name req (Table.get_erase_some hi).2⟩

lemma Tells.openCall (h : s.Tells k) {call : ℕ} {c : Call} (hopen : s.openCall call c = some t)
    (hc : ∀ name req, c = .log k name req → ¬TreeChange req.eventType) : t.Tells k := by
  unfold Source.openCall at hopen
  split at hopen
  · cases hopen
  · cases hopen
    refine ⟨h.told,fun i name req hi => ?_⟩
    rcases Table.get_set_some hi with ⟨-,hnew⟩ | ⟨-,hold⟩
    · exact hc name req hnew.symm
    · exact h.calls i name req hold

lemma Tells.step (h : s.Tells k) {op : SourceOp} (hs : s.step op = some t)
    (hop : ∀ call req, op = .findCaller call k req → ¬TreeChange req.eventType) : t.Tells k := by
  cases op with
  | register m p =>
    cases hs
    exact h.register m p
  | setState m pid state =>
    cases hs
    exact h.setState m pid state
  | remove m pid =>
    cases hs
    exact h.remove m pid
  | findParent call pid newParentPID =>
    simp only [Source.step] at hs
    split at hs
    · cases hs
      exact h
    · exact h.openCall hs (fun name req hc => by cases hc)
  | move now call =>
    simp only [Source.step] at hs
    split at hs
    next pid newParentPID hcall =>
      cases hs
      exact (h.closeCall call).move now pid newParentPID
    next => cases hs
  | findCaller call callerPID req =>
    refine h.openCall hs (fun name req' hc => ?_)
    cases hc
    exact hop call req rfl
  | log m call =>
    simp only [Source.step] at hs
    split at hs
    next callerPID name req hcall =>
      cases hs
      refine (h.closeCall call).emit (r := s.registry) ?_
      refine (relabel_of_not_treeChange (fun hpid => ?_) _).symm
      obtain rfl : callerPID = k := hpid
      exact h.calls call name req hcall
    next => cases hs

lemma events_openCall {call : ℕ} {c : Call} (h : s.openCall call c = some t) : t.events = s.events := by
  unfold Source.openCall at h
  split at h
  · cases h
  · cases h
    rfl

lemma events_step {op : SourceOp} (hs : s.step op = some t) : s.events <+: t.events := by
  have hemit : ∀ (r : Registry) (m : Moment) (evt : ProcessEvent),
      s.events <+: ((s.withRegistry r).emit m evt).events := by
    intro r m evt
    rw [events_emit]
    exact List.prefix_append _ _
  cases op with
  | register m p =>
    cases hs
    exact hemit _ m _
  | setState m pid state =>
    cases hs
    unfold Source.setState
    cases s.registry.get pid with
    | none => exact List.prefix_rfl
    | some p =>
      dsimp only
      split_ifs
      · exact List.prefix_rfl
      · exact hemit _ m _
  | remove m pid =>
    cases hs
    unfold Source.remove
    cases s.registry.get pid with
    | none => exact List.prefix_rfl
    | some p => exact hemit _ m _
  | findParent call pid newParentPID =>
    simp only [Source.step] at hs
    split at hs
    · cases hs
      exact List.prefix_rfl
    · rw [events_openCall hs]
  | move now call =>
    simp only [Source.step] at hs
    split at hs
    next pid newParentPID hcall =>
      cases hs
      unfold Source.move
      split
      · exact List.prefix_rfl
      · exact List.prefix_rfl
    next => cases hs
  | findCaller call callerPID req => rw [events_openCall hs]
  | log m call =>
    simp only [Source.step] at hs
    split at hs
    next callerPID name req hcall =>
      cases hs
      exact hemit s.registry m _
    next => cases hs

/-- Events are numbered one after the other. -/
lemma seq_of_getElem {seq i : ℕ} {calls : List EventLog.Emission} {evt : ProcessEvent}
    (h : (EventLog.emitted seq calls)[i]? = some evt) : evt.seq = seq+i+1 := by
  induction calls generalizing seq i with
  | nil => cases h
  | cons call calls ih =>
    cases i with
    | zero =>
      obtain rfl := Option.some.inj h
      exact EventLog.seq_stamp _ _ _ _
    | succ i =>
      have hseq : evt.seq = seq+1+i+1 := ih h
      omega

lemma seq_events {i : ℕ} {evt : ProcessEvent} (h : s.events[i]? = some evt) : evt.seq = i+1 := by
  simpa using seq_of_getElem h

end Source

lemma label_processToProto (p : Process) : (processToProto p).label = label p := by
  have hstate : nameOf stateNames (internalStateToProto p.state) = p.state.string := by
    cases p.state <;> rfl
  exact congrArg (Label.mk p.name) hstate

/-- What an answer says of a process is what the events before it tell. -/
def Says (k : ℕ) (events : List ProcessEvent) (emitted : ℕ) (info : ProcessInfo) : Prop :=
  info.pid = k → some info.label = told k (events.take emitted)

/-- The answers of a resync agree with the events at the time of each. -/
def Resync.Sound (k : ℕ) (events : List ProcessEvent) : Resync → Prop
  | .king info => info.emitted ≤ events.length ∧ info.value.pid = 1 ∧ Says k events info.emitted info.value
  | .tree info children =>
    (info.emitted ≤ events.length ∧ info.value.pid = 1 ∧ Says k events info.emitted info.value) ∧
    children.emitted ≤ events.length ∧ (∀ child ∈ children.value, Says k events children.emitted child) ∧
    ((∀ child ∈ children.value, child.pid ≠ k) → k ≠ 1 → told k (events.take children.emitted) = none)

lemma take_eq_of_extends {events events' : List ProcessEvent} (h : events <+: events') {n : ℕ}
    (hn : n ≤ events.length) : events'.take n = events.take n := by
  obtain ⟨later,rfl⟩ := h
  exact List.take_append_of_le_length hn

lemma Resync.Sound.mono {k : ℕ} {events events' : List ProcessEvent} {r : Resync} (h : r.Sound k events)
    (hle : events <+: events') : r.Sound k events' := by
  have hlength := hle.length_le
  cases r with
  | king info =>
    obtain ⟨hn,hpid,htells⟩ := h
    refine ⟨Nat.le_trans hn hlength,hpid,?_⟩
    unfold Says
    rw [take_eq_of_extends hle hn]
    exact htells
  | tree info children =>
    obtain ⟨⟨hn,hpid,htells⟩,hm,hall,hrest⟩ := h
    refine ⟨⟨Nat.le_trans hn hlength,hpid,?_⟩,Nat.le_trans hm hlength,?_,?_⟩
    · unfold Says
      rw [take_eq_of_extends hle hn]
      exact htells
    · unfold Says
      rw [take_eq_of_extends hle hm]
      exact hall
    · rw [take_eq_of_extends hle hm]
      exact hrest

/-- Each node of the new tree is from an answer. -/
lemma get_newCache (king : ProcessInfo) (children : List ProcessInfo) (k : ℕ) :
    (∃ info ∈ king::children, info.pid = k ∧ (newCache king children).get k = some (procToDict info)) ∨
    ((∀ info ∈ king::children, info.pid ≠ k) ∧ (newCache king children).get k = none) := by
  unfold newCache
  induction king::children using List.reverseRecOn with
  | nil => exact .inr ⟨(fun _ h => absurd h List.not_mem_nil),rfl⟩
  | append_singleton infos info ih =>
    rw [List.foldl_append,List.foldl_cons,List.foldl_nil,Table.get_set]
    split_ifs with hk
    · exact .inl ⟨info,by simp,hk.symm,rfl⟩
    · rcases ih with ⟨info',hin,hpid,hget⟩ | ⟨hnone,hget⟩
      · exact .inl ⟨info',by simp [hin],hpid,hget⟩
      · refine .inr ⟨fun info' hin => ?_,hget⟩
        rcases List.mem_append.mp hin with hin | hin
        · exact hnone info' hin
        · rw [List.mem_singleton.mp hin]
          exact fun h => hk h.symm

lemma lastSeq_recordMessage {F : Type} (now : ℤ) (s : Replica F) (evt : ProcessEvent) :
    (s.recordMessage now evt).lastSeq = s.lastSeq := by
  simp only [Replica.recordMessage]

lemma lastSeq_applyNote {F : Type} (py : Python F) (now : ℤ) (s : Replica F) (evt : ProcessEvent) :
    (s.applyNote py now evt).2.lastSeq = s.lastSeq := by
  unfold Replica.applyNote
  split_ifs
  · rfl
  · unfold Replica.applyLlmCall
    split
    · rfl
    · rfl
  · rfl
  · rfl
  · rfl
  · unfold Replica.applyMessageSent
    dsimp only
    split_ifs
    · cases Replica.taskEntry py now evt with
      | error e => exact lastSeq_recordMessage now s evt
      | ok entry => simp only [Replica.recordTask,lastSeq_recordMessage]
    · exact lastSeq_recordMessage now s evt
  · rfl

/-- The number is taken over before anything can go wrong. -/
lemma lastSeq_applyEvent {F : Type} (py : Python F) (now : ℤ) (s : Replica F) (evt : ProcessEvent) :
    (s.applyEvent py now evt).2.lastSeq = evt.seq := by
  unfold Replica.applyEvent
  dsimp only
  split_ifs
  · rfl
  · unfold Replica.applyStateChanged
    split
    · rfl
    · rfl
  · rfl
  · exact lastSeq_applyNote py now _ evt

namespace Board
variable {F : Type} {py : Python F} {b c : Board F} {k : ℕ}

/-- The name and the state that the dashboard shows. -/
def labelOf (b : Board F) (k : ℕ) : Option Label := (b.replica.view k).map Summary.label

/-- What the dashboard can rely on for a process, whatever is lost: the kernel's events, the answers that it has, and
where the stream is. -/
structure Sound (k : ℕ) (b : Board F) : Prop where
  source : b.source.Tells k
  answers : ∀ i r, b.resyncs.get i = some r → r.Sound k b.source.events
  lastSeq : b.replica.lastSeq ≤ b.position
  position : b.position ≤ b.source.events.length

/-- What is shown is what a replay from `l` has made of the tree at `p`. A stream that is taken up again goes back
to the last event that was applied, but only if none was applied since the tree was replaced. -/
def Tracks (k : ℕ) (b : Board F) : Prop :=
  ∃ l p, l ≤ p ∧ p ≤ b.source.events.length ∧ l ≤ b.position ∧
    b.labelOf k = ((b.source.events.take b.position).drop l).foldl (relabel k) (told k (b.source.events.take p)) ∧
    (b.position = b.replica.lastSeq ∨ l = b.position)

/-- Once the stream has caught up, what is shown is what is registered. -/
lemma Tracks.caughtUp (h : b.Tracks k) (hb : b.Sound k) (hcaught : b.CaughtUp) :
    b.labelOf k = b.source.labelOf k := by
  obtain ⟨l,p,hlp,-,-,hlabel,-⟩ := h
  have hposition : b.position = b.source.events.length := by
    rw [position,hcaught]
    rfl
  rw [hlabel,hposition,List.take_length,hb.source.told]
  exact (overwrites_relabel k).catchUp none b.source.events hlp

/-- Whether the event is applied or raises, it has been applied to the tree. -/
lemma deliver_effect (py : Python F) (now : ℤ) (b : Board F) {i : ℕ} {evt : ProcessEvent}
    (hevt : b.source.events[i]? = some evt) (k : ℕ) :
    (b.deliver py now i evt).source = b.source ∧ (b.deliver py now i evt).resyncs = b.resyncs ∧
    (b.deliver py now i evt).replica.lastSeq = i+1 ∧ (b.deliver py now i evt).position = i+1 ∧
    (b.deliver py now i evt).labelOf k = relabel k (b.labelOf k) evt := by
  have hseq : (b.replica.applyEvent py now evt).2.lastSeq = i+1 :=
    (lastSeq_applyEvent py now b.replica evt).trans (Source.seq_events hevt)
  have hview : ((b.replica.applyEvent py now evt).2.view k).map Summary.label = relabel k (b.labelOf k) evt := by
    rw [Replica.view_applyEvent]
    exact relabel_eq_map_shown _ evt k
  unfold deliver
  rcases h : b.replica.applyEvent py now evt with ⟨e | delta,replica⟩
  · rw [h] at hseq hview
    exact ⟨rfl,rfl,hseq,hseq,hview⟩
  · rw [h] at hseq hview
    exact ⟨rfl,rfl,hseq,rfl,hview⟩

/-- A process does not log under the type of a change. -/
def Honest (k : ℕ) (op : BoardOp) : Prop :=
  ∀ call req, op = .kernel (.findCaller call k req) → ¬TreeChange req.eventType

/-- A listing visits every process, and a process that is registered then is the king or below it. -/
def Lists (k : ℕ) (e : Transition (Board F) BoardOp) : Prop :=
  ∀ resync order, e.label = .listChildren resync order →
    (∀ path, e.source.source.registry.Enumerates (order path)) ∧
    ((e.source.source.registry.get k).isSome → k = 1 ∨ Relation.TransGen e.source.source.registry.ChildOf k 1)

lemma says_now (h : b.source.Tells k) {p : Process} {info : ProcessInfo} (hp : b.source.registry.get p.pid = some p)
    (hpid : info.pid = p.pid) (hlabel : info.label = label p) :
    Says k b.source.events b.source.emissions.length info := by
  intro hk
  rw [← Source.length_events,List.take_length,← h.told,Source.labelOf,Source.view,← hk,hpid,hp,hlabel]
  rfl

lemma sound_set (h : b.Sound k) {resync : ℕ} {r : Resync} (hr : r.Sound k b.source.events) :
    Sound k { b with resyncs := b.resyncs.set resync r } := by
  refine ⟨h.source,fun i r' hi => ?_,h.lastSeq,h.position⟩
  rcases Table.get_set_some hi with ⟨-,rfl⟩ | ⟨-,hold⟩
  · exact hr
  · exact h.answers i r' hold

lemma sound_getKing (h : b.Sound k) {resync : ℕ} (hs : b.step py (.getKing resync) = some c) : c.Sound k := by
  simp only [step] at hs
  split at hs
  next info _ hinfo =>
    cases hs
    obtain ⟨p,hp,rfl⟩ := Option.map_eq_some_iff.mp hinfo
    have hpid : p.pid = 1 := Registry.get_pid hp
    refine sound_set h ⟨(Source.length_events _).ge,hpid,?_⟩
    refine says_now h.source (p := p) ?_ rfl (label_processToProto p)
    rw [hpid]
    exact hp
  next => cases hs

lemma sound_listChildren (h : b.Sound k) {resync : ℕ} {order : List ℕ → List ℕ}
    (hs : b.step py (.listChildren resync order) = some c)
    (hvisits : ∀ path, b.source.registry.Enumerates (order path))
    (hbelow : (b.source.registry.get k).isSome → k = 1 ∨ Relation.TransGen b.source.registry.ChildOf k 1) :
    c.Sound k := by
  simp only [step] at hs
  split at hs
  next info children hking hchildren =>
    cases hs
    obtain ⟨descendants,hd,rfl⟩ := Option.map_eq_some_iff.mp hchildren
    refine sound_set h ⟨h.answers resync _ hking,(Source.length_events _).ge,?_,?_⟩
    · intro child hchild
      obtain ⟨p,hp,rfl⟩ := List.mem_map.mp hchild
      exact says_now h.source (Registry.mem_collectDescendants hd hp).1 rfl (label_processToProto p)
    · intro hnone hk
      change told k (b.source.events.take b.source.emissions.length) = none
      rw [← Source.length_events,List.take_length,← h.source.told,Source.labelOf,Option.map_eq_none_iff,
        Source.view_eq_none]
      by_contra hsome
      have htree := (hbelow (Option.isSome_iff_ne_none.mpr hsome)).resolve_left hk
      let v : b.source.registry.Visits := ⟨order,hvisits⟩
      obtain ⟨p,hp,hpid⟩ := List.mem_map.mp ((Registry.mem_collectDescendants_iff v hd k).mpr htree)
      exact hnone _ (List.mem_map_of_mem hp) hpid
  next => cases hs

lemma Sound.step (h : b.Sound k) {op : BoardOp} (hs : b.step py op = some c) (hop : Honest k op)
    (hlists : Lists k ⟨b,op,c⟩) : c.Sound k := by
  cases op with
  | kernel op =>
    obtain ⟨source,hsource,rfl⟩ := Option.map_eq_some_iff.mp hs
    have hle := Source.events_step hsource
    refine ⟨h.source.step hsource (fun call req he => hop call req (by rw [he])),fun i r hi => ?_,h.lastSeq,?_⟩
    · exact (h.answers i r hi).mono hle
    · exact Nat.le_trans h.position hle.length_le
  | getKing resync => exact sound_getKing h hs
  | listChildren resync order =>
    obtain ⟨hvisits,hbelow⟩ := hlists resync order rfl
    exact sound_listChildren h hs hvisits hbelow
  | replace resync =>
    simp only [Board.step] at hs
    split at hs
    next info children _ =>
      cases hs
      exact ⟨h.source,fun i r hi => h.answers i r (Table.get_erase_some hi).2,h.lastSeq,h.position⟩
    next => cases hs
  | giveUp resync =>
    cases hs
    exact ⟨h.source,fun i r hi => h.answers i r (Table.get_erase_some hi).2,h.lastSeq,h.position⟩
  | subscribe =>
    simp only [Board.step] at hs
    split at hs
    next hstream =>
      cases hs
      refine ⟨h.source,h.answers,Nat.le_refl _,?_⟩
      exact Nat.le_trans h.lastSeq h.position
    next => cases hs
  | deliver now =>
    simp only [Board.step] at hs
    split at hs
    next => cases hs
    next i hstream =>
      obtain ⟨evt,hevt,rfl⟩ := Option.map_eq_some_iff.mp hs
      obtain ⟨hsource,hresyncs,hlast,hposition,-⟩ := deliver_effect py now b hevt k
      have hlt : i < b.source.events.length := (List.getElem?_eq_some_iff.mp hevt).1
      refine ⟨?_,?_,?_,?_⟩
      · rw [hsource]
        exact h.source
      · rw [hsource,hresyncs]
        exact h.answers
      · rw [hlast,hposition]
      · rw [hposition,hsource]
        exact hlt
  | lose =>
    simp only [Board.step] at hs
    split at hs
    next => cases hs
    next i hstream =>
      obtain ⟨evt,hevt,rfl⟩ := Option.map_eq_some_iff.mp hs
      have hlt : i < b.source.events.length := (List.getElem?_eq_some_iff.mp hevt).1
      have hposition : b.position = i := by
        rw [Board.position,hstream]
        rfl
      have hlast := h.lastSeq
      rw [hposition] at hlast
      exact ⟨h.source,h.answers,Nat.le_succ_of_le hlast,hlt⟩
  | hangUp =>
    cases hs
    exact ⟨h.source,h.answers,Nat.le_refl _,Nat.le_trans h.lastSeq h.position⟩

/-- A lost event, or a tree that is put in its place. -/
def Disturbs (op : BoardOp) : Prop := op = .lose ∨ ∃ resync, op = .replace resync

/-- Where the stream is moves back only as far as nothing was applied. -/
lemma Tracks.rewind (h : b.Tracks k) (hb : b.Sound k) (hsource : c.source = b.source)
    (hreplica : c.replica = b.replica) (hposition : c.position = b.replica.lastSeq) : c.Tracks k := by
  obtain ⟨l,p,hlp,hp,hl,hlabel,hback⟩ := h
  have hlabelOf : c.labelOf k = b.labelOf k := by rw [labelOf,labelOf,hreplica]
  rcases hback with hsame | hnone
  · refine ⟨l,p,hlp,by rwa [hsource],?_,?_,.inl (by rw [hposition,hreplica])⟩
    · rwa [hposition,← hsame]
    · rw [hlabelOf,hlabel,hsource,hposition,hsame]
  · have hlast := hb.lastSeq
    refine ⟨b.replica.lastSeq,p,by omega,by rwa [hsource],hposition.ge,?_,.inr hposition.symm⟩
    have hempty : ∀ n (events : List ProcessEvent), (events.take n).drop n = [] := fun n events => by
      rw [List.drop_eq_nil_iff,List.length_take]
      omega
    rw [hlabelOf,hlabel,hsource,hposition,← hnone,hempty,hempty]

lemma Tracks.step (h : b.Tracks k) (hb : b.Sound k) {op : BoardOp} (hs : b.step py op = some c)
    (hop : ¬Disturbs op) : c.Tracks k := by
  cases op with
  | kernel op =>
    obtain ⟨source,hsource,rfl⟩ := Option.map_eq_some_iff.mp hs
    obtain ⟨l,p,hlp,hp,hl,hlabel,hback⟩ := h
    have hle := Source.events_step hsource
    refine ⟨l,p,hlp,Nat.le_trans hp hle.length_le,hl,?_,hback⟩
    change b.labelOf k = ((source.events.take b.position).drop l).foldl (relabel k) (told k (source.events.take p))
    rw [take_eq_of_extends hle hb.position,take_eq_of_extends hle hp]
    exact hlabel
  | getKing resync =>
    simp only [Board.step] at hs
    split at hs
    · cases hs
      exact h
    · cases hs
  | listChildren resync order =>
    simp only [Board.step] at hs
    split at hs
    · cases hs
      exact h
    · cases hs
  | replace resync => exact absurd (.inr ⟨resync,rfl⟩) hop
  | giveUp resync =>
    cases hs
    exact h
  | subscribe =>
    simp only [Board.step] at hs
    split at hs
    next =>
      cases hs
      exact h.rewind hb rfl rfl rfl
    next => cases hs
  | deliver now =>
    simp only [Board.step] at hs
    split at hs
    next => cases hs
    next i hstream =>
      obtain ⟨evt,hevt,rfl⟩ := Option.map_eq_some_iff.mp hs
      obtain ⟨hsource,-,hlast,hposition,hlabelOf⟩ := deliver_effect py now b hevt k
      obtain ⟨l,p,hlp,hp,hl,hlabel,-⟩ := h
      have hold : b.position = i := by
        rw [Board.position,hstream]
        rfl
      have hlt : i < b.source.events.length := (List.getElem?_eq_some_iff.mp hevt).1
      refine ⟨l,p,hlp,by rwa [hsource],by omega,?_,.inl (by rw [hposition,hlast])⟩
      have htake : b.source.events.take (i+1) = b.source.events.take i++[evt] := by
        rw [List.take_add_one,hevt]
        rfl
      have hlength : l ≤ (b.source.events.take i).length := by
        rw [List.length_take]
        omega
      rw [hlabelOf,hlabel,hsource,hposition,hold,htake,List.drop_append_of_le_length hlength,List.foldl_append]
      rfl
  | lose => exact absurd (.inl rfl) hop
  | hangUp =>
    cases hs
    exact h.rewind hb rfl rfl rfl

/-- The tree is replaced, and no event that was emitted after one of the answers has been applied. -/
def Resynced (e : Transition (Board F) BoardOp) : Prop :=
  ∃ resync info children, e.label = .replace resync ∧ e.source.resyncs.get resync = some (.tree info children) ∧
    e.source.position ≤ info.emitted ∧ e.source.position ≤ children.emitted

lemma tracks_of_resynced (hb : b.Sound k) {op : BoardOp} (hs : b.step py op = some c) (h : Resynced ⟨b,op,c⟩) :
    c.Tracks k := by
  obtain ⟨resync,info,children,hop,hget,hking,hchildren⟩ := h
  obtain rfl : op = .replace resync := hop
  have hget' : b.resyncs.get resync = some (.tree info children) := hget
  simp only [Board.step,hget'] at hs
  cases hs
  obtain ⟨⟨hn,hpid,htells⟩,hm,hall,hnone⟩ := hb.answers resync _ hget
  have hnode : ∃ p, b.position ≤ p ∧ p ≤ b.source.events.length ∧
      ((newCache info.value children.value).get k).map (fun node => node.summary.label) =
        told k (b.source.events.take p) := by
    rcases get_newCache info.value children.value k with ⟨i,hin,hk,hnew⟩ | ⟨hmiss,hnew⟩
    · rw [hnew]
      rcases List.mem_cons.mp hin with rfl | hin
      · exact ⟨info.emitted,hking,hn,htells hk⟩
      · exact ⟨children.emitted,hchildren,hm,hall i hin hk⟩
    · rw [hnew]
      refine ⟨children.emitted,hchildren,hm,(hnone (fun child hin => hmiss child (by simp [hin])) ?_).symm⟩
      intro hk
      exact hmiss info.value List.mem_cons_self (hpid.trans hk.symm)
  obtain ⟨p,hle,hp,hlabel⟩ := hnode
  refine ⟨b.position,p,hle,hp,Nat.le_refl _,?_,.inr rfl⟩
  have hempty : (b.source.events.take b.position).drop b.position = [] := by
    rw [List.drop_eq_nil_iff,List.length_take]
    omega
  have hposition : Board.position { b with
      replica := { b.replica with treeCache := newCache info.value children.value }
      resyncs := b.resyncs.erase resync } = b.position := rfl
  rw [hposition,hempty,List.foldl_nil,← hlabel,labelOf,Replica.view,Option.map_map]
  rfl

lemma sound_start (k : ℕ) : (start : Board F).Sound k := by
  exact ⟨⟨rfl,(fun call name req h => by cases h)⟩,(fun i r h => by cases h),Nat.le_refl _,Nat.le_refl _⟩

/-- Since the last resync that was up to date nothing was lost, and no tree was put in its place that was not. -/
def UpToDate (trace : List (Transition (Board F) BoardOp)) : Prop :=
  Since (fun past => ∃ e, past.getLast? = some e ∧ Resynced e) (fun e => Disturbs e.label) trace

lemma tracks_of_run {trace : List (Transition (Board F) BoardOp)} (run : Run (step py) start trace b)
    (hhonest : ∀ e ∈ trace, Honest k e.label) (hlists : ∀ e ∈ trace, Lists k e) :
    b.Sound k ∧ (UpToDate trace → b.Tracks k) := by
  revert hhonest hlists
  refine run.snoc_induction (P := fun trace b => (∀ e ∈ trace, Honest k e.label) → (∀ e ∈ trace, Lists k e) →
    b.Sound k ∧ (UpToDate trace → b.Tracks k)) ?_ ?_
  · intro _ _
    refine ⟨sound_start k,fun hsince => ?_⟩
    obtain ⟨e,he,-⟩ := since_nil.mp hsince
    cases he
  · intro trace b op c _ ih hs hhonest hlists
    obtain ⟨hb,htracks⟩ := ih (fun e he => hhonest e (by simp [he])) (fun e he => hlists e (by simp [he]))
    refine ⟨hb.step hs (hhonest ⟨b,op,c⟩ (by simp)) (hlists ⟨b,op,c⟩ (by simp)),fun hsince => ?_⟩
    rcases (since_snoc trace ⟨b,op,c⟩).mp hsince with ⟨e,he,hresynced⟩ | ⟨hnot,hpast⟩
    · rw [List.getLast?_concat] at he
      obtain rfl := Option.some.inj he
      exact tracks_of_resynced hb hs hresynced
    · exact (htracks hpast).step hb hs hnot

/-- Whatever the order of resyncs, broken streams and events: once a resync was up to date, nothing has been lost
since, no other resync has replaced the tree and the stream has caught up, the dashboard shows a process exactly if it
is registered, with its name and its state, unless the process itself has logged under the type of a change or was out
of reach of a listing. -/
theorem shows_registered (py : Python F) {trace : List (Transition (Board F) BoardOp)}
    (run : Run (step py) start trace b) {k : ℕ} (hhonest : ∀ e ∈ trace, Honest k e.label)
    (hlists : ∀ e ∈ trace, Lists k e) (huptodate : UpToDate trace) (hcaught : b.CaughtUp) :
    (b.replica.view k).map Summary.label = (b.source.registry.get k).map label := by
  obtain ⟨hb,htracks⟩ := tracks_of_run run hhonest hlists
  have hshown := (htracks huptodate).caughtUp hb hcaught
  rw [labelOf,Source.labelOf,Source.view,Option.map_map] at hshown
  exact hshown

def registerKing : BoardOp := .kernel (.register ⟨0,none⟩ (Source.exampleProcess 0 "king" .kernel))
def registerLead : BoardOp := .kernel (.register ⟨0,none⟩ (Source.exampleProcess 1 "lead" .lead))
def runLead : BoardOp := .kernel (.setState ⟨0,none⟩ 2 .running)

/-- The lead starts to run after the answers were given and before the tree is replaced. The stream goes through all
events again. -/
theorem shows_registered_lead : ∃ b : Board ℕ, ∃ trace, Run (step Source.examplePython) start trace b ∧
    (b.source.registry.get 2).isSome ∧ (b.replica.view 2).map Summary.label = (b.source.registry.get 2).map label := by
  obtain ⟨b₁,b₂,b₃,b₄,b₅,b₆,h₁,h₂,h₃,h₄,h₅,h₆⟩ : ∃ b₁ b₂ b₃ b₄ b₅ b₆ : Board ℕ,
      start.step Source.examplePython registerKing = some b₁ ∧ b₁.step Source.examplePython registerLead = some b₂ ∧
      b₂.step Source.examplePython (.getKing 0) = some b₃ ∧
      b₃.step Source.examplePython (.listChildren 0 (fun _ => [1,2])) = some b₄ ∧
      b₄.step Source.examplePython runLead = some b₅ ∧ b₅.step Source.examplePython (.replace 0) = some b₆ :=
    ⟨_,_,_,_,_,_,rfl,rfl,rfl,rfl,rfl,rfl⟩
  obtain ⟨b₇,b₈,b₉,b,h₇,h₈,h₉,h⟩ : ∃ b₇ b₈ b₉ b : Board ℕ, b₆.step Source.examplePython .subscribe = some b₇ ∧
      b₇.step Source.examplePython (.deliver 0) = some b₈ ∧ b₈.step Source.examplePython (.deliver 0) = some b₉ ∧
      b₉.step Source.examplePython (.deliver 0) = some b := by
    cases h₁
    cases h₂
    cases h₃
    cases h₄
    cases h₅
    cases h₆
    exact ⟨_,_,_,_,rfl,rfl,rfl,rfl⟩
  have run : Run (step Source.examplePython) start _ b := .cons h₁ (.cons h₂ (.cons h₃ (.cons h₄ (.cons h₅ (.cons h₆
    (.cons h₇ (.cons h₈ (.cons h₉ (.cons h (.nil b))))))))))
  have hhonest : ∀ op ∈ [registerKing,registerLead,.getKing 0,.listChildren 0 (fun _ => [1,2]),runLead,.replace 0,
      .subscribe,.deliver 0,.deliver 0,.deliver 0], Honest 2 op := by
    intro op hop call req hforged
    subst hforged
    simp [registerKing,registerLead,runLead] at hop
  have hend : b.CaughtUp ∧ (b.source.registry.get 2).isSome := by
    cases h₁
    cases h₂
    cases h₃
    cases h₄
    cases h₅
    cases h₆
    cases h₇
    cases h₈
    cases h₉
    cases h
    exact ⟨rfl,rfl⟩
  refine ⟨b,_,run,hend.2,shows_registered _ run ?_ ?_ ?_ hend.1⟩
  · intro e he
    refine hhonest e.label ?_
    simp only [List.mem_cons,List.not_mem_nil,or_false] at he
    rcases he with rfl | rfl | rfl | rfl | rfl | rfl | rfl | rfl | rfl | rfl <;> simp
  · intro e he resync order hlist
    simp only [List.mem_cons,List.not_mem_nil,or_false] at he
    rcases he with rfl | rfl | rfl | rfl | rfl | rfl | rfl | rfl | rfl | rfl
    case inr.inr.inr.inl =>
      cases hlist
      have henumerates : b₃.source.registry.Enumerates [1,2] := by
        cases h₁
        cases h₂
        cases h₃
        decide
      cases h₁
      cases h₂
      cases h₃
      exact ⟨fun _ => henumerates,fun _ => .inr (.single ⟨_,rfl,by decide⟩)⟩
    all_goals cases hlist
  · refine ⟨[⟨start,registerKing,b₁⟩,⟨b₁,registerLead,b₂⟩,⟨b₂,.getKing 0,b₃⟩,
      ⟨b₃,.listChildren 0 (fun _ => [1,2]),b₄⟩,⟨b₄,runLead,b₅⟩,⟨b₅,.replace 0,b₆⟩],
      [⟨b₆,.subscribe,b₇⟩,⟨b₇,.deliver 0,b₈⟩,⟨b₈,.deliver 0,b₉⟩,⟨b₉,.deliver 0,b⟩],rfl,⟨_,rfl,?_⟩,?_⟩
    · cases h₁
      cases h₂
      cases h₃
      cases h₄
      cases h₅
      exact ⟨0,_,_,rfl,rfl,Nat.zero_le _,Nat.zero_le _⟩
    · intro e he hdisturbs
      simp only [List.mem_cons,List.not_mem_nil,or_false] at he
      rcases he with rfl | rfl | rfl | rfl <;> simp [Disturbs] at hdisturbs

end Board
end HiveKernel.Dashboard
