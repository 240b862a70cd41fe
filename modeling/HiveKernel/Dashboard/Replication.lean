import HiveKernel.Dashboard.Replica
import HiveKernel.Lib.Run
import HiveKernel.Process.Supervisor

/-! The kernel as the source of the dashboard's events: changes of the process table under the
lock of the registry, and log requests of agents, each with the event it emits. A log request
and a move look something up before they act, so other steps may come in between. -/
namespace HiveKernel.Dashboard
open Lib

inductive LogLevel
  | debug | info | warn | error
  | unknown (code : ℤ)
  deriving DecidableEq, Repr

def LogLevel.string : LogLevel → String
  | debug => "debug"
  | warn => "warn"
  | error => "error"
  | info => "info"
  | unknown _ => "info"

structure LogRequest where
  level : LogLevel
  message : String
  fields : List (String × String)
  deriving DecidableEq, Repr

/-- An agent may choose the type of the event it logs. -/
def LogRequest.eventType (req : LogRequest) : EventType :=
  match req.fields.lookup "event_type" with
  | none => .logged
  | some et => ⟨et⟩

def LogRequest.event (req : LogRequest) (callerPID : ℕ) (name : String) : ProcessEvent :=
  { type := req.eventType
    pid := callerPID
    name := name
    level := req.level.string
    message := req.message
    fields := req.fields }

/-- A call after its lookup: a log request with the name of its caller, or a move whose new
parent was found. -/
inductive Call
  | log (callerPID : ℕ) (name : String) (req : LogRequest)
  | reparent (pid newParentPID : ℕ)

structure Source where
  registry : Registry
  calls : Table ℕ Call
  emissions : List EventLog.Emission

/-- The clock and the traces when an event is emitted. -/
structure Moment where
  now : ℤ
  lookup : TraceLookup

inductive SourceOp
  | register (m : Moment) (p : Process)
  | setState (m : Moment) (pid : ℕ) (state : ProcessState)
  | remove (m : Moment) (pid : ℕ)
  | findParent (call pid newParentPID : ℕ)
  | move (now : ℤ) (call : ℕ)
  | findCaller (call callerPID : ℕ) (req : LogRequest)
  | log (m : Moment) (call : ℕ)

namespace Source

def start : Source := ⟨.new,.empty,[]⟩

def emit (s : Source) (m : Moment) (evt : ProcessEvent) : Source :=
  { s with emissions := s.emissions ++ [⟨m.now,m.lookup,evt⟩] }

/-- Everything emitted so far. Along the list the sequence numbers increase, by
`EventLog.pairwise_emitted`. -/
def events (s : Source) : List ProcessEvent := EventLog.emitted 0 s.emissions

def withRegistry (s : Source) (r : Registry) : Source := { s with registry := r }

def spawnedEvent (pid : ℕ) (p : Process) : ProcessEvent :=
  { type := .spawned
    pid := pid
    ppid := p.ppid
    name := p.name
    role := p.role.string
    tier := p.cognitiveTier.string
    model := p.model
    state := p.state.string }

def stateChangedEvent (pid : ℕ) (old state : ProcessState) : ProcessEvent :=
  { type := .stateChanged
    pid := pid
    oldState := old.string
    newState := state.string }

def removedEvent (pid : ℕ) : ProcessEvent :=
  { type := .removed
    pid := pid }

def register (s : Source) (m : Moment) (p : Process) : Source :=
  (s.withRegistry (s.registry.register m.now p)).emit m (spawnedEvent s.registry.nextPID p)

/-- Only an actual change is an event. -/
def setState (s : Source) (m : Moment) (pid : ℕ) (state : ProcessState) : Source :=
  match s.registry.get pid with
  | none => s
  | some p =>
    let s := s.withRegistry (s.registry.setState m.now pid state)
    if p.state = state then s else s.emit m (stateChangedEvent pid p.state state)

def remove (s : Source) (m : Moment) (pid : ℕ) : Source :=
  match s.registry.get pid with
  | none => s
  | some _ => (s.withRegistry (s.registry.remove pid)).emit m (removedEvent pid)

/-- The second half of `reparent`. The update emits no event, and neither does the signal. -/
def move (s : Source) (now : ℤ) (pid newParentPID : ℕ) : Source :=
  match s.registry.get pid with
  | none => s
  | some _ => s.withRegistry ((s.registry.setParent now pid newParentPID).send now pid .sighup)

def callerName (s : Source) (callerPID : ℕ) : String :=
  ((s.registry.get callerPID).map Process.name).getD ""

def openCall (s : Source) (call : ℕ) (c : Call) : Option Source :=
  match s.calls.get call with
  | some _ => none
  | none => some { s with calls := s.calls.set call c }

def closeCall (s : Source) (call : ℕ) : Source := { s with calls := s.calls.erase call }

def step (s : Source) : SourceOp → Option Source
  | .register m p => some (s.register m p)
  | .setState m pid state => some (s.setState m pid state)
  | .remove m pid => some (s.remove m pid)
  | .findParent call pid newParentPID => match s.registry.get newParentPID with
    | none => some s
    | some _ => s.openCall call (.reparent pid newParentPID)
  | .move now call => match s.calls.get call with
    | some (.reparent pid newParentPID) => some ((s.closeCall call).move now pid newParentPID)
    | _ => none
  | .findCaller call callerPID req => s.openCall call (.log callerPID (s.callerName callerPID) req)
  | .log m call => match s.calls.get call with
    | some (.log callerPID name req) => some ((s.closeCall call).emit m (req.event callerPID name))
    | _ => none

def summary (p : Process) : Summary := ⟨p.ppid,p.name,p.state.string⟩

/-- Parent, name and state of each registered process. -/
def view (s : Source) (pid : ℕ) : Option Summary := (s.registry.get pid).map summary

/-- Replaying all events from an empty cache gives the tree of the registry. -/
def Faithful {F : Type} (py : Python F) (clock : ℕ → ℤ) (s : Source) : Prop :=
  ∃ r : Replica F, Replica.replay py clock {} s.events = some r ∧ r.view = s.view

/-- The dashboard can follow the end of a call. A move must not change the parent; a request must
not log under the type of a change, unless that change leaves the tree as it is. -/
def Follows {F : Type} (py : Python F) (s : Source) : Call → Prop
  | .reparent pid newParentPID => ∀ p ∈ s.registry.get pid, p.ppid = newParentPID
  | .log callerPID name req =>
    (req.eventType = .spawned →
      ∃ p ∈ s.registry.get callerPID, p.ppid = 0 ∧ p.name = name ∧ p.state = .idle) ∧
    (req.eventType = .stateChanged ∨ req.eventType = .removed → s.registry.get callerPID = none) ∧
    Replica.Readable py (req.event callerPID name)

instance {F : Type} (py : Python F) (s : Source) : (c : Call) → Decidable (Follows py s c)
  | .reparent pid newParentPID =>
    inferInstanceAs (Decidable (∀ p ∈ s.registry.get pid, p.ppid = newParentPID))
  | .log callerPID name _ => inferInstanceAs (Decidable ((_ → ∃ p ∈ s.registry.get callerPID,
      p.ppid = 0 ∧ p.name = name ∧ p.state = .idle) ∧ (_ ∨ _ → _) ∧ _))

/-- The condition on a step. The table's own changes are always followed. -/
def Replayable {F : Type} (py : Python F) (s : Source) : SourceOp → Prop
  | .move _ call => ∀ c ∈ s.calls.get call, Follows py s c
  | .log _ call => ∀ c ∈ s.calls.get call, Follows py s c
  | _ => True

instance {F : Type} (py : Python F) (s : Source) : (op : SourceOp) → Decidable (Replayable py s op)
  | .move _ call => inferInstanceAs (Decidable (∀ c ∈ s.calls.get call, Follows py s c))
  | .log _ call => inferInstanceAs (Decidable (∀ c ∈ s.calls.get call, Follows py s c))
  | .register _ _ => isTrue trivial
  | .setState _ _ _ => isTrue trivial
  | .remove _ _ => isTrue trivial
  | .findParent _ _ _ => isTrue trivial
  | .findCaller _ _ _ => isTrue trivial

section
variable {F : Type} {py : Python F} {clock : ℕ → ℤ} {s : Source}

lemma shown_stamp (view : ℕ → Option Summary) (seq : ℕ) (now : ℤ) (lookup : TraceLookup)
    (evt : ProcessEvent) :
    Replica.shown view (EventLog.stamp seq now lookup evt) = Replica.shown view evt := by
  obtain ⟨id,span,h⟩ := EventLog.stamp_eq seq now lookup evt
  rw [h]
  rfl

lemma readable_stamp (seq : ℕ) (now : ℤ) (lookup : TraceLookup) (evt : ProcessEvent) :
    Replica.Readable py (EventLog.stamp seq now lookup evt) ↔ Replica.Readable py evt := by
  obtain ⟨id,span,h⟩ := EventLog.stamp_eq seq now lookup evt
  rw [h]
  exact Iff.rfl

/-- The replica follows an event that the kernel emits, exactly if it can read it and the event
does to the tree what was done to the table. -/
lemma faithful_emit_iff (h : Faithful py clock s) (r : Registry) (m : Moment) (evt : ProcessEvent)
    (hpayload : evt.payloadPreview = "") :
    Faithful py clock ((s.withRegistry r).emit m evt) ↔
      Replica.Readable py evt ∧ Replica.shown s.view evt = (s.withRegistry r).view := by
  obtain ⟨r',hr',hview⟩ := h
  have hevents : ((s.withRegistry r).emit m evt).events =
      s.events ++ [EventLog.stamp (0+s.emissions.length+1) m.now m.lookup evt] :=
    EventLog.emitted_snoc 0 s.emissions ⟨m.now,m.lookup,evt⟩
  have hstamped : (EventLog.stamp (0+s.emissions.length+1) m.now m.lookup evt).payloadPreview = "" := by
    obtain ⟨id,span,hstamp⟩ := EventLog.stamp_eq (0+s.emissions.length+1) m.now m.lookup evt
    rw [hstamp]
    exact hpayload
  rw [← hview,← shown_stamp r'.view (0+s.emissions.length+1) m.now m.lookup,
    ← readable_stamp (0+s.emissions.length+1) m.now m.lookup,← Replica.replay_snoc hr' hstamped]
  unfold Faithful
  rw [hevents]
  exact Iff.rfl

/-- Without an event the replica stays where it is. -/
lemma faithful_silent_iff (h : Faithful py clock s) (r : Registry) :
    Faithful py clock (s.withRegistry r) ↔ s.view = (s.withRegistry r).view := by
  obtain ⟨r',hr',hview⟩ := h
  rw [← hview]
  constructor
  · rintro ⟨r'',hr'',hview'⟩
    obtain rfl : r' = r'' := Option.some.inj (hr'.symm.trans hr'')
    exact hview'
  · intro hsame
    exact ⟨r',hr',hsame⟩

lemma string_ne_empty (state : ProcessState) : state.string ≠ "" := by
  cases state <;> decide

lemma string_eq_idle {state : ProcessState} : state.string = "idle" ↔ state = .idle := by
  cases state <;> decide

lemma faithful_register (h : Faithful py clock s) (m : Moment) (p : Process) :
    Faithful py clock (s.register m p) := by
  have hread : Replica.Readable py (spawnedEvent s.registry.nextPID p) :=
    Replica.readable_of_ne (show EventType.spawned ≠ .llmCall by decide)
  refine (faithful_emit_iff h _ m _ rfl).mpr ⟨hread,?_⟩
  funext k
  change Function.update s.view s.registry.nextPID _ k = ((s.registry.register m.now p).get k).map summary
  rw [Registry.get_register,Function.update_apply]
  split_ifs
  · simp [Replica.spawnedNode,Node.summary,spawnedEvent,string_ne_empty,summary,Registry.stamped]
  · rfl

lemma faithful_setState (h : Faithful py clock s) (m : Moment) (pid : ℕ) (state : ProcessState) :
    Faithful py clock (s.setState m pid state) := by
  unfold setState
  cases hp : s.registry.get pid with
  | none => exact h
  | some p =>
    have hview : ∀ k, (s.withRegistry (s.registry.setState m.now pid state)).view k =
        if k = pid then some { summary p with state := state.string } else s.view k := by
      intro k
      change ((s.registry.setState m.now pid state).get k).map summary = _
      rw [Registry.get_setState]
      split_ifs with hk
      · rw [hk,hp]
        rfl
      · rfl
    dsimp only
    split_ifs with hsame
    · refine (faithful_silent_iff h _).mpr ?_
      funext k
      rw [hview]
      split_ifs with hk
      · rw [hk,view,hp,← hsame]
        rfl
      · rfl
    · have hread : Replica.Readable py (stateChangedEvent pid p.state state) :=
        Replica.readable_of_ne (show EventType.stateChanged ≠ .llmCall by decide)
      refine (faithful_emit_iff h _ m _ rfl).mpr ⟨hread,?_⟩
      funext k
      change Function.update s.view pid ((s.view pid).map _) k = _
      rw [hview,Function.update_apply]
      split_ifs
      · rw [view,hp]
        rfl
      · rfl

lemma faithful_remove (h : Faithful py clock s) (m : Moment) (pid : ℕ) :
    Faithful py clock (s.remove m pid) := by
  unfold remove
  cases hp : s.registry.get pid with
  | none => exact h
  | some p =>
    have hread : Replica.Readable py (removedEvent pid) :=
      Replica.readable_of_ne (show EventType.removed ≠ .llmCall by decide)
    refine (faithful_emit_iff h _ m _ rfl).mpr ⟨hread,?_⟩
    funext k
    change Function.update s.view pid none k = ((s.registry.remove pid).get k).map summary
    rw [Registry.get_remove,Function.update_apply]
    split_ifs
    · rfl
    · rfl

/-- The update says nothing to the dashboard, so it has to change nothing. -/
lemma faithful_move_iff (h : Faithful py clock s) (now : ℤ) (pid newParentPID : ℕ) :
    Faithful py clock (s.move now pid newParentPID) ↔ ∀ p ∈ s.registry.get pid, p.ppid = newParentPID := by
  unfold move
  cases hp : s.registry.get pid with
  | none => exact iff_of_true h (fun p hp' => absurd hp' (by simp))
  | some p =>
    dsimp only
    rw [Registry.send_of_state_none _ _ _ rfl,faithful_silent_iff h]
    have hview : (s.withRegistry (s.registry.setParent now pid newParentPID)).view =
        Function.update s.view pid (some { summary p with ppid := newParentPID }) := by
      funext k
      change ((s.registry.setParent now pid newParentPID).get k).map summary = _
      rw [Registry.setParent,Registry.get_update,Function.update_apply]
      split_ifs with hk
      · rw [hk,hp]
        rfl
      · rfl
    have hold : s.view pid = some (summary p) := by
      rw [view,hp]
      rfl
    rw [hview,eq_comm,Function.update_eq_self_iff,hold]
    simp [summary,eq_comm]

lemma view_eq_none {pid : ℕ} : s.view pid = none ↔ s.registry.get pid = none := by
  simp [view]

lemma view_eq_spawned {pid : ℕ} {name : String} :
    s.view pid = some ⟨0,name,"idle"⟩ ↔
      ∃ p ∈ s.registry.get pid, p.ppid = 0 ∧ p.name = name ∧ p.state = .idle := by
  simp [view,summary,string_eq_idle]

/-- No process is in the state that a forged change would put its node into. -/
lemma view_eq_inState_empty {pid : ℕ} :
    (s.view pid).map (Summary.inState "") = s.view pid ↔ s.registry.get pid = none := by
  rw [← view_eq_none]
  cases hp : s.registry.get pid with
  | none => simp [view,hp]
  | some p => simp [view,hp,summary,Summary.inState,(string_ne_empty p.state).symm]

lemma faithful_openCall {t : Source} (h : Faithful py clock s) {call : ℕ} {c : Call}
    (hopen : s.openCall call c = some t) : Faithful py clock t := by
  unfold openCall at hopen
  split at hopen
  · cases hopen
  · cases hopen
    exact h

/-- What a request does to the tree is nothing, unless it logs under the type of a change. -/
lemma shown_log_iff (s : Source) (callerPID : ℕ) (name : String) (req : LogRequest) :
    Replica.shown s.view (req.event callerPID name) = s.view ↔
      (req.eventType = .spawned →
        ∃ p ∈ s.registry.get callerPID, p.ppid = 0 ∧ p.name = name ∧ p.state = .idle) ∧
      (req.eventType = .stateChanged ∨ req.eventType = .removed → s.registry.get callerPID = none) := by
  have hevent : (req.event callerPID name).type = req.eventType := rfl
  unfold Replica.shown
  rw [hevent]
  by_cases hspawned : req.eventType = .spawned
  · rw [if_pos hspawned,Function.update_eq_self_iff,eq_comm]
    change s.view callerPID = some ⟨0,name,"idle"⟩ ↔ _
    rw [view_eq_spawned]
    constructor
    · intro hp
      refine ⟨fun _ => hp,fun hother => ?_⟩
      rw [hspawned] at hother
      exact absurd hother (by decide)
    · intro hall
      exact hall.1 hspawned
  · rw [if_neg hspawned]
    by_cases hchanged : req.eventType = .stateChanged
    · rw [if_pos hchanged,Function.update_eq_self_iff]
      change (s.view callerPID).map (Summary.inState "") = s.view callerPID ↔ _
      rw [view_eq_inState_empty]
      exact ⟨fun hnone => ⟨fun h => absurd h hspawned,fun _ => hnone⟩,fun hall => hall.2 (.inl hchanged)⟩
    · rw [if_neg hchanged]
      by_cases hremoved : req.eventType = .removed
      · rw [if_pos hremoved,Function.update_eq_self_iff,eq_comm]
        change s.view callerPID = none ↔ _
        rw [view_eq_none]
        exact ⟨fun hnone => ⟨fun h => absurd h hspawned,fun _ => hnone⟩,fun hall => hall.2 (.inr hremoved)⟩
      · rw [if_neg hremoved]
        exact iff_of_true rfl ⟨fun h => absurd h hspawned,fun h => (h.elim hchanged hremoved).elim⟩

/-- A request is followed if its event is read and leaves the tree as it is. -/
lemma faithful_log_iff (h : Faithful py clock s) (m : Moment) (callerPID : ℕ) (name : String)
    (req : LogRequest) :
    Faithful py clock (s.emit m (req.event callerPID name)) ↔ Follows py s (.log callerPID name req) := by
  have hemit := faithful_emit_iff h s.registry m (req.event callerPID name) rfl
  have hsame := shown_log_iff s callerPID name req
  exact hemit.trans ((and_congr_right (fun _ => hsame)).trans (and_comm.trans and_assoc))

lemma follows_of_call {call : ℕ} {c : Call} (hcall : s.calls.get call = some c) :
    (∀ c' ∈ s.calls.get call, Follows py s c') ↔ Follows py s c := by
  simp [hcall]

/-- The replica follows a step exactly if the step is replayable. -/
lemma faithful_step_iff (h : Faithful py clock s) {op : SourceOp} {t : Source} (hstep : s.step op = some t) :
    Faithful py clock t ↔ Replayable py s op := by
  cases op with
  | register m p =>
    cases hstep
    exact iff_of_true (faithful_register h m p) trivial
  | setState m pid state =>
    cases hstep
    exact iff_of_true (faithful_setState h m pid state) trivial
  | remove m pid =>
    cases hstep
    exact iff_of_true (faithful_remove h m pid) trivial
  | findParent call pid newParentPID =>
    refine iff_of_true ?_ trivial
    simp only [step] at hstep
    split at hstep
    · cases hstep
      exact h
    · exact faithful_openCall h hstep
  | move now call =>
    simp only [step] at hstep
    split at hstep
    next pid newParentPID hcall =>
      cases hstep
      have hclosed : Faithful py clock (s.closeCall call) := h
      exact (faithful_move_iff hclosed now pid newParentPID).trans (follows_of_call hcall).symm
    next => cases hstep
  | findCaller call callerPID req => exact iff_of_true (faithful_openCall h hstep) trivial
  | log m call =>
    simp only [step] at hstep
    split at hstep
    next callerPID name req hcall =>
      cases hstep
      have hclosed : Faithful py clock (s.closeCall call) := h
      exact (faithful_log_iff hclosed m callerPID name req).trans (follows_of_call hcall).symm
    next => cases hstep

lemma faithful_start : Faithful py clock start := ⟨{},rfl,rfl⟩

end

/-- In a run from the empty table, replaying the events gives the tree of the registry after every
step, exactly if every step of the run is replayable. -/
theorem faithful_iff_of_run {F : Type} (py : Python F) (clock : ℕ → ℤ) {s : Source}
    {trace : List (Transition Source SourceOp)} (run : Run step start trace s) :
    (∀ e ∈ trace, Faithful py clock e.target) ↔ ∀ e ∈ trace, Replayable py e.source e.label := by
  apply run.good_iff_allowed (Faithful py clock) (Faithful py clock) (Replayable py)
  · intro s op t h hs
    have hiff := faithful_step_iff h hs
    exact ⟨hiff,hiff.mpr⟩
  · exact faithful_start

/-- An interpreter on the texts below: whole numbers, and no JSON. -/
def examplePython : Python ℕ where
  int s := if s = "120" then some 120 else none
  float s := if s = "80" then some 80 else none
  zero := 0
  add := Nat.add
  isZero x := x == 0
  str x := s!"{x}.0"
  loads _ := .error .valueError

/-- A process as the spawner builds it. -/
def exampleProcess (ppid : ℕ) (name : String) (role : AgentRole) : Process where
  pid := 0
  ppid := ppid
  user := ""
  name := name
  role := role
  cognitiveTier := .tactical
  model := "sonnet"
  vps := ""
  state := .idle
  limits := {}
  tokensConsumed := 0
  startedAt := 0
  updatedAt := 0
  systemPrompt := ""
  metadata := []
  runtimeAddr := ""
  runtimeType := ""
  runtimeImage := ""

/-- A lead runs, reports a call of its model, ends and is reaped. -/
def reportedCall : List SourceOp :=
  [.register ⟨0,none⟩ (exampleProcess 0 "king" .kernel),
    .register ⟨0,none⟩ (exampleProcess 1 "lead" .lead),
    .setState ⟨0,none⟩ 2 .running,
    .findCaller 0 2 ⟨.info,"done",[("event_type","llm_call"),("total_tokens","120"),("latency_ms","80")]⟩,
    .log ⟨0,none⟩ 0,
    .setState ⟨0,none⟩ 2 .zombie,
    .remove ⟨0,none⟩ 2]

theorem faithful_iff_of_run_reportedCall : ∃ trace s, Run step start trace s ∧ s.events.length = 6 ∧
    ∀ e ∈ trace, Faithful examplePython (fun _ => 0) e.target := by
  obtain ⟨s,hs,hevents⟩ : ∃ s, exec step reportedCall start = some s ∧ s.events.length = 6 := ⟨_,rfl,rfl⟩
  refine ⟨_,s,.of_exec hs,hevents,(faithful_iff_of_run _ _ (.of_exec hs)).mpr ?_⟩
  decide

/-- A lead with a worker has ended. The scan for zombies moves the worker to the king. -/
def reapedLead : List SourceOp :=
  [.register ⟨0,none⟩ (exampleProcess 0 "king" .kernel),
    .register ⟨0,none⟩ (exampleProcess 1 "lead" .lead),
    .register ⟨0,none⟩ (exampleProcess 2 "worker" .worker),
    .setState ⟨0,none⟩ 2 .zombie,
    .findParent 0 3 1,
    .move 0 0,
    .remove ⟨0,none⟩ 2]

/-- The dashboard still has the worker below the lead that is gone. -/
theorem reaping_moves_unseen :
    ¬ ∀ (F : Type) (py : Python F) (clock : ℕ → ℤ) (trace : List (Transition Source SourceOp)) (s : Source),
      Run step start trace s → Faithful py clock s := by
  intro h
  obtain ⟨s,hs,r,hr,hview,hreg⟩ : ∃ s, exec step reapedLead start = some s ∧
      ∃ r, Replica.replay examplePython (fun _ => 0) {} s.events = some r ∧
        r.view 3 = some ⟨2,"worker","idle"⟩ ∧ s.view 3 = some ⟨1,"worker","idle"⟩ := ⟨_,rfl,_,rfl,rfl,rfl⟩
  obtain ⟨r',hr',hsame⟩ := h _ examplePython (fun _ => 0) _ s (.of_exec hs)
  obtain rfl : r = r' := Option.some.inj (hr.symm.trans hr')
  rw [hsame,hreg] at hview
  exact absurd hview (by decide)

end Source
end HiveKernel.Dashboard
