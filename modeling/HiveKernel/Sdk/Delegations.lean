import HiveKernel.Lib.Run
import HiveKernel.Lib.Table
import HiveKernel.Sdk.DrainedResults

/-! The delegations of the chat assistant over all interleavings of its tasks. A delegation is registered
when its send has been awaited; answers may come at any time, and every task begins by draining the
mailbox. -/
namespace HiveKernel
open Lib Dashboard

/-- Where a task stands, with the notes that it has drained: on its way to the model's answer, awaiting the
send of a delegation, behind it, or over. -/
inductive TalkStage
  | talking (notes : List DelegationNote)
  | sending (notes : List DelegationNote) (id target task : String)
  | closing (notes : List DelegationNote)
  | ended
  deriving DecidableEq

def TalkStage.held : TalkStage → List DelegationNote
  | talking notes => notes
  | sending notes _ _ _ => notes
  | closing notes => notes
  | ended => []

/-- The assistant, the time and the tasks by number. Beside them stand the request ids that have been
named so far, the delegations that were sent successfully, with their targets, and the notes in the
outputs that were returned. -/
structure DelegationDesk where
  agent : Assistant
  clock : ℤ
  tasks : Table ℕ TalkStage
  named : List String
  sent : List (String × String)
  reported : List DelegationNote

/-- A step: a task begins and drains the mailbox, raises or returns an error text, sends a delegation, sees
its send succeed or fail, or returns its output; a message comes in; time passes. -/
inductive DelegationOp
  | handleTask (i : ℕ)
  | fail (i : ℕ)
  | send (i : ℕ) (id target task : String)
  | sendDone (i : ℕ)
  | sendFailed (i : ℕ)
  | finish (i : ℕ)
  | onMessage (msg : Message)
  | pass (d : ℕ)
  deriving DecidableEq

namespace DelegationDesk
variable {F : Type}

def start (clock : ℤ) : DelegationDesk := ⟨⟨[],[]⟩,clock,.empty,[],[],[]⟩

def setTask (s : DelegationDesk) (i : ℕ) (stage : TalkStage) : DelegationDesk :=
  { s with tasks := s.tasks.set i stage }

/-- Take the notes of a task into what was reported. -/
def report (s : DelegationDesk) (i : ℕ) (notes : List DelegationNote) : DelegationDesk :=
  { s.setTask i .ended with reported := s.reported++notes }

/-- Enter a delegation whose send has succeeded. -/
def track (s : DelegationDesk) (id target task : String) : DelegationDesk :=
  { s with
    agent := s.agent.register id ⟨target,task,s.clock⟩
    sent := s.sent++[(id,target)] }

/-- A request id is new when it is made. -/
def step (py : TextPython F) (s : DelegationDesk) : DelegationOp → Option DelegationDesk
  | .handleTask i =>
    if (s.tasks.get i).isSome then none
    else match s.agent.collect py s.clock with
      | (.ok notes,agent) => some ({ s with agent := agent }.setTask i (.talking notes))
      | (.error _,agent) => some ({ s with agent := agent }.setTask i .ended)
  | .fail i => match s.tasks.get i with
    | none | some .ended => none
    | some _ => some (s.setTask i .ended)
  | .send i id target task => match s.tasks.get i with
    | some (.talking notes) =>
      if id ∈ s.named then none
      else some ({ s with named := id::s.named }.setTask i (.sending notes id target task))
    | _ => none
  | .sendDone i => match s.tasks.get i with
    | some (.sending notes id target task) => some ((s.track id target task).setTask i (.closing notes))
    | _ => none
  | .sendFailed i => match s.tasks.get i with
    | some (.sending notes _ _ _) => some (s.setTask i (.closing notes))
    | _ => none
  | .finish i => match s.tasks.get i with
    | some (.talking notes) | some (.closing notes) => some (s.report i notes)
    | _ => none
  | .onMessage msg => some { s with agent := s.agent.onMessage msg, named := msg.replyTo::s.named }
  | .pass d => some { s with clock := s.clock+d }

end DelegationDesk

/-- The note says that a delegation to this target was completed or timed out. -/
def DelegationNote.Names (target : String) : DelegationNote → Prop
  | completed _ target' _ => target' = target
  | unknown _ _ => False
  | timedOut _ d => d.target = target

/-- There is an answer to the request in the mailbox, but no delegation is registered under it, or there
are two answers. -/
def Assistant.Stray (a : Assistant) (id : String) : Prop :=
  id ∈ a.pendingResults.map Message.replyTo ∧
    (id ∉ a.activeDelegations.map Prod.fst ∨ 2 ≤ (a.pendingResults.map Message.replyTo).count id)

namespace DelegationDesk
variable {F : Type}

/-- Every delegation that was sent is reported at most once, with its target, and not as unknown. -/
def ReportedOnce (s : DelegationDesk) : Prop :=
  ∀ d ∈ s.sent, s.reported.countP (fun note => note.id = d.1) ≤ 1 ∧
    ∀ note ∈ s.reported, note.id = d.1 → note.Names d.2

/-- No task that has returned its output drained a stray answer to a delegation that was sent. -/
def NoStrayReported (trace : List (Transition DelegationDesk DelegationOp)) (t : DelegationDesk) : Prop :=
  ∀ d ∈ trace, ∀ e ∈ trace, ∀ i id, d.label = .handleTask i → e.label = .finish i →
    d.source.agent.Stray id → id ∉ t.sent.map Prod.fst

/-- What a step does, case by case. -/
inductive Move (py : TextPython F) (s : DelegationDesk) : DelegationOp → DelegationDesk → Prop
  | drained {i : ℕ} {notes : List DelegationNote} {agent : Assistant} (hnew : s.tasks.get i = none)
      (hcollect : s.agent.collect py s.clock = (.ok notes,agent)) :
      Move py s (.handleTask i) ({ s with agent := agent }.setTask i (.talking notes))
  | raised {i : ℕ} {e : PyError} {agent : Assistant} (hnew : s.tasks.get i = none)
      (hcollect : s.agent.collect py s.clock = (.error e,agent)) :
      Move py s (.handleTask i) ({ s with agent := agent }.setTask i .ended)
  | failed {i : ℕ} {stage : TalkStage} (hi : s.tasks.get i = some stage) :
      Move py s (.fail i) (s.setTask i .ended)
  | sending {i : ℕ} {notes : List DelegationNote} {id target task : String}
      (hi : s.tasks.get i = some (.talking notes)) (hid : id ∉ s.named) :
      Move py s (.send i id target task)
        ({ s with named := id::s.named }.setTask i (.sending notes id target task))
  | sent {i : ℕ} {notes : List DelegationNote} {id target task : String}
      (hi : s.tasks.get i = some (.sending notes id target task)) :
      Move py s (.sendDone i) ((s.track id target task).setTask i (.closing notes))
  | notSent {i : ℕ} {notes : List DelegationNote} {id target task : String}
      (hi : s.tasks.get i = some (.sending notes id target task)) :
      Move py s (.sendFailed i) (s.setTask i (.closing notes))
  | finished {i : ℕ} {stage : TalkStage} (hi : s.tasks.get i = some stage) (hopen : stage ≠ .ended) :
      Move py s (.finish i) (s.report i stage.held)
  | message (msg : Message) :
      Move py s (.onMessage msg) { s with agent := s.agent.onMessage msg, named := msg.replyTo::s.named }
  | passed (d : ℕ) : Move py s (.pass d) { s with clock := s.clock+d }

variable {py : TextPython F} {s t : DelegationDesk} {op : DelegationOp}

lemma move_of_step (h : s.step py op = some t) : Move py s op t := by
  cases op with
  | handleTask i =>
    simp only [step] at h
    split at h
    · cases h
    next hi =>
    have hnew : s.tasks.get i = none := by simpa using hi
    split at h
    next hcollect =>
      cases h
      exact .drained hnew hcollect
    next hcollect =>
      cases h
      exact .raised hnew hcollect
  | fail i =>
    simp only [step] at h
    split at h
    · cases h
    · cases h
    next hi =>
      cases h
      exact .failed hi
  | send i id target task =>
    simp only [step] at h
    split at h
    next hi =>
      split at h
      · cases h
      next hid =>
        cases h
        exact .sending hi hid
    · cases h
  | sendDone i =>
    simp only [step] at h
    split at h
    next hi =>
      cases h
      exact .sent hi
    · cases h
  | sendFailed i =>
    simp only [step] at h
    split at h
    next hi =>
      cases h
      exact .notSent hi
    · cases h
  | finish i =>
    simp only [step] at h
    split at h
    next hi =>
      cases h
      exact .finished hi (by simp)
    next hi =>
      cases h
      exact .finished hi (by simp)
    · cases h
  | onMessage msg =>
    cases h
    exact .message msg
  | pass d =>
    cases h
    exact .passed d

end DelegationDesk

/-- The note gives this request to a delegation. -/
def DelegationNote.attributedTo (id : String) (note : DelegationNote) : Bool :=
  note.attributed && note.id == id

/-- What the note says about target agrees with what was sent. -/
def DelegationNote.Of (sent : List (String × String)) : DelegationNote → Prop
  | completed id target _ => (id,target) ∈ sent
  | unknown _ _ => True
  | timedOut id d => (id,d.target) ∈ sent

namespace Assistant
variable {F : Type} {py : TextPython F} {a : Assistant} {now : ℤ}

/-- The notes of a drained mailbox, none if a payload could not be read. -/
def notesOf : Except PyError (List DelegationNote) → List DelegationNote
  | .ok notes => notes
  | .error _ => []

/-- How often a request is registered. -/
def registered (delegations : List (String × Delegation)) (id : String) : ℕ :=
  delegations.countP (fun d => d.1 = id)

lemma registered_popDelegation_le (delegations : List (String × Delegation)) (id r : String) :
    registered (popDelegation delegations r) id ≤ registered delegations id :=
  List.filter_sublist.countP_le

lemma registered_popDelegation_self (delegations : List (String × Delegation)) (id : String) :
    registered (popDelegation delegations id) id = 0 := by
  rw [registered,List.countP_eq_zero]
  intro d hd
  simpa [popDelegation] using (List.mem_filter.mp hd).2

/-- A note that names a delegation takes it out. -/
lemma attributedTo_resultNote_le (delegations : List (String × Delegation)) (id r output : String) :
    (if (resultNote delegations r output).attributedTo id then 1 else 0)+
      registered (popDelegation delegations r) id ≤ registered delegations id := by
  by_cases h : (resultNote delegations r output).attributedTo id = true
  · rw [if_pos h]
    simp only [DelegationNote.attributedTo,Bool.and_eq_true,id_resultNote,beq_iff_eq] at h
    obtain ⟨hattributed,rfl⟩ := h
    rw [registered_popDelegation_self,Nat.add_zero,registered,Nat.succ_le_iff,List.countP_pos_iff]
    cases hlookup : delegations.lookup r with
    | none => simp [resultNote,hlookup,DelegationNote.attributed] at hattributed
    | some d =>
      obtain ⟨before,later,rfl,-⟩ := List.lookup_eq_some_iff.mp hlookup
      exact ⟨(r,d),by simp⟩
  · rw [if_neg h,Nat.zero_add]
    exact registered_popDelegation_le delegations id r

lemma attributed_completedNotes_le (py : TextPython F) (results : List Message)
    (delegations : List (String × Delegation)) (id : String) :
    (notesOf (completedNotes py results delegations).1).countP (DelegationNote.attributedTo id)+
      registered (completedNotes py results delegations).2 id ≤ registered delegations id := by
  induction results generalizing delegations with
  | nil => simp [completedNotes,notesOf]
  | cons first results ih =>
    have hrest := ih (popDelegation delegations first.replyTo)
    have hpop := registered_popDelegation_le delegations id first.replyTo
    rw [completedNotes]
    cases houtput : resultText py first.payload with
    | error e => simpa [notesOf] using hpop
    | ok output =>
      have hhead := attributedTo_resultNote_le delegations id first.replyTo output
      simp only
      cases hnotes : completedNotes py results (popDelegation delegations first.replyTo) with
      | mk result remaining =>
        rw [hnotes] at hrest
        cases result with
        | error e => exact hrest.trans hpop
        | ok notes =>
          simp only [notesOf,List.countP_cons] at hrest ⊢
          omega

/-- The attributed notes of a drained mailbox have taken their delegations out. -/
lemma attributed_collect_le (py : TextPython F) (a : Assistant) (now : ℤ) (id : String) :
    (notesOf (collect py a now).1).countP (DelegationNote.attributedTo id)+
      registered (collect py a now).2.activeDelegations id ≤ registered a.activeDelegations id := by
  have h := attributed_completedNotes_le py a.pendingResults a.activeDelegations id
  rw [collect]
  cases hnotes : completedNotes py a.pendingResults a.activeDelegations with
  | mk result remaining =>
    rw [hnotes] at h
    cases result with
    | error e => exact h
    | ok notes =>
      refine le_trans ?_ h
      have hsplit : registered remaining id = registered (remaining.filter (fun d => d.2.stale now)) id+
          registered (remaining.filter (fun d => !d.2.stale now)) id :=
        List.countP_eq_countP_filter_add ..
      have hstale : ((remaining.filter (fun d => d.2.stale now)).map
          (fun d => DelegationNote.timedOut d.1 d.2)).countP (DelegationNote.attributedTo id) =
          registered (remaining.filter (fun d => d.2.stale now)) id := by
        rw [List.countP_map]
        rfl
      simp only [notesOf,List.countP_append]
      omega

/-- What was registered is a delegation that was sent. -/
def Tracks (sent : List (String × String)) (delegations : List (String × Delegation)) : Prop :=
  ∀ d ∈ delegations, (d.1,d.2.target) ∈ sent

lemma Tracks.pop {sent : List (String × String)} {delegations : List (String × Delegation)}
    (h : Tracks sent delegations) (r : String) : Tracks sent (popDelegation delegations r) :=
  fun d hd => h d (List.mem_filter.mp hd).1

lemma Tracks.resultNote {sent : List (String × String)} {delegations : List (String × Delegation)}
    (h : Tracks sent delegations) (r output : String) :
    (Assistant.resultNote delegations r output).Of sent := by
  unfold Assistant.resultNote
  cases hlookup : delegations.lookup r with
  | none => trivial
  | some d =>
    obtain ⟨before,later,rfl,-⟩ := List.lookup_eq_some_iff.mp hlookup
    exact h (r,d) (by simp)

lemma Tracks.completedNotes (py : TextPython F) {sent : List (String × String)} (results : List Message)
    {delegations : List (String × Delegation)} (h : Tracks sent delegations) :
    (∀ note ∈ notesOf (completedNotes py results delegations).1, note.Of sent) ∧
      Tracks sent (completedNotes py results delegations).2 := by
  induction results generalizing delegations with
  | nil => exact ⟨by simp [Assistant.completedNotes,notesOf],h⟩
  | cons first results ih =>
    have hrest := ih (h.pop first.replyTo)
    rw [Assistant.completedNotes]
    cases houtput : resultText py first.payload with
    | error e => exact ⟨by simp [notesOf],h.pop first.replyTo⟩
    | ok output =>
      simp only
      cases hnotes : Assistant.completedNotes py results (popDelegation delegations first.replyTo) with
      | mk result remaining =>
        rw [hnotes] at hrest
        cases result with
        | error e => exact hrest
        | ok notes => exact ⟨List.forall_mem_cons.mpr ⟨h.resultNote _ _,hrest.1⟩,hrest.2⟩

lemma Tracks.collect (py : TextPython F) {sent : List (String × String)} (h : Tracks sent a.activeDelegations)
    (now : ℤ) :
    (∀ note ∈ notesOf (collect py a now).1, note.Of sent) ∧
      Tracks sent (collect py a now).2.activeDelegations := by
  have hcompleted := h.completedNotes py a.pendingResults
  rw [Assistant.collect]
  cases hnotes : Assistant.completedNotes py a.pendingResults a.activeDelegations with
  | mk result remaining =>
    rw [hnotes] at hcompleted
    cases result with
    | error e => exact hcompleted
    | ok notes =>
      refine ⟨fun note hnote => ?_,fun d hd => hcompleted.2 d (List.mem_filter.mp hd).1⟩
      rcases List.mem_append.mp hnote with hnote | hnote
      · exact hcompleted.1 note hnote
      · obtain ⟨d,hd,rfl⟩ := List.mem_map.mp hnote
        exact hcompleted.2 d (List.mem_filter.mp hd).1

lemma unknown_eq_resultNote {delegations : List (String × Delegation)} {id r output : String} :
    (∃ output', DelegationNote.unknown id output' = resultNote delegations r output) ↔
      id = r ∧ id ∉ delegations.map Prod.fst := by
  unfold resultNote
  cases hlookup : delegations.lookup r with
  | none =>
    have hkeys : r ∉ delegations.map Prod.fst := by
      intro h
      obtain ⟨d,hd,rfl⟩ := List.mem_map.mp h
      simpa using List.lookup_eq_none_iff.mp hlookup d hd
    constructor
    · rintro ⟨output',h⟩
      cases h
      exact ⟨rfl,hkeys⟩
    · rintro ⟨rfl,-⟩
      exact ⟨output,rfl⟩
  | some d =>
    refine iff_of_false (by simp) ?_
    rintro ⟨rfl,hkeys⟩
    obtain ⟨before,later,rfl,-⟩ := List.lookup_eq_some_iff.mp hlookup
    exact hkeys (by simp)

/-- A drained result is unknown exactly if its request is not registered any more when its turn comes. -/
lemma unknown_mem_completedNotes {results : List Message} {delegations remaining : List (String × Delegation)}
    {notes : List DelegationNote} (h : completedNotes py results delegations = (.ok notes,remaining))
    (id : String) : (∃ output, DelegationNote.unknown id output ∈ notes) ↔
      id ∈ results.map Message.replyTo ∧
        (id ∉ delegations.map Prod.fst ∨ 2 ≤ (results.map Message.replyTo).count id) := by
  induction results generalizing delegations notes with
  | nil =>
    cases h
    simp
  | cons first results ih =>
    obtain ⟨output,notes',-,hrest,rfl⟩ := completedNotes_cons_ok h
    have hih := ih hrest
    have hkeys : id ∈ (popDelegation delegations first.replyTo).map Prod.fst ↔
        id ∈ delegations.map Prod.fst ∧ id ≠ first.replyTo := by
      simp only [popDelegation,List.mem_map,List.mem_filter,decide_eq_true_eq]
      constructor
      · rintro ⟨d,⟨hd,hne⟩,rfl⟩
        exact ⟨⟨d,hd,rfl⟩,hne⟩
      · rintro ⟨⟨d,hd,rfl⟩,hne⟩
        exact ⟨d,⟨hd,hne⟩,rfl⟩
    rw [hkeys] at hih
    simp only [List.mem_cons,List.map_cons,List.count_cons,exists_or]
    rw [hih]
    by_cases hid : id = first.replyTo
    · have hcount : 1 ≤ (results.map Message.replyTo).count id ↔ id ∈ results.map Message.replyTo :=
        List.one_le_count_iff
      rw [unknown_eq_resultNote]
      simp only [hid,ne_eq,not_true_eq_false,and_false,not_false_eq_true,true_or,and_true,true_and,
        beq_self_eq_true,if_true] at hcount ⊢
      rw [← hcount]
      constructor
      · rintro (h | h)
        · exact .inl h
        · exact .inr (by omega)
      · rintro (h | h)
        · exact .inl h
        · exact .inr (by omega)
    · rw [unknown_eq_resultNote]
      have hne : (first.replyTo == id) = false := by simpa using Ne.symm hid
      simp [hid,hne]

/-- A task that gets through its mailbox holds an unknown result exactly if there was a stray answer. -/
lemma unknown_mem_collect {notes : List DelegationNote} {agent : Assistant}
    (h : collect py a now = (.ok notes,agent)) (id : String) :
    (∃ output, DelegationNote.unknown id output ∈ notes) ↔ a.Stray id := by
  rw [collect] at h
  cases hnotes : completedNotes py a.pendingResults a.activeDelegations with
  | mk result remaining =>
    rw [hnotes] at h
    cases result with
    | error e => cases h
    | ok notes' =>
      cases h
      rw [Stray,← unknown_mem_completedNotes hnotes]
      simp only [List.mem_append,List.mem_map,reduceCtorEq,and_false,exists_false,or_false]

end Assistant

namespace DelegationDesk
variable {F : Type} {py : TextPython F} {s t : DelegationDesk} {op : DelegationOp}

/-- How many notes name the delegation of this request. -/
def mentions (id : String) (notes : List DelegationNote) : ℕ :=
  notes.countP (DelegationNote.attributedTo id)

/-- Where a delegation is: in what was reported, in the notes that a task holds, or registered. -/
def places (s : DelegationDesk) (id : String) : ℕ :=
  mentions id s.reported+s.tasks.sum (fun _ stage => mentions id stage.held)+
    Assistant.registered s.agent.activeDelegations id

/-- The task awaits the send of a delegation. -/
def Sends (tasks : Table ℕ TalkStage) (i : ℕ) (id : String) : Prop :=
  ∃ notes target task, tasks.get i = some (.sending notes id target task)

structure Accounted (s : DelegationDesk) : Prop where
  places : ∀ id, s.places id ≤ if id ∈ s.sent.map Prod.fst then 1 else 0
  nodup : (s.sent.map Prod.fst).Nodup
  active : Assistant.Tracks s.sent s.agent.activeDelegations
  held : ∀ i stage, s.tasks.get i = some stage → ∀ note ∈ stage.held, note.Of s.sent
  reported : ∀ note ∈ s.reported, note.Of s.sent
  named : ∀ id ∈ s.sent.map Prod.fst, id ∈ s.named
  sends : ∀ i id, Sends s.tasks i id → id ∈ s.named ∧ id ∉ s.sent.map Prod.fst
  alone : ∀ i j id, Sends s.tasks i id → Sends s.tasks j id → i = j

lemma sends_set {tasks : Table ℕ TalkStage} {i j : ℕ} {stage : TalkStage} {id : String}
    (h : Sends (tasks.set i stage) j id) :
    (j = i ∧ ∃ notes target task, stage = .sending notes id target task) ∨ (j ≠ i ∧ Sends tasks j id) := by
  obtain ⟨notes,target,task,hj⟩ := h
  rcases Table.get_set_some hj with ⟨rfl,hsame⟩ | ⟨hne,hj⟩
  · exact .inl ⟨rfl,notes,target,task,hsame.symm⟩
  · exact .inr ⟨hne,notes,target,task,hj⟩

/-- A stage without a send. -/
def Still (stage : TalkStage) : Prop := ∀ notes id target task, stage ≠ .sending notes id target task

lemma Still.sends_set {tasks : Table ℕ TalkStage} {i j : ℕ} {stage : TalkStage} {id : String}
    (hstage : Still stage) (h : Sends (tasks.set i stage) j id) : j ≠ i ∧ Sends tasks j id := by
  rcases DelegationDesk.sends_set h with ⟨-,notes,target,task,hsame⟩ | h
  · exact absurd hsame (hstage notes id target task)
  · exact h

/-- The sum over the tasks when one goes on. -/
lemma sum_setTask {tasks : Table ℕ TalkStage} {i : ℕ} {old : TalkStage} (hi : tasks.get i = some old)
    (stage : TalkStage) (id : String) :
    (tasks.set i stage).sum (fun _ stage => mentions id stage.held)+mentions id old.held =
      tasks.sum (fun _ stage => mentions id stage.held)+mentions id stage.held :=
  Table.sum_set_of_some tasks hi stage _

lemma sum_setTask_new {tasks : Table ℕ TalkStage} {i : ℕ} (hi : tasks.get i = none) (stage : TalkStage)
    (id : String) : (tasks.set i stage).sum (fun _ stage => mentions id stage.held) =
      mentions id stage.held+tasks.sum (fun _ stage => mentions id stage.held) :=
  Table.sum_set_of_none tasks hi stage _

/-- A task that goes on, without a send, may move notes about but makes no new place for a delegation. -/
lemma Accounted.settle (h : Accounted s) {i : ℕ} {stage : TalkStage} {agent : Assistant}
    {reported : List DelegationNote} (hstage : Still stage)
    (hplaces : ∀ id, DelegationDesk.places
      { s with agent := agent, tasks := s.tasks.set i stage, reported := reported } id ≤ s.places id)
    (hactive : Assistant.Tracks s.sent agent.activeDelegations) (hheld : ∀ note ∈ stage.held, note.Of s.sent)
    (hreported : ∀ note ∈ reported, note.Of s.sent) :
    Accounted { s with agent := agent, tasks := s.tasks.set i stage, reported := reported } where
  places id := (hplaces id).trans (h.places id)
  nodup := h.nodup
  active := hactive
  held j stage' hj := by
    rcases Table.get_set_some hj with ⟨-,rfl⟩ | ⟨-,hj⟩
    · exact hheld
    · exact h.held j stage' hj
  reported := hreported
  named := h.named
  sends j id hj := h.sends j id (hstage.sends_set hj).2
  alone j k id hj hk := h.alone j k id (hstage.sends_set hj).2 (hstage.sends_set hk).2

/-- A task begins: what it notes is no longer registered. -/
lemma Accounted.collect (h : Accounted s) {i : ℕ} (hnew : s.tasks.get i = none) {stage : TalkStage}
    (hstage : Still stage) {result : Except PyError (List DelegationNote)} {agent : Assistant}
    (hcollect : s.agent.collect py s.clock = (result,agent)) (hheld : stage.held = Assistant.notesOf result) :
    Accounted ({ s with agent := agent }.setTask i stage) := by
  have hsources := h.active.collect py s.clock
  have hcount := Assistant.attributed_collect_le py s.agent s.clock
  rw [hcollect] at hsources hcount
  refine h.settle hstage (fun id => ?_) hsources.2 (hheld ▸ hsources.1) h.reported
  have hsum := sum_setTask_new hnew stage id
  have hid := hcount id
  rw [hheld] at hsum
  simp only [DelegationDesk.places,mentions] at hsum hid ⊢
  omega

/-- A task goes on with no other notes than it had. -/
lemma Accounted.goOn (h : Accounted s) {i : ℕ} {old stage : TalkStage} (hi : s.tasks.get i = some old)
    (hstage : Still stage) (hheld : stage.held = old.held ∨ stage.held = []) :
    Accounted (s.setTask i stage) := by
  refine h.settle hstage (fun id => ?_) h.active (fun note hnote => ?_) h.reported
  · have hsum := sum_setTask hi stage id
    have hle : mentions id stage.held ≤ mentions id old.held := by
      rcases hheld with hheld | hheld
      · rw [hheld]
      · rw [hheld]
        exact Nat.zero_le _
    simp only [DelegationDesk.places]
    omega
  · rcases hheld with hheld | hheld
    · exact h.held i old hi note (hheld ▸ hnote)
    · rw [hheld] at hnote
      cases hnote

/-- The notes of a task go over into what was reported. -/
lemma Accounted.report (h : Accounted s) {i : ℕ} {stage : TalkStage} (hi : s.tasks.get i = some stage) :
    Accounted (s.report i stage.held) := by
  have hstill : Still .ended := by simp [Still]
  refine h.settle hstill (fun id => ?_) h.active (by simp [TalkStage.held])
    (List.forall_mem_append.mpr ⟨h.reported,h.held i stage hi⟩)
  have hsum := sum_setTask hi .ended id
  have hnone : mentions id TalkStage.ended.held = 0 := rfl
  have hreported : mentions id (s.reported++stage.held) = mentions id s.reported+mentions id stage.held :=
    List.countP_append
  simp only [DelegationDesk.places,setTask,hreported]
  omega

lemma Accounted.send (h : Accounted s) {i : ℕ} {notes : List DelegationNote} {id target task : String}
    (hi : s.tasks.get i = some (.talking notes)) (hid : id ∉ s.named) :
    Accounted ({ s with named := id::s.named }.setTask i (.sending notes id target task)) where
  places id' := by
    have hsum := sum_setTask hi (.sending notes id target task) id'
    have hheld : (TalkStage.sending notes id target task).held = (TalkStage.talking notes).held := rfl
    refine le_trans (le_of_eq ?_) (h.places id')
    rw [hheld] at hsum
    simp only [DelegationDesk.places,setTask]
    omega
  nodup := h.nodup
  active := h.active
  held j stage hj := by
    rcases Table.get_set_some hj with ⟨-,rfl⟩ | ⟨-,hj⟩
    · exact h.held i (.talking notes) hi
    · exact h.held j stage hj
  reported := h.reported
  named id' hsent := List.mem_cons_of_mem id (h.named id' hsent)
  sends j id' hj := by
    rcases sends_set hj with ⟨-,notes',target',task',hsame⟩ | ⟨-,hj⟩
    · cases hsame
      exact ⟨List.mem_cons_self,fun hsent => hid (h.named id hsent)⟩
    · exact ⟨List.mem_cons_of_mem id (h.sends j id' hj).1,(h.sends j id' hj).2⟩
  alone j k id' hj hk := by
    rcases sends_set hj with ⟨rfl,notes',target',task',hsame⟩ | ⟨-,hj⟩
    · cases hsame
      rcases sends_set hk with ⟨rfl,-⟩ | ⟨-,hk⟩
      · rfl
      · exact absurd (h.sends k id hk).1 hid
    · rcases sends_set hk with ⟨-,notes',target',task',hsame⟩ | ⟨-,hk⟩
      · cases hsame
        exact absurd (h.sends j id hj).1 hid
      · exact h.alone j k id' hj hk

/-- A registration makes one place, for its own request. -/
lemma registered_register_le (a : Assistant) (id id' : String) (d : Delegation) :
    Assistant.registered (a.register id d).activeDelegations id' ≤
      Assistant.registered a.activeDelegations id'+if id' = id then 1 else 0 := by
  have hpop := Assistant.registered_popDelegation_le a.activeDelegations id' id
  simp only [Assistant.register,Assistant.registered,List.countP_append,List.countP_singleton] at hpop ⊢
  simp only [eq_comm (a := id),decide_eq_true_eq]
  omega

lemma mem_keys_track {id id' target : String} (task : String) :
    id' ∈ (s.track id target task).sent.map Prod.fst ↔ id' ∈ s.sent.map Prod.fst ∨ id' = id := by
  simp only [track,List.map_append,List.map_cons,List.map_nil,List.mem_append,List.mem_singleton]

lemma of_append {note : DelegationNote} {sent : List (String × String)} (h : note.Of sent)
    (later : List (String × String)) : note.Of (sent++later) := by
  cases note with
  | completed id target output => exact List.mem_append_left later h
  | unknown id output => trivial
  | timedOut id d => exact List.mem_append_left later h

/-- A send has succeeded: its delegation, in no place so far, is registered. -/
lemma Accounted.tracked (h : Accounted s) {i : ℕ} {notes : List DelegationNote} {id target task : String}
    (hi : s.tasks.get i = some (.sending notes id target task)) :
    Accounted ((s.track id target task).setTask i (.closing notes)) := by
  have hsends := h.sends i id ⟨notes,target,task,hi⟩
  have hstill : Still (.closing notes) := by simp [Still]
  refine ⟨fun id' => ?_,?_,fun d hd => ?_,fun j stage hj note hnote => ?_,fun note hnote => ?_,
    fun id' hsent => ?_,fun j id' hj => ?_,fun j k id' hj hk => ?_⟩
  · have hsum := sum_setTask hi (.closing notes) id'
    have hheld : (TalkStage.sending notes id target task).held = (TalkStage.closing notes).held := rfl
    have hplaces := h.places id'
    have hregister := registered_register_le s.agent id id' ⟨target,task,s.clock⟩
    have hkeys : id' ∈ ((s.track id target task).setTask i (.closing notes)).sent.map Prod.fst ↔
        id' ∈ s.sent.map Prod.fst ∨ id' = id := mem_keys_track task
    simp only [hkeys]
    simp only [DelegationDesk.places,setTask,track] at hplaces ⊢
    rw [hheld] at hsum
    by_cases hid : id' = id
    · rw [if_pos (.inr hid)]
      rw [if_pos hid] at hregister
      rw [hid,if_neg hsends.2] at hplaces
      rw [hid] at hsum hregister ⊢
      omega
    · simp only [hid,or_false,if_false] at hregister ⊢
      omega
  · have hkeys : ((s.track id target task).setTask i (.closing notes)).sent.map Prod.fst =
        s.sent.map Prod.fst++[id] := by simp [track,setTask]
    rw [hkeys,List.nodup_append]
    refine ⟨h.nodup,List.nodup_singleton _,fun a ha b hb hab => hsends.2 ?_⟩
    rwa [← List.mem_singleton.mp hb,← hab]
  · rcases List.mem_append.mp hd with hd | hd
    · exact List.mem_append_left _ (h.active.pop id d hd)
    · obtain rfl := List.mem_singleton.mp hd
      exact List.mem_append_right _ List.mem_cons_self
  · rcases Table.get_set_some hj with ⟨-,rfl⟩ | ⟨-,hj⟩
    · exact of_append (h.held i _ hi note hnote) _
    · exact of_append (h.held j stage hj note hnote) _
  · exact of_append (h.reported note hnote) _
  · rcases (mem_keys_track task).mp hsent with hsent | rfl
    · exact h.named id' hsent
    · exact hsends.1
  · obtain ⟨hne,hj⟩ := hstill.sends_set hj
    refine ⟨(h.sends j id' hj).1,fun hsent => ?_⟩
    rcases (mem_keys_track task).mp hsent with hsent | rfl
    · exact (h.sends j id' hj).2 hsent
    · exact hne (h.alone j i id' hj ⟨notes,target,task,hi⟩)
  · exact h.alone j k id' (hstill.sends_set hj).2 (hstill.sends_set hk).2

lemma activeDelegations_onMessage (a : Assistant) (msg : Message) :
    (a.onMessage msg).activeDelegations = a.activeDelegations := by
  unfold Assistant.onMessage
  split <;> rfl

/-- A message changes nothing but the mailbox. -/
lemma Accounted.message (h : Accounted s) (msg : Message) :
    Accounted { s with agent := s.agent.onMessage msg, named := msg.replyTo::s.named } where
  places id := by
    refine le_trans (le_of_eq ?_) (h.places id)
    simp only [DelegationDesk.places,activeDelegations_onMessage]
  nodup := h.nodup
  active := by
    rw [activeDelegations_onMessage]
    exact h.active
  held := h.held
  reported := h.reported
  named id hsent := List.mem_cons_of_mem _ (h.named id hsent)
  sends i id hi := ⟨List.mem_cons_of_mem _ (h.sends i id hi).1,(h.sends i id hi).2⟩
  alone := h.alone

theorem Accounted.move (h : Accounted s) (hmove : Move py s op t) : Accounted t := by
  cases hmove with
  | drained hnew hcollect => exact h.collect hnew (by simp [Still]) hcollect rfl
  | raised hnew hcollect => exact h.collect hnew (by simp [Still]) hcollect rfl
  | failed hi => exact h.goOn hi (by simp [Still]) (.inr rfl)
  | sending hi hid => exact h.send hi hid
  | sent hi => exact h.tracked hi
  | notSent hi => exact h.goOn hi (by simp [Still]) (.inl rfl)
  | finished hi hopen => exact h.report hi
  | message msg => exact h.message msg
  | passed d => exact ⟨h.places,h.nodup,h.active,h.held,h.reported,h.named,h.sends,h.alone⟩

lemma accounted_start (clock : ℤ) : Accounted (start clock) := by
  constructor <;> simp [start,places,mentions,Assistant.registered,Assistant.Tracks,Sends]

/-- The transition begins a task and gets these notes out of the mailbox. -/
def Drains (py : TextPython F) (e : Transition DelegationDesk DelegationOp) (i : ℕ)
    (notes : List DelegationNote) : Prop :=
  e.label = .handleTask i ∧ ∃ agent, e.source.agent.collect py e.source.clock = (.ok notes,agent)

/-- What the state after a run says about it: every task holds what it has drained, and what was reported
are the notes of the tasks that have returned their outputs. -/
structure History (py : TextPython F) (trace : List (Transition DelegationDesk DelegationOp))
    (t : DelegationDesk) : Prop where
  source : ∀ i stage, t.tasks.get i = some stage → stage ≠ .ended → ∃ d ∈ trace, Drains py d i stage.held
  begun : ∀ d ∈ trace, ∀ i, d.label = .handleTask i →
    ∃ stage, t.tasks.get i = some stage ∧ (stage = .ended ∨ Drains py d i stage.held)
  finished : ∀ e ∈ trace, ∀ i, e.label = .finish i → t.tasks.get i = some .ended
  reported : ∀ note ∈ t.reported, ∃ d ∈ trace, ∃ e ∈ trace, ∃ i notes,
    Drains py d i notes ∧ e.label = .finish i ∧ note ∈ notes
  returned : ∀ d ∈ trace, ∀ e ∈ trace, ∀ i, d.label = .handleTask i → e.label = .finish i →
    ∃ notes, Drains py d i notes ∧ ∀ note ∈ notes, note ∈ t.reported

/-- What a step does to the tasks and to the outputs. -/
lemma Move.outputs (hmove : Move py s op t) :
    (∃ i stage, op = .handleTask i ∧ s.tasks.get i = none ∧ t.tasks = s.tasks.set i stage ∧
      t.reported = s.reported ∧ (stage = .ended ∨ Drains py ⟨s,op,t⟩ i stage.held)) ∨
    (∃ i stage, op = .finish i ∧ s.tasks.get i = some stage ∧ stage ≠ .ended ∧
      t.tasks = s.tasks.set i .ended ∧ t.reported = s.reported++stage.held) ∨
    ((∀ i, op ≠ .handleTask i ∧ op ≠ .finish i) ∧ t.reported = s.reported ∧ (t.tasks = s.tasks ∨
      ∃ i old stage, s.tasks.get i = some old ∧ t.tasks = s.tasks.set i stage ∧
        (stage = .ended ∨ (old ≠ .ended ∧ stage.held = old.held)))) := by
  cases hmove with
  | drained hnew hcollect => exact .inl ⟨_,.talking _,rfl,hnew,rfl,rfl,.inr ⟨rfl,_,hcollect⟩⟩
  | raised hnew hcollect => exact .inl ⟨_,.ended,rfl,hnew,rfl,rfl,.inl rfl⟩
  | failed hi => exact .inr (.inr ⟨by simp,rfl,.inr ⟨_,_,.ended,hi,rfl,.inl rfl⟩⟩)
  | sending hi hid =>
    exact .inr (.inr ⟨by simp,rfl,.inr ⟨_,_,.sending _ _ _ _,hi,rfl,.inr ⟨by simp,rfl⟩⟩⟩)
  | sent hi => exact .inr (.inr ⟨by simp,rfl,.inr ⟨_,_,.closing _,hi,rfl,.inr ⟨by simp,rfl⟩⟩⟩)
  | notSent hi => exact .inr (.inr ⟨by simp,rfl,.inr ⟨_,_,.closing _,hi,rfl,.inr ⟨by simp,rfl⟩⟩⟩)
  | finished hi hopen => exact .inr (.inl ⟨_,_,rfl,hi,hopen,rfl,rfl⟩)
  | message msg => exact .inr (.inr ⟨by simp,rfl,.inl rfl⟩)
  | passed d => exact .inr (.inr ⟨by simp,rfl,.inl rfl⟩)

variable {trace : List (Transition DelegationDesk DelegationOp)}

/-- A task begins. -/
lemma History.begin_task (h : History py trace s) {i : ℕ} {stage : TalkStage} (hop : op = .handleTask i)
    (hnew : s.tasks.get i = none) (htasks : t.tasks = s.tasks.set i stage) (hreported : t.reported = s.reported)
    (hstage : stage = .ended ∨ Drains py ⟨s,op,t⟩ i stage.held) : History py (trace++[⟨s,op,t⟩]) t := by
  have hothers : ∀ j old, s.tasks.get j = some old → t.tasks.get j = some old := by
    intro j old hj
    have hne : j ≠ i := by
      rintro rfl
      rw [hnew] at hj
      cases hj
    rw [htasks,Table.get_set_of_ne hne,hj]
  refine ⟨fun j stage' hj hopen => ?_,fun d hd j hd' => ?_,fun e he j he' => ?_,fun note hnote => ?_,
    fun d hd e he j hd' he' => ?_⟩
  · rw [htasks] at hj
    rcases Table.get_set_some hj with ⟨rfl,rfl⟩ | ⟨-,hj⟩
    · exact ⟨_,by simp,hstage.resolve_left hopen⟩
    · obtain ⟨d,hd,hdrains⟩ := h.source j stage' hj hopen
      exact ⟨d,List.mem_append_left _ hd,hdrains⟩
  · rcases List.mem_append.mp hd with hd | hd
    · obtain ⟨old,hj,hold⟩ := h.begun d hd j hd'
      exact ⟨old,hothers j old hj,hold⟩
    · obtain rfl := List.mem_singleton.mp hd
      obtain rfl : i = j := by simpa using hop.symm.trans hd'
      exact ⟨stage,by rw [htasks,Table.get_set_self],hstage⟩
  · rcases List.mem_append.mp he with he | he
    · exact hothers j _ (h.finished e he j he')
    · obtain rfl := List.mem_singleton.mp he
      cases hop.symm.trans he'
  · rw [hreported] at hnote
    obtain ⟨d,hd,e,he,j,notes,hfacts⟩ := h.reported note hnote
    exact ⟨d,List.mem_append_left _ hd,e,List.mem_append_left _ he,j,notes,hfacts⟩
  · rw [hreported]
    rcases List.mem_append.mp he with he | he
    · rcases List.mem_append.mp hd with hd | hd
      · exact h.returned d hd e he j hd' he'
      · obtain rfl := List.mem_singleton.mp hd
        obtain rfl : i = j := by simpa using hop.symm.trans hd'
        have hover := h.finished e he i he'
        rw [hnew] at hover
        cases hover
    · obtain rfl := List.mem_singleton.mp he
      cases hop.symm.trans he'

/-- A task returns its output. -/
lemma History.end_task (h : History py trace s) {i : ℕ} {stage : TalkStage} (hop : op = .finish i)
    (hi : s.tasks.get i = some stage) (hopen : stage ≠ .ended) (htasks : t.tasks = s.tasks.set i .ended)
    (hreported : t.reported = s.reported++stage.held) : History py (trace++[⟨s,op,t⟩]) t := by
  refine ⟨fun j stage' hj hopen' => ?_,fun d hd j hd' => ?_,fun e he j he' => ?_,fun note hnote => ?_,
    fun d hd e he j hd' he' => ?_⟩
  · rw [htasks] at hj
    rcases Table.get_set_some hj with ⟨-,hend⟩ | ⟨-,hj⟩
    · exact absurd hend hopen'
    · obtain ⟨d,hd,hdrains⟩ := h.source j stage' hj hopen'
      exact ⟨d,List.mem_append_left _ hd,hdrains⟩
  · rcases List.mem_append.mp hd with hd | hd
    · obtain ⟨old,hj,hold⟩ := h.begun d hd j hd'
      by_cases hji : j = i
      · exact ⟨.ended,by rw [htasks,hji,Table.get_set_self],.inl rfl⟩
      · exact ⟨old,by rw [htasks,Table.get_set_of_ne hji,hj],hold⟩
    · obtain rfl := List.mem_singleton.mp hd
      cases hop.symm.trans hd'
  · rw [htasks]
    by_cases hji : j = i
    · rw [hji,Table.get_set_self]
    · rw [Table.get_set_of_ne hji]
      rcases List.mem_append.mp he with he | he
      · exact h.finished e he j he'
      · obtain rfl := List.mem_singleton.mp he
        exact absurd (by simpa using he'.symm.trans hop) hji
  · rw [hreported] at hnote
    rcases List.mem_append.mp hnote with hnote | hnote
    · obtain ⟨d,hd,e,he,j,notes,hfacts⟩ := h.reported note hnote
      exact ⟨d,List.mem_append_left _ hd,e,List.mem_append_left _ he,j,notes,hfacts⟩
    · obtain ⟨d,hd,hdrains⟩ := h.source i stage hi hopen
      exact ⟨d,List.mem_append_left _ hd,_,List.mem_append_right _ List.mem_cons_self,i,stage.held,hdrains,hop,hnote⟩
  · rw [hreported]
    rcases List.mem_append.mp hd with hd | hd
    · rcases List.mem_append.mp he with he | he
      · obtain ⟨notes,hdrains,hnotes⟩ := h.returned d hd e he j hd' he'
        exact ⟨notes,hdrains,fun note hnote => List.mem_append_left _ (hnotes note hnote)⟩
      · obtain rfl := List.mem_singleton.mp he
        obtain rfl : i = j := by simpa using hop.symm.trans he'
        obtain ⟨old,hj,hold⟩ := h.begun d hd i hd'
        obtain rfl := Option.some.inj (hi.symm.trans hj)
        exact ⟨stage.held,hold.resolve_left hopen,fun note hnote => List.mem_append_right _ hnote⟩
    · obtain rfl := List.mem_singleton.mp hd
      cases hop.symm.trans hd'

/-- Any other step: a task may go on or raise. -/
lemma History.other (h : History py trace s) (hop : ∀ i, op ≠ .handleTask i ∧ op ≠ .finish i)
    (hreported : t.reported = s.reported) (htasks : ∀ j, t.tasks.get j = s.tasks.get j ∨ ∃ old stage,
      s.tasks.get j = some old ∧ t.tasks.get j = some stage ∧
        (stage = .ended ∨ (old ≠ .ended ∧ stage.held = old.held))) :
    History py (trace++[⟨s,op,t⟩]) t := by
  refine ⟨fun j stage hj hopen => ?_,fun d hd j hd' => ?_,fun e he j he' => ?_,fun note hnote => ?_,
    fun d hd e he j hd' he' => ?_⟩
  · rcases htasks j with hsame | ⟨old,stage',hold,hj',hstage⟩
    · obtain ⟨d,hd,hdrains⟩ := h.source j stage (hsame ▸ hj) hopen
      exact ⟨d,List.mem_append_left _ hd,hdrains⟩
    · obtain rfl := Option.some.inj (hj.symm.trans hj')
      obtain ⟨hne,hheld⟩ := hstage.resolve_left hopen
      obtain ⟨d,hd,hdrains⟩ := h.source j old hold hne
      exact ⟨d,List.mem_append_left _ hd,hheld ▸ hdrains⟩
  · rcases List.mem_append.mp hd with hd | hd
    · obtain ⟨old,hj,hold⟩ := h.begun d hd j hd'
      rcases htasks j with hsame | ⟨old',stage,hold',hj',rfl | ⟨hne,hheld⟩⟩
      · exact ⟨old,hsame.trans hj,hold⟩
      · exact ⟨.ended,hj',.inl rfl⟩
      · obtain rfl := Option.some.inj (hj.symm.trans hold')
        exact ⟨stage,hj',.inr (hheld ▸ hold.resolve_left hne)⟩
    · obtain rfl := List.mem_singleton.mp hd
      exact absurd hd' (hop j).1
  · rcases List.mem_append.mp he with he | he
    · have hover := h.finished e he j he'
      rcases htasks j with hsame | ⟨old,stage,hold,hj,rfl | ⟨hne,-⟩⟩
      · exact hsame.trans hover
      · exact hj
      · exact absurd (Option.some.inj (hold.symm.trans hover)) hne
    · obtain rfl := List.mem_singleton.mp he
      exact absurd he' (hop j).2
  · rw [hreported] at hnote
    obtain ⟨d,hd,e,he,j,notes,hfacts⟩ := h.reported note hnote
    exact ⟨d,List.mem_append_left _ hd,e,List.mem_append_left _ he,j,notes,hfacts⟩
  · rw [hreported]
    rcases List.mem_append.mp hd with hd | hd
    · rcases List.mem_append.mp he with he | he
      · exact h.returned d hd e he j hd' he'
      · obtain rfl := List.mem_singleton.mp he
        exact absurd he' (hop j).2
    · obtain rfl := List.mem_singleton.mp hd
      exact absurd hd' (hop j).1

lemma History.move (h : History py trace s) (hmove : Move py s op t) : History py (trace++[⟨s,op,t⟩]) t := by
  rcases hmove.outputs with ⟨i,stage,hop,hnew,htasks,hreported,hstage⟩ | ⟨i,stage,hop,hi,hopen,htasks,hreported⟩ |
    ⟨hop,hreported,htasks⟩
  · exact h.begin_task hop hnew htasks hreported hstage
  · exact h.end_task hop hi hopen htasks hreported
  · refine h.other hop hreported (fun j => ?_)
    rcases htasks with htasks | ⟨i,old,stage,hi,htasks,hstage⟩
    · exact .inl (by rw [htasks])
    · rw [htasks]
      by_cases hji : j = i
      · subst hji
        exact .inr ⟨old,stage,hi,Table.get_set_self _ _ _,hstage⟩
      · exact .inl (Table.get_set_of_ne hji)

theorem accounted_of_run {clock : ℤ} (run : Run (step py) (start clock) trace t) :
    Accounted t ∧ History py trace t := by
  refine run.snoc_induction (P := fun trace t => Accounted t ∧ History py trace t) ?_ ?_
  · exact ⟨accounted_start clock,by constructor <;> simp [start]⟩
  · intro trace s op t _ h hstep
    exact ⟨h.1.move (move_of_step hstep),h.2.move (move_of_step hstep)⟩

/-- A delegation without unknown notes is reported once. -/
lemma Accounted.reported_once (h : Accounted s) {id target : String} (hsent : (id,target) ∈ s.sent)
    (hknown : ∀ note ∈ s.reported, note.id = id → note.attributed) :
    s.reported.countP (fun note => note.id = id) ≤ 1 ∧ ∀ note ∈ s.reported, note.id = id → note.Names target := by
  constructor
  · have hplaces := h.places id
    rw [if_pos (List.mem_map.mpr ⟨_,hsent,rfl⟩)] at hplaces
    have hle : s.reported.countP (fun note => note.id = id) ≤ mentions id s.reported := by
      refine List.countP_mono_left (fun note hnote hid => ?_)
      simp only [decide_eq_true_eq] at hid
      simp [DelegationNote.attributedTo,hid,hknown note hnote hid]
    simp only [DelegationDesk.places] at hplaces
    omega
  · intro note hnote hid
    have hof := h.reported note hnote
    have hsame : ∀ target', (id,target') ∈ s.sent → target' = target := fun target' htarget' =>
      congrArg Prod.snd (List.inj_on_of_nodup_map h.nodup htarget' hsent rfl)
    cases note with
    | completed id' target' output =>
      obtain rfl : id' = id := hid
      exact hsame target' hof
    | unknown id' output => exact absurd (hknown _ hnote hid) (by simp [DelegationNote.attributed])
    | timedOut id' d =>
      obtain rfl : id' = id := hid
      exact hsame d.target hof

/-- In every run: each delegation that was sent is reported at most once, with its target, exactly if no task
that has returned its output drained a stray answer to it. -/
theorem reportedOnce_iff (py : TextPython F) {clock : ℤ} (run : Run (step py) (start clock) trace t) :
    t.ReportedOnce ↔ NoStrayReported trace t := by
  obtain ⟨haccounted,hhistory⟩ := accounted_of_run run
  constructor
  · intro h d hd e he i id hbegin hfinish hstray hsent
    obtain ⟨notes,⟨-,agent,hcollect⟩,hnotes⟩ := hhistory.returned d hd e he i hbegin hfinish
    obtain ⟨output,hunknown⟩ := (Assistant.unknown_mem_collect hcollect id).mpr hstray
    obtain ⟨delegation,hdelegation,rfl⟩ := List.mem_map.mp hsent
    exact (h delegation hdelegation).2 _ (hnotes _ hunknown) rfl
  · intro h delegation hdelegation
    refine haccounted.reported_once hdelegation (fun note hnote hid => ?_)
    cases note with
    | completed _ _ _ => rfl
    | timedOut _ _ => rfl
    | unknown id output =>
      obtain rfl : id = delegation.1 := hid
      obtain ⟨d,hd,e,he,i,notes,⟨hbegin,agent,hcollect⟩,hfinish,hmem⟩ := hhistory.reported _ hnote
      exact absurd (List.mem_map.mpr ⟨delegation,hdelegation,rfl⟩) (h d hd e he i delegation.1 hbegin hfinish
        ((Assistant.unknown_mem_collect hcollect delegation.1).mp ⟨output,hmem⟩))

def answerTo (id : String) : Message :=
  { fromPID := 3, type := "task_response", payload := Assistant.donePayload, replyTo := id }

/-- The answer comes when the delegation is registered; the next task reports it. -/
def answeredInTime : List DelegationOp :=
  [.handleTask 0,.send 0 "r1" "queen" "research",.sendDone 0,.finish 0,.onMessage (answerTo "r1"),
    .handleTask 1,.finish 1]

theorem reportedOnce_iff_inTime : ∃ t, t.reported = [.completed "r1" "queen" "done"] ∧ t.sent = [("r1","queen")] ∧
    (t.ReportedOnce ↔ NoStrayReported (transitions (step Assistant.plainPython) answeredInTime (start 0)) t) := by
  have hexec : ∃ t, exec (step Assistant.plainPython) answeredInTime (start 0) = some t ∧
      t.reported = [.completed "r1" "queen" "done"] ∧ t.sent = [("r1","queen")] := ⟨_,rfl,rfl,rfl⟩
  obtain ⟨t,ht,hreported,hsent⟩ := hexec
  exact ⟨t,hreported,hsent,reportedOnce_iff Assistant.plainPython (Run.of_exec ht)⟩

/-- The answer comes before the send is over, and another task drains it meanwhile. -/
def answeredEarly : List DelegationOp :=
  [.handleTask 0,.send 0 "r1" "queen" "research",.onMessage (answerTo "r1"),.handleTask 1,.finish 1,.sendDone 0]

theorem early_answer_unknown : ¬∀ (F : Type) (py : TextPython F) (clock : ℤ)
    (trace : List (Transition DelegationDesk DelegationOp)) (t : DelegationDesk),
    Run (step py) (start clock) trace t → t.ReportedOnce := by
  intro h
  have hexec : ∃ t, exec (step Assistant.plainPython) answeredEarly (start 0) = some t ∧
      t.reported = [.unknown "r1" "done"] ∧ t.sent = [("r1","queen")] := ⟨_,rfl,rfl,rfl⟩
  obtain ⟨t,ht,hreported,hsent⟩ := hexec
  have honce := h ℕ Assistant.plainPython 0 _ t (Run.of_exec ht) ("r1","queen") (by simp [hsent])
  exact honce.2 (.unknown "r1" "done") (by simp [hreported]) rfl

end DelegationDesk
end HiveKernel
