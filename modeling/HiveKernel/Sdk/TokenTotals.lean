import HiveKernel.Sdk.PlanParsing
import HiveKernel.Lib.Text

/-! The tokens that a task of the orchestrator reports. The client of the model counts over its whole life, and so
do the clients of the workers, which do the subtasks of a group one after the other. -/
namespace HiveKernel.Orchestrator
open Lib Dashboard
variable {F : Type}

/-- What a call of the model costs and how it ends. A call may be charged and raise nevertheless. -/
structure ChatAnswer where
  tokens : ℕ
  answer : AwaitOutcome String

/-- The awaits of a worker on one subtask. -/
structure WorkerAwaits where
  startLog : AwaitOutcome Unit
  startProgress : AwaitOutcome Unit
  chat : String → ChatAnswer
  doneLog : AwaitOutcome Unit
  doneProgress : AwaitOutcome Unit

/-- The subtasks that a worker remembers, with their results, and the tokens that its client has counted. -/
structure PoolWorker where
  taskMemory : List (String × String) := []
  totalTokens : ℕ := 0

namespace PoolWorker

/-- What the worker tells the model about earlier subtasks. -/
def context (w : PoolWorker) : String :=
  if w.taskMemory.isEmpty then ""
  else "\n".intercalate (["You have already completed these related tasks:"]
    ++w.taskMemory.zipIdx.flatMap (fun (m,i) => [s!"\n--- Previous task {i+1} ---",s!"Task: {m.1}",
      s!"Result: {(m.2.take 500).toString}"])
    ++["\n--- Current task ---","Use context from your previous tasks to inform this response.\n"])

def prompt (w : PoolWorker) (subtask : String) : String :=
  s!"{w.context}Complete the following task thoroughly and concisely.\n\nTask: {subtask}\n\n"
    ++"Provide a clear, well-structured response."

/-- `WorkerAgent.handle_task`; `none` raises. -/
def handleTask (w : PoolWorker) (subtask : String) (o : WorkerAwaits) : PoolWorker × Option WorkerReply :=
  if o.startLog ≠ .ok () ∨ o.startProgress ≠ .ok () then (w,none)
  else
    let chat := o.chat (w.prompt subtask)
    let charged := { w with totalTokens := w.totalTokens+chat.tokens }
    match chat.answer with
    | .error _ | .cancelled => (charged,none)
    | .ok result =>
      let remembering := { charged with taskMemory := charged.taskMemory++[(subtask,result)] }
      if o.doneLog ≠ .ok () ∨ o.doneProgress ≠ .ok () then (remembering,none)
      else (remembering,some ⟨result,some (toString remembering.totalTokens)⟩)

/-- The tokens of the calls that a worker makes for one subtask. -/
def spends (w : PoolWorker) (subtask : String) (o : WorkerAwaits) : ℕ :=
  if o.startLog ≠ .ok () ∨ o.startProgress ≠ .ok () then 0 else (o.chat (w.prompt subtask)).tokens

variable (w : PoolWorker) (subtask : String) (o : WorkerAwaits)

/-- The counter goes up by what was spent, whether or not there is a reply, and a reply gives the counter. -/
lemma handleTask_spec : (w.handleTask subtask o).1.totalTokens = w.totalTokens+w.spends subtask o ∧
    ∀ reply, (w.handleTask subtask o).2 = some reply →
      reply.tokensUsed = some (toString (w.totalTokens+w.spends subtask o)) := by
  unfold handleTask spends
  by_cases hstart : o.startLog ≠ .ok () ∨ o.startProgress ≠ .ok ()
  · rw [if_pos hstart,if_pos hstart]
    exact ⟨rfl,fun reply hreply => by cases hreply⟩
  rw [if_neg hstart,if_neg hstart]
  cases hanswer : (o.chat (w.prompt subtask)).answer with
  | error | cancelled =>
    simp only [hanswer,true_and]
    exact fun reply hreply => by cases hreply
  | ok result =>
    simp only [hanswer]
    by_cases hdone : o.doneLog ≠ .ok () ∨ o.doneProgress ≠ .ok ()
    · rw [if_pos hdone]
      exact ⟨rfl,fun reply hreply => by cases hreply⟩
    · rw [if_neg hdone]
      exact ⟨rfl,fun reply hreply => by cases hreply; rfl⟩

end PoolWorker

/-- A subtask on its way: whether it gets to the worker, what happens there, and how the reply comes back. -/
structure WorkerTurn where
  reached : Bool
  awaits : WorkerAwaits
  delivery : AwaitOutcome Unit

/-- `execute_on`. A worker that raises is an error of the call. -/
def executeOn (w : PoolWorker) (subtask : String) (turn : WorkerTurn) : PoolWorker × AwaitOutcome WorkerReply :=
  let (after,reply) := if turn.reached then w.handleTask subtask turn.awaits else (w,none)
  (after,match turn.delivery,reply with
    | .ok _,some reply => .ok reply
    | .ok _,none => .error "execute_on failed: task failed"
    | .error text,_ => .error text
    | .cancelled,_ => .cancelled)

def spendsOn (w : PoolWorker) (subtask : String) (turn : WorkerTurn) : ℕ :=
  if turn.reached then w.spends subtask turn.awaits else 0

lemma executeOn_spec (w : PoolWorker) (subtask : String) (turn : WorkerTurn) :
    (executeOn w subtask turn).1.totalTokens = w.totalTokens+spendsOn w subtask turn ∧
    ∀ reply, (executeOn w subtask turn).2 = .ok reply →
      reply.tokensUsed = some (toString (w.totalTokens+spendsOn w subtask turn)) := by
  unfold executeOn spendsOn
  cases turn.reached with
  | false =>
    refine ⟨rfl,fun reply hreply => ?_⟩
    cases hdelivery : turn.delivery <;> simp [hdelivery] at hreply
  | true =>
    obtain ⟨htotal,hreply⟩ := w.handleTask_spec subtask turn.awaits
    refine ⟨htotal,fun reply h => hreply reply ?_⟩
    cases hdelivery : turn.delivery <;> cases hgiven : (w.handleTask subtask turn.awaits).2 <;>
      simp [hdelivery,hgiven] at h
    rw [h]

variable (turns : ℕ → ℕ → WorkerTurn) (groups : List SubtaskGroup)

def subtaskAt (i j : ℕ) : Option String := groups[i]?.bind (fun group => group.subtasks[j]?)

/-- The worker of a group before its `j`th subtask. It was spawned for the group. -/
def workerAt (i : ℕ) : ℕ → PoolWorker
  | 0 => {}
  | j+1 => match subtaskAt groups i j with
    | none => workerAt i j
    | some subtask => (executeOn (workerAt i j) subtask (turns i j)).1

def executed (i j : ℕ) : AwaitOutcome WorkerReply :=
  match subtaskAt groups i j with
  | none => .cancelled
  | some subtask => (executeOn (workerAt turns groups i j) subtask (turns i j)).2

/-- The tokens of the calls that the worker of a group makes for its `j`th subtask. -/
def spent (i j : ℕ) : ℕ :=
  match subtaskAt groups i j with
  | none => 0
  | some subtask => spendsOn (workerAt turns groups i j) subtask (turns i j)

/-- The subtask is a successful one. -/
def succeeds (i j : ℕ) : Bool := (executed turns groups i j).value.isSome

lemma workerAt_totalTokens (i j : ℕ) :
    (workerAt turns groups i j).totalTokens = ((List.range j).map (spent turns groups i)).sum := by
  induction j with
  | zero => rfl
  | succ j ih =>
    rw [List.range_succ,List.map_append,List.sum_append,← ih,workerAt]
    cases hsubtask : subtaskAt groups i j with
    | none => simp [spent,hsubtask]
    | some subtask => simp [spent,hsubtask,(executeOn_spec _ _ _).1]

/-- A worker has not spent anything yet exactly if none of the earlier subtasks of its group has. -/
lemma workerAt_totalTokens_eq_zero (i j : ℕ) :
    (workerAt turns groups i j).totalTokens = 0 ↔ ∀ k < j, spent turns groups i k = 0 := by
  rw [workerAt_totalTokens,List.sum_eq_zero_iff]
  simp

/-- A successful subtask is reported with all that its worker has spent so far. -/
lemma tokensOf_executed (i j : ℕ) : tokensOf (executed turns groups i j) =
    toString (if succeeds turns groups i j then (workerAt turns groups i j).totalTokens+spent turns groups i j
      else 0) := by
  unfold succeeds
  cases hexecuted : executed turns groups i j with
  | error | cancelled =>
    rw [if_neg (by simp [AwaitOutcome.value])]
    rfl
  | ok reply =>
    unfold executed at hexecuted
    cases hsubtask : subtaskAt groups i j with
    | none => simp [hsubtask] at hexecuted
    | some subtask =>
      simp only [hsubtask] at hexecuted
      have htokens := (executeOn_spec _ _ _).2 reply hexecuted
      simp [tokensOf,htokens,spent,hsubtask,AwaitOutcome.value]

/-- The awaits of the lead on the way to the groups, and its calls of the model. -/
structure LeadCalls where
  planLog : AwaitOutcome Unit
  decompose : ChatAnswer
  synthesize : ChatAnswer

/-- The model is asked for groups if there is no plan, or none in the plan. -/
def asksForGroups (py : TextPython F) (plan param : String) : Bool :=
  plan = "" || match Orchestrator.maxWorkers py.toPython param with
    | none => false
    | some maxWorkers => match parseGroups py plan maxWorkers with
      | .ok groups => groups.isEmpty
      | .error _ => false

/-- The tokens of the calls that the lead makes itself. -/
def ownTokens (py : TextPython F) (plan param : String) (calls : LeadCalls) : ℕ :=
  (if asksForGroups py plan param then calls.decompose.tokens else 0)+calls.synthesize.tokens

/-- A task of a lead whose client has counted so many tokens before. -/
def leadTask (py : TextPython F) (counted : ℕ) (plan : String) (task : OrchestratorTask) (calls : LeadCalls)
    (o : OrchestratorOutcomes) (turns : ℕ → ℕ → WorkerTurn) : OrchestratorExit × WorkerPool :=
  let groups := plannedGroups py plan task.maxWorkers calls.planLog calls.decompose.answer
  handleTask py.toPython (counted+ownTokens py plan task.maxWorkers calls) task
    { o with
      groups := match groups with
        | some groups => .ok groups
        | none => .error "no groups"
      execute := executed turns (groups.getD [])
      synthesis := calls.synthesize.answer }

/-- The subtasks by group and place, where the groups are numbered from `i` on. -/
def placesFrom : ℕ → List SubtaskGroup → List (ℕ × ℕ)
  | _,[] => []
  | i,group::groups => (List.range group.subtasks.length).map (i,·)++placesFrom (i+1) groups

/-- The tokens of all calls that the workers make for the successful subtasks, each counted once. -/
def workersTokens (turns : ℕ → ℕ → WorkerTurn) (groups : List SubtaskGroup) : ℕ :=
  ((placesFrom 0 groups).map (fun (i,j) => if succeeds turns groups i j then spent turns groups i j else 0)).sum

variable {o : OrchestratorOutcomes} {groups : List SubtaskGroup} {results : List SubtaskResult}

lemma mem_placesFrom {i : ℕ} {place : ℕ × ℕ} : place ∈ placesFrom i groups ↔
    ∃ k group, groups[k]? = some group ∧ place.1 = i+k ∧ place.2 < group.subtasks.length := by
  induction groups generalizing i with
  | nil => simp [placesFrom]
  | cons group groups ih =>
    rw [placesFrom,List.mem_append,ih]
    constructor
    · rintro (hmem | ⟨k,group',hk,hplace,hj⟩)
      · obtain ⟨j,hj,rfl⟩ := List.mem_map.mp hmem
        exact ⟨0,group,rfl,rfl,List.mem_range.mp hj⟩
      · exact ⟨k+1,group',hk,by omega,hj⟩
    · rintro ⟨k,group',hk,hplace,hj⟩
      cases k with
      | zero =>
        obtain rfl : group = group' := by simpa using hk
        exact .inl (List.mem_map.mpr ⟨place.2,List.mem_range.mpr hj,Prod.ext hplace.symm rfl⟩)
      | succ k => exact .inr ⟨k,group',by simpa using hk,by omega,hj⟩

lemma runGroup_tokens {i j pid : ℕ} {group : SubtaskGroup} {subtasks : List String}
    (h : runGroup o i group pid j subtasks = some results) :
    results.map SubtaskResult.tokens = (List.range' j subtasks.length).map (fun j => tokensOf (o.execute i j)) := by
  induction subtasks generalizing j results with
  | nil =>
    cases h
    rfl
  | cons subtask subtasks ih =>
    rcases runSubtask_cases o i j group pid subtask with ⟨-,result,hresult,htokens⟩ | ⟨-,hresult⟩
    · rw [runGroup,hresult] at h
      obtain ⟨first,hfirst,h⟩ := Option.bind_eq_some_iff.mp h
      obtain ⟨others,hothers,h⟩ := Option.bind_eq_some_iff.mp h
      cases hfirst
      cases h
      rw [List.length_cons,List.range'_succ,List.map_cons,List.map_cons,htokens,ih hothers]
    · rw [runGroup,hresult] at h
      cases h

lemma runGroups_tokens {i : ℕ} {pids : List ℕ} (hlength : pids.length = groups.length)
    (h : runGroups o i (groups.zip pids) = some results) :
    results.map SubtaskResult.tokens = (placesFrom i groups).map (fun (i,j) => tokensOf (o.execute i j)) := by
  induction groups generalizing i pids results with
  | nil =>
    cases h
    rfl
  | cons group groups ih =>
    cases pids with
    | nil => cases hlength
    | cons pid pids =>
      rw [List.zip_cons_cons,runGroups] at h
      obtain ⟨first,hfirst,h⟩ := Option.bind_eq_some_iff.mp h
      obtain ⟨others,hothers,h⟩ := Option.bind_eq_some_iff.mp h
      cases h
      rw [List.map_append,runGroup_tokens hfirst,ih (Nat.succ.inj hlength) hothers,placesFrom,List.map_append,
        List.map_map,List.range_eq_range']
      rfl

/-- A text that decodes gives back the number that it was written from. -/
def ReadsNumbers (py : Python F) : Prop := ∀ (n : ℕ) (v : ℤ), py.int (toString n) = some v → v = n

lemma workerTokens_eq {py : Python F} (hint : ReadsNumbers py) {α : Type} {places : List α} {f : α → ℕ}
    (hresults : results.map SubtaskResult.tokens = places.map (fun place => toString (f place))) {tokens : ℤ}
    (h : workerTokens py results = some tokens) : tokens = (places.map f).sum := by
  induction results generalizing places tokens with
  | nil =>
    obtain rfl := List.map_eq_nil_iff.mp hresults.symm
    cases h
    rfl
  | cons result results ih =>
    cases places with
    | nil => cases hresults
    | cons place places =>
      rw [List.map_cons,List.map_cons] at hresults
      obtain ⟨hfirst,hrest⟩ := List.cons.inj hresults
      obtain ⟨n,hn,h⟩ := Option.bind_eq_some_iff.mp h
      obtain ⟨others,hothers,h⟩ := Option.bind_eq_some_iff.mp h
      cases h
      rw [hfirst] at hn
      rw [hint _ _ hn,ih hrest hothers]
      simp

/-- The tokens that are delivered are summed up over the results. -/
lemma deliver_tokens {py : Python F} {pids : List ℕ} (hlength : pids.length = groups.length) {report : String}
    {tokens : ℤ} (h : deliver py o groups pids = some (report,tokens)) :
    ∃ results, runGroups o 0 (groups.zip pids) = some results ∧ workerTokens py results = some tokens := by
  rcases deliver_cases py o hlength with ⟨hreports,-⟩ | ⟨-,hnone⟩
  case inr =>
    rw [hnone] at h
    cases h
  obtain ⟨text,hsynthesis⟩ := hreports.synthesis
  unfold deliver at h
  simp only [hreports.delegateProgress,hreports.groupsGoOn,hreports.synthesizeProgress,hsynthesis,
    hreports.storeProgress,hreports.encodes,hreports.store,AwaitOutcome.value,Option.bind_eq_bind,Option.bind_some,
    Bool.false_eq_true,if_false,if_true] at h
  obtain ⟨results,hresults,h⟩ := Option.bind_eq_some_iff.mp h
  obtain ⟨sum,hsum,h⟩ := Option.bind_eq_some_iff.mp h
  cases h
  exact ⟨results,hresults,hsum⟩

/-- A result with a total comes out of a task that has summed up its workers. -/
lemma handleTask_total {py : Python F} {llmTokens total : ℤ} {task : OrchestratorTask} {result : OrchestratorResult}
    (hgroups : o.groups = .ok groups) (h : (handleTask py llmTokens task o).1 = .returned result)
    (htotal : result.totalTokens = some total) : ∃ pids results tokens, pids.length = groups.length ∧
      runGroups o 0 (groups.zip pids) = some results ∧ workerTokens py results = some tokens ∧
      total = llmTokens+tokens := by
  unfold handleTask at h
  cases hdecompose : decompose py task o with
  | none => simp [hdecompose] at h
  | some groups' =>
  obtain rfl : groups = groups' := AwaitOutcome.ok.inj (hgroups.symm.trans (decompose_eq_some.mp hdecompose).2.2.2)
  simp only [hdecompose] at h
  by_cases hempty : groups.isEmpty
  · rw [if_pos hempty] at h
    cases h
    cases htotal
  rw [if_neg hempty] at h
  cases hannounce : announce o groups with
  | none => simp [hannounce] at h
  | some _ =>
  simp only [hannounce,runPool] at h
  rcases spawnWorkers_cases (o := o) 0 groups ⟨[],[]⟩ with ⟨-,pids,hlength,hpool⟩ | ⟨-,pids,-,hpool⟩
  case inr => simp [hpool] at h
  simp only [hpool] at h
  cases hdeliver : deliver py o groups pids with
  | none => simp [hdeliver] at h
  | some output =>
  obtain ⟨report,tokens⟩ := output
  simp only [hdeliver] at h
  obtain ⟨results,hresults,htokens⟩ := deliver_tokens hlength hdeliver
  refine ⟨pids,results,tokens,hlength,hresults,htokens,?_⟩
  split at h
  · cases h
  · split at h
    · cases h
    · cases h
      exact (Option.some.inj htotal).symm

/-- Sums of larger terms are equal only if the terms are. -/
lemma sum_map_eq_iff {α : Type} {l : List α} {f g : α → ℕ} (h : ∀ a ∈ l, g a ≤ f a) :
    (l.map g).sum ≤ (l.map f).sum ∧ ((l.map f).sum = (l.map g).sum ↔ ∀ a ∈ l, f a = g a) := by
  induction l with
  | nil => simp
  | cons a l ih =>
    obtain ⟨hle,hiff⟩ := ih (fun b hb => h b (List.mem_cons_of_mem a hb))
    have hfirst := h a List.mem_cons_self
    rw [List.forall_mem_cons,← hiff]
    simp only [List.map_cons,List.sum_cons]
    omega

/-- What a task reports is what its calls have cost exactly if the client of the lead had counted nothing before,
and no successful subtask comes after another one of its group that has cost anything. -/
theorem reported_tokens_iff {py : TextPython F} (hint : ReadsNumbers py.toPython) {counted : ℕ} {plan : String}
    {task : OrchestratorTask} {calls : LeadCalls} {o : OrchestratorOutcomes} {turns : ℕ → ℕ → WorkerTurn}
    {groups : List SubtaskGroup} {result : OrchestratorResult} {total : ℤ}
    (hgroups : plannedGroups py plan task.maxWorkers calls.planLog calls.decompose.answer = some groups)
    (hreturned : (leadTask py counted plan task calls o turns).1 = .returned result)
    (htotal : result.totalTokens = some total) :
    total = ownTokens py plan task.maxWorkers calls+workersTokens turns groups ↔ counted = 0 ∧
      ∀ i group, groups[i]? = some group → ∀ j < group.subtasks.length, succeeds turns groups i j →
        ∀ k < j, spent turns groups i k = 0 := by
  unfold leadTask at hreturned
  simp only [hgroups,Option.getD_some] at hreturned
  obtain ⟨pids,results,tokens,hlength,hresults,htokens,rfl⟩ := handleTask_total rfl hreturned htotal
  have htexts := runGroups_tokens hlength hresults
  simp only [tokensOf_executed] at htexts
  obtain rfl := workerTokens_eq hint htexts htokens
  let reported (place : ℕ × ℕ) : ℕ := if succeeds turns groups place.1 place.2 then
    (workerAt turns groups place.1 place.2).totalTokens+spent turns groups place.1 place.2 else 0
  let actual (place : ℕ × ℕ) : ℕ :=
    if succeeds turns groups place.1 place.2 then spent turns groups place.1 place.2 else 0
  have hle : ∀ place ∈ placesFrom 0 groups, actual place ≤ reported place := by
    intro place _
    simp only [actual,reported]
    split_ifs
    · exact Nat.le_add_left _ _
    · exact Nat.le_refl _
  obtain ⟨hsum,hiff⟩ := sum_map_eq_iff hle
  have hsplit : (counted+ownTokens py plan task.maxWorkers calls+((placesFrom 0 groups).map reported).sum : ℤ) =
      ownTokens py plan task.maxWorkers calls+((placesFrom 0 groups).map actual).sum ↔
        counted = 0 ∧ ((placesFrom 0 groups).map reported).sum = ((placesFrom 0 groups).map actual).sum := by
    omega
  have hplaces : (∀ place ∈ placesFrom 0 groups, reported place = actual place) ↔
      ∀ i group, groups[i]? = some group → ∀ j < group.subtasks.length, succeeds turns groups i j →
        ∀ k < j, spent turns groups i k = 0 := by
    have hterm : ∀ place, reported place = actual place ↔ (succeeds turns groups place.1 place.2 →
        ∀ k < place.2, spent turns groups place.1 k = 0) := by
      intro place
      rw [← workerAt_totalTokens_eq_zero]
      simp only [reported,actual]
      split_ifs with h
      · simp [h]
      · simp [h]
    simp only [hterm]
    constructor
    · exact fun h i group hgroup j hj => h (i,j) (mem_placesFrom.mpr ⟨i,group,hgroup,(Nat.zero_add i).symm,hj⟩)
    · intro h place hplace
      obtain ⟨k,group,hgroup,hk,hj⟩ := mem_placesFrom.mp hplace
      rw [Nat.zero_add] at hk
      exact h place.1 group (by rwa [hk]) place.2 hj
  rw [← hplaces,← hiff,← hsplit]
  rfl

/-- An interpreter that reads a few numbers and decodes a plan with one group of two subtasks. -/
def twoSubtasksPython : TextPython ℕ where
  toPython := { zeroPython with
    int := fun s => ([0,3,10,20].find? (fun n : ℕ => toString n == s)).map Int.ofNat
    loads := fun _ => .ok (.object [("groups",.array [.object [("name",.string "report"),
      ("subtasks",.array [.string "search",.string "write"])]])]) }
  decode _ := none
  decodeReplace _ := ""
  format
    | .string s => s
    | _ => ""

lemma twoSubtasksPython_readsNumbers : ReadsNumbers twoSubtasksPython.toPython := by
  intro n v h
  obtain ⟨m,hm,rfl⟩ := Option.map_eq_some_iff.mp h
  have hsame : toString m = toString n := by simpa using List.find?_some hm
  rw [toString_number_injective hsame]
  rfl

/-- The lead spends five tokens on the synthesis, and the worker ten on each subtask. -/
def twoSubtasksCalls : LeadCalls := ⟨.ok (),⟨0,.cancelled⟩,⟨5,.ok "report"⟩⟩

def twoSubtasksTurns (_ _ : ℕ) : WorkerTurn := ⟨true,⟨.ok (),.ok (),fun _ => ⟨10,.ok "done"⟩,.ok (),.ok ()⟩,.ok ()⟩

def twoSubtasksPlan : String :=
  "\x7b\"groups\": [\x7b\"name\": \"report\", \"subtasks\": [\"search\", \"write\"]\x7d]\x7d"

lemma twoSubtasks_planned : plannedGroups twoSubtasksPython twoSubtasksPlan "3" twoSubtasksCalls.planLog
    twoSubtasksCalls.decompose.answer = some [⟨"report",["search","write"]⟩] := rfl

lemma twoSubtasks_returned : (leadTask twoSubtasksPython 0 twoSubtasksPlan ⟨"report","3"⟩ twoSubtasksCalls
    (onlyTheSynthesis (.ok "")) twoSubtasksTurns).1 = .returned ⟨0,"report",some 35,some 2,some 1,some 1⟩ := rfl

theorem reported_tokens_two_subtasks : (35 : ℤ) = ownTokens twoSubtasksPython twoSubtasksPlan "3" twoSubtasksCalls
      +workersTokens twoSubtasksTurns [⟨"report",["search","write"]⟩] ↔ (0 : ℕ) = 0 ∧
    ∀ i (group : SubtaskGroup), [⟨"report",["search","write"]⟩][i]? = some group → ∀ j < group.subtasks.length,
      succeeds twoSubtasksTurns [⟨"report",["search","write"]⟩] i j →
        ∀ k < j, spent twoSubtasksTurns [⟨"report",["search","write"]⟩] i k = 0 :=
  reported_tokens_iff twoSubtasksPython_readsNumbers twoSubtasks_planned twoSubtasks_returned rfl

/-- The ten tokens of the first subtask are counted twice. -/
theorem second_subtask_counts_first_again : ¬∀ (F : Type) (py : TextPython F), ReadsNumbers py.toPython →
    ∀ counted plan task calls o turns groups result total,
      plannedGroups py plan task.maxWorkers calls.planLog calls.decompose.answer = some groups →
      (leadTask py counted plan task calls o turns).1 = .returned result → result.totalTokens = some total →
      total = ownTokens py plan task.maxWorkers calls+workersTokens turns groups := by
  intro h
  have htotal := h ℕ twoSubtasksPython twoSubtasksPython_readsNumbers 0 twoSubtasksPlan ⟨"report","3"⟩
    twoSubtasksCalls (onlyTheSynthesis (.ok "")) twoSubtasksTurns _ _ 35 twoSubtasks_planned twoSubtasks_returned rfl
  have hown : ownTokens twoSubtasksPython twoSubtasksPlan "3" twoSubtasksCalls = 5 := rfl
  have hworkers : workersTokens twoSubtasksTurns [⟨"report",["search","write"]⟩] = 20 := rfl
  rw [hown,hworkers] at htotal
  exact absurd htotal (by decide)

end HiveKernel.Orchestrator
