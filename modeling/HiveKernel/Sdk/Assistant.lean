import HiveKernel.Dashboard.Replica
import HiveKernel.Ipc.Broker

/-! The chat assistant: its mailbox, the delegations it waits for, and what a task makes of both before
it does anything else. What the interpreter does with JSON texts and UTF-8 is a parameter. -/
namespace HiveKernel
open Lib Dashboard

/-- The functions of the interpreter that a task uses: `payload.decode` as it is and with replacement,
and how a value is written into a text. -/
structure TextPython (F : Type) extends Python F where
  decode : List UInt8 → Option String
  decodeReplace : List UInt8 → String
  format : Json F → String

/-- After so many seconds a delegation is stale. -/
def delegationTimeout : ℤ := 600*second

structure Delegation where
  target : String
  task : String
  ts : ℤ
  deriving DecidableEq

/-- The mailbox and the delegations by request, in the order in which they were entered. -/
structure Assistant where
  pendingResults : List Message
  activeDelegations : List (String × Delegation)
  deriving DecidableEq

/-- What a task tells the user about a delegation. -/
inductive DelegationNote
  | completed (id target output : String)
  | unknown (id output : String)
  | timedOut (id : String) (delegation : Delegation)
  deriving DecidableEq

namespace DelegationNote

def id : DelegationNote → String
  | completed id _ _ => id
  | unknown id _ => id
  | timedOut id _ => id

def text : DelegationNote → String
  | completed _ target output => s!"[Completed result from {target}:]\n{output}"
  | unknown _ output => s!"[Completed result from unknown:]\n{output}"
  | timedOut _ d => s!"[Delegation to {d.target} timed out after 600s (task: {(d.task.take 80).toString})]"

/-- The note names a delegation that was registered. -/
def attributed : DelegationNote → Bool
  | unknown .. => false
  | _ => true

end DelegationNote

def Delegation.stale (now : ℤ) (d : Delegation) : Bool := delegationTimeout < now-d.ts

namespace Assistant
variable {F : Type}

/-- The text of a result. A payload that is JSON but no object has no `get`. -/
def resultText (py : TextPython F) (payload : List UInt8) : Except PyError String :=
  match py.decode payload with
  | none => .ok (py.decodeReplace payload)
  | some text => match py.loads text with
    | .error .valueError => .ok (py.decodeReplace payload)
    | .error e => .error e
    | .ok (.object data) =>
      .ok (py.format ((data.lookup "output").getD ((data.lookup "error").getD (.string "No output"))))
    | .ok _ => .error .attributeError

/-- The note about a drained result, given the delegations at that moment. -/
def resultNote (delegations : List (String × Delegation)) (id output : String) : DelegationNote :=
  match delegations.lookup id with
  | some d => .completed id d.target output
  | none => .unknown id output

def popDelegation (delegations : List (String × Delegation)) (id : String) : List (String × Delegation) :=
  delegations.filter (fun d => d.1 ≠ id)

/-- The loop over the drained results; a payload that cannot be read ends it. -/
def completedNotes (py : TextPython F) : List Message → List (String × Delegation) →
    Except PyError (List DelegationNote) × List (String × Delegation)
  | [],delegations => (.ok [],delegations)
  | msg::results,delegations =>
    let remaining := popDelegation delegations msg.replyTo
    match resultText py msg.payload with
    | .error e => (.error e,remaining)
    | .ok output => match completedNotes py results remaining with
      | (.error e,remaining) => (.error e,remaining)
      | (.ok notes,remaining) => (.ok (resultNote delegations msg.replyTo output::notes),remaining)

/-- Empty the mailbox, take out the delegations that were answered and those that are stale. -/
def collect (py : TextPython F) (a : Assistant) (now : ℤ) : Except PyError (List DelegationNote) × Assistant :=
  match completedNotes py a.pendingResults a.activeDelegations with
  | (.error e,remaining) => (.error e,⟨[],remaining⟩)
  | (.ok notes,remaining) =>
    let stale := remaining.filter (fun d => d.2.stale now)
    (.ok (notes++stale.map (fun d => .timedOut d.1 d.2)),⟨[],remaining.filter (fun d => !d.2.stale now)⟩)

/-- The text in front of everything else. -/
def resultPrefix (notes : List DelegationNote) : String :=
  if notes.isEmpty then "" else String.intercalate "\n\n" (notes.map DelegationNote.text)++"\n\n---\n\n"

/-- Register a delegation that was sent. -/
def register (a : Assistant) (id : String) (d : Delegation) : Assistant :=
  { a with activeDelegations := popDelegation a.activeDelegations id++[(id,d)] }

/-- A message that is no answer to a pending request: answers go to the mailbox, and everything else
leaves it as it is. The log entry about the answer to a delegation is left out. -/
def onMessage (a : Assistant) (msg : Message) : Assistant :=
  if msg.type = "task_response" ∧ msg.replyTo ≠ "" then
    { a with pendingResults := a.pendingResults++[msg] }
  else a

variable {py : TextPython F} {a : Assistant} {now : ℤ}

@[simp] lemma id_resultNote (delegations : List (String × Delegation)) (id output : String) :
    (resultNote delegations id output).id = id := by
  unfold resultNote
  split <;> rfl

/-- Every payload of the results can be read. -/
def Readable (py : TextPython F) (results : List Message) : Prop :=
  ∀ msg ∈ results, ∃ output, resultText py msg.payload = .ok output

lemma completedNotes_cons_ok {first : Message} {results : List Message}
    {delegations remaining : List (String × Delegation)} {notes : List DelegationNote}
    (h : completedNotes py (first::results) delegations = (.ok notes,remaining)) : ∃ output notes',
      resultText py first.payload = .ok output ∧
      completedNotes py results (popDelegation delegations first.replyTo) = (.ok notes',remaining) ∧
      notes = resultNote delegations first.replyTo output::notes' := by
  rw [completedNotes] at h
  cases houtput : resultText py first.payload with
  | error e => simp [houtput] at h
  | ok output =>
    simp only [houtput] at h
    cases hrest : completedNotes py results (popDelegation delegations first.replyTo) with
    | mk result remaining' =>
      cases result with
      | error e => simp [hrest] at h
      | ok notes' =>
        simp only [hrest,Prod.mk.injEq,Except.ok.injEq] at h
        obtain ⟨rfl,rfl⟩ := h
        exact ⟨output,notes',rfl,rfl,rfl⟩

/-- The loop goes through exactly if every payload can be read. -/
lemma completedNotes_ok_iff (results : List Message) (delegations : List (String × Delegation)) :
    (∃ notes remaining, completedNotes py results delegations = (.ok notes,remaining)) ↔
      Readable py results := by
  induction results generalizing delegations with
  | nil => simp [completedNotes,Readable]
  | cons first results ih =>
    constructor
    · rintro ⟨notes,remaining,h⟩ msg hmsg
      obtain ⟨output,notes',houtput,hrest,-⟩ := completedNotes_cons_ok h
      rcases List.mem_cons.mp hmsg with rfl | hmsg
      · exact ⟨output,houtput⟩
      · exact (ih _).mp ⟨_,_,hrest⟩ msg hmsg
    · intro h
      obtain ⟨output,houtput⟩ := h first List.mem_cons_self
      obtain ⟨notes,remaining,hrest⟩ :=
        (ih (popDelegation delegations first.replyTo)).mpr (fun msg hmsg => h msg (List.mem_cons_of_mem _ hmsg))
      refine ⟨resultNote delegations first.replyTo output::notes,remaining,?_⟩
      simp only [completedNotes,houtput,hrest]

/-- Then there is a note for each result. -/
lemma exists_note_of_completedNotes {results : List Message} {delegations remaining : List (String × Delegation)}
    {notes : List DelegationNote} (h : completedNotes py results delegations = (.ok notes,remaining))
    {msg : Message} (hmsg : msg ∈ results) : ∃ output, resultText py msg.payload = .ok output ∧
      ∃ delegations, resultNote delegations msg.replyTo output ∈ notes := by
  induction results generalizing delegations notes with
  | nil => cases hmsg
  | cons first results ih =>
    obtain ⟨output,notes',houtput,hrest,rfl⟩ := completedNotes_cons_ok h
    rcases List.mem_cons.mp hmsg with rfl | hmsg
    · exact ⟨output,houtput,delegations,List.mem_cons_self⟩
    · obtain ⟨output',houtput',ds,hnote⟩ := ih hrest hmsg
      exact ⟨output',houtput',ds,List.mem_cons_of_mem _ hnote⟩

/-- The delegations that are left are those that no result names. -/
lemma mem_completedNotes {results : List Message} {delegations remaining : List (String × Delegation)}
    {notes : List DelegationNote} (h : completedNotes py results delegations = (.ok notes,remaining))
    (d : String × Delegation) : d ∈ remaining ↔ d ∈ delegations ∧ d.1 ∉ results.map Message.replyTo := by
  induction results generalizing delegations notes with
  | nil =>
    cases h
    simp
  | cons first results ih =>
    obtain ⟨output,notes',-,hrest,-⟩ := completedNotes_cons_ok h
    rw [ih hrest]
    simp [popDelegation,and_assoc]

/-- In any case no other delegation disappears. -/
lemma mem_remaining (results : List Message) {delegations : List (String × Delegation)}
    {d : String × Delegation} (hd : d ∈ delegations) (hid : d.1 ∉ results.map Message.replyTo) :
    d ∈ (completedNotes py results delegations).2 := by
  induction results generalizing delegations with
  | nil => exact hd
  | cons first results ih =>
    simp only [List.map_cons,List.mem_cons,not_or] at hid
    have hpop : d ∈ popDelegation delegations first.replyTo := by simp [popDelegation,hd,hid.1]
    have hrest := ih hpop hid.2
    rw [completedNotes]
    cases houtput : resultText py first.payload with
    | error e => exact hpop
    | ok output =>
      simp only
      cases hnotes : completedNotes py results (popDelegation delegations first.replyTo) with
      | mk result remaining =>
        rw [hnotes] at hrest
        cases result with
        | error e => exact hrest
        | ok notes => exact hrest

/-- If every payload can be read, there is a note for each drained result and each stale delegation. -/
lemma collect_of_readable (h : Readable py a.pendingResults) (now : ℤ) : ∃ notes remaining,
    collect py a now = (.ok notes,⟨[],remaining⟩) ∧
    (∀ msg ∈ a.pendingResults, ∃ output, resultText py msg.payload = .ok output ∧
      ∃ delegations, resultNote delegations msg.replyTo output ∈ notes) ∧
    (∀ d ∈ a.activeDelegations, d.2.stale now → d.1 ∉ a.pendingResults.map Message.replyTo →
      DelegationNote.timedOut d.1 d.2 ∈ notes) ∧
    ∀ d, d ∈ remaining ↔ d ∈ a.activeDelegations ∧ d.1 ∉ a.pendingResults.map Message.replyTo ∧
      ¬d.2.stale now := by
  obtain ⟨notes,remaining,hnotes⟩ := (completedNotes_ok_iff a.pendingResults a.activeDelegations).mpr h
  refine ⟨_,_,by simp only [collect,hnotes]; rfl,fun msg hmsg => ?_,fun d hd hstale hid => ?_,fun d => ?_⟩
  · obtain ⟨output,houtput,delegations,hnote⟩ := exists_note_of_completedNotes hnotes hmsg
    exact ⟨output,houtput,delegations,List.mem_append_left _ hnote⟩
  · have hmem := (mem_completedNotes hnotes d).mpr ⟨hd,hid⟩
    exact List.mem_append_right _ (List.mem_map.mpr ⟨d,List.mem_filter.mpr ⟨hmem,hstale⟩,rfl⟩)
  · simp [mem_completedNotes hnotes,and_assoc]

/-- Otherwise the mailbox is empty nevertheless; no delegation was taken out as stale. -/
lemma collect_of_not_readable (h : ¬Readable py a.pendingResults) (now : ℤ) : ∃ e remaining,
    collect py a now = (.error e,⟨[],remaining⟩) ∧
    ∀ d ∈ a.activeDelegations, d.1 ∉ a.pendingResults.map Message.replyTo → d ∈ remaining := by
  cases hnotes : completedNotes py a.pendingResults a.activeDelegations with
  | mk result remaining => cases result with
    | ok notes => exact absurd ((completedNotes_ok_iff _ _).mp ⟨notes,remaining,hnotes⟩) h
    | error e =>
      refine ⟨e,remaining,by simp only [collect,hnotes],fun d hd hid => ?_⟩
      have hmem : d ∈ (completedNotes py a.pendingResults a.activeDelegations).2 := mem_remaining _ hd hid
      rwa [hnotes] at hmem

end Assistant
end HiveKernel
