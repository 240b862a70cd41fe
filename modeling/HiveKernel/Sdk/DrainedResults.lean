import HiveKernel.Sdk.Assistant

/-! One task of the chat assistant from beginning to end, and what becomes of the results that it has
drained. Every await may fail or be cancelled; the outcome of each is a choice. -/
namespace HiveKernel
open Lib Dashboard

/-- The characters that `str.strip` takes off. -/
def pythonSpace (c : Char) : Bool :=
  c.toNat ∈ [9,10,11,12,13,28,29,30,31,32,0x85,0xa0,0x1680,0x2000,0x2001,0x2002,0x2003,0x2004,0x2005,0x2006,
    0x2007,0x2008,0x2009,0x200a,0x2028,0x2029,0x202f,0x205f,0x3000]

def strip (s : String) : String :=
  String.ofList ((s.toList.dropWhile pythonSpace).reverse.dropWhile pythonSpace).reverse

/-- What stands before the first occurrence of a marker, and what comes after it. -/
def cutAt (marker : List Char) : List Char → Option (List Char × List Char)
  | [] => if marker.isEmpty then some ([],[]) else none
  | c::text =>
    if marker.isPrefixOf (c::text) then some ([],(c::text).drop marker.length)
    else (cutAt marker text).map (fun parts => (c::parts.1,parts.2))

/-- A text that starts with a bracket, up to the bracket that closes it, and the rest. -/
def bracketBlock (depth : ℕ) : List Char → Option (List Char × List Char)
  | [] => none
  | c::text =>
    if c = '\x7d' ∧ depth ≤ 1 then some ([c],text)
    else (bracketBlock (if c = '\x7b' then depth+1 else if c = '\x7d' then depth-1 else depth) text).map
      (fun parts => (c::parts.1,parts.2))

/-- The block behind a marker, and what is left of the text without marker and block. -/
def markedBlock (marker text : String) : Option (String × String) := do
  let (before,after) ← cutAt marker.toList text.toList
  let (block,rest) ← bracketBlock 0 (after.dropWhile (· ≠ '\x7b'))
  pure (String.ofList block,String.ofList (before++rest))

/-- `_extract_json_block` finds something. -/
def hasJsonBlock {F : Type} (py : TextPython F) (block : String) : Bool :=
  match py.loads block with
  | .ok .null => false
  | .ok _ => true
  | .error _ => false

/-- The answer of the model without the blocks that were acted on. -/
def cleanResponse {F : Type} (py : TextPython F) (response : String) : String :=
  ["SCHEDULE:","DELEGATE_CODE:","DELEGATE:"].foldl (fun text marker =>
    match markedBlock marker text with
    | some (block,rest) => if hasJsonBlock py block then rest else text
    | none => text) response

/-- How an await ends. -/
inductive AwaitOutcome (α : Type)
  | ok (value : α)
  | error (text : String)
  | cancelled
  deriving DecidableEq

structure TaskInput where
  message : String
  history : String
  siblingPids : String

/-- A delegation that the task itself has sent, and how long after the task began. -/
structure SentDelegation where
  id : String
  target : String
  task : String
  after : ℕ
  deriving DecidableEq

/-- How the awaits of a task end, in their order. Listing the siblings and the log entry about them are in
one `try`. Each helper may find nothing to do; the last one may send a delegation. -/
structure TaskOutcomes where
  firstLog : AwaitOutcome Unit
  siblings : AwaitOutcome Unit
  chat : AwaitOutcome String
  schedule : AwaitOutcome (Option String)
  codeDelegation : AwaitOutcome (Option String)
  delegation : AwaitOutcome (Option String × Option SentDelegation)
  lastLog : AwaitOutcome Unit

inductive TaskExit
  | returned (exitCode : ℤ) (output : String)
  | raised
  deriving DecidableEq

namespace Assistant
variable {F : Type}

/-- A parameter of the task; a text that is no JSON counts as missing. -/
def loadsOr (py : TextPython F) (raw : String) (default : Json F) : Except PyError (Json F) :=
  if raw = "" then .ok default
  else match py.loads raw with
    | .error .valueError | .error .typeError => .ok default
    | result => result

/-- `value[-10:]` does not raise. -/
def sliceable : Json F → Bool
  | .string _ | .array _ => true
  | _ => false

/-- The value can be unpacked into a dictionary. -/
def isMapping : Json F → Bool
  | .object _ => true
  | _ => false

def extraText : Option String → String
  | none => ""
  | some text => if text = "" then "" else "\n\n"++text

/-- The list of the delegations that are still under way. -/
def inFlight (a : Assistant) (now : ℤ) : String :=
  if a.activeDelegations.isEmpty then ""
  else String.intercalate "\n" ("\n\n[In-flight delegations:]"::a.activeDelegations.map (fun d =>
    s!"  - {d.2.target}: {(d.2.task.take 60).toString} ({(now-d.2.ts).tdiv second}s ago)"))

def registerSent (a : Assistant) (now : ℤ) : Option SentDelegation → Assistant
  | none => a
  | some d => a.register d.id ⟨d.target,d.task,now+d.after⟩

/-- The part of a task behind the model's answer. -/
def conclude (py : TextPython F) (a : Assistant) (now : ℤ) (notes : List DelegationNote) (response : String)
    (o : TaskOutcomes) : TaskExit × Assistant :=
  match o.schedule,o.codeDelegation,o.delegation with
  | .ok schedule,.ok code,.ok (delegation,sent) =>
    let a := a.registerSent now sent
    match o.lastLog with
    | .ok _ => (.returned 0 (resultPrefix notes++strip (cleanResponse py response)++
        (extraText schedule++extraText code++extraText delegation)++a.inFlight now),a)
    | _ => (.raised,a)
  | _,_,_ => (.raised,a)

/-- The part of a task behind the mailbox. -/
def converse (py : TextPython F) (a : Assistant) (now : ℤ) (notes : List DelegationNote)
    (history siblingPids : Json F) (o : TaskOutcomes) : TaskExit × Assistant :=
  match o.firstLog with
  | .error _ | .cancelled => (.raised,a)
  | .ok _ =>
    if o.siblings = .cancelled then (.raised,a)
    else if isMapping siblingPids && sliceable history then
      match o.chat with
      | .ok response => conclude py a now notes response o
      | .error text => (.returned 1 s!"LLM error: {text}",a)
      | .cancelled => (.raised,a)
    else (.raised,a)

def greeting : String := "Hello! I'm the HiveKernel Assistant. How can I help?"

def handleTask (py : TextPython F) (a : Assistant) (now : ℤ) (task : TaskInput) (o : TaskOutcomes) :
    TaskExit × Assistant :=
  match loadsOr py task.history (.array []),loadsOr py task.siblingPids (.object []) with
  | .ok history,.ok siblingPids => match collect py a now with
    | (.error _,a) => (.raised,a)
    | (.ok notes,a) =>
      if strip task.message = "" then (.returned 0 (resultPrefix notes++greeting),a)
      else converse py a now notes history siblingPids o
  | _,_ => (.raised,a)

end Assistant

/-- The text stands in the output that the task returns. -/
def TaskExit.Contains (exit : TaskExit) (text : String) : Prop :=
  ∃ code output, exit = .returned code output ∧ text.toList <:+: output.toList

namespace Assistant
variable {F : Type}

/-- Every message that was in the mailbox and every stale delegation that no message answers is where it
was, or stands in the output. -/
structure Delivered (py : TextPython F) (a : Assistant) (now : ℤ) (result : TaskExit × Assistant) : Prop where
  results : ∀ msg ∈ a.pendingResults, msg ∈ result.2.pendingResults ∨ ∃ output delegations,
    resultText py msg.payload = .ok output ∧
      result.1.Contains (resultNote delegations msg.replyTo output).text
  stale : ∀ d ∈ a.activeDelegations, d.2.stale now → d.1 ∉ a.pendingResults.map Message.replyTo →
    d ∈ result.2.activeDelegations ∨ result.1.Contains (DelegationNote.timedOut d.1 d.2).text

/-- The parameters of the task raise before anything is drained. -/
def Malformed (py : TextPython F) (task : TaskInput) : Prop :=
  (∃ e, loadsOr py task.history (.array []) = .error e) ∨ ∃ e, loadsOr py task.siblingPids (.object []) = .error e

/-- There is nothing to drain and nothing stale. -/
def NothingDue (a : Assistant) (now : ℤ) : Prop :=
  a.pendingResults = [] ∧ ∀ d ∈ a.activeDelegations, ¬d.2.stale now

/-- The error text of the model happens to contain all of it. -/
def Quoted (py : TextPython F) (a : Assistant) (now : ℤ) (text : String) : Prop :=
  Delivered py a now (.returned 1 s!"LLM error: {text}",⟨[],[]⟩)

/-- The task gets as far as the model. -/
structure ReachesModel (py : TextPython F) (task : TaskInput) (o : TaskOutcomes) : Prop where
  firstLog : ∃ u, o.firstLog = .ok u
  siblings : o.siblings ≠ .cancelled
  siblingPids : ∀ v, loadsOr py task.siblingPids (.object []) = .ok v → isMapping v
  history : ∀ v, loadsOr py task.history (.array []) = .ok v → sliceable v

/-- The model answers, and nothing fails from there on. -/
structure Concludes (o : TaskOutcomes) : Prop where
  chat : ∃ response, o.chat = .ok response
  schedule : ∃ text, o.schedule = .ok text
  codeDelegation : ∃ text, o.codeDelegation = .ok text
  delegation : ∃ outcome, o.delegation = .ok outcome
  lastLog : ∃ u, o.lastLog = .ok u

/-- Nothing is due, or all of it can be read and the task gets to its output. -/
def Delivers (py : TextPython F) (a : Assistant) (now : ℤ) (task : TaskInput) (o : TaskOutcomes) : Prop :=
  Malformed py task ∨ NothingDue a now ∨
    (Readable py a.pendingResults ∧ (strip task.message = "" ∨ (ReachesModel py task o ∧
      (Concludes o ∨ ∃ text, o.chat = .error text ∧ Quoted py a now text))))

variable {py : TextPython F} {a : Assistant} {now : ℤ} {task : TaskInput} {o : TaskOutcomes}

lemma isInfix_intercalate (separator : String) {texts : List String} {text : String} (h : text ∈ texts) :
    text.toList <:+: (String.intercalate separator texts).toList := by
  induction texts with
  | nil => cases h
  | cons first texts ih =>
    cases texts with
    | nil =>
      rw [List.mem_singleton.mp h,String.intercalate_singleton]
    | cons second texts =>
      rw [String.intercalate_cons_cons,String.toList_append,String.toList_append]
      rcases List.mem_cons.mp h with rfl | h
      · exact ⟨[],separator.toList++(String.intercalate separator (second::texts)).toList,by simp⟩
      · exact (ih h).trans (List.suffix_append _ _).isInfix

lemma isInfix_resultPrefix {notes : List DelegationNote} {note : DelegationNote} (h : note ∈ notes) :
    note.text.toList <:+: (resultPrefix notes).toList := by
  have hne : notes.isEmpty = false := by
    cases notes with
    | nil => cases h
    | cons _ _ => rfl
  unfold resultPrefix
  rw [if_neg (by simp [hne]),String.toList_append]
  exact (isInfix_intercalate _ (List.mem_map_of_mem h)).trans (List.prefix_append _ _).isInfix

/-- What follows the notes does not matter. -/
lemma contains_of_mem {notes : List DelegationNote} {note : DelegationNote} (h : note ∈ notes) (code : ℤ)
    (rest : String) : (TaskExit.returned code (resultPrefix notes++rest)).Contains note.text := by
  refine ⟨code,_,rfl,?_⟩
  rw [String.toList_append]
  exact (isInfix_resultPrefix h).trans (List.prefix_append _ _).isInfix

/-- A failure behind the model's answer. -/
lemma conclude_cases (py : TextPython F) (a : Assistant) (now : ℤ) (notes : List DelegationNote) {response : String}
    (hchat : o.chat = .ok response) :
    (Concludes o ∧ ∃ rest sent, conclude py a now notes response o =
        (.returned 0 (resultPrefix notes++rest),a.registerSent now sent)) ∨
    (¬Concludes o ∧ ∃ sent, conclude py a now notes response o = (.raised,a.registerSent now sent)) := by
  unfold conclude
  cases hschedule : o.schedule with
  | error | cancelled => exact .inr ⟨fun h => by simpa [hschedule] using h.schedule,none,rfl⟩
  | ok schedule => cases hcode : o.codeDelegation with
    | error | cancelled => exact .inr ⟨fun h => by simpa [hcode] using h.codeDelegation,none,rfl⟩
    | ok code => cases hdelegation : o.delegation with
      | error | cancelled => exact .inr ⟨fun h => by simpa [hdelegation] using h.delegation,none,rfl⟩
      | ok outcome => cases hlast : o.lastLog with
        | error | cancelled => exact .inr ⟨fun h => by simpa [hlast] using h.lastLog,outcome.2,rfl⟩
        | ok u =>
          refine .inl ⟨⟨⟨_,hchat⟩,⟨_,hschedule⟩,⟨_,hcode⟩,⟨_,hdelegation⟩,⟨u,hlast⟩⟩,
            strip (cleanResponse py response)++((extraText schedule++extraText code++extraText outcome.1)++
              (a.registerSent now outcome.2).inFlight now),outcome.2,?_⟩
          simp only [String.append_assoc]

/-- A task that has drained its results returns them in front of its answer, returns the error of the
model, or raises. -/
lemma converse_cases (a : Assistant) (now : ℤ) (notes : List DelegationNote) {history siblingPids : Json F}
    (hhistory : loadsOr py task.history (.array []) = .ok history)
    (hsiblings : loadsOr py task.siblingPids (.object []) = .ok siblingPids) :
    (ReachesModel py task o ∧ Concludes o ∧ ∃ rest sent, converse py a now notes history siblingPids o =
        (.returned 0 (resultPrefix notes++rest),a.registerSent now sent)) ∨
    (ReachesModel py task o ∧ ∃ text, o.chat = .error text ∧
      converse py a now notes history siblingPids o = (.returned 1 s!"LLM error: {text}",a)) ∨
    (¬(ReachesModel py task o ∧ (Concludes o ∨ ∃ text, o.chat = .error text)) ∧
      ∃ sent, converse py a now notes history siblingPids o = (.raised,a.registerSent now sent)) := by
  unfold converse
  cases hfirst : o.firstLog with
  | error | cancelled => exact .inr (.inr ⟨fun h => by simpa [hfirst] using h.1.firstLog,none,rfl⟩)
  | ok u =>
    simp only
    by_cases hcancelled : o.siblings = .cancelled
    · rw [if_pos hcancelled]
      exact .inr (.inr ⟨fun h => h.1.siblings hcancelled,none,rfl⟩)
    rw [if_neg hcancelled]
    by_cases hshape : (isMapping siblingPids && sliceable history) = true
    · rw [if_pos hshape]
      have hreaches : ReachesModel py task o := by
        rw [Bool.and_eq_true] at hshape
        refine ⟨⟨u,hfirst⟩,hcancelled,fun v hv => ?_,fun v hv => ?_⟩
        · obtain rfl := Except.ok.inj (hsiblings.symm.trans hv)
          exact hshape.1
        · obtain rfl := Except.ok.inj (hhistory.symm.trans hv)
          exact hshape.2
      cases hchat : o.chat with
      | ok response =>
        rcases conclude_cases py a now notes hchat with ⟨hc,hexit⟩ | ⟨hc,hexit⟩
        · exact .inl ⟨hreaches,hc,hexit⟩
        · exact .inr (.inr ⟨fun h => h.2.elim hc (by simp),hexit⟩)
      | error text => exact .inr (.inl ⟨hreaches,text,rfl,rfl⟩)
      | cancelled =>
        refine .inr (.inr ⟨fun h => h.2.elim (fun hc => ?_) (by simp),none,rfl⟩)
        simpa [hchat] using hc.chat
    · rw [if_neg hshape]
      refine .inr (.inr ⟨fun h => hshape ?_,none,rfl⟩)
      rw [h.1.siblingPids _ hsiblings,h.1.history _ hhistory]
      rfl

lemma delivered_of_nothingDue (h : NothingDue a now) (result : TaskExit × Assistant) :
    Delivered py a now result := by
  refine ⟨fun msg hmsg => ?_,fun d hd hstale => absurd hstale (h.2 d hd)⟩
  rw [h.1] at hmsg
  cases hmsg

/-- Delegations that the task registers itself are not stale. -/
lemma mem_registerSent {sent : Option SentDelegation} {d : String × Delegation} (hstale : d.2.stale now)
    (h : d ∈ (a.registerSent now sent).activeDelegations) : d ∈ a.activeDelegations := by
  cases sent with
  | none => exact h
  | some new =>
    simp only [registerSent,register,List.mem_append,List.mem_singleton] at h
    rcases h with h | rfl
    · exact (List.mem_filter.mp h).1
    · have hlt : delegationTimeout < now-(now+new.after) := of_decide_eq_true hstale
      simp only [delegationTimeout,second] at hlt
      omega

lemma pendingResults_registerSent (a : Assistant) (now : ℤ) (sent : Option SentDelegation) :
    (a.registerSent now sent).pendingResults = a.pendingResults := by
  cases sent <;> rfl

/-- What the drained task leaves behind holds none of it any more, so all has to be in the output. -/
lemma delivered_iff_of_left {remaining : List (String × Delegation)} (exit : TaskExit)
    (sent : Option SentDelegation)
    (hremaining : ∀ d, d ∈ remaining ↔ d ∈ a.activeDelegations ∧
      d.1 ∉ a.pendingResults.map Message.replyTo ∧ ¬d.2.stale now) :
    Delivered py a now (exit,registerSent ⟨[],remaining⟩ now sent) ↔ Delivered py a now (exit,⟨[],[]⟩) := by
  constructor
  · rintro ⟨hresults,hstale⟩
    refine ⟨fun msg hmsg => (hresults msg hmsg).imp_left (fun h => ?_),
      fun d hd hold hid => (hstale d hd hold hid).imp_left (fun h => ?_)⟩
    · rwa [pendingResults_registerSent] at h
    · exact absurd hold ((hremaining d).mp (mem_registerSent hold h)).2.2
  · rintro ⟨hresults,hstale⟩
    refine ⟨fun msg hmsg => (hresults msg hmsg).imp_left (fun h => by cases h),
      fun d hd hold hid => (hstale d hd hold hid).imp_left (fun h => by cases h)⟩

/-- An output that begins with the notes has them all. -/
lemma delivered_of_notes {notes : List DelegationNote} {result : TaskExit × Assistant}
    (hresults : ∀ msg ∈ a.pendingResults, ∃ output, resultText py msg.payload = .ok output ∧
      ∃ delegations, resultNote delegations msg.replyTo output ∈ notes)
    (hstale : ∀ d ∈ a.activeDelegations, d.2.stale now → d.1 ∉ a.pendingResults.map Message.replyTo →
      DelegationNote.timedOut d.1 d.2 ∈ notes)
    (hresult : ∀ note ∈ notes, result.1.Contains note.text) : Delivered py a now result := by
  refine ⟨fun msg hmsg => ?_,fun d hd hold hid => .inr (hresult _ (hstale d hd hold hid))⟩
  obtain ⟨output,houtput,delegations,hnote⟩ := hresults msg hmsg
  exact .inr ⟨output,delegations,houtput,hresult _ hnote⟩

/-- A task without output, and without anything left, delivers only nothing. -/
lemma nothingDue_of_delivered_raised (h : Delivered py a now (.raised,⟨[],[]⟩)) : NothingDue a now := by
  have hresults : a.pendingResults = [] := by
    by_contra hne
    obtain ⟨msg,hmsg⟩ := List.exists_mem_of_ne_nil _ hne
    rcases h.results msg hmsg with hmem | ⟨-,-,-,code,output,hexit,-⟩
    · cases hmem
    · cases hexit
  refine ⟨hresults,fun d hd hstale => ?_⟩
  rcases h.stale d hd hstale (by simp [hresults]) with hmem | ⟨code,output,hexit,-⟩
  · cases hmem
  · cases hexit

/-- For every task and every outcome of its awaits. -/
theorem handleTask_delivered_iff (py : TextPython F) (a : Assistant) (now : ℤ) (task : TaskInput)
    (o : TaskOutcomes) : Delivered py a now (handleTask py a now task o) ↔ Delivers py a now task o := by
  unfold handleTask
  cases hhistory : loadsOr py task.history (.array []) with
  | error e =>
    exact iff_of_true ⟨fun msg hmsg => .inl hmsg,fun d hd _ _ => .inl hd⟩ (.inl (.inl ⟨e,hhistory⟩))
  | ok history => cases hsiblings : loadsOr py task.siblingPids (.object []) with
    | error e =>
      exact iff_of_true ⟨fun msg hmsg => .inl hmsg,fun d hd _ _ => .inl hd⟩ (.inl (.inr ⟨e,hsiblings⟩))
    | ok siblingPids =>
      have hformed : ¬Malformed py task := by simp [Malformed,hhistory,hsiblings]
      by_cases hdue : NothingDue a now
      · exact iff_of_true (delivered_of_nothingDue hdue _) (.inr (.inl hdue))
      by_cases hread : Readable py a.pendingResults
      · obtain ⟨notes,remaining,hcollect,hresults,hstale,hremaining⟩ := collect_of_readable hread now
        simp only [hcollect]
        by_cases hblank : strip task.message = ""
        · rw [if_pos hblank]
          refine iff_of_true ?_ (.inr (.inr ⟨hread,.inl hblank⟩))
          exact delivered_of_notes hresults hstale (fun note hnote => contains_of_mem hnote 0 greeting)
        · rw [if_neg hblank]
          have hdelivers : Delivers py a now task o ↔ ReachesModel py task o ∧
              (Concludes o ∨ ∃ text, o.chat = .error text ∧ Quoted py a now text) := by
            simp [Delivers,hformed,hdue,hread,hblank]
          rw [hdelivers]
          rcases converse_cases (o := o) ⟨[],remaining⟩ now notes hhistory hsiblings with
            ⟨hreaches,hconcludes,rest,sent,hexit⟩ | ⟨hreaches,text,hchat,hexit⟩ | ⟨hfails,sent,hexit⟩
          · rw [hexit]
            refine iff_of_true ?_ ⟨hreaches,.inl hconcludes⟩
            exact delivered_of_notes hresults hstale (fun note hnote => contains_of_mem hnote 0 rest)
          · rw [hexit]
            have hleft : Delivered py a now (.returned 1 s!"LLM error: {text}",⟨[],remaining⟩) ↔
                Delivered py a now (.returned 1 s!"LLM error: {text}",⟨[],[]⟩) :=
              delivered_iff_of_left _ none hremaining
            refine hleft.trans ⟨fun hquoted => ⟨hreaches,.inr ⟨text,hchat,hquoted⟩⟩,fun h => ?_⟩
            rcases h.2 with hconcludes | ⟨text',hchat',hquoted⟩
            · simpa [hchat] using hconcludes.chat
            · obtain rfl : text = text' := by simpa [hchat] using hchat'
              exact hquoted
          · rw [hexit]
            refine (delivered_iff_of_left _ sent hremaining).trans (iff_of_false (fun h => ?_) (fun h => ?_))
            · exact hdue (nothingDue_of_delivered_raised h)
            · exact hfails ⟨h.1,h.2.imp_right (fun ⟨text,hchat,_⟩ => ⟨text,hchat⟩)⟩
      · obtain ⟨e,remaining,hcollect,-⟩ := collect_of_not_readable hread now
        simp only [hcollect]
        refine iff_of_false (fun h => hread (fun msg hmsg => ?_)) (by simp [Delivers,hformed,hdue,hread])
        rcases h.results msg hmsg with hmem | ⟨output,-,houtput,-⟩
        · cases hmem
        · exact ⟨output,houtput⟩

/-- The text of bytes that are all ASCII. -/
def asciiText (payload : List UInt8) : String := String.ofList (payload.map (fun b => Char.ofNat b.toNat))

/-- An interpreter that reads ASCII, and for which nothing is JSON. -/
def plainPython : TextPython ℕ where
  int _ := none
  float _ := none
  zero := 0
  add := Nat.add
  isZero x := x == 0
  str x := toString x
  loads _ := .error .valueError
  decode payload := if payload.all (· < 128) then some (asciiText payload) else none
  decodeReplace := asciiText
  format _ := ""

def donePayload : List UInt8 := "done".toList.map Char.toUInt8

/-- An answer has come for the one delegation that is under way. -/
def answeredAssistant : Assistant :=
  ⟨[{ fromPID := 3, type := "task_response", payload := donePayload, replyTo := "r1" }],
    [("r1",⟨"queen","research",0⟩)]⟩

/-- The user asks something and the model is out of reach. -/
def unreachableModel : TaskOutcomes :=
  ⟨.ok (),.ok (),.error "rate limit",.ok none,.ok none,.ok (none,none),.ok ()⟩

/-- Every note begins with a bracket. -/
lemma bracket_mem_text (note : DelegationNote) : '[' ∈ note.text.toList := by
  have hhead : ∀ first rest : String, '[' ∈ first.toList → '[' ∈ (first++rest).toList := by
    intro first rest h
    rw [String.toList_append]
    exact List.mem_append_left _ h
  cases note with
  | completed id target output => exact hhead _ _ (hhead _ _ (hhead _ _ (by decide)))
  | unknown id output => exact hhead _ _ (by decide)
  | timedOut id d => exact hhead _ _ (hhead _ _ (hhead _ _ (hhead _ _ (by decide))))

theorem failed_chat_loses_results : ¬∀ (F : Type) (py : TextPython F) (a : Assistant) (now : ℤ)
    (task : TaskInput) (o : TaskOutcomes), Delivered py a now (handleTask py a now task o) := by
  intro h
  have hall := h ℕ plainPython answeredAssistant 0 ⟨"hello","",""⟩ unreachableModel
  have hexit : handleTask plainPython answeredAssistant 0 ⟨"hello","",""⟩ unreachableModel =
      (.returned 1 "LLM error: rate limit",⟨[],[]⟩) := rfl
  rw [hexit] at hall
  rcases hall.results _ List.mem_cons_self with hmem | ⟨output,delegations,-,code,text,htext,hin⟩
  · exact absurd hmem List.not_mem_nil
  · simp only [TaskExit.returned.injEq] at htext
    rw [← htext.2] at hin
    exact absurd (hin.subset (bracket_mem_text _)) (by decide)

end Assistant
end HiveKernel
