import HiveKernel.Ipc.Broker
import HiveKernel.Ipc.SharedMemory
import HiveKernel.Kernel.WaitChild
import HiveKernel.Resources.Limits
import Mathlib.Data.List.TakeWhile

/-! The two front ends of the kernel: the gRPC service, whose callers name themselves in a header,
and the syscall handler, whose callers are known from their stream. Eight operations exist in both,
written twice; a request has the same answer and the same effect either way. The event log, where
the two differ in one field, is not part of this. -/
namespace HiveKernel
open Lib

structure Kernel where
  king : King
  pid : ℕ
  inbox : PriorityQueue
  broker : Broker
  sharedMem : SharedMemory
  rateLimiter : RateLimiter

structure PbSpawnRequest where
  name : String
  role : ℤ
  cognitiveTier : ℤ
  model : String := ""
  systemPrompt : String := ""
  tools : List String := []
  limits : Option ResourceLimits := none
  initialTask : String := ""
  runtimeType : ℤ := 0
  runtimeImage : String := ""

structure SpawnResponse where
  success : Bool
  childPid : ℕ := 0
  error : String := ""
  deriving DecidableEq

structure KillRequest where
  targetPid : ℕ
  recursive : Bool

structure KillResponse where
  success : Bool
  killedPids : List ℕ := []
  error : String := ""
  deriving DecidableEq

structure SendMessageRequest where
  toPid : ℕ
  toQueue : String := ""
  type : String
  priority : ℤ := 0
  payload : List UInt8 := []
  requiresAck : Bool := false
  replyTo : String := ""

structure SendMessageResponse where
  delivered : Bool
  messageId : String := ""
  error : String := ""
  deriving DecidableEq

structure StoreArtifactRequest where
  key : String
  content : List UInt8
  contentType : String
  visibility : ℤ

structure StoreArtifactResponse where
  success : Bool
  artifactId : String := ""
  error : String := ""
  deriving DecidableEq

structure GetArtifactRequest where
  key : String
  artifactId : String

structure GetArtifactResponse where
  found : Bool
  content : List UInt8 := []
  contentType : String := ""
  storedByPid : ℕ := 0
  storedAt : ℕ := 0
  error : String := ""
  deriving DecidableEq

structure EscalateRequest where
  issue : String

structure EscalateResponse where
  received : Bool
  handledByPid : ℕ
  deriving DecidableEq

structure SiblingInfo where
  pid : ℕ
  name : String
  role : String
  state : String
  deriving DecidableEq

/-- A request that both front ends take. -/
inductive Call
  | spawn (req : PbSpawnRequest)
  | kill (req : KillRequest)
  | send (req : SendMessageRequest)
  | store (req : StoreArtifactRequest)
  | getArtifact (req : GetArtifactRequest)
  | escalate (req : EscalateRequest)
  | listSiblings
  | waitChild (req : WaitChildRequest)

inductive Response
  | spawn (resp : SpawnResponse)
  | kill (resp : KillResponse)
  | send (resp : SendMessageResponse)
  | store (resp : StoreArtifactResponse)
  | getArtifact (resp : GetArtifactResponse)
  | escalate (resp : EscalateResponse)
  | listSiblings (siblings : List SiblingInfo)
  | waitChild (resp : WaitChildResponse)
  deriving DecidableEq

structure SyscallResult where
  callId : String
  result : Response
  deriving DecidableEq

def protoRoleToInternal (n : ℤ) : AgentRole :=
  if n = 0 then .kernel else if n = 1 then .daemon else if n = 2 then .agent else if n = 3 then .architect
  else if n = 4 then .lead else if n = 5 then .worker else .task

def protoCogToInternal (n : ℤ) : CognitiveTier :=
  if n = 0 then .strategic else if n = 1 then .tactical else .operational

def protoLimitsToInternal (limits : Option ResourceLimits) : ResourceLimits := limits.getD {}

/-- The name of the enumerator, or the number if there is none. -/
def runtimeTypeString (n : ℤ) : String :=
  if n = 0 then "RUNTIME_PYTHON" else if n = 1 then "RUNTIME_CLAW" else if n = 2 then "RUNTIME_CUSTOM"
  else toString n

def parseRuntimeType (s : String) : String :=
  let upper := s.toUpper
  if upper = "RUNTIME_CLAW" ∨ upper = "CLAW" then runtimeClaw
  else if upper = "RUNTIME_PYTHON" ∨ upper = "PYTHON" ∨ upper = "" then runtimePython
  else if upper = "RUNTIME_CUSTOM" ∨ upper = "CUSTOM" then "custom"
  else s.toLower

/-- Seconds since the epoch, in 64 unsigned bits. -/
def unixSeconds (t : ℤ) : ℕ := ((t/second) % 2^64).toNat

/-- A value of a decoded JSON object, as far as it matters here. -/
inductive JsonValue
  | string (s : String) | other

/-- What decodes a payload: the object it holds, if it holds one. -/
def Decoder := List UInt8 → Option (String → Option JsonValue)

/-- The string under a key, empty if there is none. -/
def stringField (data : String → Option JsonValue) (key : String) : String :=
  match data key with
  | some (.string s) => s
  | _ => ""

def extractTraceFromPayload (unmarshal : Decoder) (payload : List UInt8) : String × String :=
  match unmarshal payload with
  | none => ("","")
  | some data => (stringField data "trace_id",stringField data "trace_span")

/-- A moment of a polling wait: what has happened to the kernel since the last one, how long the
wait has lasted, and what it wakes up for. -/
structure WaitMoment where
  change : Kernel → Kernel
  elapsed : ℤ
  event : WaitEvent

/-- What the environment decides while a request is handled: the clock, the outcome of a launch, the
orders of the loops, and the course of a wait. -/
structure Env where
  now : ℤ
  launch : Except String String
  order : List ℕ → List ℕ
  childOrder : List ℕ
  moments : List WaitMoment
  unmarshal : Decoder

namespace CoreServer
variable (k : Kernel) (env : Env) (header : Option (List String))

def spawnChild (req : PbSpawnRequest) : Except String SpawnResponse × Kernel :=
  match callerPID header with
  | .error e => (.error e,k)
  | .ok parentPID =>
    let spawnReq : SpawnRequest :=
      { parentPID := parentPID
        name := req.name
        role := protoRoleToInternal req.role
        cognitiveTier := protoCogToInternal req.cognitiveTier
        model := req.model
        systemPrompt := req.systemPrompt
        tools := req.tools
        limits := protoLimitsToInternal req.limits
        initialTask := req.initialTask
        runtimeType := parseRuntimeType (runtimeTypeString req.runtimeType)
        runtimeImage := req.runtimeImage }
    match k.king.spawnChild env.now env.launch spawnReq with
    | (.error e,king) => (.ok { success := false, error := e },{ k with king := king })
    | (.ok proc,king) => (.ok { success := true, childPid := proc.pid },{ k with king := king })

def killChild (req : KillRequest) : Option (Except String KillResponse × Kernel) :=
  match callerPID header with
  | .error e => some (.error e,k)
  | .ok parentPID => match k.king.registry.get req.targetPid with
    | none => some (.ok { success := false, error := "process not found" },k)
    | some target =>
      if target.ppid ≠ parentPID then
        some (.ok { success := false, error := "can only kill own children" },k)
      else (King.victims k.king.registry env.order req.targetPid req.recursive).map fun killed =>
        (.ok { success := true, killedPids := killed },{ k with king := k.king.killAll env.now killed })

def sendMessage (req : SendMessageRequest) : Option (Except String SendMessageResponse × Kernel) :=
  match callerPID header with
  | .error e => some (.error e,k)
  | .ok fromPID => match aclCheck k.king.rules k.king.registry fromPID .sendMessage with
    | .error e => some (.ok { delivered := false, error := e },k)
    | .ok _ => match k.rateLimiter.allowAt fromPID env.now with
      | (false,rateLimiter) =>
        some (.ok { delivered := false, error := "rate limit exceeded" },{ k with rateLimiter := rateLimiter })
      | (true,rateLimiter) => match k.king.registry.get fromPID with
        | none => some (.error s!"sender {fromPID} not found",{ k with rateLimiter := rateLimiter })
        | some sender =>
          let msg : Message :=
            { fromPID := fromPID
              fromName := sender.name
              toPID := req.toPid
              toQueue := req.toQueue
              type := req.type
              priority := req.priority
              payload := req.payload
              requiresAck := req.requiresAck
              replyTo := req.replyTo }
          (k.broker.route k.king.registry env.now msg).map fun
            | (.error e,broker) => (.ok { delivered := false, error := e },
                { k with rateLimiter := rateLimiter, broker := broker })
            | (.ok msg,broker) =>
              let (traceID,traceSpan) := extractTraceFromPayload env.unmarshal req.payload
              let king := if traceID ≠ "" then k.king.setTrace req.toPid traceID traceSpan else k.king
              (.ok { delivered := true, messageId := msg.id },
                { k with rateLimiter := rateLimiter, broker := broker, king := king })

def storeArtifact (req : StoreArtifactRequest) : Except String StoreArtifactResponse × Kernel :=
  match callerPID header with
  | .error e => (.error e,k)
  | .ok pid => match aclCheck k.king.rules k.king.registry pid .writeArtifact with
    | .error e => (.ok { success := false, error := e },k)
    | .ok _ =>
      let vis := Visibility.ofNumber req.visibility
      match k.sharedMem.store k.king.registry env.now pid req.key req.content req.contentType vis with
      | (.error e,sharedMem) => (.ok { success := false, error := e },{ k with sharedMem := sharedMem })
      | (.ok id,sharedMem) => (.ok { success := true, artifactId := id },{ k with sharedMem := sharedMem })

def getArtifact (req : GetArtifactRequest) : Option (Except String GetArtifactResponse × Kernel) :=
  match callerPID header with
  | .error e => some (.error e,k)
  | .ok pid =>
    let art := if req.key ≠ "" then k.sharedMem.get k.king.registry env.order pid req.key
      else k.sharedMem.getByID k.king.registry env.order pid req.artifactId
    art.map fun
      | .error e => (.ok { found := false, error := e },k)
      | .ok art =>
        let storedAt := unixSeconds art.storedAt
        (.ok ⟨true,art.content,art.contentType,art.storedByPID,storedAt,""⟩,k)

def escalate (req : EscalateRequest) : Except String EscalateResponse × Kernel :=
  match callerPID header with
  | .error e => (.error e,k)
  | .ok fromPID =>
    let msg : Message :=
      { fromPID := fromPID
        toPID := k.pid
        type := "escalation"
        priority := priorityHigh
        payload := req.issue.toUTF8.toList }
    (.ok ⟨true,k.pid⟩,{ k with inbox := (k.inbox.push env.now msg).2 })

def listSiblings : Except String (List SiblingInfo) × Kernel :=
  match callerPID header with
  | .error e => (.error e,k)
  | .ok pid => match k.king.registry.get pid with
    | none => (.ok [],k)
    | some caller =>
      let children := k.king.registry.getChildren env.childOrder caller.ppid
      let siblings := (children.filter (fun child => child.pid ≠ pid)).map fun child =>
        ⟨child.pid,child.name,child.role.string,child.state.string⟩
      (.ok siblings,k)

/-- The polling loop. The deadline is no reason to wake up before it has passed; there is no answer if
the wait outlasts the given moments. -/
def waitLoop (req : WaitChildRequest) (timeout : ℤ) : List WaitMoment → Kernel →
    Option (WaitChildResponse × Kernel)
  | [],_ => none
  | m::moments,k =>
    let k := m.change k
    if m.event = .deadline ∧ m.elapsed < timeout then waitLoop req timeout moments k
    else match waitRound k.king req m.event with
      | (some resp,king) => some (resp,{ k with king := king })
      | (none,king) => waitLoop req timeout moments { k with king := king }

/-- One request of the service. -/
def serve : Call → Option (Except String Response × Kernel)
  | .spawn req =>
    let (resp,k) := spawnChild k env header req
    some (resp.map .spawn,k)
  | .kill req => (killChild k env header req).map fun (resp,k) => (resp.map .kill,k)
  | .send req => (sendMessage k env header req).map fun (resp,k) => (resp.map .send,k)
  | .store req =>
    let (resp,k) := storeArtifact k env header req
    some (resp.map .store,k)
  | .getArtifact req => (getArtifact k env header req).map fun (resp,k) => (resp.map .getArtifact,k)
  | .escalate req =>
    let (resp,k) := escalate k env header req
    some (resp.map .escalate,k)
  | .listSiblings =>
    let (siblings,k) := listSiblings k env header
    some (siblings.map .listSiblings,k)
  | .waitChild req => match waitChild k.king header req with
    | (.error e,king) => some (.error e,{ k with king := king })
    | (.ok (.answer resp),king) => some (.ok (.waitChild resp),{ k with king := king })
    | (.ok (.poll timeout),king) =>
      (waitLoop req timeout env.moments { k with king := king }).map fun (resp,k) =>
        (.ok (.waitChild resp),k)

end CoreServer

namespace KernelSyscallHandler
variable (k : Kernel) (env : Env) (callID : String) (callerPID : ℕ)

def handleSpawn (req : PbSpawnRequest) : SyscallResult × Kernel :=
  let (proc,king) := k.king.spawnChild env.now env.launch
    { parentPID := callerPID
      name := req.name
      role := protoRoleToInternal req.role
      cognitiveTier := protoCogToInternal req.cognitiveTier
      model := req.model
      systemPrompt := req.systemPrompt
      tools := req.tools
      limits := protoLimitsToInternal req.limits
      initialTask := req.initialTask
      runtimeType := parseRuntimeType (runtimeTypeString req.runtimeType)
      runtimeImage := req.runtimeImage }
  let k := { k with king := king }
  match proc with
  | .error e => (⟨callID,.spawn { success := false, error := e }⟩,k)
  | .ok proc => (⟨callID,.spawn { success := true, childPid := proc.pid }⟩,k)

/-- Kill one process and put it on the list. -/
def killNext (now : ℤ) (acc : King × List ℕ) (pid : ℕ) : King × List ℕ :=
  (King.killOne now acc.1 pid,acc.2 ++ [pid])

def handleKill (req : KillRequest) : Option (SyscallResult × Kernel) :=
  match k.king.registry.get req.targetPid with
  | none => some (⟨callID,.kill { success := false, error := "process not found" }⟩,k)
  | some target =>
    if target.ppid ≠ callerPID then
      some (⟨callID,.kill { success := false, error := "can only kill own children" }⟩,k)
    else do
      let descendants ←
        if req.recursive then k.king.registry.getDescendants env.order req.targetPid else some []
      let acc := (descendants.map Process.pid).foldl (killNext env.now) (k.king,[])
      let (king,killed) := killNext env.now acc req.targetPid
      some (⟨callID,.kill { success := true, killedPids := killed }⟩,{ k with king := king })

def handleSend (req : SendMessageRequest) : Option (SyscallResult × Kernel) :=
  match aclCheck k.king.rules k.king.registry callerPID .sendMessage with
  | .error e => some (⟨callID,.send { delivered := false, error := e }⟩,k)
  | .ok _ =>
    let (allowed,rateLimiter) := k.rateLimiter.allowAt callerPID env.now
    let k := { k with rateLimiter := rateLimiter }
    if ¬allowed then some (⟨callID,.send { delivered := false, error := "rate limit exceeded" }⟩,k)
    else match k.king.registry.get callerPID with
      | none => some (⟨callID,.send { delivered := false, error := s!"sender {callerPID} not found" }⟩,k)
      | some sender =>
        let routed := k.broker.route k.king.registry env.now
          { fromPID := callerPID
            fromName := sender.name
            toPID := req.toPid
            toQueue := req.toQueue
            type := req.type
            priority := req.priority
            payload := req.payload
            requiresAck := req.requiresAck
            replyTo := req.replyTo }
        routed.map fun (result,broker) =>
          let k := { k with broker := broker }
          match result with
          | .error e => (⟨callID,.send { delivered := false, error := e }⟩,k)
          | .ok msg =>
            let (traceID,traceSpan) := extractTraceFromPayload env.unmarshal req.payload
            let k := if traceID ≠ "" then { k with king := k.king.setTrace req.toPid traceID traceSpan } else k
            (⟨callID,.send { delivered := true, messageId := msg.id }⟩,k)

def handleStore (req : StoreArtifactRequest) : SyscallResult × Kernel :=
  match aclCheck k.king.rules k.king.registry callerPID .writeArtifact with
  | .error e => (⟨callID,.store { success := false, error := e }⟩,k)
  | .ok _ =>
    let vis := Visibility.ofNumber req.visibility
    let (id,sharedMem) :=
      k.sharedMem.store k.king.registry env.now callerPID req.key req.content req.contentType vis
    let k := { k with sharedMem := sharedMem }
    match id with
    | .error e => (⟨callID,.store { success := false, error := e }⟩,k)
    | .ok id => (⟨callID,.store { success := true, artifactId := id }⟩,k)

def handleGetArtifact (req : GetArtifactRequest) : Option (SyscallResult × Kernel) := do
  let art ← if req.key ≠ "" then k.sharedMem.get k.king.registry env.order callerPID req.key
    else k.sharedMem.getByID k.king.registry env.order callerPID req.artifactId
  match art with
  | .error e => some (⟨callID,.getArtifact { found := false, error := e }⟩,k)
  | .ok art =>
    let storedAt := unixSeconds art.storedAt
    some (⟨callID,.getArtifact ⟨true,art.content,art.contentType,art.storedByPID,storedAt,""⟩⟩,k)

def handleEscalate (req : EscalateRequest) : SyscallResult × Kernel :=
  let (_,inbox) := k.inbox.push env.now
    { fromPID := callerPID
      toPID := k.pid
      type := "escalation"
      priority := priorityHigh
      payload := req.issue.toUTF8.toList }
  (⟨callID,.escalate ⟨true,k.pid⟩⟩,{ k with inbox := inbox })

/-- One iteration of the loop over the children of the parent. -/
def collectSibling (siblings : List SiblingInfo) (child : Process) : List SiblingInfo :=
  if child.pid = callerPID then siblings
  else siblings ++ [⟨child.pid,child.name,child.role.string,child.state.string⟩]

def handleListSiblings : SyscallResult × Kernel :=
  match k.king.registry.get callerPID with
  | none => (⟨callID,.listSiblings []⟩,k)
  | some caller =>
    let children := k.king.registry.getChildren env.childOrder caller.ppid
    (⟨callID,.listSiblings (children.foldl (collectSibling callerPID) [])⟩,k)

def waitLoop (req : WaitChildRequest) (timeout : ℤ) : List WaitMoment → Kernel →
    Option (WaitChildResponse × Kernel)
  | [],_ => none
  | m::moments,k =>
    let k := m.change k
    if m.event = .deadline ∧ m.elapsed < timeout then waitLoop req timeout moments k
    else match waitRound k.king req m.event with
      | (some resp,king) => some (resp,{ k with king := king })
      | (none,king) => waitLoop req timeout moments { k with king := king }

def handleSyscall : Call → Option (SyscallResult × Kernel)
  | .spawn req => some (handleSpawn k env callID callerPID req)
  | .kill req => handleKill k env callID callerPID req
  | .send req => handleSend k env callID callerPID req
  | .store req => some (handleStore k env callID callerPID req)
  | .getArtifact req => handleGetArtifact k env callID callerPID req
  | .escalate req => some (handleEscalate k env callID callerPID req)
  | .listSiblings => some (handleListSiblings k env callID callerPID)
  | .waitChild req => match handleWaitChild k.king callerPID req with
    | (.answer resp,king) => some (⟨callID,.waitChild resp⟩,{ k with king := king })
    | (.poll timeout,king) =>
      (waitLoop req timeout env.moments { k with king := king }).map fun (resp,k) =>
        (⟨callID,.waitChild resp⟩,k)

end KernelSyscallHandler

/-- A digit is not a space. -/
lemma skipSpace_of_isDigit {cs : List Char} (h : ∀ c ∈ cs, c.isDigit) : skipSpace cs = some cs := by
  cases cs with
  | nil => rfl
  | cons c cs =>
    have hc : 48 ≤ c.toNat ∧ c.toNat ≤ 57 := by simpa [Char.isDigit_iff_toNat] using h c (by simp)
    have hnewline : c ≠ '\n' := by
      rintro rfl
      exact absurd hc.1 (by decide)
    have hspace : isSpace c = false := by
      simp only [isSpace,decide_eq_false_iff_not]
      omega
    simp [skipSpace,hnewline,hspace]

/-- A PID of 64 bits is scanned back from its decimal digits. -/
lemma callerPID_toString {pid : ℕ} (h : pid < 2^64) : callerPID (some [toString pid]) = .ok pid := by
  have hlist : (toString pid).toList = Nat.toDigits 10 pid := Nat.toList_repr
  have hdigit : ∀ c ∈ Nat.toDigits 10 pid, c.isDigit :=
    fun c hc => Nat.isDigit_of_mem_toDigits (by decide) (by decide) hc
  have htake : (Nat.toDigits 10 pid).takeWhile Char.isDigit = Nat.toDigits 10 pid :=
    List.takeWhile_eq_self_iff.mpr hdigit
  have hvalue : (Nat.toDigits 10 pid).foldl (fun n c => 10*n+(c.toNat - '0'.toNat)) 0 = pid :=
    Nat.ofDigitChars_ten_toDigits
  have hscan : scanUint (toString pid) = some pid := by
    simp only [scanUint,hlist,skipSpace_of_isDigit hdigit,Option.bind_eq_bind,Option.bind_some,htake,hvalue]
    rw [if_pos ⟨Nat.toDigits_ne_nil,h⟩]
  simp only [callerPID,hscan]

/-- A result of the syscall handler as the service would give it. -/
def served (out : SyscallResult × Kernel) : Except String Response × Kernel := (.ok out.1.result,out.2)

section Agreement
open CoreServer KernelSyscallHandler
variable {k : Kernel} {env : Env} {header : Option (List String)} {callID : String} {caller : ℕ}

lemma spawn_agrees (h : callerPID header = .ok caller) (req : PbSpawnRequest) :
    serve k env header (.spawn req) = (handleSyscall k env callID caller (.spawn req)).map served := by
  simp only [serve,spawnChild,h,handleSyscall,handleSpawn,Option.map_some]
  split <;> simp_all [served,Except.map]

/-- The service does to the kernel what its transition system says about a kill request. -/
theorem killChild_king (k : Kernel) (env : Env) (header : Option (List String)) (req : KillRequest) :
    (killChild k env header req).map (fun out => out.2.king) =
      (k.king.killChild env.now env.order header req.targetPid req.recursive).map Prod.snd := by
  simp only [killChild,King.killChild,King.kill]
  cases callerPID header with
  | error e => rfl
  | ok caller =>
    cases k.king.registry.get req.targetPid with
    | none => rfl
    | some target =>
      simp only
      split_ifs
      · rfl
      · simp [Option.map_map,Function.comp_def]

/-- The loop with its list does what the kill of the list does. -/
lemma foldl_killNext (now : ℤ) (pids : List ℕ) (acc : King × List ℕ) :
    pids.foldl (killNext now) acc = (acc.1.killAll now pids,acc.2 ++ pids) := by
  induction pids generalizing acc with
  | nil => simp [King.killAll]
  | cons pid pids ih =>
    rw [List.foldl_cons,ih]
    simp [killNext,King.killAll]

lemma kill_agrees (h : callerPID header = .ok caller) (req : KillRequest) :
    serve k env header (.kill req) = (handleSyscall k env callID caller (.kill req)).map served := by
  simp only [serve,killChild,h,handleSyscall,handleKill]
  cases k.king.registry.get req.targetPid with
  | none => rfl
  | some target =>
    simp only
    by_cases hp : target.ppid = caller
    · have hall : ∀ descendants : List ℕ, (King.killAll k.king env.now (descendants ++ [req.targetPid])) =
          King.killOne env.now (k.king.killAll env.now descendants) req.targetPid := by
        intro descendants
        simp [King.killAll]
      cases req.recursive with
      | true =>
        cases hd : k.king.registry.getDescendants env.order req.targetPid with
        | none => simp [hp,hd,King.victims]
        | some descendants => simp [hp,hd,King.victims,foldl_killNext,killNext,hall,served,Except.map]
      | false => simp [hp,King.victims,killNext,King.killAll,served,Except.map]
    · simp [hp,served,Except.map]

lemma send_agrees (h : callerPID header = .ok caller) (hcaller : (k.king.registry.get caller).isSome)
    (req : SendMessageRequest) :
    serve k env header (.send req) = (handleSyscall k env callID caller (.send req)).map served := by
  obtain ⟨sender,hs⟩ := Option.isSome_iff_exists.mp hcaller
  simp only [serve,sendMessage,h,handleSyscall,handleSend]
  cases aclCheck k.king.rules k.king.registry caller .sendMessage with
  | error e => rfl
  | ok u =>
    simp only
    rcases hrate : k.rateLimiter.allowAt caller env.now with ⟨allowed,rateLimiter⟩
    cases allowed with
    | false => rfl
    | true =>
      simp only [hs,not_true_eq_false,if_false,Option.map_map]
      congr 1
      funext out
      obtain ⟨result,broker⟩ := out
      cases result with
      | error e => rfl
      | ok msg =>
        simp only [Function.comp_apply]
        split_ifs <;> rfl

lemma store_agrees (h : callerPID header = .ok caller) (req : StoreArtifactRequest) :
    serve k env header (.store req) = (handleSyscall k env callID caller (.store req)).map served := by
  simp only [serve,storeArtifact,h,handleSyscall,handleStore]
  cases aclCheck k.king.rules k.king.registry caller .writeArtifact with
  | error e => rfl
  | ok u =>
    simp only [Option.map_some]
    split <;> simp_all [served,Except.map]

lemma getArtifact_agrees (h : callerPID header = .ok caller) (req : GetArtifactRequest) :
    serve k env header (.getArtifact req) =
      (handleSyscall k env callID caller (.getArtifact req)).map served := by
  simp only [serve,getArtifact,h,handleSyscall,handleGetArtifact]
  split_ifs
  · cases k.sharedMem.get k.king.registry env.order caller req.key with
    | none => rfl
    | some found => cases found <;> rfl
  · cases k.sharedMem.getByID k.king.registry env.order caller req.artifactId with
    | none => rfl
    | some found => cases found <;> rfl

/-- The loop over the children keeps all but the caller. -/
lemma foldl_collectSibling (caller : ℕ) (children : List Process) (siblings : List SiblingInfo) :
    children.foldl (collectSibling caller) siblings =
      siblings ++ (children.filter (fun child => child.pid ≠ caller)).map fun child =>
        ⟨child.pid,child.name,child.role.string,child.state.string⟩ := by
  induction children generalizing siblings with
  | nil => simp
  | cons child children ih =>
    rw [List.foldl_cons,ih,collectSibling]
    by_cases hc : child.pid = caller
    · simp [hc]
    · simp [hc,List.append_assoc]

lemma listSiblings_agrees (h : callerPID header = .ok caller) :
    serve k env header .listSiblings = (handleSyscall k env callID caller .listSiblings).map served := by
  simp only [serve,listSiblings,h,handleSyscall,handleListSiblings]
  cases k.king.registry.get caller with
  | none => rfl
  | some p => simp [foldl_collectSibling,served,Except.map]

/-- One round of the two loops, and then the loops. -/
lemma waitRound_agrees (k : King) (req : WaitChildRequest) (event : WaitEvent) :
    CoreServer.waitRound k req event = KernelSyscallHandler.waitRound k req event := by
  cases event with
  | cancelled => rfl
  | deadline => rfl
  | tick => simp only [CoreServer.waitRound,KernelSyscallHandler.waitRound,okResult]

lemma waitLoop_agrees (req : WaitChildRequest) (timeout : ℤ) (moments : List WaitMoment) (k : Kernel) :
    CoreServer.waitLoop req timeout moments k = KernelSyscallHandler.waitLoop req timeout moments k := by
  induction moments generalizing k with
  | nil => rfl
  | cons m moments ih => simp only [CoreServer.waitLoop,KernelSyscallHandler.waitLoop,waitRound_agrees,ih]

lemma waitChild_agrees (h : callerPID header = .ok caller) (req : WaitChildRequest) :
    serve k env header (.waitChild req) = (handleSyscall k env callID caller (.waitChild req)).map served := by
  simp only [serve,waitChild,h,handleSyscall,handleWaitChild,okResult,errResult,King.waitResult]
  cases k.king.registry.get req.targetPid with
  | none => rfl
  | some target =>
    simp only
    by_cases hp : target.ppid = caller
    · by_cases hended : target.state.Terminal
      · cases k.king.results.get target.pid <;> simp [hp,hended,served]
      · simp [hp,hended,waitLoop_agrees,served,Function.comp_def]
    · simp [hp,served]

/-- A registered process gets the same answer to the same request from both front ends, and leaves
the same kernel behind. -/
theorem front_ends_agree (k : Kernel) (env : Env) {caller : ℕ} (hcaller : (k.king.registry.get caller).isSome)
    (hpid : caller < 2^64) (callID : String) (call : Call) :
    serve k env (some [toString caller]) call = (handleSyscall k env callID caller call).map served := by
  have h := callerPID_toString hpid
  cases call with
  | spawn req => exact spawn_agrees h req
  | kill req => exact kill_agrees h req
  | send req => exact send_agrees h hcaller req
  | store req => exact store_agrees h req
  | getArtifact req => exact getArtifact_agrees h req
  | escalate req => simp only [serve,escalate,h,handleSyscall,handleEscalate,Option.map_some,served,Except.map]
  | listSiblings => exact listSiblings_agrees h
  | waitChild req => exact waitChild_agrees h req

/-- A kernel with one worker and empty queues, for examples. -/
def exampleKernel : Kernel := ⟨kingAndWorker.king,1,.new,.new,.new,.new⟩

def exampleEnv : Env where
  now := 0
  launch := .error "no launcher"
  order := fun _ => [1,2]
  childOrder := [1,2]
  moments := []
  unmarshal := fun _ => none

theorem front_ends_agree_send :
    (exampleKernel.king.registry.get 1).isSome ∧
      serve exampleKernel exampleEnv (some [toString 1]) (.send { toPid := 2, type := "hello" }) =
        (handleSyscall exampleKernel exampleEnv "call-1" 1 (.send { toPid := 2, type := "hello" })).map served :=
  ⟨rfl,front_ends_agree exampleKernel exampleEnv rfl (by decide) "call-1" _⟩

end Agreement

end HiveKernel
