import HiveKernel.Ipc.Mailbox
import HiveKernel.Kernel.FrontEnds

/-! The mail of the king. Its main loop reads a queue of its own, to which only escalations are pushed,
while the broker puts what is routed to the king into an inbox like those of all other processes. -/
namespace HiveKernel
open Lib

/-- The kernel with the messages that were accepted for the king and those that its loop has handled.
No step looks at them. -/
structure KingMail where
  kernel : Kernel
  accepted : Multiset Message
  handled : Multiset Message

inductive MailOp
  /-- A message that somebody sends, a reply included. -/
  | route (now : ℤ) (msg : Message)
  | escalate (env : Env) (header : Option (List String)) (req : EscalateRequest)
  | handleEscalate (env : Env) (callID : String) (callerPID : ℕ) (req : EscalateRequest)
  | cronMessage (now : ℤ) (targetPID : ℕ) (payload : List UInt8)
  | run (now : ℤ) (index : ℕ)
  /-- Anything that happens to the rest of the kernel. -/
  | other (king : King)

namespace KingMail

def start (king : King) (sharedMem : SharedMemory) (rateLimiter : RateLimiter) : KingMail :=
  ⟨⟨king,1,.new,.new,sharedMem,rateLimiter⟩,0,0⟩

/-- A call of the broker. -/
def route (s : KingMail) (now : ℤ) (msg : Message) : Option KingMail :=
  match s.kernel.broker.route s.kernel.king.registry now msg with
  | none => none
  | some (.error _,broker) => some { s with kernel := { s.kernel with broker := broker } }
  | some (.ok stamped,broker) => some { s with
      kernel := { s.kernel with broker := broker }
      accepted := if stamped.toPID = s.kernel.pid then stamped::ₘs.accepted else s.accepted }

def routeMessage (s : KingMail) (now : ℤ) (msg : Message) : Option KingMail :=
  if msg.toPID = 0 ∧ msg.toQueue = "" then some s else s.route now msg

/-- The loop of the king has taken a message. An escalation is published as an event and may start a
migration, a request for a spawn is only logged. -/
def handleMessage (s : KingMail) (now : ℤ) (msg : Message) : Option KingMail :=
  if msg.type = "escalation" then some s
  else if msg.type = "spawn_request" then some s
  else s.routeMessage now msg

/-- What both front ends push for an escalation. -/
def escalation (s : KingMail) (fromPID : ℕ) (issue : String) : Message where
  fromPID := fromPID
  toPID := s.kernel.pid
  type := "escalation"
  priority := priorityHigh
  payload := issue.toUTF8.toList

def cronTask (targetPID : ℕ) (payload : List UInt8) : Message where
  fromPID := 1
  fromName := "king"
  toPID := targetPID
  type := "cron_task"
  payload := payload

/-- One iteration of the loop of the king; the loop of `Pop` goes on if the message is expired. -/
def run (s : KingMail) (now : ℤ) (index : ℕ) : Option KingMail :=
  match s.kernel.inbox.popAt index with
  | none => none
  | some (msg,inbox) =>
    let s := { s with kernel := { s.kernel with inbox := inbox } }
    if msg.Expired now then some s
    else { s with handled := msg::ₘs.handled }.handleMessage now msg

def step (s : KingMail) : MailOp → Option KingMail
  | .route now msg => s.route now msg
  | .escalate env header req =>
    let accepted := match callerPID header with
      | .error _ => s.accepted
      | .ok fromPID => s.kernel.inbox.stamp env.now (s.escalation fromPID req.issue)::ₘs.accepted
    some ⟨(CoreServer.escalate s.kernel env header req).2,accepted,s.handled⟩
  | .handleEscalate env callID callerPID req =>
    let accepted := s.kernel.inbox.stamp env.now (s.escalation callerPID req.issue)::ₘs.accepted
    some ⟨(KernelSyscallHandler.handleEscalate s.kernel env callID callerPID req).2,accepted,s.handled⟩
  | .cronMessage now targetPID payload => s.route now (cronTask targetPID payload)
  | .run now index => s.run now index
  | .other king => some { s with kernel := { s.kernel with king := king } }

/-- What was accepted for the king waits in the queue that its loop reads, or has been handled. -/
def ReadsItsMail (s : KingMail) : Prop := s.accepted ≤ (s.kernel.inbox.items : Multiset Message) + s.handled

/-- The broker accepts a message for the king. -/
def Bypass (s : KingMail) (now : ℤ) (msg : Message) : Prop :=
  msg.toPID = s.kernel.pid ∧
    ∃ stamped broker, s.kernel.broker.route s.kernel.king.registry now msg = some (.ok stamped,broker)

/-- The step makes the broker accept a message for the king. -/
def Bypasses (s : KingMail) : MailOp → Prop
  | .route now msg => s.Bypass now msg
  | .cronMessage now targetPID payload => s.Bypass now (cronTask targetPID payload)
  | .run now index => ∃ msg inbox, s.kernel.inbox.popAt index = some (msg,inbox) ∧ ¬msg.Expired now ∧
      msg.type ≠ "escalation" ∧ msg.type ≠ "spawn_request" ∧ s.Bypass now msg
  | _ => False

variable {s t : KingMail} {op : MailOp} {now : ℤ} {msg : Message}

/-- As long as the broker accepts nothing for the king: its queue holds escalations that do not expire,
and nothing accepted is missing. -/
structure Exact (s : KingMail) : Prop where
  total : s.accepted = (s.kernel.inbox.items : Multiset Message) + s.handled
  escalations : ∀ m ∈ s.kernel.inbox.items, m.type = "escalation" ∧ m.expiresAt = none

lemma exact_start (king : King) (sharedMem : SharedMemory) (rateLimiter : RateLimiter) :
    (start king sharedMem rateLimiter).Exact := by
  refine ⟨rfl,fun m hm => ?_⟩
  cases hm

lemma Exact.readsItsMail (h : s.Exact) : s.ReadsItsMail := h.total.le

lemma toPID_of_route {b b' : Broker} {r : Registry} {stamped : Message}
    (h : b.route r now msg = some (.ok stamped,b')) : stamped.toPID = msg.toPID := by
  rcases Broker.route_cases h with ⟨e,he,-⟩ | ⟨-,-,he,-⟩ | ⟨kind,-,-,-,he,-⟩
  · cases he
  · cases he
    rfl
  · cases he
    rfl

/-- A call of the broker keeps the king informed exactly if it accepts nothing for the king. -/
lemma Exact.route (h : s.Exact) (hs : s.route now msg = some t) :
    (t.ReadsItsMail ↔ ¬s.Bypass now msg) ∧ (¬s.Bypass now msg → t.Exact) := by
  unfold KingMail.route at hs
  cases hroute : s.kernel.broker.route s.kernel.king.registry now msg with
  | none =>
    rw [hroute] at hs
    cases hs
  | some outcome =>
    obtain ⟨result,broker⟩ := outcome
    rw [hroute] at hs
    cases result with
    | error e =>
      cases hs
      have hno : ¬s.Bypass now msg := by
        rintro ⟨-,stamped,broker',hok⟩
        cases hroute.symm.trans hok
      have hexact : Exact { s with kernel := { s.kernel with broker := broker } } := ⟨h.total,h.escalations⟩
      exact ⟨iff_of_true hexact.readsItsMail hno,fun _ => hexact⟩
    | ok stamped =>
      cases hs
      rw [toPID_of_route hroute]
      by_cases hking : msg.toPID = s.kernel.pid
      · have hbypass : s.Bypass now msg := ⟨hking,stamped,broker,hroute⟩
        refine ⟨iff_of_false (fun hread => ?_) (not_not.mpr hbypass),fun hno => absurd hbypass hno⟩
        change (if msg.toPID = s.kernel.pid then stamped::ₘs.accepted else s.accepted) ≤
          (s.kernel.inbox.items : Multiset Message)+s.handled at hread
        rw [if_pos hking] at hread
        have hcard := Multiset.card_le_card hread
        rw [h.total,Multiset.card_cons] at hcard
        omega
      · have hno : ¬s.Bypass now msg := fun hbypass => hking hbypass.1
        have hexact : Exact { s with
            kernel := { s.kernel with broker := broker }
            accepted := if msg.toPID = s.kernel.pid then stamped::ₘs.accepted else s.accepted } := by
          rw [if_neg hking]
          exact ⟨h.total,h.escalations⟩
        exact ⟨iff_of_true hexact.readsItsMail hno,fun _ => hexact⟩

/-- An escalation comes in. -/
lemma Exact.push (h : s.Exact) (now : ℤ) (fromPID : ℕ) (issue : String) :
    Exact ⟨{ s.kernel with inbox := (s.kernel.inbox.push now (s.escalation fromPID issue)).2 },
      s.kernel.inbox.stamp now (s.escalation fromPID issue)::ₘs.accepted,s.handled⟩ := by
  constructor
  · change _ = ((s.kernel.inbox.stamp now (s.escalation fromPID issue)::s.kernel.inbox.items : List Message) :
      Multiset Message)+s.handled
    rw [h.total,← Multiset.cons_coe,Multiset.cons_add]
  · intro m hm
    rcases List.mem_cons.mp hm with rfl | hm
    · exact ⟨rfl,rfl⟩
    · exact h.escalations m hm

/-- The loop of the king takes an escalation. -/
lemma Exact.run {index : ℕ} (h : s.Exact) (hs : s.run now index = some t) :
    t.Exact ∧ ¬s.Bypasses (.run now index) := by
  unfold KingMail.run at hs
  cases hpop : s.kernel.inbox.popAt index with
  | none =>
    rw [hpop] at hs
    cases hs
  | some taken =>
    obtain ⟨msg,inbox⟩ := taken
    rw [hpop] at hs
    have hitems := PriorityQueue.popAt_eq_some hpop
    have hmem : ∀ m, m = msg ∨ m ∈ inbox.items → m ∈ s.kernel.inbox.items := by
      intro m hm
      rw [← Multiset.mem_coe,hitems,Multiset.mem_add,Multiset.mem_singleton,Multiset.mem_coe]
      exact hm
    obtain ⟨htype,hexpires⟩ := h.escalations msg (hmem msg (.inl rfl))
    have hlive : ¬msg.Expired now := by
      rintro ⟨time,htime,-⟩
      rw [hexpires] at htime
      cases htime
    simp only [if_neg hlive,handleMessage,if_pos htype] at hs
    cases hs
    refine ⟨⟨?_,fun m hm => h.escalations m (hmem m (.inr hm))⟩,?_⟩
    · rw [h.total,hitems]
      simp only [Multiset.singleton_add,Multiset.cons_add,Multiset.add_cons]
    · rintro ⟨msg',inbox',hpop',-,hother,-⟩
      cases hpop.symm.trans hpop'
      exact hother htype

theorem Exact.step (h : s.Exact) (hs : s.step op = some t) :
    (t.ReadsItsMail ↔ ¬s.Bypasses op) ∧ (¬s.Bypasses op → t.Exact) := by
  have hkept : t.Exact → ¬s.Bypasses op → (t.ReadsItsMail ↔ ¬s.Bypasses op) ∧ (¬s.Bypasses op → t.Exact) :=
    fun ht hno => ⟨iff_of_true ht.readsItsMail hno,fun _ => ht⟩
  cases op with
  | route now msg => exact h.route hs
  | cronMessage now targetPID payload => exact h.route hs
  | run now index =>
    obtain ⟨ht,hno⟩ := h.run hs
    exact hkept ht hno
  | escalate env header req =>
    simp only [KingMail.step,CoreServer.escalate] at hs
    apply hkept ?_ id
    cases hcaller : callerPID header with
    | error e =>
      rw [hcaller] at hs
      cases hs
      exact ⟨h.total,h.escalations⟩
    | ok fromPID =>
      rw [hcaller] at hs
      cases hs
      exact h.push env.now fromPID req.issue
  | handleEscalate env callID caller req =>
    cases hs
    exact hkept (h.push env.now caller req.issue) id
  | other king =>
    cases hs
    exact hkept ⟨h.total,h.escalations⟩ id

/-- In every run the king reads its mail exactly if the broker never accepts a message for it. -/
theorem readsItsMail_iff_of_run {king : King} {sharedMem : SharedMemory} {rateLimiter : RateLimiter}
    {trace : List (Transition KingMail MailOp)} (run : Run step (start king sharedMem rateLimiter) trace s) :
    (∀ e ∈ trace, e.target.ReadsItsMail) ↔ ∀ e ∈ trace, ¬e.source.Bypasses e.label := by
  apply run.good_iff_allowed Exact ReadsItsMail (fun s op => ¬s.Bypasses op)
  · exact fun s op t h hs => h.step hs
  · exact exact_start king sharedMem rateLimiter

/-- The kernel with a task, PID 2. -/
def employer : KingMail :=
  start { King.new King.exampleConfig 0 none with registry := Broker.errand } .new
    RateLimiter.new

/-- An escalation of the task waits and is handled. -/
theorem readsItsMail_iff_of_run_escalation : ∃ trace s, Run step employer trace s ∧
    Multiset.card s.handled = 1 ∧ ∀ e ∈ trace, e.target.ReadsItsMail := by
  obtain ⟨t,s,ht,hs,hcard⟩ : ∃ t s, employer.step (.handleEscalate exampleEnv "c1" 2 ⟨"stuck"⟩) = some t ∧
      t.step (.run 5 0) = some s ∧ Multiset.card s.handled = 1 := ⟨_,_,rfl,rfl,rfl⟩
  have hrun := Run.cons ht (.cons hs (.nil s))
  have hwaiting : t.Exact := ((exact_start _ _ _).step ht).2 id
  refine ⟨_,s,hrun,hcard,(readsItsMail_iff_of_run hrun).mpr ?_⟩
  intro e he
  simp only [List.mem_cons,List.not_mem_nil,or_false] at he
  rcases he with rfl | rfl
  · exact id
  · exact (hwaiting.run hs).2

/-- A task reports to the king, its parent. The message is accepted and the king never sees it. -/
theorem king_misses_report : ¬∀ (king : King) (sharedMem : SharedMemory) (rateLimiter : RateLimiter)
    (trace : List (Transition KingMail MailOp)) (s : KingMail),
    Run step (start king sharedMem rateLimiter) trace s → s.ReadsItsMail := by
  intro h
  obtain ⟨s,hs,haccepted,hinbox,hhandled⟩ : ∃ s,
      employer.step (.route 0 { fromPID := 2, toPID := 1, type := "cron_result" }) = some s ∧
      Multiset.card s.accepted = 1 ∧ s.kernel.inbox.items = [] ∧ s.handled = 0 := ⟨_,rfl,rfl,rfl,rfl⟩
  have hcard := Multiset.card_le_card (h _ _ _ _ s (.cons hs (.nil s)))
  rw [haccepted,hinbox,hhandled] at hcard
  cases hcard

end KingMail
end HiveKernel
