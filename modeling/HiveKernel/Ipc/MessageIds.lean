import HiveKernel.Ipc.Broker
import HiveKernel.Lib.Run
import HiveKernel.Lib.Text

/-! The identifiers of messages. Every queue numbers its messages for itself, so that two queues give the
same names: they differ only as long as one and the same queue gives all of them. -/
namespace HiveKernel
open Lib

/-- Where a message waits. -/
inductive Address
  | inbox (pid : ℕ)
  | named (name : String)
  deriving DecidableEq

namespace Broker
variable {b b' : Broker} {r : Registry} {now : ℤ} {msg stamped : Message}

def queueAt (b : Broker) : Address → PriorityQueue
  | .inbox pid => b.getInbox pid
  | .named name => b.getNamedQueue name

def setAt (b : Broker) (q : PriorityQueue) : Address → Broker
  | .inbox pid => { b with inboxes := b.inboxes.set pid q }
  | .named name => { b with queues := b.queues.set name q }

lemma queueAt_setAt (b : Broker) (q : PriorityQueue) (dest other : Address) :
    (b.setAt q dest).queueAt other = if other = dest then q else b.queueAt other := by
  cases dest with
  | inbox pid =>
    cases other with
    | inbox j => simp [setAt,queueAt]
    | named name =>
      rw [if_neg (by simp)]
      rfl
  | named name =>
    cases other with
    | inbox j =>
      rw [if_neg (by simp)]
      rfl
    | named other => simp [setAt,queueAt]

/-- What an accepted message puts where, in this order. -/
def pushes (r : Registry) (msg : Message) : List (Address × Message) :=
  if msg.toQueue ≠ "" then [(.named msg.toQueue,prioritized r msg)]
  else match r.findRoute r.nextPID msg.fromPID msg.toPID,r.get msg.fromPID with
    | some (.ok .sibling),some sender =>
      [(.inbox sender.ppid,parentCopy (prioritized r msg)),(.inbox msg.toPID,prioritized r msg)]
    | _,_ => [(.inbox msg.toPID,prioritized r msg)]

/-- Push one message after the other. Returns the identifiers that were given on the way. -/
def pushAll (b : Broker) (now : ℤ) : List (Address × Message) → List String × Broker
  | [] => ([],b)
  | (dest,msg)::rest =>
    let (stamped,q) := (b.queueAt dest).push now msg
    let (ids,b') := (b.setAt q dest).pushAll now rest
    (if msg.id = "" then stamped.id::ids else ids,b')

/-- The two shapes: one push, or first the copy for a parent that is not the receiver. -/
lemma pushes_cases {kind : RouteType}
    (h : msg.toQueue = "" → r.findRoute r.nextPID msg.fromPID msg.toPID = some (.ok kind)) :
    (∃ dest, pushes r msg = [(dest,prioritized r msg)]) ∨
    ∃ sender, r.get msg.fromPID = some sender ∧ sender.ppid ≠ msg.toPID ∧ pushes r msg =
      [(.inbox sender.ppid,parentCopy (prioritized r msg)),(.inbox msg.toPID,prioritized r msg)] := by
  unfold pushes
  by_cases hqueue : msg.toQueue ≠ ""
  · rw [if_pos hqueue]
    exact .inl ⟨_,rfl⟩
  · have hfound := h (not_not.mp hqueue)
    obtain ⟨sender,receiver,hs,-,hsib⟩ := Registry.findRoute_ok hfound
    rw [if_neg hqueue,hfound,hs]
    cases kind with
    | direct => exact .inl ⟨_,rfl⟩
    | sibling => exact .inr ⟨sender,rfl,(hsib rfl).2.symm,rfl⟩
    | ancestor => exact .inl ⟨_,rfl⟩

/-- An accepted message changes the queues by its pushes and nothing else. -/
theorem route_eq_pushAll (h : b.route r now msg = some (.ok stamped,b')) :
    b' = (b.pushAll now (pushes r msg)).2 ∧
      ∃ kind, msg.toQueue = "" → r.findRoute r.nextPID msg.fromPID msg.toPID = some (.ok kind) := by
  rcases route_cases h with ⟨e,he,-⟩ | ⟨-,hqueue,-,rfl⟩ | ⟨kind,-,hdirect,hfound,-,rfl⟩
  · cases he
  · refine ⟨?_,.direct,fun hdirect => absurd hdirect hqueue⟩
    rw [pushes,if_pos hqueue]
    rfl
  · refine ⟨?_,kind,fun _ => hfound⟩
    obtain ⟨sender,receiver,hs,-,-⟩ := Registry.findRoute_ok hfound
    have hqueue : ¬msg.toQueue ≠ "" := not_not.mpr hdirect
    rw [pushes,if_neg hqueue,hfound,hs]
    cases kind with
    | direct => rfl
    | sibling =>
      have hs' : r.get (prioritized r msg).fromPID = some sender := hs
      simp only [deliver,if_true,deliverToParentCopy_eq hs']
      rfl
    | ancestor => rfl

end Broker

/-- The broker with all identifiers that its queues have given, the latest first. No step looks at
them. -/
structure Naming where
  broker : Broker
  assigned : List String

inductive NamingOp
  | route (r : Registry) (now : ℤ) (msg : Message)
  | pop (source : Address) (index : ℕ)
  | removeInbox (pid : ℕ)

namespace Naming
open Broker

def start : Naming := ⟨.new,[]⟩

/-- The state after these pushes. -/
def push (s : Naming) (now : ℤ) (puts : List (Address × Message)) : Naming :=
  let (ids,broker) := s.broker.pushAll now puts
  ⟨broker,ids.reverse++s.assigned⟩

def step (s : Naming) : NamingOp → Option Naming
  | .route r now msg => match s.broker.route r now msg with
    | none => none
    | some (.error _,broker) => some ⟨broker,s.assigned⟩
    | some (.ok _,broker) => some ⟨broker,(s.broker.pushAll now (pushes r msg)).1.reverse++s.assigned⟩
  | .pop source index =>
    ((s.broker.queueAt source).popAt index).map (fun taken => ⟨s.broker.setAt taken.2 source,s.assigned⟩)
  | .removeInbox pid => some ⟨s.broker.removeInbox pid,s.assigned⟩

/-- At most one message of a route gets an identifier, and it gets it from the queue that has given all
the others. -/
def SoleNamer (s : Naming) : NamingOp → Prop
  | .route r now msg => ∀ stamped broker, s.broker.route r now msg = some (.ok stamped,broker) →
    let unnamed := (pushes r msg).filter (fun put => put.2.id = "")
    unnamed = [] ∨ ∃ put, unnamed = [put] ∧ (s.broker.queueAt put.1).nextID = s.assigned.length
  | _ => True

variable {s s' : Naming} {op : NamingOp} {now : ℤ} {dest : Address} {msg : Message}

/-- What holds as long as one queue has given all identifiers: they are the first numbers. -/
structure Counted (s : Naming) : Prop where
  mem : ∀ id, id ∈ s.assigned ↔ ∃ n, n < s.assigned.length ∧ id = s!"msg-{n+1}"
  nodup : s.assigned.Nodup
  counters : ∀ dest, (s.broker.queueAt dest).nextID ≤ s.assigned.length

lemma counted_start : start.Counted := by
  refine ⟨fun id => ?_,List.nodup_nil,fun dest => ?_⟩
  · simp [start]
  · cases dest with
    | inbox pid => exact le_rfl
    | named name => exact le_rfl

/-- A queue is replaced by one whose counter is not ahead of the others. -/
lemma Counted.setAt (h : s.Counted) {q : PriorityQueue} (hq : q.nextID ≤ s.assigned.length) (dest : Address) :
    Counted ⟨s.broker.setAt q dest,s.assigned⟩ := by
  refine ⟨h.mem,h.nodup,fun other => ?_⟩
  rw [queueAt_setAt]
  split_ifs
  · exact hq
  · exact h.counters other

/-- A push of a message that has its identifier. -/
lemma Counted.push_named (h : s.Counted) (hid : msg.id ≠ "") (now : ℤ) (dest : Address) :
    (s.push now [(dest,msg)]).Counted ∧ (s.push now [(dest,msg)]).assigned = s.assigned := by
  have hput : s.push now [(dest,msg)] = ⟨s.broker.setAt ((s.broker.queueAt dest).push now msg).2 dest,s.assigned⟩ := by
    simp [push,pushAll,hid]
  rw [hput]
  refine ⟨h.setAt ?_ dest,rfl⟩
  simp only [PriorityQueue.push,if_neg hid]
  exact h.counters dest

lemma push_unnamed (hid : msg.id = "") (now : ℤ) (dest : Address) : s.push now [(dest,msg)] =
    ⟨s.broker.setAt ((s.broker.queueAt dest).push now msg).2 dest,
      s!"msg-{(s.broker.queueAt dest).nextID+1}"::s.assigned⟩ := by
  simp [push,pushAll,PriorityQueue.push,PriorityQueue.stamp,hid]

/-- A queue that has given all identifiers gives the next one. -/
lemma Counted.push_next (h : s.Counted) (hid : msg.id = "")
    (hsole : (s.broker.queueAt dest).nextID = s.assigned.length) : (s.push now [(dest,msg)]).Counted := by
  rw [push_unnamed hid,hsole]
  refine ⟨fun id => ?_,List.nodup_cons.mpr ⟨fun hmem => ?_,h.nodup⟩,fun other => ?_⟩
  · simp only [List.mem_cons,List.length_cons,h.mem]
    constructor
    · rintro (rfl | ⟨n,hn,rfl⟩)
      · exact ⟨s.assigned.length,Nat.lt_succ_self _,rfl⟩
      · exact ⟨n,Nat.lt_succ_of_lt hn,rfl⟩
    · rintro ⟨n,hn,rfl⟩
      rcases Nat.lt_succ_iff_lt_or_eq.mp hn with hn | rfl
      · exact .inr ⟨n,hn,rfl⟩
      · exact .inl rfl
  · obtain ⟨n,hn,he⟩ := (h.mem _).mp hmem
    have hsame : s.assigned.length+1 = n+1 := append_number_injective he
    omega
  · simp only [queueAt_setAt,List.length_cons]
    have hother := h.counters other
    split_ifs
    · simp only [PriorityQueue.push,if_pos hid]
      omega
    · omega

/-- Any other queue gives an identifier for the second time. -/
lemma Counted.push_again (h : s.Counted) (hid : msg.id = "")
    (hsole : (s.broker.queueAt dest).nextID ≠ s.assigned.length) : ¬(s.push now [(dest,msg)]).assigned.Nodup := by
  rw [push_unnamed hid]
  intro hnodup
  have hle := h.counters dest
  apply (List.nodup_cons.mp hnodup).1
  exact (h.mem _).mpr ⟨(s.broker.queueAt dest).nextID,by omega,rfl⟩

lemma push_cons (s : Naming) (now : ℤ) (put : Address × Message) (rest : List (Address × Message)) :
    s.push now (put::rest) = (s.push now [put]).push now rest := by
  obtain ⟨dest,msg⟩ := put
  simp only [push,pushAll]
  split_ifs <;> simp

/-- After a single push the identifiers still differ exactly if the condition was met. -/
lemma Counted.push_one (h : s.Counted) (now : ℤ) (dest : Address) (msg : Message) :
    ((s.push now [(dest,msg)]).assigned.Nodup ↔
      (msg.id = "" → (s.broker.queueAt dest).nextID = s.assigned.length)) ∧
    ((msg.id = "" → (s.broker.queueAt dest).nextID = s.assigned.length) →
      (s.push now [(dest,msg)]).Counted) := by
  by_cases hid : msg.id = ""
  · simp only [hid,true_implies]
    refine ⟨⟨fun hnodup => ?_,fun hsole => (h.push_next hid hsole).nodup⟩,h.push_next hid⟩
    by_contra hsole
    exact h.push_again hid hsole hnodup
  · obtain ⟨hcounted,-⟩ := h.push_named hid now dest
    exact ⟨⟨fun _ he => absurd he hid,fun _ => hcounted.nodup⟩,fun _ => hcounted⟩

/-- The identifiers given before stay in the list. -/
lemma nodup_of_push {puts : List (Address × Message)} (h : (s.push now puts).assigned.Nodup) :
    s.assigned.Nodup := (List.nodup_append.mp h).2.1

/-- After an accepted message the identifiers still differ exactly if the condition was met, and then
they are still the first numbers. -/
lemma Counted.route (h : s.Counted) {r : Registry} {stamped : Message} {broker : Broker}
    (hroute : s.broker.route r now msg = some (.ok stamped,broker)) :
    ((s.push now (pushes r msg)).assigned.Nodup ↔ s.SoleNamer (.route r now msg)) ∧
      (s.SoleNamer (.route r now msg) → (s.push now (pushes r msg)).Counted) := by
  obtain ⟨-,kind,hkind⟩ := route_eq_pushAll hroute
  rcases pushes_cases hkind with ⟨dest,hp⟩ | ⟨sender,hs,hne,hp⟩
  · have hsole : s.SoleNamer (.route r now msg) ↔
        ((prioritized r msg).id = "" → (s.broker.queueAt dest).nextID = s.assigned.length) := by
      simp only [SoleNamer,hroute,Option.some.injEq,Prod.mk.injEq,Except.ok.injEq,and_imp,hp,List.filter_cons,
        List.filter_nil]
      by_cases hid : (prioritized r msg).id = ""
      · simp [hid]
      · simp [hid]
    rw [hsole,hp]
    exact h.push_one now dest _
  · have hsole : s.SoleNamer (.route r now msg) ↔ (prioritized r msg).id ≠ "" ∧
        (s.broker.queueAt (.inbox sender.ppid)).nextID = s.assigned.length := by
      have hcopyid : (parentCopy (prioritized r msg)).id = "" := rfl
      simp only [SoleNamer,hroute,Option.some.injEq,Prod.mk.injEq,Except.ok.injEq,and_imp,hp,
        List.filter_cons,List.filter_nil,hcopyid]
      by_cases hid : (prioritized r msg).id = ""
      · simp [hid]
      · simp [hid]
    rw [hsole,hp,push_cons]
    by_cases hcount : (s.broker.queueAt (.inbox sender.ppid)).nextID = s.assigned.length
    · have hcopy : (s.push now [(.inbox sender.ppid,parentCopy (prioritized r msg))]).Counted :=
        h.push_next rfl hcount
      have hbehind : ((s.push now [(.inbox sender.ppid,parentCopy (prioritized r msg))]).broker.queueAt
          (.inbox msg.toPID)).nextID ≠
          (s.push now [(.inbox sender.ppid,parentCopy (prioritized r msg))]).assigned.length := by
        have hle := h.counters (.inbox msg.toPID)
        have hdest : Address.inbox msg.toPID ≠ .inbox sender.ppid := by simpa using hne.symm
        rw [push_unnamed rfl]
        simp only [queueAt_setAt,if_neg hdest,List.length_cons]
        omega
      obtain ⟨hiff,hcounted⟩ := hcopy.push_one now (.inbox msg.toPID) (prioritized r msg)
      have hid : ((prioritized r msg).id = "" → ((s.push now
          [(.inbox sender.ppid,parentCopy (prioritized r msg))]).broker.queueAt (.inbox msg.toPID)).nextID =
          (s.push now [(.inbox sender.ppid,parentCopy (prioritized r msg))]).assigned.length) ↔
          (prioritized r msg).id ≠ "" :=
        ⟨fun himp he => hbehind (himp he),fun hne he => absurd he hne⟩
      rw [hid] at hiff hcounted
      simp only [hcount,and_true]
      exact ⟨hiff,hcounted⟩
    · have hdup : ¬(s.push now [(.inbox sender.ppid,parentCopy (prioritized r msg))]).assigned.Nodup :=
        h.push_again rfl hcount
      simp only [hcount,and_false,false_implies,and_true,iff_false]
      exact fun hnodup => hdup (nodup_of_push hnodup)

/-- One step: the identifiers still differ afterwards exactly if the condition was met. -/
theorem Counted.step (h : s.Counted) (hs : s.step op = some s') :
    (s'.assigned.Nodup ↔ s.SoleNamer op) ∧ (s.SoleNamer op → s'.Counted) := by
  cases op with
  | route r now msg =>
    simp only [Naming.step] at hs
    cases hroute : s.broker.route r now msg with
    | none =>
      rw [hroute] at hs
      cases hs
    | some outcome =>
      obtain ⟨result,broker⟩ := outcome
      rw [hroute] at hs
      cases result with
      | error e =>
        cases hs
        obtain rfl := broker_of_route_error hroute
        have hsole : s.SoleNamer (.route r now msg) := by
          intro stamped broker hok
          cases hroute.symm.trans hok
        exact ⟨iff_of_true h.nodup hsole,fun _ => h⟩
      | ok stamped =>
        cases hs
        obtain ⟨rfl,-⟩ := route_eq_pushAll hroute
        exact h.route hroute
  | pop source index =>
    obtain ⟨⟨taken,q⟩,htaken,rfl⟩ := Option.map_eq_some_iff.mp hs
    obtain ⟨m,-,he⟩ := Option.map_eq_some_iff.mp htaken
    cases he
    refine ⟨iff_of_true h.nodup trivial,fun _ => h.setAt ?_ source⟩
    exact h.counters source
  | removeInbox pid =>
    cases hs
    refine ⟨iff_of_true h.nodup trivial,fun _ => ⟨h.mem,h.nodup,fun dest => ?_⟩⟩
    cases dest with
    | named name => exact h.counters (.named name)
    | inbox j =>
      have hold := h.counters (.inbox j)
      simp only [queueAt,getInbox,removeInbox,Table.get_erase] at hold ⊢
      split_ifs
      · exact Nat.zero_le _
      · exact hold

/-- In every run the identifiers are pairwise distinct exactly if every one of them is given by the queue
that has given all the earlier ones, at most one in a route. -/
theorem nodup_iff_of_run {trace : List (Transition Naming NamingOp)} (run : Run step start trace s) :
    (∀ e ∈ trace, e.target.assigned.Nodup) ↔ ∀ e ∈ trace, e.source.SoleNamer e.label := by
  apply run.good_iff_allowed Counted (fun s => s.assigned.Nodup) SoleNamer
  · exact fun s op t h hs => h.step hs
  · exact counted_start

/-- Two messages of a task to its parent. -/
theorem nodup_iff_of_run_oneInbox : ∃ trace s, Run step start trace s ∧
    s.assigned = ["msg-2","msg-1"] ∧ ∀ e ∈ trace, e.target.assigned.Nodup := by
  let report : NamingOp := .route errand 0 { fromPID := 2, toPID := 1, type := "done" }
  obtain ⟨t,s,ht,hs,hone,hids,h1,h2⟩ : ∃ t s, start.step report = some t ∧ t.step report = some s ∧
      t.assigned = ["msg-1"] ∧ s.assigned = ["msg-2","msg-1"] ∧
      (start.broker.queueAt (.inbox 1)).nextID = 0 ∧ (t.broker.queueAt (.inbox 1)).nextID = 1 :=
    ⟨_,_,rfl,rfl,rfl,rfl,rfl,rfl⟩
  have hrun := Run.cons ht (.cons hs (.nil s))
  refine ⟨_,s,hrun,hids,(nodup_iff_of_run hrun).mpr ?_⟩
  intro e he
  simp only [List.mem_cons,List.not_mem_nil,or_false] at he
  rcases he with rfl | rfl
  · exact fun _ _ _ => .inr ⟨_,rfl,h1⟩
  · exact fun _ _ _ => .inr ⟨_,rfl,h2.trans (by rw [hone]; rfl)⟩

/-- The first message of every inbox has the same identifier. -/
theorem inboxes_share_identifier : ¬∀ (trace : List (Transition Naming NamingOp)) (s : Naming),
    Run step start trace s → s.assigned.Nodup := by
  intro h
  obtain ⟨s,hs,hids⟩ : ∃ s, exec step [.route errand 0 { fromPID := 2, toPID := 1, type := "done" },
      .route errand 0 { fromPID := 1, toPID := 2, type := "thanks" }] start = some s ∧
      s.assigned = ["msg-1","msg-1"] := ⟨_,rfl,rfl⟩
  have hnodup := h _ s (Run.of_exec hs)
  rw [hids] at hnodup
  exact absurd hnodup (by decide)

end Naming
end HiveKernel
